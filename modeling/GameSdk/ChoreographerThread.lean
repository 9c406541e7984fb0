import GameSdk.Runs
import Mathlib.Algebra.Order.Ring.Int
import Mathlib.Data.List.Count

/-!
# Frame callbacks (`ChoreographerThread.cpp`, `ChoreographerCallback.java`)

A choreographer thread asks the system for one frame callback at a time, and asks again
from the callback until it has counted down to zero. A frame that is about to be
swapped resets the count, and starts the chain again if it has come to its end. Both
happen under the mutex of the thread, so each is one step here.

The two kinds of thread differ in where the request is made: with the NDK by the thread itself, or
by way of the handler of the Java looper. `OneChain` says that there is never more
than one request, and that there is one whenever the count is not zero.
-/

namespace GameSdk

/-- The threads that are called back by the system. -/
inductive ChoreographerKind where
  | ndk | java
  deriving DecidableEq, Repr

/-- The countdown and the requests that are under way. -/
structure ChoreographerThread where
  callbacksBeforeIdle : ℤ
  /-- posted to the handler of the Java looper thread, to be registered there -/
  handlerPosts : ℕ
  /-- registered with the choreographer of the system -/
  frameCallbacks : ℕ
  deriving DecidableEq, Repr

namespace ChoreographerThread

/-- What the count is set to when a frame is about to be swapped. -/
def maxCallbacksBeforeIdle : ℤ := 10

/-- A thread that has not asked for anything. -/
def new : ChoreographerThread := ⟨0, 0, 0⟩

variable (kind : ChoreographerKind) (s : ChoreographerThread)

/-- `AChoreographer_postFrameCallbackDelayed`, or `postFrameCallback` of the Java object. -/
def scheduleNextFrameCallback : ChoreographerThread :=
  match kind with
  | .ndk => { s with frameCallbacks := s.frameCallbacks + 1 }
  | .java => { s with handlerPosts := s.handlerPosts + 1 }

/-- Called before a swap, by any thread. -/
def postFrameCallbacks : ChoreographerThread :=
  -- a chain that is running goes on by itself
  let s := if s.callbacksBeforeIdle = 0 then s.scheduleNextFrameCallback kind else s
  { s with callbacksBeforeIdle := maxCallbacksBeforeIdle }

/-- Called by the system; the callback of the owner follows without the mutex. -/
def onChoreographer : ChoreographerThread :=
  let s := { s with callbacksBeforeIdle := s.callbacksBeforeIdle - 1 }
  if s.callbacksBeforeIdle > 0 then s.scheduleNextFrameCallback kind else s

/-- One thing that happens. -/
inductive Event where
  | post
  /-- the looper thread runs what was posted to its handler -/
  | register
  /-- a frame callback that is due -/
  | fire
  deriving DecidableEq, Repr

/-- There is nothing to register, or to fire. -/
inductive NotScheduled where
  | notScheduled
  deriving DecidableEq, Repr

/-- One event, on the state in which it happens. -/
def step : Event → Except NotScheduled ChoreographerThread
  | .post => .ok (s.postFrameCallbacks kind)
  | .register =>
    match s.handlerPosts with
    | 0 => .error .notScheduled
    | n + 1 => .ok { s with handlerPosts := n, frameCallbacks := s.frameCallbacks + 1 }
  | .fire =>
    match s.frameCallbacks with
    | 0 => .error .notScheduled
    | n + 1 => .ok (onChoreographer kind { s with frameCallbacks := n })

/-- Scheduled, and not yet fired. -/
def scheduled : ℕ := s.handlerPosts + s.frameCallbacks

/-! ## One chain

What the count says about the requests that are under way, and that every event keeps it so.
-/

/-- The count, and the callback that goes with it. -/
structure OneChain : Prop where
  nonneg : 0 ≤ s.callbacksBeforeIdle
  le_max : s.callbacksBeforeIdle ≤ maxCallbacksBeforeIdle
  of_pos : s.callbacksBeforeIdle > 0 → s.scheduled = 1
  of_zero : s.callbacksBeforeIdle = 0 → s.scheduled = 0

variable {kind s} {s' : ChoreographerThread}

/-- At first there is no request, and none is missing. -/
theorem oneChain_new : new.OneChain := ⟨by decide, by decide, by decide, fun _ => rfl⟩

/-- Asking makes one request. -/
@[simp] theorem scheduled_scheduleNextFrameCallback :
    (s.scheduleNextFrameCallback kind).scheduled = s.scheduled + 1 := by
  cases kind with
  | ndk => exact (Nat.add_assoc ..).symm
  | java => exact Nat.add_right_comm ..

/-- Asking leaves the count alone. -/
@[simp] theorem callbacksBeforeIdle_scheduleNextFrameCallback :
    (s.scheduleNextFrameCallback kind).callbacksBeforeIdle = s.callbacksBeforeIdle := by
  cases kind <;> rfl

/-- A swap starts a chain only if there is none. -/
theorem oneChain_postFrameCallbacks (h : s.OneChain) :
    (s.postFrameCallbacks kind).OneChain := by
  have hone : (s.postFrameCallbacks kind).scheduled = 1 := by
    by_cases h0 : s.callbacksBeforeIdle = 0
    · have hnext : (s.scheduleNextFrameCallback kind).scheduled = 1 := by simp [h.of_zero h0]
      rw [postFrameCallbacks, if_pos h0]
      exact hnext
    · rw [postFrameCallbacks, if_neg h0]
      exact h.of_pos (lt_of_le_of_ne h.nonneg (Ne.symm h0))
  exact ⟨(by decide : 0 ≤ maxCallbacksBeforeIdle), le_refl maxCallbacksBeforeIdle,
    fun _ => hone, fun h0 => absurd h0 (by decide : maxCallbacksBeforeIdle ≠ 0)⟩

/-- A request stays one on its way to the choreographer. -/
theorem oneChain_register {n : ℕ} (h : s.OneChain) (hn : s.handlerPosts = n + 1) :
    { s with handlerPosts := n, frameCallbacks := s.frameCallbacks + 1 :
      ChoreographerThread }.OneChain := by
  have heq : { s with handlerPosts := n, frameCallbacks := s.frameCallbacks + 1 :
      ChoreographerThread }.scheduled = s.scheduled := by
    simp only [scheduled, hn]
    omega
  exact ⟨h.nonneg, h.le_max, fun hp => heq.trans (h.of_pos hp), fun h0 => heq.trans (h.of_zero h0)⟩

/-- What is due was scheduled, so the count is not zero and the chain is consumed. -/
theorem OneChain.fire {n : ℕ} (h : s.OneChain) (hn : s.frameCallbacks = n + 1) :
    0 < s.callbacksBeforeIdle ∧
      { s with frameCallbacks := n : ChoreographerThread }.scheduled = 0 := by
  have hpos : 0 < s.callbacksBeforeIdle := by
    rcases h.nonneg.lt_or_eq with hlt | heq
    · exact hlt
    · -- nothing would be due
      have := h.of_zero heq.symm
      simp [scheduled, hn] at this
  have hone := h.of_pos hpos
  simp only [scheduled, hn] at hone ⊢
  exact ⟨hpos, by omega⟩

/-- A callback makes a request in place of the one that brought it here. -/
theorem oneChain_onChoreographer {n : ℕ} (h : s.OneChain) (hn : s.frameCallbacks = n + 1) :
    (onChoreographer kind { s with frameCallbacks := n }).OneChain ∧
      (onChoreographer kind { s with frameCallbacks := n }).callbacksBeforeIdle =
        s.callbacksBeforeIdle - 1 := by
  obtain ⟨hpos, hnone⟩ := h.fire hn
  have hmax := h.le_max
  by_cases hlast : s.callbacksBeforeIdle - 1 > 0
  · -- one callback takes the place of another
    simp only [onChoreographer, if_pos hlast, callbacksBeforeIdle_scheduleNextFrameCallback,
      and_true]
    refine ⟨?_, ?_, fun _ => ?_, fun h0 => ?_⟩
    · rw [callbacksBeforeIdle_scheduleNextFrameCallback]
      exact hlast.le
    · rw [callbacksBeforeIdle_scheduleNextFrameCallback]
      exact (sub_le_self _ (by decide)).trans hmax
    · rw [scheduled_scheduleNextFrameCallback]
      exact congrArg (· + 1) hnone
    · rw [callbacksBeforeIdle_scheduleNextFrameCallback] at h0
      exact absurd h0 hlast.ne'
  · -- the last of the chain
    simp only [onChoreographer, if_neg hlast, and_true]
    exact ⟨sub_nonneg.mpr hpos, (sub_le_self _ (by decide)).trans hmax,
      fun hp => absurd hp hlast, fun _ => hnone⟩

/-- **Step lemma.** No step breaks the chain or starts a second one, and only a post can raise
the count, which every firing lowers. -/
theorem step_oneChain {e : Event} (h : s.OneChain) (hs : s.step kind e = .ok s') :
    s'.OneChain ∧ (e ≠ .post →
      s'.callbacksBeforeIdle + [e].count .fire = s.callbacksBeforeIdle) := by
  cases e with
  | post =>
    obtain rfl := Except.ok.inj hs
    exact ⟨oneChain_postFrameCallbacks h, fun hne => absurd rfl hne⟩
  | register =>
    rcases hn : s.handlerPosts with _ | n
    · simp [step, hn] at hs
    · obtain rfl : _ = s' := by simpa [step, hn] using hs
      exact ⟨oneChain_register h hn, fun _ => add_zero _⟩
  | fire =>
    rcases hn : s.frameCallbacks with _ | n
    · simp [step, hn] at hs
    · obtain rfl : _ = s' := by simpa [step, hn] using hs
      obtain ⟨hone, hcount⟩ := oneChain_onChoreographer h hn
      refine ⟨hone, fun _ => ?_⟩
      rw [hcount]
      exact sub_add_cancel _ 1

/-- **One chain at any time.** -/
theorem oneChain_of_run {events : List Event} (h : s.OneChain)
    (hs : Runs.runChecked (step kind) s events = .ok s') : s'.OneChain :=
  Runs.runChecked_induction (Q := fun s _ => s.OneChain → s'.OneChain) (fun h => h)
    (fun _ _ _ _ he _ ih h => ih (step_oneChain h he).1) hs h

/-- Without a post, the count is what pays for the firings. -/
theorem count_fire_of_run {events : List Event} (h : s.OneChain)
    (hs : Runs.runChecked (step kind) s events = .ok s') (hpost : ∀ e ∈ events, e ≠ .post) :
    s'.callbacksBeforeIdle + events.count .fire = s.callbacksBeforeIdle := by
  -- by induction on the run: the step lemma needs the invariant in every state
  revert h hpost
  refine Runs.runChecked_induction (Q := fun s events => s.OneChain →
    (∀ e ∈ events, e ≠ .post) →
    s'.callbacksBeforeIdle + events.count .fire = s.callbacksBeforeIdle)
    (fun _ _ => add_zero _) (fun s e s₁ rest he _ ih h hpost => ?_) hs
  obtain ⟨hone, hcount⟩ := step_oneChain h he
  have hrest := ih hone fun e' he' => hpost e' (List.mem_cons_of_mem e he')
  rw [← hcount (hpost e (List.mem_cons_self ..)), ← hrest, List.count_cons,
    List.count_singleton, Nat.cast_add, add_assoc]

/-- **One chain of callbacks.** At every state of every interleaving the count is within its
bounds and says whether there is one callback or none, and no more than
`maxCallbacksBeforeIdle` firings follow a post that is the last. -/
theorem oneChain_reachable (kind : ChoreographerKind) {events : List Event}
    {s : ChoreographerThread} (hs : Runs.runChecked (step kind) new events = .ok s) :
    s.OneChain ∧ ∀ rest s', (∀ e ∈ rest, e ≠ .post) →
      Runs.runChecked (step kind) s rest = .ok s' →
      (rest.count .fire : ℤ) ≤ maxCallbacksBeforeIdle := by
  have hone := oneChain_of_run oneChain_new hs
  refine ⟨hone, fun rest s' hpost hrest => ?_⟩
  have hcount := count_fire_of_run hone hrest hpost
  have hnonneg := (oneChain_of_run hone hrest).nonneg
  have hmax := hone.le_max
  omega

/-- A post while the last callback of the chain waits on the Java looper. -/
def postBeforeIdle : List Event :=
  [.post, .register] ++ (List.replicate 8 [.fire, .register]).flatten ++
    [.fire, .post, .register, .fire]

/-- The same for a run in which a frame is swapped while the chain is under way. -/
theorem oneChain_reachable_java :
    Runs.runChecked (step .java) new postBeforeIdle = .ok ⟨9, 1, 0⟩ ∧
      OneChain ⟨9, 1, 0⟩ ∧ ∀ rest s', (∀ e ∈ rest, e ≠ .post) →
        Runs.runChecked (step .java) ⟨9, 1, 0⟩ rest = .ok s' →
        (rest.count .fire : ℤ) ≤ maxCallbacksBeforeIdle :=
  have hrun : Runs.runChecked (step .java) new postBeforeIdle = .ok ⟨9, 1, 0⟩ := by decide
  ⟨hrun, oneChain_reachable .java hrun⟩

end ChoreographerThread

end GameSdk
