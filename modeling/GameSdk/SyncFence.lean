import GameSdk.Runs
import Mathlib.Data.Nat.Notation

/-!
# The sync fence of a frame (`EGL.cpp`)

`EGL` keeps the sync object of the last frame in `mSyncFence`, and hands it to a
`FenceWaiter` whose thread waits for it. Both have a path that destroys it. The calls hold
`mSyncFenceMutex`, the thread holds `mFenceWaiterLock` while it waits; the steps are the
sections between the locks, and the EGL calls in them.

`eglCreateSyncKHR` returns sync objects that are numbered here, so that a handle that is
used again stands for a new object.

The ghost `destroyed` lists the sync objects for which `eglDestroySyncKHR` was called. `CallsOk` is
the property of a step, that no call takes a sync object that was destroyed. `UseOk` is the
condition: once the thread has given up on a sync object, the member is not used any more.

The calls that a step makes are listed by `calls`, so that the property can be about them, and not
about the state alone.
-/

namespace GameSdk

/-- A display. -/
abbrev EGLDisplay : Type := UInt64

/-- A sync object, or `EGL_NO_SYNC_KHR`. -/
abbrev EGLSyncKHR : Type := Option ℕ

namespace EGL

/-- The wait has timed out. -/
def eglTimeoutExpired : UInt32 := 0x30F5

/-- The sync object has signaled. -/
def eglConditionSatisfied : UInt32 := 0x30F6

/-- The status of a sync object that has not signaled. -/
def eglUnsignaled : Int32 := 0x30F3

/-! ### The thread and the caller

Where the thread of the `FenceWaiter` is, and where a call is in `resetSyncFence`.
-/

/-- Where the thread is in `threadMain`. -/
inductive FenceThread where
  /-- waits for a new fence object -/
  | waiting
  /-- is in `eglClientWaitSyncKHR`, with the lock -/
  | inWait
  /-- is back from it -/
  | returned (result : UInt32)
  | stopped
  deriving DecidableEq, Repr

/-- The thread that waits, and what it was given. -/
structure FenceWaiter where
  running : Bool
  pending : Bool
  /-- not initialized at first -/
  display : Option EGLDisplay
  syncFence : EGLSyncKHR
  thread : FenceThread
  deriving DecidableEq, Repr

/-- Where the call that holds `mSyncFenceMutex` is in `resetSyncFence`. -/
inductive Caller where
  /-- nobody holds it -/
  | none
  /-- is in `waitForIdle` -/
  | entered (display : EGLDisplay)
  /-- is back from it -/
  | idle (display : EGLDisplay)
  /-- has destroyed the previous sync object -/
  | destroyed (display : EGLDisplay)
  /-- has created the next one -/
  | created (display : EGLDisplay)
  deriving DecidableEq, Repr

/-- The sync object of the last frame, and who is doing what with it. -/
structure State where
  syncFence : EGLSyncKHR
  caller : Caller
  fenceWaiter : FenceWaiter
  /-- what `lastFrameIsComplete` returned last -/
  complete : Bool
  /-- ghost: how many sync objects were created -/
  count : ℕ
  /-- ghost: those that were passed to `eglDestroySyncKHR` -/
  destroyed : List ℕ
  /-- ghost: the thread gave up on one of them -/
  waitFailed : Bool
  deriving DecidableEq, Repr

/-- Before the first frame. -/
def new : State where
  syncFence := none
  caller := .none
  fenceWaiter := ⟨true, false, none, none, .waiting⟩
  complete := true
  count := 0
  destroyed := []
  waitFailed := false

/-- The calls that take a sync object. -/
inductive Call where
  | eglGetSyncAttribKHR (sync : EGLSyncKHR)
  | eglClientWaitSyncKHR (sync : EGLSyncKHR)
  | eglDestroySyncKHR (sync : EGLSyncKHR)
  deriving DecidableEq, Repr

/-- The sync object that a call of EGL is about. -/
def Call.sync : Call → EGLSyncKHR
  | .eglGetSyncAttribKHR sync => sync
  | .eglClientWaitSyncKHR sync => sync
  | .eglDestroySyncKHR sync => sync

/-- `mFenceWaiterLock` is free: the thread is outside of it or waits for the condition. -/
def FenceWaiter.unlocked (w : FenceWaiter) : Bool :=
  w.thread = .waiting ∨ w.thread = .stopped

/-- The condition of the thread is tested. -/
def FenceWaiter.wake (w : FenceWaiter) : FenceWaiter :=
  if w.pending || !w.running then { w with thread := if w.running then .inWait else .stopped }
  else w

/-- The end of the loop body. -/
def FenceWaiter.done (w : FenceWaiter) : FenceWaiter :=
  { w with pending := false, thread := if w.running then .waiting else .stopped }

variable (s : State)

/-! ### The steps

`resetSyncFence` is cut at the calls of EGL, and the thread where it lets go of its lock.
-/

/-- `attrib` is the status that `eglGetSyncAttribKHR` stores, if it succeeds. -/
def lastFrameIsComplete (attrib : Option Int32) : Bool :=
  match s.syncFence, attrib with
  -- this will be the case on the first frame
  | none, _ => true
  | some _, none => true
  | some _, some status => status ≠ eglUnsignaled

/-- The next step of `resetSyncFence`; `ok` says whether `eglCreateSyncKHR` succeeds. -/
def resetStep (ok : Bool) : State :=
  match s.caller with
  | .none => s
  | .entered display =>
    if s.fenceWaiter.unlocked ∧ s.fenceWaiter.pending = false then
      { s with caller := .idle display }
    else s
  | .idle display =>
    { s with destroyed := s.destroyed ++ s.syncFence.toList, caller := .destroyed display }
  | .destroyed display =>
    { s with
      syncFence := if ok then some s.count else none
      count := if ok then s.count + 1 else s.count
      caller := .created display }
  -- `onFenceCreation`
  | .created display =>
    if s.fenceWaiter.unlocked then
      { s with
        fenceWaiter := { s.fenceWaiter with
          display := some display
          syncFence := s.syncFence
          pending := true }
        caller := .none }
    else s

/-- The next step of `threadMain`; `result` is what `eglClientWaitSyncKHR` returns. -/
def threadStep (result : UInt32) : State :=
  match s.fenceWaiter.thread with
  | .waiting => { s with fenceWaiter := s.fenceWaiter.wake }
  | .inWait => { s with fenceWaiter.thread := .returned result }
  | .returned result =>
    if result ≠ eglConditionSatisfied then
      { s with
        fenceWaiter := { s.fenceWaiter.done with syncFence := none }
        destroyed := s.destroyed ++ s.fenceWaiter.syncFence.toList
        waitFailed := s.waitFailed || s.fenceWaiter.syncFence.isSome }
    else { s with fenceWaiter := s.fenceWaiter.done }
  | .stopped => s

/-- One thing that happens. -/
inductive Event where
  /-- the call takes `mSyncFenceMutex` -/
  | resetSyncFence (display : EGLDisplay)
  | reset (ok : Bool)
  | lastFrameIsComplete (attrib : Option Int32)
  | thread (result : UInt32)
  /-- the destructor of `FenceWaiter` stops the thread -/
  | stop
  deriving DecidableEq, Repr

/-- One event, on the state in which it happens. -/
def step : Event → State
  | .resetSyncFence display => if s.caller = .none then { s with caller := .entered display } else s
  | .reset ok => resetStep s ok
  | .lastFrameIsComplete attrib =>
    if s.caller = .none then { s with complete := lastFrameIsComplete s attrib } else s
  | .thread result => threadStep s result
  | .stop => if s.fenceWaiter.unlocked then { s with fenceWaiter.running := false } else s

/-- The EGL calls of a step. -/
def calls : Event → List Call
  | .resetSyncFence _ => []
  | .reset _ =>
    match s.caller, s.syncFence with
    | .idle _, some sync => [.eglDestroySyncKHR (some sync)]
    | _, _ => []
  | .lastFrameIsComplete _ =>
    match s.caller, s.syncFence with
    | .none, some sync => [.eglGetSyncAttribKHR (some sync)]
    | _, _ => []
  | .thread _ =>
    match s.fenceWaiter.thread with
    | .waiting =>
      if s.fenceWaiter.pending && s.fenceWaiter.running then
        [.eglClientWaitSyncKHR s.fenceWaiter.syncFence]
      else []
    | .returned result =>
      if result ≠ eglConditionSatisfied then [.eglDestroySyncKHR s.fenceWaiter.syncFence] else []
    | _ => []
  | .stop => []

/-- No call of the step takes a sync object that was destroyed. -/
def CallsOk (e : Event) : Prop :=
  ∀ c ∈ calls s e, ∀ sync ∈ c.sync, sync ∉ s.destroyed

/-- The step uses `EGL::mSyncFence`. -/
def Uses : Event → Prop
  | .reset _ => ∃ display, s.caller = .idle display
  | .lastFrameIsComplete _ => s.caller = .none
  | _ => False

/-- The condition: once the thread has given up on a sync object, `EGL::mSyncFence` is not
used any more. -/
def UseOk (e : Event) : Prop := s.waitFailed = true → ¬ Uses s e

/-! ## Who owns the sync object

The caller, the member, or the thread: by phase, who may destroy it.
-/

/-- `EGL::mSyncFence` was not destroyed. -/
def Fresh : Prop := ∀ sync ∈ s.syncFence, sync ∉ s.destroyed

/-- `EGL::mSyncFence` was destroyed if the thread has given up on it, and only then. -/
def Owned : Prop :=
  if s.waitFailed then ¬ Fresh s ∧ s.fenceWaiter.pending = false else Fresh s

/-- While `resetSyncFence` replaces the sync object the thread has nothing to wait for. -/
def PhaseOk : Caller → Prop
  | .none => Owned s
  | .entered _ => Owned s
  | .idle _ => Owned s ∧ s.fenceWaiter.pending = false
  | .destroyed _ => s.waitFailed = false ∧ s.fenceWaiter.pending = false
  | .created _ => s.waitFailed = false ∧ s.fenceWaiter.pending = false ∧ Fresh s

/-- What holds between the steps. -/
structure Inv : Prop where
  destroyed_lt : ∀ sync ∈ s.destroyed, sync < s.count
  syncFence_lt : ∀ sync ∈ s.syncFence, sync < s.count
  active : s.fenceWaiter.unlocked = false → s.fenceWaiter.pending = true
  handle : s.fenceWaiter.pending = true → s.fenceWaiter.syncFence = s.syncFence
  phase : PhaseOk s s.caller

variable {s}

theorem inv_new : Inv new where
  destroyed_lt _ h := absurd h List.not_mem_nil
  syncFence_lt _ h := nomatch h
  active h := nomatch h
  handle h := nomatch h
  phase := fun _ h => nomatch h

/-- While the thread has something to wait for, it owns the sync object. -/
theorem Inv.of_pending (hinv : Inv s) (hpending : s.fenceWaiter.pending = true) :
    s.waitFailed = false ∧ Fresh s ∧
      (s.caller = .none ∨ ∃ display, s.caller = .entered display) := by
  have howned (h : Owned s) : s.waitFailed = false ∧ Fresh s := by
    rw [Owned] at h
    split at h
    · exact absurd hpending (by simp [h.2])
    · next hfailed => exact ⟨by simpa using hfailed, h⟩
  have hphase := hinv.phase
  cases hcaller : s.caller with
  | none =>
    rw [hcaller] at hphase
    exact ⟨(howned hphase).1, (howned hphase).2, .inl rfl⟩
  | entered display =>
    rw [hcaller] at hphase
    exact ⟨(howned hphase).1, (howned hphase).2, .inr ⟨display, rfl⟩⟩
  | idle display =>
    rw [hcaller] at hphase
    exact absurd hpending (by simp [hphase.2])
  | destroyed display =>
    rw [hcaller] at hphase
    exact absurd hpending (by simp [hphase.2])
  | created display =>
    rw [hcaller] at hphase
    exact absurd hpending (by simp [hphase.2.1])

/-- Where `EGL::mSyncFence` is used, it is fresh unless the thread has given up on it. -/
theorem Inv.fresh_iff (hinv : Inv s) {e : Event} (huse : Uses s e) :
    Fresh s ↔ s.waitFailed = false := by
  have howned : Owned s := by
    have hphase := hinv.phase
    cases e with
    | resetSyncFence display => exact huse.elim
    | reset ok =>
      obtain ⟨display, hcaller⟩ := huse
      rw [hcaller] at hphase
      exact hphase.1
    | lastFrameIsComplete attrib =>
      rw [show s.caller = .none from huse] at hphase
      exact hphase
    | thread result => exact huse.elim
    | stop => exact huse.elim
  rw [Owned] at howned
  split at howned
  · next hfailed => simp [hfailed, howned.1]
  · next hfailed => simp [hfailed, howned]

/-! ## One step

The invariant for the caller and for the thread.
-/

theorem inv_resetStep (hinv : Inv s) {ok : Bool} (hok : UseOk s (.reset ok)) :
    Inv (resetStep s ok) := by
  have hphase := hinv.phase
  rw [resetStep]
  cases hcaller : s.caller with
  | none => exact hinv
  | entered display =>
    rw [hcaller] at hphase
    simp only
    split
    · next hidle => exact ⟨hinv.1, hinv.2, hinv.3, hinv.4, hphase, hidle.2⟩
    · exact hinv
  | idle display =>
    rw [hcaller] at hphase
    have hfailed : s.waitFailed = false := by
      by_contra hfailed
      exact hok (by simpa using hfailed) ⟨display, hcaller⟩
    refine ⟨fun sync hmem => ?_, hinv.2, hinv.3, hinv.4, hfailed, hphase.2⟩
    rcases List.mem_append.mp hmem with hold | hnew
    · exact hinv.destroyed_lt sync hold
    · exact hinv.syncFence_lt sync (Option.mem_toList.mp hnew)
  | destroyed display =>
    rw [hcaller] at hphase
    rcases ok with _ | _
    · exact ⟨hinv.1, fun _ h => (nomatch h), hinv.3, fun h => absurd h (by simp [hphase.2]),
        hphase.1, hphase.2, fun _ h => nomatch h⟩
    · refine ⟨fun sync hmem => Nat.lt_succ_of_lt (hinv.destroyed_lt sync hmem), ?_,
        hinv.3, fun h => absurd h (by simp [hphase.2]), hphase.1, hphase.2, ?_⟩
      · rintro sync ⟨⟩
        exact Nat.lt_succ_self _
      · rintro sync ⟨⟩ hmem
        exact absurd (hinv.destroyed_lt _ hmem) (Nat.lt_irrefl _)
  | created display =>
    rw [hcaller] at hphase
    simp only
    split
    · refine ⟨hinv.1, hinv.2, fun _ => rfl, fun _ => rfl, ?_⟩
      simp only [PhaseOk, Owned, hphase.1, Bool.false_eq_true, if_false]
      exact hphase.2.2
    · exact hinv

theorem FenceWaiter.pending_of_wake {w : FenceWaiter} (hunlocked : w.unlocked = true)
    (h : w.wake.unlocked = false) : w.pending = true ∧ w.running = true := by
  rw [wake] at h
  split at h
  · next hwake =>
    rcases hrunning : w.running with _ | _
    · simp [unlocked, hrunning] at h
    · simpa [hrunning] using hwake
  · exact absurd h (by simp [hunlocked])

@[simp] theorem FenceWaiter.wake_pending (w : FenceWaiter) : w.wake.pending = w.pending := by
  rw [wake]
  split <;> rfl

@[simp] theorem FenceWaiter.wake_syncFence (w : FenceWaiter) : w.wake.syncFence = w.syncFence := by
  rw [wake]
  split <;> rfl

theorem FenceWaiter.done_thread (w : FenceWaiter) :
    w.done.thread = .waiting ∨ w.done.thread = .stopped := by
  rcases hrunning : w.running <;> simp [done, hrunning]

theorem phaseOk_of_owned (howned : Owned s)
    (hcaller : s.caller = .none ∨ ∃ display, s.caller = .entered display) :
    PhaseOk s s.caller := by
  rcases hcaller with hcaller | ⟨display, hcaller⟩ <;> rw [hcaller] <;> exact howned

theorem inv_threadStep (hinv : Inv s) (result : UInt32) : Inv (threadStep s result) := by
  rw [threadStep]
  split
  · next hthread =>
    have hunlocked : s.fenceWaiter.unlocked = true := by simp [FenceWaiter.unlocked, hthread]
    refine ⟨hinv.1, hinv.2, fun h => ?_, fun h => ?_, ?_⟩
    · simpa using (FenceWaiter.pending_of_wake hunlocked h).1
    · simpa using hinv.handle (by simpa using h)
    · simpa [PhaseOk, Owned, Fresh] using hinv.phase
  · next hthread =>
    have hpending := hinv.active (by simp [FenceWaiter.unlocked, hthread])
    exact ⟨hinv.1, hinv.2, fun _ => hpending, hinv.4, hinv.5⟩
  · next result hthread =>
    have hpending := hinv.active (by simp [FenceWaiter.unlocked, hthread])
    obtain ⟨hfailed, hfresh, hcaller⟩ := hinv.of_pending hpending
    split
    · rw [hinv.handle hpending]
      refine ⟨fun sync hmem => ?_, hinv.2, fun h => ?_, fun h => (nomatch h), ?_⟩
      · rcases List.mem_append.mp hmem with hold | hnew
        · exact hinv.destroyed_lt sync hold
        · exact hinv.syncFence_lt sync (Option.mem_toList.mp hnew)
      · exact absurd s.fenceWaiter.done_thread (by simpa [FenceWaiter.unlocked] using h)
      · refine phaseOk_of_owned ?_ hcaller
        rcases hsync : s.syncFence with _ | sync
        · simp [Owned, Fresh, hfailed]
        · simp [Owned, Fresh, FenceWaiter.done]
    · refine ⟨hinv.1, hinv.2, fun h => ?_, fun h => (nomatch h), ?_⟩
      · exact absurd s.fenceWaiter.done_thread (by simpa [FenceWaiter.unlocked] using h)
      · refine phaseOk_of_owned ?_ hcaller
        rw [Owned, if_neg (by simp [hfailed])]
        exact hfresh
  · exact hinv

theorem inv_step (hinv : Inv s) (e : Event) (hok : UseOk s e) : Inv (step s e) := by
  cases e with
  | resetSyncFence display =>
    rw [step]
    split
    · next hcaller =>
      have hphase := hinv.phase
      rw [hcaller] at hphase
      exact ⟨hinv.1, hinv.2, hinv.3, hinv.4, hphase⟩
    · exact hinv
  | reset ok => exact inv_resetStep hinv hok
  | lastFrameIsComplete attrib =>
    rw [step]
    split
    · exact ⟨hinv.1, hinv.2, hinv.3, hinv.4, hinv.5⟩
    · exact hinv
  | thread result => exact inv_threadStep hinv result
  | stop =>
    rw [step]
    split
    · exact ⟨hinv.1, hinv.2, hinv.3, hinv.4, hinv.5⟩
    · exact hinv

/-! ### The calls of a step

The thread waits for, and destroys, what it was given; the caller uses the member.
-/

theorem callsOk_thread (hinv : Inv s) (result : UInt32) : CallsOk s (.thread result) := by
  have hpending (hpending : s.fenceWaiter.pending = true) :
      ∀ sync ∈ s.fenceWaiter.syncFence, sync ∉ s.destroyed := by
    rw [hinv.handle hpending]
    exact (hinv.of_pending hpending).2.1
  intro c hc
  unfold calls at hc
  simp only at hc
  split at hc
  · split at hc
    · next hwake =>
      obtain rfl := List.mem_singleton.mp hc
      exact hpending (Bool.and_eq_true_iff.mp hwake).1
    · exact absurd hc List.not_mem_nil
  · next result hthread =>
    split at hc
    · obtain rfl := List.mem_singleton.mp hc
      exact hpending (hinv.active (by simp [FenceWaiter.unlocked, hthread]))
    · exact absurd hc List.not_mem_nil
  · exact absurd hc List.not_mem_nil

/-- Where `EGL::mSyncFence` is used, one call takes it, if there is one. -/
theorem callsOk_of_uses {e : Event} (huse : Uses s e) : CallsOk s e ↔ Fresh s := by
  cases e with
  | resetSyncFence display => exact huse.elim
  | reset ok =>
    obtain ⟨display, hcaller⟩ := huse
    rcases hsync : s.syncFence with _ | sync <;>
      simp [CallsOk, calls, Fresh, hcaller, hsync, Call.sync]
  | lastFrameIsComplete attrib =>
    have hcaller : s.caller = .none := huse
    rcases hsync : s.syncFence with _ | sync <;>
      simp [CallsOk, calls, Fresh, hcaller, hsync, Call.sync]
  | thread result => exact huse.elim
  | stop => exact huse.elim

theorem callsOk_of_not_uses (hinv : Inv s) {e : Event} (huse : ¬ Uses s e) : CallsOk s e := by
  cases e with
  | resetSyncFence display => exact fun c hc => absurd hc List.not_mem_nil
  | reset ok =>
    intro c hc
    unfold calls at hc
    simp only at hc
    split at hc
    · next display sync hcaller hsync => exact absurd ⟨display, hcaller⟩ huse
    · exact absurd hc List.not_mem_nil
  | lastFrameIsComplete attrib =>
    intro c hc
    unfold calls at hc
    simp only at hc
    split at hc
    · next sync hcaller hsync => exact absurd hcaller huse
    · exact absurd hc List.not_mem_nil
  | thread result => exact callsOk_thread hinv result
  | stop => exact fun c hc => absurd hc List.not_mem_nil

theorem callsOk_iff (hinv : Inv s) (e : Event) : CallsOk s e ↔ UseOk s e := by
  by_cases huse : Uses s e
  · rw [callsOk_of_uses huse, hinv.fresh_iff huse]
    simp [UseOk, huse]
  · exact iff_of_true (callsOk_of_not_uses hinv huse) fun _ => huse

/-! ## Every run

The two conditions are the same in every state that a run reaches.
-/

/-- **No sync object is used after it was destroyed exactly when `EGL::mSyncFence` is not
used once the thread has given up on a sync object**, however the calls and the thread
interleave. -/
theorem callsOk_iff_useOk (es : List Event) :
    Runs.StepsOk step CallsOk new es ↔ Runs.StepsOk step UseOk new es :=
  Runs.stepsOk_congr_of_ok (fun (s : State) e (hinv : Inv s) hok => inv_step hinv e hok)
    (fun _ e hinv => callsOk_iff hinv e) inv_new es

/-- The thread gives up on the sync object of the first frame, and the second frame
destroys it again. -/
theorem not_callsOk_timeout :
    ¬ Runs.StepsOk step CallsOk new
      [.resetSyncFence 1, .reset true, .reset true, .reset true, .reset true, .thread 0,
        .thread eglTimeoutExpired, .thread 0, .resetSyncFence 1, .reset true, .reset true] := by
  rintro ⟨-, -, -, -, -, -, -, -, -, -, hdestroy, -⟩
  exact hdestroy (.eglDestroySyncKHR (some 0)) (List.mem_singleton_self _) 0 rfl (by decide)

end EGL

end GameSdk
