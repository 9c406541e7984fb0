import GameSdk.FramePacing
import GameSdk.SyncShutdown

/-!
# The frames of a queue (`SwappyVkFallback.cpp`, `SwappyVkGoogleDisplayTiming.cpp`)

`doQueuePresent` injects a fence, and then calls `onPreSwap`. When the frame loop waits for the
GPU, it asks `lastFrameIsCompleted`, which counts the sync objects in `mWaitingSyncs`; the waiting
thread takes them out. The time of the GPU is that of the last fence.

Swappy is enabled, and the sync objects of the queue have been made. The app presents to one queue.

The frame loop and the queue are the models of the modules about them, and a run of the two has a
run of each in it. What is new is who waits for whom.

* When a submit goes without a fence: no object is free, in terms of the two lists that
  `injectFence` looks at.
* After enough steps of the waiting thread, and without a new fence, the frame loop is told that the
  frame is complete.
-/

namespace GameSdk

/-- How many sync objects `lastFrameIsCompleted` leaves in `mWaitingSyncs`. -/
def PipelineMode.queued : PipelineMode → ℕ
  | .on => 1
  | .off => 0

/-- The frame loop, the queue it presents to, and what passes between them. -/
structure VkFrames where
  loop : FrameLoop
  queue : QueueSyncs
  lastFenceTime : ℤ
  /-- `injectFence` has succeeded, and `onPreSwap` is next -/
  injected : Bool
  /-- the mode that `lastFrameIsCompleted` has read -/
  mode : Option PipelineMode
  /-- ghost: the mode for which the answer was true, since the last fence was put into
  `mWaitingSyncs` -/
  completed : Option PipelineMode

namespace VkFrames

/-- Before the first frame. -/
def new (pacer : SwappyCommon) (now : ℤ) (created : List VkSync) (hasPendingWork : Bool) :
    VkFrames where
  loop := .new pacer now
  queue := .new created hasPendingWork
  lastFenceTime := 0
  injected := false
  mode := none
  completed := none

/-- One thing that happens. -/
inductive Event where
  | injectFence
  | submit (res : VkResult)
  | enqueue
  | onPreSwap (now : ℤ)
  /-- `lastFrameIsCompleted` reads the mode, and then locks the thread -/
  | getCurrentPipelineMode
  | lastFrameIsCompleted
  | getPrevFrameGpuTime (now : ℤ)
  /-- another step of the loop -/
  | loop (e : FrameLoop.Event)
  /-- the waiting thread, with the time that it has waited for a fence, if it comes from that -/
  | waiter (fenceTime : ℤ)
  deriving DecidableEq, Repr

/-- What is not a step of the program. -/
inductive Blocked where
  | blocked
  deriving DecidableEq, Repr

/-- The steps of the loop in which the queue has a part. -/
def needsQueue : FrameLoop.Event → Bool
  | .onPreSwap _ | .lastFrameIsComplete _ | .getPrevFrameGpuTime _ _ => true
  | _ => false

variable (s : VkFrames)

/-- A step of the frame loop alone. -/
def stepLoop (e : FrameLoop.Event) : Except Blocked VkFrames :=
  match s.loop.step e with
  | .ok loop => .ok { s with loop }
  | .error _ => .error .blocked

/-- `mLastFenceTime` after a step of the waiting thread. -/
def fenceTimeAfter (fenceTime : ℤ) : ℤ :=
  match s.queue.waiter with
  | .inWait _ => fenceTime
  | _ => s.lastFenceTime

/-- One event, on the state in which it happens. -/
def step : Event → Except Blocked VkFrames
  | .injectFence =>
    if s.loop.phase = .onPreSwap ∧ s.queue.render = .idle ∧ s.injected = false then
      .ok { s with queue := s.queue.step .injectFence }
    else .error .blocked
  | .submit res =>
    if s.queue.render = .injecting then
      -- without a free sync object it has succeeded
      .ok { s with queue := s.queue.submit res, injected := s.queue.freeSyncPool.isEmpty }
    else .error .blocked
  | .enqueue =>
    match s.queue.render with
    | .submitted p res =>
      .ok { s with
        queue := s.queue.enqueue p res
        injected := res = QueueSyncs.vkSuccess
        completed := none }
    | _ => .error .blocked
  | .onPreSwap now =>
    if s.injected then { s with injected := false }.stepLoop (.onPreSwap now)
    else .error .blocked
  | .getCurrentPipelineMode =>
    match s.loop.phase with
    | .lastFrameIsComplete _ _ => .ok { s with mode := some s.loop.pacer.pipelineMode }
    | _ => .error .blocked
  | .lastFrameIsCompleted =>
    match s.mode with
    | some mode =>
      let complete := s.queue.lastFrameIsCompleted mode
      { s with
        mode := none
        completed := if complete then some mode else s.completed }.stepLoop
          (.lastFrameIsComplete complete)
    | none => .error .blocked
  | .getPrevFrameGpuTime now => s.stepLoop (.getPrevFrameGpuTime s.lastFenceTime now)
  | .loop e => if needsQueue e then .error .blocked else s.stepLoop e
  | .waiter fenceTime =>
    .ok { s with queue := s.queue.waiterStep, lastFenceTime := s.fenceTimeAfter fenceTime }

end VkFrames

/-! ## The queue

A run of the frames, seen from the queue, is a run of the queue; and the frame loop is asked only
while the render thread is not in `injectFence`.
-/

namespace QueueSyncs

variable {s : QueueSyncs}

theorem lastFrameIsCompleted_iff (mode : PipelineMode) :
    s.lastFrameIsCompleted mode = true ↔ s.waitingSyncs.length ≤ mode.queued := by
  cases mode with
  | on =>
    simp only [lastFrameIsCompleted, PipelineMode.queued, decide_eq_true_eq]
    omega
  | off => simp [lastFrameIsCompleted, PipelineMode.queued]

/-! ### The thread of the queue

While there is work the thread is awake, and `weight` is the number of steps it has left.
-/

/-- The waiting thread runs, and does not wait for new sync objects while there are some. -/
structure Awake (s : QueueSyncs) : Prop where
  running : s.running = true
  not_stopped : s.waiter ≠ .stopped
  waiting : s.waiter = .waiting → s.hasPendingWork = false → s.waitingSyncs = []

theorem awake_new (created : List VkSync) (hasPendingWork : Bool) :
    (new created hasPendingWork).Awake :=
  ⟨rfl, fun h => (nomatch h), fun _ _ => rfl⟩

theorem loop_ne_stopped (s : QueueSyncs) : s.loop ≠ .stopped := by
  rw [loop]
  split_ifs <;> simp

theorem eq_nil_of_loop (h : s.loop = .waiting) : s.waitingSyncs = [] := by
  rw [loop] at h
  split_ifs at h with hnil
  simpa using hnil

theorem awake_waiterStep (h : s.Awake) : s.waiterStep.Awake := by
  have hrunning := h.running
  rw [waiterStep]
  cases hw : s.waiter with
  | waiting =>
    dsimp only
    split_ifs
    · refine ⟨hrunning, loop_ne_stopped s, fun hloop _ => eq_nil_of_loop hloop⟩
    · exact h
  | taking =>
    cases hs : s.waitingSyncs with
    | nil => exact h
    | cons p rest => exact ⟨hrunning, by simp, by simp⟩
  | inWait p => exact ⟨hrunning, by simp, by simp⟩
  | returned p => exact ⟨hrunning, loop_ne_stopped s, fun hloop _ => eq_nil_of_loop hloop⟩
  | stopped => exact absurd hw h.not_stopped

theorem awake_step (h : s.Awake) (e : Event) : (s.step e).Awake := by
  cases e with
  | reclaimSignaledFences | injectFence =>
    rw [step]
    split_ifs
    · exact ⟨h.running, h.not_stopped, h.waiting⟩
    · exact h
  | lastFrameIsCompleted mode => exact h
  | submit res =>
    rw [step]
    split_ifs
    · rw [submit]
      split
      · exact ⟨h.running, h.not_stopped, h.waiting⟩
      · exact ⟨h.running, h.not_stopped, h.waiting⟩
    · exact h
  | enqueue =>
    rw [step]
    split
    · refine ⟨h.running, h.not_stopped, ?_⟩
      intro _ hpending
      cases hpending
    · exact h
  | waiter => exact awake_waiterStep h

/-- The waiting thread rests only when there is nothing to wait for. -/
theorem weight_of_blocked (hinv : s.Inv) (hawake : s.Awake) (h : s.Blocked) : s.weight = 1 := by
  have hsame : s.waiterStep.waiter = s.waiter := congrArg QueueSyncs.waiter h
  have hpending : s.waiterStep.hasPendingWork = s.hasPendingWork :=
    congrArg QueueSyncs.hasPendingWork h
  rw [waiterStep] at hsame hpending
  cases hw : s.waiter with
  | waiting =>
    cases hwork : s.hasPendingWork with
    | false => simp [weight, hw, hwork, hawake.waiting hw hwork]
    | true => simp [hw, hwork] at hpending
  | taking =>
    cases hs : s.waitingSyncs with
    | nil => exact absurd hs (hinv.taking hw)
    | cons p rest => simp [hw, hs] at hsame
  | inWait p => simp [hw] at hsame
  | returned p =>
    rw [hw] at hsame
    dsimp only at hsame
    rw [loop] at hsame
    split_ifs at hsame
  | stopped => exact absurd hw hawake.not_stopped

theorem eq_nil_of_weight (h : s.weight ≤ 1) : s.waitingSyncs = [] := by
  rw [weight] at h
  rw [← List.length_eq_zero_iff]
  omega

theorem weight_pos (hawake : s.Awake) : 0 < s.weight := by
  rw [weight]
  cases hw : s.waiter with
  | stopped => exact absurd hw hawake.not_stopped
  | waiting | taking | inWait | returned => simp [WaiterThread.rank]

/-- The work that two sync objects can make. -/
theorem weight_le (h : s.waitingSyncs.length + s.waiter.syncs.length ≤ 2) : s.weight ≤ 10 := by
  have hpending : (if s.hasPendingWork then 2 else 0) ≤ 2 := by split_ifs <;> decide
  rw [weight]
  cases hw : s.waiter <;> simp only [hw, WaiterThread.syncs, List.length_nil,
    List.length_singleton, WaiterThread.rank] at h ⊢ <;> omega

end QueueSyncs

namespace VkFrames

/-- A step of the waiting thread. -/
def Event.isWaiter : Event → Bool
  | .waiter _ => true
  | _ => false

/-! ### What a step can do

A step is one of the frame loop, one of the queue, or one in which the frame loop asks the queue.
-/

/-- The steps, by what they do. -/
inductive Moves (s : VkFrames) : Event → VkFrames → Prop where
  | injectFence (hphase : s.loop.phase = .onPreSwap) (hidle : s.queue.render = .idle)
      (hinjected : s.injected = false) :
      Moves s .injectFence { s with queue := s.queue.step .injectFence }
  | submit {res} (hinjecting : s.queue.render = .injecting) :
      Moves s (.submit res)
        { s with queue := s.queue.submit res, injected := s.queue.freeSyncPool.isEmpty }
  | enqueue {p res} (hsubmitted : s.queue.render = .submitted p res) :
      Moves s .enqueue { s with
        queue := s.queue.enqueue p res
        injected := res = QueueSyncs.vkSuccess
        completed := none }
  | completed {mode loop} (hmode : s.mode = some mode)
      (hcomplete : s.queue.lastFrameIsCompleted mode = true)
      (hloop : s.loop.step (.lastFrameIsComplete true) = .ok loop) :
      Moves s .lastFrameIsCompleted { s with mode := none, completed := some mode, loop }
  | waiter {fenceTime} :
      Moves s (.waiter fenceTime)
        { s with queue := s.queue.waiterStep, lastFenceTime := s.fenceTimeAfter fenceTime }
  /-- a step that leaves the queue alone -/
  | other {e : Event} {s' : VkFrames} (hqueue : s'.queue = s.queue)
      (hcompleted : s'.completed = s.completed)
      (hphase : s'.injected = s.injected ∧
          (s.loop.phase = .onPreSwap → s'.loop.phase = .onPreSwap) ∨
        s.injected = true ∧ s'.injected = false)
      (he : e.isWaiter = false) : Moves s e s'

variable {s s' : VkFrames} {e : Event} {es : List Event}

theorem stepLoop_eq_ok {e : FrameLoop.Event} :
    s.stepLoop e = .ok s' ↔ ∃ loop, s.loop.step e = .ok loop ∧ s' = { s with loop } := by
  rw [stepLoop]
  cases s.loop.step e with
  | ok loop => simp [eq_comm]
  | error => simp

/-- Only the call of `onPreSwap` ends the drawing of a frame. -/
theorem phase_of_onPreSwap {l l' : FrameLoop} {e : FrameLoop.Event} (hphase : l.phase = .onPreSwap)
    (he : ∀ now, e ≠ .onPreSwap now) (h : l.step e = .ok l') : l'.phase = .onPreSwap := by
  cases FrameLoop.moves_of_step h with
  | onPreSwap => exact absurd rfl (he _)
  | wakeClient | setThreshold | setting => exact hphase
  | _ hother =>
    rw [hphase] at hother
    cases hother

theorem moves_of_step (h : s.step e = .ok s') : s.Moves e s' := by
  cases e with
  | injectFence =>
    rw [step] at h
    split_ifs at h with hcan
    obtain rfl := Except.ok.inj h
    exact .injectFence hcan.1 hcan.2.1 hcan.2.2
  | submit res =>
    rw [step] at h
    split_ifs at h with hinjecting
    obtain rfl := Except.ok.inj h
    exact .submit hinjecting
  | enqueue =>
    rw [step] at h
    split at h
    · next hsubmitted =>
      obtain rfl := Except.ok.inj h
      exact .enqueue hsubmitted
    · cases h
  | onPreSwap now =>
    rw [step] at h
    split_ifs at h with hinjected
    obtain ⟨loop, -, rfl⟩ := stepLoop_eq_ok.mp h
    exact .other rfl rfl (.inr ⟨hinjected, rfl⟩) rfl
  | getCurrentPipelineMode =>
    rw [step] at h
    split at h
    · obtain rfl := Except.ok.inj h
      exact .other rfl rfl (.inl ⟨rfl, id⟩) rfl
    · cases h
  | lastFrameIsCompleted =>
    rw [step] at h
    split at h
    · next mode hmode =>
      obtain ⟨loop, hloop, rfl⟩ := stepLoop_eq_ok.mp h
      cases hcomplete : s.queue.lastFrameIsCompleted mode with
      | false =>
        refine .other rfl (by simp) (.inl ⟨rfl, fun hphase => ?_⟩) rfl
        exact phase_of_onPreSwap hphase (by simp) hloop
      | true =>
        rw [hcomplete] at hloop
        exact .completed hmode hcomplete hloop
    · cases h
  | getPrevFrameGpuTime now =>
    obtain ⟨loop, hloop, rfl⟩ := stepLoop_eq_ok.mp h
    exact .other rfl rfl (.inl ⟨rfl, fun hphase => phase_of_onPreSwap hphase (by simp) hloop⟩) rfl
  | loop e =>
    rw [step] at h
    split_ifs at h with he
    obtain ⟨loop, hloop, rfl⟩ := stepLoop_eq_ok.mp h
    refine .other rfl rfl (.inl ⟨rfl, fun hphase => phase_of_onPreSwap hphase ?_ hloop⟩) rfl
    rintro now rfl
    exact he rfl
  | waiter fenceTime =>
    obtain rfl := Except.ok.inj h
    exact .waiter

/-- Nothing but the steps of the queue happens to it. -/
theorem queue_step (h : s.step e = .ok s') : ∃ qe, s'.queue = s.queue.step qe := by
  cases moves_of_step h with
  | injectFence => exact ⟨.injectFence, rfl⟩
  | @submit res hinjecting =>
    refine ⟨.submit res, ?_⟩
    rw [QueueSyncs.step, if_pos hinjecting]
  | enqueue hsubmitted =>
    refine ⟨.enqueue, ?_⟩
    rw [QueueSyncs.step, hsubmitted]
  | waiter => exact ⟨.waiter, rfl⟩
  | completed => exact ⟨.lastFrameIsCompleted .on, rfl⟩
  | other hqueue => exact ⟨.lastFrameIsCompleted .on, hqueue⟩

/-! ## The sync objects that are free

How many objects there are at each place when a fence is injected, and when a submit goes without
one.
-/

/-- What the queue of a run keeps. -/
structure QueueOk (created : List VkSync) (s : QueueSyncs) : Prop where
  inv : s.Inv
  perm : s.syncs.Perm created
  awake : s.Awake

theorem queueOk_step {created : List VkSync} {s : QueueSyncs} (h : QueueOk created s)
    (e : QueueSyncs.Event) : QueueOk created (s.step e) where
  inv := QueueSyncs.inv_step h.inv e
  perm := (QueueSyncs.syncs_step s e).trans h.perm
  awake := QueueSyncs.awake_step h.awake e

/-- What holds of the queue and of the frame under way. -/
structure Inv (created : List VkSync) (s : VkFrames) : Prop where
  queue : QueueOk created s.queue
  /-- `injectFence` is called while the app draws, and returns before `onPreSwap` is called -/
  drawing : s.queue.render ≠ .idle → s.loop.phase = .onPreSwap
  injected : s.injected = true → s.queue.render = .idle
  /-- the thread only takes sync objects out of `mWaitingSyncs` -/
  completed : ∀ mode, s.completed = some mode → s.queue.waitingSyncs.length ≤ mode.queued
  injecting : s.queue.render = .injecting → ∀ mode, s.completed = some mode →
    created.length ≤ s.queue.freeSyncPool.length + mode.queued + 1

theorem length_waiterStep_le (s : QueueSyncs) :
    s.waiterStep.waitingSyncs.length ≤ s.waitingSyncs.length := by
  rw [QueueSyncs.waiterStep]
  cases s.waiter with
  | waiting =>
    dsimp only
    split_ifs <;> exact le_refl _
  | taking => cases hs : s.waitingSyncs <;> simp [hs]
  | inWait | returned | stopped => exact le_refl _

theorem freeSyncPool_waiterStep (s : QueueSyncs) :
    s.waiterStep.freeSyncPool = s.freeSyncPool := by
  rw [QueueSyncs.waiterStep]
  cases s.waiter with
  | waiting =>
    dsimp only
    split_ifs <;> rfl
  | taking => cases s.waitingSyncs <;> rfl
  | inWait | returned | stopped => rfl

theorem length_syncs_waiter_le (w : WaiterThread) : w.syncs.length ≤ 1 := by
  cases w <;> simp

/-- At its beginning `injectFence` reclaims what has been signaled. -/
theorem length_freeSyncPool_injectFence {created : List VkSync} {q : QueueSyncs}
    (h : q.syncs.Perm created) (hidle : q.render = .idle) :
    (q.step .injectFence).freeSyncPool.length + q.waitingSyncs.length + q.waiter.syncs.length =
      created.length := by
  have hlength := h.length_eq
  rw [QueueSyncs.syncs_eq] at hlength
  simp only [hidle, RenderThread.syncs, List.length_append, List.length_map,
    List.length_nil] at hlength
  simp only [QueueSyncs.step, hidle, if_true, QueueSyncs.reclaimSignaledFences, List.length_append]
  omega

theorem inv_step {created : List VkSync} (hinv : s.Inv created) (h : s.step e = .ok s') :
    s'.Inv created := by
  have hqueue : QueueOk created s'.queue := by
    obtain ⟨qe, hqe⟩ := queue_step h
    rw [hqe]
    exact queueOk_step hinv.queue qe
  cases moves_of_step h with
  | injectFence hphase hidle hinjected =>
    have hwaiting : (s.queue.step .injectFence).waitingSyncs = s.queue.waitingSyncs := by
      simp [QueueSyncs.step, hidle, QueueSyncs.reclaimSignaledFences]
    refine ⟨hqueue, fun _ => hphase, ?_, ?_, ?_⟩
    · intro hinjected'
      exact absurd (hinjected.symm.trans hinjected') (by simp)
    · intro mode hmode
      rw [hwaiting]
      exact hinv.completed mode hmode
    · intro _ mode hmode
      have hfree := length_freeSyncPool_injectFence hinv.queue.perm hidle
      have hle := hinv.completed mode hmode
      have hone := length_syncs_waiter_le s.queue.waiter
      dsimp only
      omega
  | @submit res hinjecting =>
    have hphase := hinv.drawing (by simp [hinjecting])
    refine ⟨hqueue, fun _ => hphase, ?_, ?_, ?_⟩
    · intro hempty
      rw [QueueSyncs.submit, List.isEmpty_iff.mp hempty]
    · intro mode hmode
      have hwaiting : (s.queue.submit res).waitingSyncs = s.queue.waitingSyncs := by
        rw [QueueSyncs.submit]
        split <;> rfl
      rw [hwaiting]
      exact hinv.completed mode hmode
    · intro hrender
      rw [QueueSyncs.submit] at hrender
      split at hrender <;> cases hrender
  | enqueue hsubmitted =>
    have hphase := hinv.drawing (by simp [hsubmitted])
    refine ⟨hqueue, fun _ => hphase, fun _ => rfl, ?_, ?_⟩
    · intro mode hmode
      cases hmode
    · intro hrender
      cases hrender
  | @completed mode loop hmode hcomplete hloop =>
    -- a frame that waits is not being drawn
    have hidle : s.queue.render = .idle := by
      by_contra hrender
      have hphase := hinv.drawing hrender
      cases FrameLoop.moves_of_step hloop with
      | lastFrameIsComplete hother =>
        rw [hphase] at hother
        cases hother
      | setting hc => cases hc
    refine ⟨hqueue, ?_, fun _ => hidle, ?_, ?_⟩
    · intro hrender
      exact absurd hidle hrender
    · rintro mode ⟨⟩
      exact (QueueSyncs.lastFrameIsCompleted_iff _).mp hcomplete
    · intro hrender
      rw [hidle] at hrender
      cases hrender
  | waiter =>
    have hsame := (QueueSyncs.frame_waiterStep s.queue).2.1
    refine ⟨hqueue, ?_, ?_, ?_, ?_⟩
    · intro hrender
      exact hinv.drawing fun hidle => hrender (hsame.trans hidle)
    · intro hinjected
      exact hsame.trans (hinv.injected hinjected)
    · intro mode hmode
      exact (length_waiterStep_le s.queue).trans (hinv.completed mode hmode)
    · intro hrender mode hmode
      rw [freeSyncPool_waiterStep]
      exact hinv.injecting (hsame.symm.trans hrender) mode hmode
  | other hsame hcompleted hphase =>
    refine ⟨hqueue, ?_, ?_, ?_, ?_⟩
    · intro hrender
      rw [hsame] at hrender
      rcases hphase with ⟨-, hphase⟩ | ⟨hinjected, -⟩
      · exact hphase (hinv.drawing hrender)
      · exact absurd (hinv.injected hinjected) hrender
    · intro hinjected
      rw [hsame]
      rcases hphase with ⟨hinjected', -⟩ | ⟨-, hinjected'⟩
      · exact hinv.injected (hinjected'.symm.trans hinjected)
      · exact absurd (hinjected'.symm.trans hinjected) (by simp)
    · rw [hcompleted, hsame]
      exact hinv.completed
    · rw [hcompleted, hsame]
      exact hinv.injecting

theorem inv_new (pacer : SwappyCommon) (now : ℤ) (created : List VkSync) (hasPendingWork : Bool) :
    (new pacer now created hasPendingWork).Inv created where
  queue :=
    ⟨QueueSyncs.inv_new created hasPendingWork,
      .of_eq (QueueSyncs.syncs_new created hasPendingWork),
      QueueSyncs.awake_new created hasPendingWork⟩
  drawing h := absurd rfl h
  injected h := nomatch h
  completed _ h := nomatch h
  injecting h := nomatch h

theorem inv_run {created : List VkSync} (hinv : s.Inv created)
    (h : Runs.runChecked step s es = .ok s') : s'.Inv created :=
  Runs.invariant_of_runChecked (A := fun _ => True) (fun _ _ _ hinv _ he => inv_step hinv he) hinv
    (fun _ _ => trivial) h

/-- Until `injectFence` submits, no other thread touches the free sync objects. -/
theorem freeSyncPool_step (hrender : s.queue.render = .injecting) (he : ∀ res, e ≠ .submit res)
    (h : s.step e = .ok s') :
    s'.queue.render = .injecting ∧ s'.queue.freeSyncPool = s.queue.freeSyncPool := by
  cases moves_of_step h with
  | injectFence hphase hidle =>
    rw [hidle] at hrender
    cases hrender
  | submit => exact absurd rfl (he _)
  | enqueue hsubmitted =>
    rw [hsubmitted] at hrender
    cases hrender
  | completed => exact ⟨hrender, rfl⟩
  | waiter =>
    refine ⟨(QueueSyncs.frame_waiterStep s.queue).2.1.trans hrender, ?_⟩
    exact freeSyncPool_waiterStep s.queue
  | other hqueue => exact ⟨hqueue ▸ hrender, by rw [hqueue]⟩

theorem freeSyncPool_run (hrender : s.queue.render = .injecting)
    (hes : ∀ e ∈ es, ∀ res, e ≠ .submit res) (h : Runs.runChecked step s es = .ok s') :
    s'.queue.render = .injecting ∧ s'.queue.freeSyncPool = s.queue.freeSyncPool := by
  have hstep : ∀ (t : VkFrames) e t',
      t.queue.render = .injecting ∧ t.queue.freeSyncPool = s.queue.freeSyncPool →
      (∀ res, e ≠ .submit res) → t.step e = .ok t' →
      t'.queue.render = .injecting ∧ t'.queue.freeSyncPool = s.queue.freeSyncPool := by
    intro t e t' ht he hstep
    obtain ⟨hrender, hpool⟩ := freeSyncPool_step ht.1 he hstep
    exact ⟨hrender, hpool.trans ht.2⟩
  exact Runs.invariant_of_runChecked hstep ⟨hrender, rfl⟩ hes h

/-! ### A submit without a fence

Then the render thread goes on as after any submit, but no object is passed to the driver, and none
is waited for.
-/

/-- Without a free sync object `injectFence` returns at once: it reports success, submits nothing
and stores no semaphore. -/
theorem submit_of_nil (hrender : s.queue.render = .injecting) (hpool : s.queue.freeSyncPool = [])
    (res : VkResult) : s.step (.submit res) = .ok { s with
      queue := { s.queue with render := .idle, result := QueueSyncs.vkSuccess }
      injected := true } := by
  have hsubmit : s.queue.submit res =
      { s.queue with render := .idle, result := QueueSyncs.vkSuccess } := by
    rw [QueueSyncs.submit]
    split
    · rfl
    · next hfree => exact absurd (hpool.symm.trans hfree) (List.cons_ne_nil _ _).symm
  have hempty : s.queue.freeSyncPool.isEmpty = true := List.isEmpty_iff.mpr hpool
  rw [step, if_pos hrender, hsubmit, hempty]

/-- **The fence of a frame after one that has waited.** When `injectFence` comes to submit, there is
no free sync object exactly if the frame before was pipelined, one sync object is in `mWaitingSyncs`
when `injectFence` begins, and the waiting thread has the other. Then `injectFence` succeeds without
a submit, and the frame is presented without a semaphore of its own. -/
theorem no_fence_iff {pacer : SwappyCommon} {now : ℤ} {created : List VkSync}
    {hasPendingWork : Bool} (hcreated : created.length = SwappyVkBase.maxPendingFences)
    (h : Runs.runChecked step (new pacer now created hasPendingWork) es = .ok s)
    {mode : PipelineMode} (hcompleted : s.completed = some mode) {s₁ : VkFrames}
    (hinject : s.step .injectFence = .ok s₁) {es' : List Event}
    (hes' : ∀ e ∈ es', ∀ res, e ≠ .submit res) (h' : Runs.runChecked step s₁ es' = .ok s') :
    (s'.queue.freeSyncPool = [] ↔
      mode = .on ∧ s.queue.waitingSyncs.length = 1 ∧ s.queue.waiter.syncs ≠ []) ∧
    (s'.queue.freeSyncPool = [] → ∀ res, s'.step (.submit res) = .ok { s' with
      queue := { s'.queue with render := .idle, result := QueueSyncs.vkSuccess }
      injected := true }) := by
  have hinv := inv_run (inv_new pacer now created hasPendingWork) h
  have hle := hinv.completed mode hcompleted
  rw [step] at hinject
  split_ifs at hinject with hcan
  obtain rfl := Except.ok.inj hinject
  have hidle : s.queue.render = .idle := hcan.2.1
  have hrender : (s.queue.step .injectFence).render = .injecting := by
    rw [QueueSyncs.step, if_pos hidle]
  have hfree := length_freeSyncPool_injectFence hinv.queue.perm hidle
  have hone := length_syncs_waiter_le s.queue.waiter
  rw [hcreated, SwappyVkBase.maxPendingFences] at hfree
  obtain ⟨hrender', hpool⟩ := freeSyncPool_run hrender hes' h'
  refine ⟨?_, fun hnil res => submit_of_nil hrender' hnil res⟩
  rw [hpool, ← List.length_eq_zero_iff, ← List.length_pos_iff]
  dsimp only
  constructor
  · intro hzero
    cases mode with
    | on =>
      rw [PipelineMode.queued] at hle
      exact ⟨rfl, by omega, by omega⟩
    | off =>
      rw [PipelineMode.queued] at hle
      omega
  · rintro ⟨-, hwaiting, hwaiter⟩
    omega

/-- Two sync objects. -/
def sampleSyncs : List VkSync := [⟨1, 1, 1, 1⟩, ⟨2, 2, 2, 2⟩]

/-- A frame whose fence is injected; the waiting thread takes it, and the frame loop goes on. -/
def firstFrame : List Event :=
  [.injectFence, .submit 0, .enqueue, .onPreSwap 0, .loop (.onPostSwap 9000000),
    .loop (.clampSwapDuration 9000000), .loop .waitUntilTargetFrame, .waiter 0, .waiter 0,
    .getCurrentPipelineMode, .lastFrameIsCompleted, .getPrevFrameGpuTime 16000000,
    .loop .updateSwapInterval, .loop (.updateDisplayTimings FrameLoop.noRates),
    .loop (.setAutoPipelineMode false), .loop (.startFrame 16000000)]

/-- The next one is pipelined, and its fence stays in `mWaitingSyncs`. -/
def secondFrame : List Event :=
  [.injectFence, .submit 0, .enqueue, .onPreSwap 20000000, .loop (.wakeClient 32000000),
    .loop (.wakeClient 49000000), .loop .waitUntilTargetFrame, .getCurrentPipelineMode,
    .lastFrameIsCompleted, .getPrevFrameGpuTime 50000000, .loop (.onPostSwap 51000000),
    .loop (.clampSwapDuration 51000000), .loop .updateSwapInterval,
    .loop (.updateDisplayTimings FrameLoop.noRates), .loop (.startFrame 52000000)]

theorem no_fence_iff_sample : ∃ s s₁ s₂ : VkFrames,
    Runs.runChecked step (new FrameLoop.samplePacer 0 sampleSyncs false)
      (firstFrame ++ secondFrame) = .ok s ∧
    s.step .injectFence = .ok s₁ ∧ s.completed = some .on ∧ s₁.queue.freeSyncPool = [] ∧
    s₁.step (.submit 0) = .ok s₂ ∧ s₂.queue.semaphore = s₁.queue.semaphore ∧ s₂.injected = true :=
  have h : Runs.runChecked step (new FrameLoop.samplePacer 0 sampleSyncs false)
      (firstFrame ++ secondFrame) = .ok _ := rfl
  have hinject : step _ .injectFence = .ok _ := rfl
  have hcompleted : completed _ = some .on := rfl
  have hes : ∀ e ∈ ([] : List Event), ∀ res, e ≠ .submit res := by simp
  have hfence := no_fence_iff rfl h hcompleted hinject hes rfl
  have hnone := hfence.1.mpr ⟨rfl, rfl, List.cons_ne_nil _ _⟩
  ⟨_, _, _, h, hinject, hcompleted, hnone, hfence.2 hnone 0, rfl, rfl⟩

/-! ## The GPU is waited for

The waiting thread takes the objects out one after the other, so a frame loop that asks often enough
gets the answer it waits for.
-/

/-- Nothing but `enqueue` makes work for the waiting thread. -/
theorem weight_step {created : List VkSync} (hinv : s.Inv created) (he : e ≠ .enqueue)
    (h : s.step e = .ok s') :
    s'.queue.weight ≤ 1 ∨ s'.queue.weight + (if e.isWaiter then 1 else 0) ≤ s.queue.weight := by
  cases moves_of_step h with
  | injectFence hphase hidle =>
    right
    simp [QueueSyncs.step, hidle, QueueSyncs.weight, QueueSyncs.reclaimSignaledFences,
      Event.isWaiter]
  | submit =>
    right
    rw [QueueSyncs.submit]
    split <;> exact le_refl _
  | enqueue => exact absurd rfl he
  | completed => exact .inr (le_refl _)
  | waiter =>
    by_cases hblocked : s.queue.Blocked
    · left
      have hweight := QueueSyncs.weight_of_blocked hinv.queue.inv hinv.queue.awake hblocked
      rw [QueueSyncs.Blocked] at hblocked
      dsimp only
      rw [hblocked, hweight]
    · exact .inr (QueueSyncs.weight_waiterStep hblocked)
  | other hqueue _ _ hother =>
    rw [hqueue, hother]
    exact .inr (le_refl _)

theorem weight_run {created : List VkSync} (hinv : s.Inv created)
    (hes : ∀ e ∈ es, e ≠ .enqueue) (h : Runs.runChecked step s es = .ok s') :
    s'.queue.weight ≤ 1 ∨ s'.queue.weight + es.countP Event.isWaiter ≤ s.queue.weight := by
  induction es generalizing s with
  | nil =>
    obtain rfl := Except.ok.inj h
    exact .inr (le_refl _)
  | cons e es ih =>
    obtain ⟨t, he, hrest⟩ := Runs.runChecked_cons_eq_ok.mp h
    obtain ⟨hne, hes'⟩ := List.forall_mem_cons.mp hes
    rw [List.countP_cons]
    rcases ih (inv_step hinv he) hes' hrest with hdone | hless
    · exact .inl hdone
    · rcases weight_step hinv hne he with hdone | hless'
      · left
        omega
      · right
        omega

/-- **The wait for the GPU ends.** However the threads interleave: if nothing is put into
`mWaitingSyncs` meanwhile, and be it that the render thread waits, then after ten steps of the
waiting thread the frame loop goes on when it asks again. -/
theorem wait_ends {pacer : SwappyCommon} {now : ℤ} {created : List VkSync}
    {hasPendingWork : Bool} (hcreated : created.length = SwappyVkBase.maxPendingFences)
    (h : Runs.runChecked step (new pacer now created hasPendingWork) es = .ok s)
    {es' : List Event} (hes' : ∀ e ∈ es', e ≠ .enqueue)
    (hwaits : 10 ≤ es'.countP Event.isWaiter) (h' : Runs.runChecked step s es' = .ok s')
    {w : Waiting} {lateFrames : ℤ} (hphase : s'.loop.phase = .lastFrameIsComplete w lateFrames)
    {mode : PipelineMode} (hmode : s'.mode = some mode) :
    ∃ s'', s'.step .lastFrameIsCompleted = .ok s'' ∧
      s''.loop.phase = .getPrevFrameGpuTime w (some lateFrames) := by
  have hinv := inv_run (inv_new pacer now created hasPendingWork) h
  have hinv' := inv_run hinv h'
  have hbefore : s.queue.weight ≤ 10 := by
    have hlength := hinv.queue.perm.length_eq
    rw [hcreated, SwappyVkBase.maxPendingFences, QueueSyncs.syncs_eq] at hlength
    simp only [List.length_append, List.length_map] at hlength
    exact QueueSyncs.weight_le (by omega)
  have hafter : s'.queue.weight ≤ 1 := by
    have hpos := QueueSyncs.weight_pos hinv'.queue.awake
    rcases weight_run hinv hes' h' with hdone | hless
    · exact hdone
    · omega
  have hcomplete : s'.queue.lastFrameIsCompleted mode = true := by
    rw [QueueSyncs.lastFrameIsCompleted_iff, QueueSyncs.eq_nil_of_weight hafter]
    exact Nat.zero_le _
  rw [step, hmode]
  simp only [hcomplete, stepLoop, FrameLoop.step, hphase]
  exact ⟨_, rfl, rfl⟩

/-- The second frame waits for the GPU, while the waiting thread waits for its fence. -/
def waits : List Event :=
  List.replicate 10 (.waiter 7000000) ++ [.getCurrentPipelineMode]

theorem wait_ends_sample : ∃ s : VkFrames, s.queue.waited = [0, 1] ∧
    ∃ s', s.step .lastFrameIsCompleted = .ok s' ∧
      s'.loop.phase = .getPrevFrameGpuTime ⟨.preSwap, 4000000⟩ (some 0) :=
  have h : Runs.runChecked step (new FrameLoop.samplePacer 0 sampleSyncs false)
      (firstFrame ++ secondFrame.take 7) = .ok _ := rfl
  have h' : Runs.runChecked step _ waits = .ok _ := rfl
  have hwaits : ∀ e ∈ waits, e ≠ .enqueue := by decide
  have hmode : mode _ = some .on := rfl
  ⟨_, rfl, wait_ends rfl h hwaits (by decide) h' rfl hmode⟩

end VkFrames

end GameSdk
