import GameSdk.FrameDuration
import GameSdk.Runs
import Mathlib.Data.List.Nodup
import Mathlib.Data.List.Range
import Mathlib.Logic.Function.Basic

/-!
# Waiting for fences (`SwappyVkBase.cpp`)

Every queue has its sync objects and a thread that waits for their fences. The render
thread submits a sync object with each frame; the waiting thread takes it from
`mWaitingSyncs` before it calls `vkWaitForFences`. The threads interleave between the
sections under the lock; an event of a thread that is elsewhere, or that is blocked,
changes nothing.

Sync objects carry a serial number in the model, which is a ghost. `Inv` puts them in order: the
numbers of those waited for, in the hands of the waiter, in `mWaitingSyncs`, and in the hands of the
render thread are one sequence.
-/

namespace GameSdk

/-- Handles of Vulkan objects. -/
structure VkSync where
  fence : UInt64
  semaphore : UInt64
  command : UInt64
  event : UInt64
  deriving DecidableEq, Repr

/-- What a Vulkan function returns. -/
abbrev VkResult : Type := Int32

/-- A sync object that was submitted. -/
structure Submitted where
  sync : VkSync
  /-- ghost: how many were submitted before it -/
  serial : ℕ
  deriving DecidableEq, Repr

/-- Where the render thread is in `injectFence`. -/
inductive RenderThread where
  | idle
  /-- has reclaimed the signaled fences -/
  | injecting
  /-- is back from `vkQueueSubmit` -/
  | submitted (p : Submitted) (res : VkResult)
  deriving DecidableEq, Repr

/-- Where the waiting thread is in `waitForFenceThreadMain`. -/
inductive WaiterThread where
  /-- waits for new fence objects -/
  | waiting
  /-- `waitingSyncsEmpty` is false -/
  | taking
  /-- is in `vkWaitForFences` -/
  | inWait (p : Submitted)
  /-- is back from it, and has reset the fence -/
  | returned (p : Submitted)
  | stopped
  deriving DecidableEq, Repr

/-- The submission that is waited for. -/
def WaiterThread.inFlight : WaiterThread → List ℕ
  | .inWait p => [p.serial]
  | _ => []

/-- The submission that is not in `mWaitingSyncs` yet. -/
def RenderThread.held : RenderThread → List ℕ
  | .submitted p _ => [p.serial]
  | _ => []

/-- The members of `SwappyVkBase` for one queue, with its `ThreadContext`. -/
structure QueueSyncs where
  freeSyncPool : List VkSync
  waitingSyncs : List Submitted
  signaledSyncs : List VkSync
  running : Bool
  hasPendingWork : Bool
  render : RenderThread
  waiter : WaiterThread
  /-- what the last `injectFence` returned, and the semaphore it stored -/
  result : VkResult
  semaphore : Option UInt64
  /-- ghost: how many sync objects were submitted -/
  count : ℕ
  /-- ghost: those for which `vkWaitForFences` has returned -/
  waited : List ℕ
  deriving DecidableEq, Repr

namespace QueueSyncs

/-- It has succeeded. -/
def vkSuccess : VkResult := 0

/-- After `initializeVkSyncObjects`, with the sync objects it made. `hasPendingWork` is
not initialized. -/
def new (syncs : List VkSync) (hasPendingWork : Bool) : QueueSyncs where
  freeSyncPool := syncs
  waitingSyncs := []
  signaledSyncs := []
  running := true
  hasPendingWork := hasPendingWork
  render := .idle
  waiter := .waiting
  result := vkSuccess
  semaphore := none
  count := 0
  waited := []

variable (s : QueueSyncs)

/-! ## The render thread

Each frame reclaims the signaled fences, takes a sync object from the pool, submits it, and hands it
to the waiting thread.
-/

/-- The signaled objects go back to the pool. -/
def reclaimSignaledFences : QueueSyncs :=
  { s with freeSyncPool := s.freeSyncPool ++ s.signaledSyncs, signaledSyncs := [] }

/-- What the app asks before it draws another frame. -/
def lastFrameIsCompleted (pipelineMode : PipelineMode) : Bool :=
  match pipelineMode with
  -- the fence of frame N-1
  | .on => s.waitingSyncs.length < 2
  -- the fence of the current frame
  | .off => s.waitingSyncs.isEmpty

/-- The unlocked part of `injectFence`; `res` is the result of `vkQueueSubmit`. Without
a free sync object no fence is used. -/
def submit (res : VkResult) : QueueSyncs :=
  match s.freeSyncPool with
  | [] => { s with render := .idle, result := vkSuccess }
  | sync :: rest =>
    { s with
      freeSyncPool := rest
      render := .submitted ⟨sync, s.count⟩ res
      semaphore := some sync.semaphore
      count := s.count + 1 }

/-- The end of `injectFence`, under the lock. -/
def enqueue (p : Submitted) (res : VkResult) : QueueSyncs :=
  { s with
    waitingSyncs := s.waitingSyncs ++ [p]
    hasPendingWork := true
    render := .idle
    result := res }

/-! ## The waiting thread

It takes the lock to look for work, and lets it go while it waits for a fence.
-/

/-- Go on with the inner loop, or back to the outer one. -/
def loop : WaiterThread := if s.waitingSyncs.isEmpty then .waiting else .taking

/-- One step of `waitForFenceThreadMain`: a section under the lock, or the wait. -/
def waiterStep : QueueSyncs :=
  match s.waiter with
  | .waiting =>
    if s.hasPendingWork || !s.running then
      { s with hasPendingWork := false, waiter := if s.running then s.loop else .stopped }
    else s
  | .taking =>
    match s.waitingSyncs with
    -- there is no front, see `Inv.taking`
    | [] => s
    | p :: rest => { s with waitingSyncs := rest, waiter := .inWait p }
  | .inWait p => { s with waiter := .returned p, waited := s.waited ++ [p.serial] }
  | .returned p => { s with signaledSyncs := s.signaledSyncs ++ [p.sync], waiter := s.loop }
  | .stopped => s

/-! ## Runs

The two threads in any order, and a driver whose results are part of the events.
-/

/-- One thing that happens. -/
inductive Event where
  | reclaimSignaledFences
  | lastFrameIsCompleted (pipelineMode : PipelineMode)
  /-- the call of `injectFence`, which reclaims fences first -/
  | injectFence
  | submit (res : VkResult)
  | enqueue
  | waiter
  deriving DecidableEq, Repr

/-- One event, on the state in which it happens. -/
def step : Event → QueueSyncs
  | .reclaimSignaledFences => if s.render = .idle then s.reclaimSignaledFences else s
  | .lastFrameIsCompleted _ => s
  | .injectFence =>
    if s.render = .idle then { s.reclaimSignaledFences with render := .injecting } else s
  | .submit res => if s.render = .injecting then s.submit res else s
  | .enqueue =>
    match s.render with
    | .submitted p res => s.enqueue p res
    | _ => s
  | .waiter => s.waiterStep

/-- What `lastFrameIsCompleted` says: the wait for every sync object has returned, but
for the last one when pipelining. -/
def Completed (pipelineMode : PipelineMode) : Prop :=
  match pipelineMode with
  | .on => ∀ serial, serial + 1 < s.count → serial ∈ s.waited
  | .off => ∀ serial < s.count, serial ∈ s.waited

/-- The call tells the truth. -/
def Truthful (e : Event) : Prop :=
  ∀ mode, e = .lastFrameIsCompleted mode → s.render = .idle →
    s.lastFrameIsCompleted mode = true → s.Completed mode

/-- The condition on a call: the waiting thread is not inside `vkWaitForFences` while
`mWaitingSyncs` is as long as it may just be for the call to return true. -/
def CallOk (e : Event) : Prop :=
  ∀ mode, e = .lastFrameIsCompleted mode → s.render = .idle →
    ¬ ((∃ p, s.waiter = .inWait p) ∧
      s.waitingSyncs.length = match mode with | .on => 1 | .off => 0)

/-! ## Every submission is somewhere

The submissions of a queue stay in order, and none is lost.
-/

/-- The submissions in order: the wait has returned, waiting for, to be waited for, to
be put into `mWaitingSyncs`. -/
structure Inv (s : QueueSyncs) : Prop where
  order : s.waited ++ s.waiter.inFlight ++ s.waitingSyncs.map (fun p => p.serial) ++
    s.render.held = List.range s.count
  /-- `mWaitingSyncs[queue].front()` exists -/
  taking : s.waiter = .taking → s.waitingSyncs ≠ []

variable {s}

/-- Between two rounds the thread holds nothing. -/
theorem inFlight_loop (s : QueueSyncs) : s.loop.inFlight = [] := by
  rw [loop]
  split <;> rfl

/-- The thread takes only where there is something. -/
theorem ne_nil_of_loop (h : s.loop = .taking) : s.waitingSyncs ≠ [] := by
  rw [loop] at h
  split at h
  · cases h
  · next hne => exact fun hnil => hne (List.isEmpty_iff.mpr hnil)

/-- A queue begins with its objects in order. -/
theorem inv_new (syncs : List VkSync) (hasPendingWork : Bool) : (new syncs hasPendingWork).Inv :=
  ⟨rfl, fun h => (nomatch h)⟩

/-- The waiting thread keeps the order. -/
theorem inv_waiterStep (hinv : s.Inv) : s.waiterStep.Inv := by
  have horder := hinv.order
  rw [waiterStep]
  cases hw : s.waiter with
  | waiting =>
    rw [hw] at horder
    simp only
    split
    · refine ⟨?_, fun h => ?_⟩
      · rcases s.running
        · exact horder
        · simp only [if_true, inFlight_loop]
          exact horder
      · rcases hrunning : s.running <;> simp only [hrunning] at h
        · cases h
        · exact ne_nil_of_loop h
    · exact ⟨by rw [hw]; exact horder, fun h => by rw [hw] at h; cases h⟩
  | taking =>
    rw [hw] at horder
    rcases hs : s.waitingSyncs with _ | ⟨p, rest⟩
    · exact absurd hs (hinv.taking hw)
    · -- the front of the queue moves to the thread
      refine ⟨?_, fun h => (nomatch h)⟩
      rw [hs] at horder
      simpa [WaiterThread.inFlight] using horder
  | inWait p =>
    rw [hw] at horder
    refine ⟨?_, fun h => (nomatch h)⟩
    simpa [WaiterThread.inFlight] using horder
  | returned p =>
    rw [hw] at horder
    refine ⟨?_, ne_nil_of_loop⟩
    simp only [inFlight_loop]
    exact horder
  | stopped => exact hinv

/-- **Every event keeps the order.** -/
theorem inv_step (hinv : s.Inv) (e : Event) : (s.step e).Inv := by
  have horder := hinv.order
  cases e with
  | reclaimSignaledFences =>
    rw [step]
    split
    · exact ⟨horder, hinv.taking⟩
    · exact hinv
  | lastFrameIsCompleted mode => exact hinv
  | injectFence =>
    rw [step]
    split
    · next hidle =>
      rw [hidle] at horder
      exact ⟨horder, hinv.taking⟩
    · exact hinv
  | submit res =>
    rw [step]
    split
    · next hinjecting =>
      rw [hinjecting] at horder
      rw [submit]
      split
      · exact ⟨horder, hinv.taking⟩
      · refine ⟨?_, hinv.taking⟩
        simp only [RenderThread.held, List.append_nil] at horder ⊢
        rw [horder, List.range_succ]
    · exact hinv
  | enqueue =>
    rw [step]
    split
    · next p res hheld =>
      rw [hheld] at horder
      refine ⟨?_, fun h => List.append_ne_nil_of_right_ne_nil _ (List.cons_ne_nil _ _)⟩
      simpa [enqueue, RenderThread.held] using horder
    · exact hinv
  | waiter =>
    rw [step]
    exact inv_waiterStep hinv

/-! ## What a call says

`lastFrameIsCompleted` looks at `mWaitingSyncs` only. The object in the hands of the waiter is not
there.
-/

/-- The waits return in the order of the submissions. -/
theorem Inv.mem_waited_iff (hinv : s.Inv) (serial : ℕ) :
    serial ∈ s.waited ↔ serial < s.waited.length := by
  have hgrows : s.waited <+: List.range s.count :=
    ⟨_, by rw [← hinv.order, List.append_assoc, List.append_assoc]⟩
  have htake := List.prefix_iff_eq_take.mp hgrows
  rw [List.take_range] at htake
  constructor
  · intro hmem
    rw [htake, List.mem_range] at hmem
    exact lt_of_lt_of_le hmem (min_le_left ..)
  · intro hlt
    have hle := hgrows.length_le
    rw [List.length_range] at hle
    rw [htake, List.mem_range]
    exact lt_min hlt (lt_of_lt_of_le hlt hle)

/-- Every object that was submitted is somewhere. -/
theorem Inv.count_eq (hinv : s.Inv) (hidle : s.render = .idle) :
    s.count = s.waited.length + s.waiter.inFlight.length + s.waitingSyncs.length := by
  have := congrArg List.length hinv.order
  simp only [List.length_append, List.length_map, List.length_range, hidle, RenderThread.held,
    List.length_nil] at this
  omega

/-- When the frame that is asked about is completed. -/
theorem completed_iff (hinv : s.Inv) (mode : PipelineMode) :
    s.Completed mode ↔
      s.count ≤ s.waited.length + match mode with | .on => 1 | .off => 0 := by
  have hall (n : ℕ) : (∀ serial, serial + n < s.count → serial ∈ s.waited) ↔
      s.count ≤ s.waited.length + n := by
    simp only [hinv.mem_waited_iff]
    constructor
    · intro h
      by_contra hlt
      exact absurd (h s.waited.length (by omega)) (lt_irrefl _)
    · intro h serial hserial
      omega
  rcases mode with _ | _
  · exact hall 0
  · exact hall 1

/-- When the answer is right. -/
theorem truthful_iff (hinv : s.Inv) (e : Event) : s.Truthful e ↔ s.CallOk e := by
  refine forall_congr' fun mode => imp_congr_right fun _ => imp_congr_right fun hidle => ?_
  have hcount := hinv.count_eq hidle
  have hflight : (∃ p, s.waiter = .inWait p) ↔ s.waiter.inFlight.length = 1 := by
    rcases s.waiter <;> simp [WaiterThread.inFlight]
  have hle : s.waiter.inFlight.length ≤ 1 := by
    rcases s.waiter <;> simp [WaiterThread.inFlight]
  rw [completed_iff hinv, hflight]
  rcases mode with _ | _
  · simp only [lastFrameIsCompleted, List.isEmpty_iff_length_eq_zero]
    omega
  · simp only [lastFrameIsCompleted, decide_eq_true_eq]
    omega

end QueueSyncs

/-! ## All queues

Each call is about one queue, and the others do not matter for it.
-/

namespace SwappyVkBase

variable {Queue : Type} [DecidableEq Queue]

/-- One queue of many takes a step. -/
def step (queues : Queue → QueueSyncs) (e : Queue × QueueSyncs.Event) : Queue → QueueSyncs :=
  Function.update queues e.1 ((queues e.1).step e.2)

/-- **The calls of `lastFrameIsCompleted` in a run tell the truth exactly when they meet
`CallOk`**, however the queues and their threads interleave. -/
theorem truthful_iff_callOk (syncs : Queue → List VkSync) (hasPendingWork : Queue → Bool)
    (es : List (Queue × QueueSyncs.Event)) :
    Runs.StepsOk step (fun queues e => (queues e.1).Truthful e.2)
        (fun queue => .new (syncs queue) (hasPendingWork queue)) es ↔
      Runs.StepsOk step (fun queues e => (queues e.1).CallOk e.2)
        (fun queue => .new (syncs queue) (hasPendingWork queue)) es := by
  refine Runs.stepsOk_congr (fun queues e (hinv : ∀ queue, (queues queue).Inv) => ?_)
    (fun queues e hinv => (QueueSyncs.truthful_iff (hinv e.1) e.2))
    (fun queue => QueueSyncs.inv_new _ _) es
  exact (Function.forall_update_iff queues fun _ s => s.Inv).mpr
    ⟨QueueSyncs.inv_step (hinv e.1) e.2, fun queue _ => hinv queue⟩

/-- A frame is submitted, and the waiting thread takes its sync object. -/
theorem not_truthful_taken :
    ¬ Runs.StepsOk (@step Unit _) (fun queues e => (queues e.1).Truthful e.2)
      (fun _ => .new [⟨1, 1, 1, 1⟩, ⟨2, 2, 2, 2⟩] false)
      [((), .injectFence), ((), .submit 0), ((), .enqueue), ((), .waiter), ((), .waiter),
        ((), .lastFrameIsCompleted .off)] := by
  rintro ⟨-, -, -, -, -, hcall, -⟩
  have hmem := hcall .off rfl rfl rfl 0 (by decide)
  exact absurd hmem (by decide)

end SwappyVkBase

end GameSdk
