import GameSdk.SyncObjects
import GameSdk.ThreadPool

/-!
# The end of the sync objects (`SwappyVkBase.cpp`)

`destroyVkSyncObjects` stops and joins the waiting threads of the queues one after the other, while
the threads of the other queues go on. Then it waits for the fences that are left, moves all sync
objects to the free pools, and frees them. Nothing is presented while it runs.

Only the queues for which `initializeVkSyncObjects` has succeeded are here: the others have no
thread.

`measure` is the number of steps that are left: what the threads still have to do, and what is left
to the main thread. Each step lowers it, and as long as it is not done some step can be taken. So
every interleaving ends, and ends with all objects freed.
-/

namespace GameSdk

/-- What is called at the end, after the threads have been joined. -/
inductive DestroyCall where
  | waitForFences (fence : UInt64)
  | resetFences (fence : UInt64)
  | freeCommandBuffers (commandPool command : UInt64)
  | destroyEvent (event : UInt64)
  | destroySemaphore (semaphore : UInt64)
  | destroyFence (fence : UInt64)
  | destroyCommandPool (commandPool : UInt64)
  deriving DecidableEq, Repr

namespace QueueSyncs

variable (s : QueueSyncs)

/-- The main thread tells the waiting thread to stop, under the lock. -/
def stop : QueueSyncs := { s with running := false }

/-- The main thread waits for a fence that the waiting thread has not taken. -/
def waitFence (p : Submitted) : QueueSyncs :=
  { s with signaledSyncs := s.signaledSyncs ++ [p.sync], waited := s.waited ++ [p.serial] }

/-- It works on a copy of `mWaitingSyncs`. -/
def waitUnsignaled : QueueSyncs := s.waitingSyncs.foldl waitFence s

/-- The calls for what is left in `mWaitingSyncs`. -/
def waitCalls : List DestroyCall :=
  s.waitingSyncs.flatMap fun p => [.waitForFences p.sync.fence, .resetFences p.sync.fence]

/-- Whether a step of the waiting thread does anything. -/
def Blocked : Prop := s.waiterStep = s

instance decidableBlocked : Decidable s.Blocked := inferInstanceAs (Decidable (_ = _))

end QueueSyncs

/-- What is freed of a sync object, in this order. -/
def destroySync (commandPool : UInt64) (sync : VkSync) : List DestroyCall :=
  [.freeCommandBuffers commandPool sync.command, .destroyEvent sync.event,
    .destroySemaphore sync.semaphore, .destroyFence sync.fence]

/-! ### The queues of a device

The sync objects and the command pool of each queue, and how far the main thread has come.
-/

/-- A queue with its entry in `mCommandPool`. -/
structure DeviceQueue where
  commandPool : UInt64
  syncs : QueueSyncs
  deriving DecidableEq, Repr

/-- The entries of a queue after the fences are reclaimed. -/
def DeviceQueue.reclaimed (q : DeviceQueue) : DeviceQueue :=
  { q with syncs := q.syncs.waitUnsignaled.reclaimSignaledFences }

/-- The calls that free the objects of a queue. -/
def DeviceQueue.freeCalls (q : DeviceQueue) : List DestroyCall :=
  q.syncs.freeSyncPool.flatMap (destroySync q.commandPool)

/-- Where the main thread is. -/
inductive JoinPhase where
  /-- is about to lock the thread of a queue -/
  | stopping (i : ℕ)
  | joining (i : ℕ)
  /-- has joined all threads -/
  | joined
  deriving DecidableEq, Repr

/-- The queues in the order of `mThreads`. -/
structure VkShutdown where
  queues : List DeviceQueue
  phase : JoinPhase
  deriving DecidableEq, Repr

namespace VkShutdown

/-- One thing that happens. -/
inductive Event where
  /-- the main thread takes its next step -/
  | main
  /-- the waiting thread of a queue does -/
  | waiter (i : ℕ)
  deriving DecidableEq, Repr

/-- The thread waits, for a lock or for another thread. -/
inductive Failure where
  | blocked
  deriving DecidableEq, Repr

variable (s : VkShutdown)

/-- The sync objects of one queue change. -/
def setSyncs (i : ℕ) (q : DeviceQueue) (syncs : QueueSyncs) : VkShutdown :=
  { s with queues := s.queues.set i { q with syncs := syncs } }

/-- The loop over `mThreads`. -/
def mainStep : Except Failure VkShutdown :=
  match s.phase with
  | .stopping i =>
    match s.queues[i]? with
    | none => .ok { s with phase := .joined }
    | some q =>
      .ok { s.setSyncs i q q.syncs.stop with phase := .joining i }
  | .joining i =>
    match s.queues[i]? with
    | none => .error .blocked
    | some q =>
      if q.syncs.waiter = .stopped then .ok { s with phase := .stopping (i + 1) }
      else .error .blocked
  | .joined => .error .blocked

/-- One event, on the state in which it happens. -/
def step : Event → Except Failure VkShutdown
  | .main => s.mainStep
  | .waiter i =>
    match s.queues[i]? with
    | none => .error .blocked
    | some q =>
      if q.syncs.Blocked then .error .blocked else .ok (s.setSyncs i q q.syncs.waiterStep)

/-- What follows the joining of the threads. -/
def destroyCalls : List DestroyCall :=
  let queues := s.queues.map DeviceQueue.reclaimed
  s.queues.flatMap (fun q => q.syncs.waitCalls) ++ (queues.flatMap DeviceQueue.freeCalls ++
    queues.map fun q => .destroyCommandPool q.commandPool)

end VkShutdown

/-! ### Where a shutdown begins

Each queue is in a state that a run of its own has led to.
-/

/-- What has happened to a queue before: what was made for it, and the steps of its threads. -/
structure QueueHistory where
  commandPool : UInt64
  created : List VkSync
  hasPendingWork : Bool
  events : List QueueSyncs.Event

/-- The queue after its run. -/
def QueueHistory.queue (h : QueueHistory) : DeviceQueue :=
  ⟨h.commandPool, h.events.foldl QueueSyncs.step (.new h.created h.hasPendingWork)⟩

/-- The call of `destroyVkSyncObjects`. -/
def VkShutdown.start (hs : List QueueHistory) : VkShutdown :=
  ⟨hs.map QueueHistory.queue, .stopping 0⟩

/-! ## The threads are joined

A thread that waits for work stops at once. One that is at work takes what is left in
`mWaitingSyncs` first.
-/

/-- How many steps the waiting thread takes at most until it looks at `mWaitingSyncs` again. -/
def WaiterThread.rank : WaiterThread → ℕ
  | .stopped => 0
  | .waiting => 1
  | .taking => 2
  | .returned _ => 3
  | .inWait _ => 4

@[simp] theorem WaiterThread.rank_waiting : waiting.rank = 1 := rfl

@[simp] theorem WaiterThread.rank_returned (p : Submitted) : (returned p).rank = 3 := rfl

/-- How many steps it takes at most, if nothing is presented. -/
def QueueSyncs.weight (s : QueueSyncs) : ℕ :=
  3 * s.waitingSyncs.length + s.waiter.rank + if s.hasPendingWork then 2 else 0

namespace QueueSyncs

variable {s : QueueSyncs}

theorem rank_loop (s : QueueSyncs) : s.loop.rank ≤ 2 := by
  rw [loop]
  split_ifs
  · exact Nat.le_succ 1
  · exact Nat.le_refl 2

/-- Each step of the waiting thread brings it closer to the end of its work. -/
theorem weight_waiterStep (h : ¬ s.Blocked) : s.waiterStep.weight < s.weight := by
  have hloop := rank_loop s
  rw [Blocked] at h
  rw [waiterStep] at h ⊢
  cases hw : s.waiter with
  | waiting =>
    rw [hw] at h
    cases hrunning : s.running with
    | false =>
      simp [weight, hw, WaiterThread.rank]
      omega
    | true =>
      cases hpending : s.hasPendingWork with
      | false => simp [hrunning, hpending] at h
      | true =>
        simp only [weight, hw, hpending, Bool.true_or, if_true, Bool.false_eq_true, if_false]
        rw [WaiterThread.rank_waiting]
        omega
  | taking =>
    rw [hw] at h
    cases hs : s.waitingSyncs with
    | nil => simp [hs] at h
    | cons p rest =>
      simp only [weight, hw, hs, WaiterThread.rank, List.length_cons]
      omega
  | inWait p =>
    simp only [weight, hw, WaiterThread.rank]
    omega
  | returned p =>
    simp only [weight, hw]
    rw [WaiterThread.rank_returned]
    omega
  | stopped =>
    rw [hw] at h
    exact absurd rfl h

/-- Once it is to stop, the waiting thread goes on until it has stopped. -/
theorem not_blocked (hinv : s.Inv) (hrunning : s.running = false) (hstopped : s.waiter ≠ .stopped) :
    ¬ s.Blocked := by
  intro h
  have hsame : s.waiterStep.waiter = s.waiter := congrArg QueueSyncs.waiter h
  rw [waiterStep] at hsame
  cases hw : s.waiter with
  | waiting => simp [hw, hrunning] at hsame
  | taking =>
    cases hs : s.waitingSyncs with
    | nil => exact hinv.taking hw hs
    | cons p rest => simp [hw, hs] at hsame
  | inWait p => simp [hw] at hsame
  | returned p =>
    rw [hw] at hsame
    dsimp only at hsame
    rw [loop] at hsame
    split_ifs at hsame
  | stopped => exact hstopped hw

/-- The waiting thread leaves the rest alone. -/
theorem frame_waiterStep (s : QueueSyncs) : s.waiterStep.running = s.running ∧
    s.waiterStep.render = s.render ∧ s.waiterStep.count = s.count := by
  rw [waiterStep]
  cases s.waiter with
  | waiting =>
    dsimp only
    split_ifs <;> exact ⟨rfl, rfl, rfl⟩
  | taking => cases s.waitingSyncs <;> exact ⟨rfl, rfl, rfl⟩
  | inWait | returned | stopped => exact ⟨rfl, rfl, rfl⟩

theorem waiterStep_of_stopped (h : s.waiter = .stopped) : s.waiterStep = s := by
  rw [waiterStep, h]

end QueueSyncs

namespace VkShutdown

variable {s s' : VkShutdown} {e : Event}

/-- The steps: one of a waiting thread, and those of the main thread. -/
theorem step_cases (h : s.step e = .ok s') :
    (∃ i q, s.queues[i]? = some q ∧ ¬ q.syncs.Blocked ∧
      s' = s.setSyncs i q q.syncs.waiterStep) ∨
    (∃ i q, s.phase = .stopping i ∧ s.queues[i]? = some q ∧
      s' = { s.setSyncs i q q.syncs.stop with phase := .joining i }) ∨
    (∃ i, s.phase = .stopping i ∧ s.queues[i]? = none ∧ s' = { s with phase := .joined }) ∨
    ∃ i q, s.phase = .joining i ∧ s.queues[i]? = some q ∧ q.syncs.waiter = .stopped ∧
      s' = { s with phase := .stopping (i + 1) } := by
  cases e with
  | waiter i =>
    rw [step] at h
    cases hq : s.queues[i]? with
    | none => simp [hq] at h
    | some q =>
      simp only [hq] at h
      split_ifs at h with hblocked
      exact .inl ⟨i, q, hq, hblocked, (Except.ok.inj h).symm⟩
  | main =>
    rw [step, mainStep] at h
    cases hphase : s.phase with
    | stopping i =>
      cases hq : s.queues[i]? with
      | none =>
        simp only [hphase, hq] at h
        exact .inr (.inr (.inl ⟨i, rfl, hq, (Except.ok.inj h).symm⟩))
      | some q =>
        simp only [hphase, hq] at h
        exact .inr (.inl ⟨i, q, rfl, hq, (Except.ok.inj h).symm⟩)
    | joining i =>
      cases hq : s.queues[i]? with
      | none => simp [hphase, hq] at h
      | some q =>
        simp only [hphase, hq] at h
        split_ifs at h with hstopped
        exact .inr (.inr (.inr ⟨i, q, rfl, hq, hstopped, (Except.ok.inj h).symm⟩))
    | joined => simp [hphase] at h

/-! ### How many steps there are

The measure, and that every step lowers it.
-/

/-- How many steps the main thread has left. -/
def left (n : ℕ) : JoinPhase → ℕ
  | .stopping i => 2 * (n - i) + 1
  | .joining i => 2 * (n - i)
  | .joined => 0

/-- How many steps are left, at most. -/
def measure (s : VkShutdown) : ℕ :=
  Runs.total (fun q => q.syncs.weight) s.queues + left s.queues.length s.phase

theorem total_setSyncs {i : ℕ} {q : DeviceQueue} (hq : s.queues[i]? = some q)
    (syncs : QueueSyncs) :
    Runs.total (fun q => q.syncs.weight) (s.setSyncs i q syncs).queues + q.syncs.weight =
      Runs.total (fun q => q.syncs.weight) s.queues + syncs.weight :=
  ThreadPool.total_set (fun q => q.syncs.weight) hq

theorem length_setSyncs (s : VkShutdown) (i : ℕ) (q : DeviceQueue) (syncs : QueueSyncs) :
    (s.setSyncs i q syncs).queues.length = s.queues.length :=
  List.length_set

theorem measure_step (h : s.step e = .ok s') : s'.measure < s.measure := by
  obtain ⟨i, q, hq, hblocked, rfl⟩ | ⟨i, q, hphase, hq, rfl⟩ | ⟨i, hphase, hq, rfl⟩ |
    ⟨i, q, hphase, hq, -, rfl⟩ := step_cases h
  · have hless := QueueSyncs.weight_waiterStep hblocked
    have htotal := total_setSyncs hq q.syncs.waiterStep
    have hphase : (s.setSyncs i q q.syncs.waiterStep).phase = s.phase := rfl
    rw [measure, measure, length_setSyncs, hphase]
    omega
  · have htotal := total_setSyncs hq q.syncs.stop
    have hsame : q.syncs.stop.weight = q.syncs.weight := rfl
    rw [hsame] at htotal
    simp only [measure, length_setSyncs, hphase, left]
    omega
  · simp only [measure, hphase, left]
    omega
  · obtain ⟨hi, -⟩ := List.getElem?_eq_some_iff.mp hq
    simp only [measure, hphase, left]
    omega

/-! ### How far the main thread is

Which threads have stopped, by the phase of the main thread.
-/

/-- The threads of the queues before this one have stopped. -/
def StoppedBefore (s : VkShutdown) (i : ℕ) : Prop :=
  ∀ j < i, ∀ q, s.queues[j]? = some q → q.syncs.waiter = .stopped

/-- Which threads have stopped, by the phase. -/
def PhaseOk (s : VkShutdown) : Prop :=
  match s.phase with
  | .stopping i => s.StoppedBefore i
  | .joining i => s.StoppedBefore i ∧ ∃ q, s.queues[i]? = some q ∧ q.syncs.running = false
  | .joined => s.StoppedBefore s.queues.length

/-- A thread that has stopped takes no step. -/
theorem StoppedBefore.waiterStep {n i : ℕ} {q : DeviceQueue} (h : s.StoppedBefore n)
    (hq : s.queues[i]? = some q) (hblocked : ¬ q.syncs.Blocked) :
    (s.setSyncs i q q.syncs.waiterStep).StoppedBefore n := by
  intro j hj r hr
  obtain ⟨rfl, rfl⟩ | ⟨-, hold⟩ := ThreadPool.getElem?_set_eq_some hq hr
  · exact absurd (QueueSyncs.waiterStep_of_stopped (h j hj q hq)) hblocked
  · exact h j hj r hold

theorem phaseOk_step (hok : s.PhaseOk) (h : s.step e = .ok s') : s'.PhaseOk := by
  obtain ⟨i, q, hq, hblocked, rfl⟩ | ⟨i, q, hphase, hq, rfl⟩ | ⟨i, hphase, hq, rfl⟩ |
    ⟨i, q, hphase, hq, hstopped, rfl⟩ := step_cases h
  · have hsame : (s.setSyncs i q q.syncs.waiterStep).phase = s.phase := rfl
    rw [PhaseOk] at hok ⊢
    rw [hsame]
    cases hphase : s.phase with
    | stopping k =>
      rw [hphase] at hok
      exact hok.waiterStep hq hblocked
    | joining k =>
      rw [hphase] at hok
      obtain ⟨hbefore, r, hr, hrunning⟩ := hok
      refine ⟨hbefore.waiterStep hq hblocked, ?_⟩
      by_cases hik : i = k
      · subst hik
        obtain rfl := Option.some.inj (hq.symm.trans hr)
        obtain ⟨hi, -⟩ := List.getElem?_eq_some_iff.mp hq
        refine ⟨_, List.getElem?_set_self hi, ?_⟩
        exact (QueueSyncs.frame_waiterStep q.syncs).1.trans hrunning
      · exact ⟨r, (List.getElem?_set_ne hik).trans hr, hrunning⟩
    | joined =>
      rw [hphase] at hok
      dsimp only
      rw [length_setSyncs]
      exact hok.waiterStep hq hblocked
  · rw [PhaseOk, hphase] at hok
    obtain ⟨hi, -⟩ := List.getElem?_eq_some_iff.mp hq
    refine ⟨fun j hj r hr => ?_, _, List.getElem?_set_self hi, rfl⟩
    obtain ⟨rfl, -⟩ | ⟨-, hold⟩ := ThreadPool.getElem?_set_eq_some hq hr
    · exact absurd hj (Nat.lt_irrefl j)
    · exact hok j hj r hold
  · rw [PhaseOk, hphase] at hok
    intro j hj r hr
    exact hok j (Nat.lt_of_lt_of_le hj (List.getElem?_eq_none_iff.mp hq)) r hr
  · rw [PhaseOk, hphase] at hok
    intro j hj r hr
    obtain hlt | rfl := Nat.lt_succ_iff_lt_or_eq.mp hj
    · exact hok.1 j hlt r hr
    · obtain rfl := Option.some.inj (hq.symm.trans hr)
      exact hstopped

end VkShutdown

/-! ### What the queues hold

The objects of a queue are where they were, or in the lists that are freed.
-/

/-- What stays of a queue from the call on. -/
structure QueueHistory.Follows (h : QueueHistory) (q : DeviceQueue) : Prop where
  commandPool : q.commandPool = h.commandPool
  perm : q.syncs.syncs.Perm h.created
  inv : q.syncs.Inv
  idle : q.syncs.render = .idle
  count : q.syncs.count = h.queue.syncs.count

namespace QueueHistory

variable {h : QueueHistory} {q : DeviceQueue}

theorem queue_mem_states (h : QueueHistory) : h.queue.syncs ∈
    Runs.states QueueSyncs.step (.new h.created h.hasPendingWork) h.events :=
  Runs.foldl_mem_states _ _ _

theorem follows_queue (hidle : h.queue.syncs.render = .idle) : h.Follows h.queue where
  commandPool := rfl
  perm := by
    have hnew : (QueueSyncs.new h.created h.hasPendingWork).syncs.Perm h.created :=
      .of_eq (QueueSyncs.syncs_new _ _)
    have hstep (s : QueueSyncs) (e : QueueSyncs.Event) (hs : s.syncs.Perm h.created) :
        (s.step e).syncs.Perm h.created :=
      (QueueSyncs.syncs_step s e).trans hs
    exact Runs.forall_mem_states hstep hnew h.events _ h.queue_mem_states
  inv := by
    have hstep (s : QueueSyncs) (e : QueueSyncs.Event) (hs : s.Inv) : (s.step e).Inv :=
      QueueSyncs.inv_step hs e
    exact Runs.forall_mem_states hstep (QueueSyncs.inv_new _ _) h.events _ h.queue_mem_states
  idle := hidle
  count := rfl

theorem Follows.waiterStep (hf : h.Follows q) :
    h.Follows { q with syncs := q.syncs.waiterStep } where
  commandPool := hf.commandPool
  perm := (QueueSyncs.syncs_waiterStep q.syncs).trans hf.perm
  inv := QueueSyncs.inv_waiterStep hf.inv
  idle := (QueueSyncs.frame_waiterStep q.syncs).2.1.trans hf.idle
  count := (QueueSyncs.frame_waiterStep q.syncs).2.2.trans hf.count

theorem Follows.stop (hf : h.Follows q) :
    h.Follows { q with syncs := q.syncs.stop } :=
  ⟨hf.commandPool, hf.perm, ⟨hf.inv.order, hf.inv.taking⟩, hf.idle, hf.count⟩

end QueueHistory

/-! ### The end

When no step is left, the main thread has returned.
-/

namespace QueueSyncs

variable {s : QueueSyncs}

/-- What the wait for the fences that are left does. -/
theorem foldl_waitFence (ps : List Submitted) (s : QueueSyncs) :
    ps.foldl waitFence s = { s with
      signaledSyncs := s.signaledSyncs ++ ps.map (fun p => p.sync)
      waited := s.waited ++ ps.map (fun p => p.serial) } := by
  induction ps generalizing s with
  | nil => simp
  | cons p ps ih =>
    rw [List.foldl_cons, ih]
    simp [waitFence]

/-- In the end every sync object is in the free pool. -/
theorem freeSyncPool_perm (hidle : s.render = .idle) (hstopped : s.waiter = .stopped) :
    s.waitUnsignaled.reclaimSignaledFences.freeSyncPool.Perm s.syncs := by
  have hpool : s.waitUnsignaled.reclaimSignaledFences.freeSyncPool =
      s.freeSyncPool ++ (s.signaledSyncs ++ s.waitingSyncs.map fun p => p.sync) := by
    rw [waitUnsignaled, foldl_waitFence]
    rfl
  have hrender : RenderThread.idle.syncs = [] := rfl
  rw [hpool, syncs_eq, hidle, hstopped, hrender, WaiterThread.syncs_stopped, List.append_nil,
    List.append_nil]
  apply List.Perm.append_left
  exact List.perm_append_comm

/-- Every submission has been waited for, in order. -/
theorem waited_waitUnsignaled (hinv : s.Inv) (hidle : s.render = .idle)
    (hstopped : s.waiter = .stopped) : s.waitUnsignaled.waited = List.range s.count := by
  have horder := hinv.order
  rw [hidle, hstopped] at horder
  rw [waitUnsignaled, foldl_waitFence, ← horder]
  simp [WaiterThread.inFlight, RenderThread.held]

end QueueSyncs

namespace VkShutdown

variable {s s' : VkShutdown} {e : Event} {hs : List QueueHistory}

theorem follows_step (hf : List.Forall₂ QueueHistory.Follows hs s.queues)
    (h : s.step e = .ok s') : List.Forall₂ QueueHistory.Follows hs s'.queues := by
  obtain ⟨i, q, hq, -, rfl⟩ | ⟨i, q, -, hq, rfl⟩ | ⟨i, -, -, rfl⟩ | ⟨i, q, -, -, -, rfl⟩ :=
    step_cases h
  · exact ThreadPool.forall₂_set hf hq fun r hr => hr.waiterStep
  · exact ThreadPool.forall₂_set hf hq fun r hr => hr.stop
  · exact hf
  · exact hf

/-- What holds of the shutdown at any time. -/
structure Inv (hs : List QueueHistory) (s : VkShutdown) : Prop where
  follows : List.Forall₂ QueueHistory.Follows hs s.queues
  phaseOk : s.PhaseOk

theorem inv_start (hidle : ∀ h ∈ hs, h.queue.syncs.render = .idle) : (start hs).Inv hs where
  follows := by
    rw [start, List.forall₂_map_right_iff, List.forall₂_same]
    exact fun h hh => h.follows_queue (hidle h hh)
  phaseOk := fun j hj => absurd hj (Nat.not_lt_zero j)

theorem inv_run (hidle : ∀ h ∈ hs, h.queue.syncs.render = .idle) {es : List Event}
    (hrun : Runs.runChecked step (start hs) es = .ok s) : s.Inv hs := by
  have hstep (s : VkShutdown) (e : Event) (s' : VkShutdown) (hs' : s.Inv hs) (_ : True)
      (h : s.step e = .ok s') : s'.Inv hs :=
    ⟨follows_step hs'.follows h, phaseOk_step hs'.phaseOk h⟩
  exact Runs.invariant_of_runChecked hstep (inv_start hidle) (fun _ _ => trivial) hrun

/-- Until all threads are joined, the main thread or the one it joins can take a step. -/
theorem exists_step (hinv : s.Inv hs) : s.phase = .joined ∨ ∃ e s', s.step e = .ok s' := by
  have hok := hinv.phaseOk
  cases hphase : s.phase with
  | stopping i =>
    refine .inr ⟨.main, ?_⟩
    rw [step, mainStep, hphase]
    dsimp only
    cases s.queues[i]? <;> exact ⟨_, rfl⟩
  | joining i =>
    rw [PhaseOk, hphase] at hok
    obtain ⟨-, q, hq, hrunning⟩ := hok
    obtain ⟨h, -, hf⟩ := ThreadPool.exists_of_forall₂ hinv.follows hq
    by_cases hstopped : q.syncs.waiter = .stopped
    · refine .inr ⟨.main, { s with phase := .stopping (i + 1) }, ?_⟩
      simp only [step, mainStep, hphase, hq]
      exact if_pos hstopped
    · refine .inr ⟨.waiter i, s.setSyncs i q q.syncs.waiterStep, ?_⟩
      simp only [step, hq]
      exact if_neg (QueueSyncs.not_blocked hf.inv hrunning hstopped)
  | joined => exact .inl rfl

/-! ### Every interleaving ends

As long as the main thread is not through, it or one of the threads can take a step, and each step
lowers the measure.
-/

/-- **The threads are joined.** However the steps of the main thread and the waiting threads
interleave, the main thread never waits for a thread that cannot go on, and all of them have been
joined after a number of steps that depends on the fences that are left. -/
theorem joins (hidle : ∀ h ∈ hs, h.queue.syncs.render = .idle) {es : List Event}
    (hrun : Runs.runChecked step (start hs) es = .ok s) :
    es.length ≤ Runs.total (fun h => h.queue.syncs.weight) hs + 2 * hs.length + 1 ∧
      (s.phase = .joined ∨ ∃ e s', s.step e = .ok s') := by
  refine ⟨?_, exists_step (inv_run hidle hrun)⟩
  have hstart : (start hs).measure =
      Runs.total (fun h => h.queue.syncs.weight) hs + 2 * hs.length + 1 := by
    rw [measure, start, Runs.total_map, List.length_map, left, Nat.sub_zero, Nat.add_assoc]
  have hpaid (s : VkShutdown) (e : Event) (s' : VkShutdown) (_ : True) (_ : True)
      (h : s.step e = .ok s') : True ∧ s'.measure + 1 ≤ s.measure :=
    ⟨trivial, measure_step h⟩
  have hcost := Runs.sum_cost_le (A := fun _ => True) hpaid trivial (fun _ _ => trivial) hrun
  rw [Runs.total_one, hstart] at hcost
  exact Nat.le_trans (Nat.le_add_left _ _) hcost

/-- Two queues: the thread of one has not woken up for a frame, that of the other waits for one. -/
def twoQueues : List QueueHistory :=
  [⟨7, [⟨1, 1, 1, 1⟩, ⟨2, 2, 2, 2⟩], false, [.injectFence, .submit 0, .enqueue]⟩,
    ⟨8, [⟨3, 3, 3, 3⟩, ⟨4, 4, 4, 4⟩], true, [.injectFence, .submit 0, .enqueue, .waiter, .waiter]⟩]

/-- Two queues, of which the second still has a fence to wait for. -/
def stopTwo : List Event :=
  [.main, .waiter 0, .main, .waiter 1, .main, .waiter 1, .waiter 1, .main, .main]

theorem joins_sample : stopTwo.length ≤
    Runs.total (fun h => h.queue.syncs.weight) twoQueues + 2 * twoQueues.length + 1 :=
  have hrun : Runs.runChecked step (start twoQueues) stopTwo = .ok _ := rfl
  (joins (by decide) hrun).1

/-- All threads have stopped when all of them are joined. -/
theorem stopped_of_joined (hinv : s.Inv hs) (hjoined : s.phase = .joined) {i : ℕ} {q : DeviceQueue}
    (hq : s.queues[i]? = some q) : q.syncs.waiter = .stopped := by
  have hok := hinv.phaseOk
  rw [PhaseOk, hjoined] at hok
  obtain ⟨hi, -⟩ := List.getElem?_eq_some_iff.mp hq
  exact hok i hi q hq

/-- What is freed is what was made. -/
theorem freeCalls_perm {qs : List DeviceQueue} (hf : List.Forall₂ QueueHistory.Follows hs qs)
    (hstopped : ∀ q ∈ qs, q.syncs.waiter = .stopped) :
    ((qs.map DeviceQueue.reclaimed).flatMap DeviceQueue.freeCalls).Perm
      (hs.flatMap fun h => h.created.flatMap (destroySync h.commandPool)) := by
  induction hf with
  | nil => exact .nil
  | @cons h q hs qs hq _ ih =>
    obtain ⟨hstop, hrest⟩ := List.forall_mem_cons.mp hstopped
    have hpool : q.reclaimed.syncs.freeSyncPool.Perm h.created :=
      (QueueSyncs.freeSyncPool_perm hq.idle hstop).trans hq.perm
    have hone : q.reclaimed.freeCalls.Perm (h.created.flatMap (destroySync h.commandPool)) := by
      rw [← hq.commandPool]
      exact hpool.flatMap_right _
    exact hone.append (ih hrest)

theorem commandPools_eq {qs : List DeviceQueue} (hf : List.Forall₂ QueueHistory.Follows hs qs) :
    (qs.map DeviceQueue.reclaimed).map (fun q => DestroyCall.destroyCommandPool q.commandPool) =
      hs.map fun h => .destroyCommandPool h.commandPool := by
  induction hf with
  | nil => rfl
  | cons hq _ ih => rw [List.map_cons, List.map_cons, List.map_cons, ih, ← hq.commandPool]; rfl

/-- **Everything is destroyed once.** When the threads are joined, all submissions of all queues
have been waited for, by the waiting thread or now, each once and in order, before anything is
destroyed. Then exactly the sync objects that were made are freed, each once and from the command
pool of its queue, and after them the command pools. -/
theorem destroyed_once (hidle : ∀ h ∈ hs, h.queue.syncs.render = .idle) {es : List Event}
    (hrun : Runs.runChecked step (start hs) es = .ok s) (hjoined : s.phase = .joined) :
    List.Forall₂ (fun h q => q.syncs.waiter = .stopped ∧
        q.syncs.waitUnsignaled.waited = List.range h.queue.syncs.count) hs s.queues ∧
      ∃ frees, s.destroyCalls = s.queues.flatMap (fun q => q.syncs.waitCalls) ++
          (frees ++ hs.map fun h => .destroyCommandPool h.commandPool) ∧
        frees.Perm (hs.flatMap fun h => h.created.flatMap (destroySync h.commandPool)) := by
  have hinv : s.Inv hs := inv_run hidle hrun
  have hstopped (q : DeviceQueue) (hq : q ∈ s.queues) : q.syncs.waiter = .stopped := by
    obtain ⟨i, hi⟩ := List.mem_iff_getElem?.mp hq
    exact stopped_of_joined hinv hjoined hi
  constructor
  · refine List.forall₂_iff_zip.mpr ⟨hinv.follows.length_eq, fun hmem => ?_⟩
    have hf := List.forall₂_zip hinv.follows hmem
    have hstop := hstopped _ (List.of_mem_zip hmem).2
    refine ⟨hstop, ?_⟩
    rw [QueueSyncs.waited_waitUnsignaled hf.inv hf.idle hstop, hf.count]
  · refine ⟨_, ?_, freeCalls_perm hinv.follows hstopped⟩
    rw [destroyCalls, commandPools_eq hinv.follows]

theorem destroyed_once_sample : ∃ s : VkShutdown,
    Runs.runChecked step (start twoQueues) stopTwo = .ok s ∧
      List.Forall₂ (fun h q => q.syncs.waiter = .stopped ∧
        q.syncs.waitUnsignaled.waited = List.range h.queue.syncs.count) twoQueues s.queues :=
  have hrun : Runs.runChecked step (start twoQueues) stopTwo = .ok _ := rfl
  ⟨_, hrun, (destroyed_once (by decide) hrun rfl).1⟩

end VkShutdown

end GameSdk
