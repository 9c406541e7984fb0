import GameSdk.FenceWaiter
import Mathlib.Data.List.Perm.Basic

/-!
# The sync objects of a queue (`SwappyVkBase.cpp`)

`initializeVkSyncObjects` creates the sync objects of a queue when the queue is presented to for the
first time. From then on they only move: from the free pool through a local variable of
`injectFence` to `mWaitingSyncs`, through a local variable of the waiting thread to
`mSignaledSyncs`, and back to the free pool.

A `Place` is one of these five. The theorem about every run is that the places together hold the
created objects, each of them once. At the end it is asked which calls of `initializeVkSyncObjects`
leave a queue with objects at all.
-/

namespace GameSdk

open QueueSyncs (vkSuccess)

/-! ## Making the sync objects

`initializeVkSyncObjects` with the results of the driver as arguments. It stops at the first call
that fails, and leaves what it has made.
-/

/-- The results of the Vulkan calls that make one sync object, and what they store. -/
structure SyncResults where
  createFence : VkResult
  createSemaphore : VkResult
  allocateCommandBuffers : VkResult
  beginCommandBuffer : VkResult
  createEvent : VkResult
  endCommandBuffer : VkResult
  sync : VkSync
  deriving DecidableEq, Repr

/-- The first result that is not `VK_SUCCESS`. -/
def SyncResults.failure (r : SyncResults) : Option VkResult :=
  [r.createFence, r.createSemaphore, r.allocateCommandBuffers, r.beginCommandBuffer,
    r.createEvent, r.endCommandBuffer].find? (· ≠ vkSuccess)

/-- The entries of a queue in the maps that `initializeVkSyncObjects` fills. -/
structure SyncObjects where
  commandPool : Option UInt64
  freeSyncPool : List VkSync
  /-- there is a thread in `mThreads` -/
  thread : Bool
  deriving DecidableEq, Repr

namespace SwappyVkBase

/-- How many sync objects a queue has. -/
def maxPendingFences : ℕ := 2

/-- The loop that makes the sync objects; it ends at the first call that fails. -/
def createSyncs : List SyncResults → List VkSync → VkResult × List VkSync
  | [], pool => (vkSuccess, pool)
  | r :: rs, pool =>
    match r.failure with
    | some res => (res, pool)
    | none => createSyncs rs (pool ++ [r.sync])

/-- `pool` is what `vkCreateCommandPool` answers and stores, `driver i` what the calls in
round `i` of the loop do. -/
def initializeVkSyncObjects (pool : VkResult × UInt64) (driver : ℕ → SyncResults)
    (objects : SyncObjects) : VkResult × SyncObjects :=
  if objects.commandPool.isSome then (vkSuccess, objects)
  else
    -- the argument `&mCommandPool[queue]` makes the entry, even when the call fails
    let objects := { objects with commandPool := some pool.2 }
    if pool.1 ≠ vkSuccess then (pool.1, objects)
    else
      let (res, syncs) :=
        createSyncs ((List.range maxPendingFences).map driver) objects.freeSyncPool
      if res ≠ vkSuccess then (res, { objects with freeSyncPool := syncs })
      else (vkSuccess, { objects with freeSyncPool := syncs, thread := true })

/-- No call was made for the queue. -/
def noObjects : SyncObjects := ⟨none, [], false⟩

/-- A failure is not a success. -/
theorem ne_vkSuccess_of_failure {r : SyncResults} {res : VkResult} (h : r.failure = some res) :
    res ≠ vkSuccess := by
  simpa using List.find?_some h

/-- If no call fails there is an object for each round. -/
theorem createSyncs_of_success {rs : List SyncResults} {pool syncs : List VkSync}
    (h : createSyncs rs pool = (vkSuccess, syncs)) :
    syncs = pool ++ rs.map (fun r => r.sync) := by
  induction rs generalizing pool with
  | nil => simpa [createSyncs, eq_comm] using h
  | cons r rs ih =>
    rw [createSyncs] at h
    split at h
    · next hfailure =>
      exact absurd (congrArg Prod.fst h) (ne_vkSuccess_of_failure hfailure)
    · simpa using ih h

/-- The first call succeeds only after all sync objects are made. -/
theorem initializeVkSyncObjects_eq_success {pool : VkResult × UInt64} {driver : ℕ → SyncResults}
    {objects : SyncObjects}
    (h : initializeVkSyncObjects pool driver noObjects = (vkSuccess, objects)) :
    objects =
      ⟨some pool.2, (List.range maxPendingFences).map (fun i => (driver i).sync), true⟩ := by
  rw [initializeVkSyncObjects, if_neg (by simp [noObjects])] at h
  split at h
  · next hpool => exact absurd (congrArg Prod.fst h) hpool
  rcases hsyncs : createSyncs ((List.range maxPendingFences).map driver) [] with ⟨res, syncs⟩
  simp only [noObjects, hsyncs] at h
  split at h
  · next hres => exact absurd (congrArg Prod.fst h) hres
  · next hres =>
    rw [not_not.mp hres] at hsyncs
    obtain rfl := createSyncs_of_success hsyncs
    simpa [eq_comm, Function.comp_def] using congrArg Prod.snd h

end SwappyVkBase

/-! ## Where a sync object is

The objects at each place, and at all of them.
-/

/-- The sync object in the local variable of `injectFence`. -/
def RenderThread.syncs : RenderThread → List VkSync
  | .submitted p _ => [p.sync]
  | _ => []

/-- The sync object in the local variable of `waitForFenceThreadMain`. -/
def WaiterThread.syncs : WaiterThread → List VkSync
  | .inWait p => [p.sync]
  | .returned p => [p.sync]
  | _ => []

@[simp] theorem WaiterThread.syncs_waiting : waiting.syncs = [] := rfl

@[simp] theorem WaiterThread.syncs_taking : taking.syncs = [] := rfl

@[simp] theorem WaiterThread.syncs_inWait (p : Submitted) : (inWait p).syncs = [p.sync] := rfl

@[simp] theorem WaiterThread.syncs_returned (p : Submitted) : (returned p).syncs = [p.sync] := rfl

@[simp] theorem WaiterThread.syncs_stopped : stopped.syncs = [] := rfl

namespace QueueSyncs

/-- Where a sync object can be. -/
inductive Place where
  | freeSyncPool
  | waitingSyncs
  | signaledSyncs
  | injectFence
  | waitForFenceThreadMain
  deriving DecidableEq, Repr

/-- All places. -/
def Place.all : List Place :=
  [.freeSyncPool, .waitingSyncs, .signaledSyncs, .injectFence, .waitForFenceThreadMain]

/-- The sync objects at a place. -/
def syncsAt (s : QueueSyncs) : Place → List VkSync
  | .freeSyncPool => s.freeSyncPool
  | .waitingSyncs => s.waitingSyncs.map (fun p => p.sync)
  | .signaledSyncs => s.signaledSyncs
  | .injectFence => s.render.syncs
  | .waitForFenceThreadMain => s.waiter.syncs

/-- The sync objects of all places. -/
def syncs (s : QueueSyncs) : List VkSync := Place.all.flatMap s.syncsAt

/-- Nothing is lost and nothing is duplicated: every place holds some of the sync objects
that were created, and together the places hold each of them once. -/
structure Conserved (created : List VkSync) (s : QueueSyncs) : Prop where
  perm : s.syncs.Perm created
  exactlyOne : created.Nodup → ∀ sync ∈ created, ∃! place, sync ∈ s.syncsAt place
  nodup : created.Nodup → ∀ place, (s.syncsAt place).Nodup
  sizes : s.freeSyncPool.length + s.waitingSyncs.length + s.signaledSyncs.length +
    s.render.syncs.length + s.waiter.syncs.length = created.length

variable {s : QueueSyncs}

theorem Place.mem_all (place : Place) : place ∈ Place.all := by
  rcases place <;> decide

theorem syncs_eq (s : QueueSyncs) :
    s.syncs = s.freeSyncPool ++ (s.waitingSyncs.map (fun p => p.sync) ++
      (s.signaledSyncs ++ (s.render.syncs ++ s.waiter.syncs))) := by
  simp [syncs, Place.all, syncsAt]

@[simp] theorem syncs_loop (s : QueueSyncs) : s.loop.syncs = [] := by
  rw [loop]
  split <;> rfl

/-! ## One step

A step permutes the objects of all places, one lemma for each of the four parts.
-/

/-- Reclaiming moves objects to the pool. -/
theorem syncs_reclaimSignaledFences (s : QueueSyncs) :
    s.reclaimSignaledFences.syncs.Perm s.syncs := by
  rw [List.perm_iff_count]
  intro sync
  simp only [syncs_eq, reclaimSignaledFences, List.count_append, List.count_nil]
  omega

/-- A submission moves one from the pool to the variable. -/
theorem syncs_submit (hinjecting : s.render = .injecting) (res : VkResult) :
    (s.submit res).syncs.Perm s.syncs := by
  rw [List.perm_iff_count]
  intro sync
  rw [submit]
  rcases hpool : s.freeSyncPool with _ | ⟨first, rest⟩
  · simp [syncs_eq, hinjecting, hpool, RenderThread.syncs]
  · simp only [syncs_eq, hinjecting, hpool, RenderThread.syncs, List.count_append,
      List.count_cons, List.count_nil]
    omega

/-- The end of the frame moves it to the waiting objects. -/
theorem syncs_enqueue {p : Submitted} {res : VkResult} (hsubmitted : s.render = .submitted p res) :
    (s.enqueue p res).syncs.Perm s.syncs := by
  rw [List.perm_iff_count]
  intro sync
  simp only [syncs_eq, enqueue, hsubmitted, RenderThread.syncs, List.map_append, List.map_cons,
    List.map_nil, List.count_append, List.count_cons, List.count_nil]
  omega

/-- The waiting thread moves one object at a time. -/
theorem syncs_waiterStep (s : QueueSyncs) : s.waiterStep.syncs.Perm s.syncs := by
  rw [List.perm_iff_count]
  intro sync
  rw [waiterStep]
  cases hw : s.waiter with
  | waiting =>
    simp only
    split
    · rcases s.running <;> simp [syncs_eq, hw]
    · rfl
  | taking =>
    rcases hwaiting : s.waitingSyncs with _ | ⟨p, rest⟩
    · rfl
    · simp only [syncs_eq, hw, hwaiting, WaiterThread.syncs_taking, WaiterThread.syncs_inWait,
        List.map_cons, List.count_append, List.count_cons, List.count_nil]
      omega
  | inWait p => simp [syncs_eq, hw]
  | returned p =>
    simp only [syncs_eq, hw, syncs_loop, WaiterThread.syncs_returned, List.count_append,
      List.count_cons, List.count_nil]
    omega
  | stopped => rfl

/-- No step makes, loses or copies a sync object. -/
theorem syncs_step (s : QueueSyncs) (e : Event) : (s.step e).syncs.Perm s.syncs := by
  cases e with
  | reclaimSignaledFences =>
    rw [step]
    split
    · exact syncs_reclaimSignaledFences s
    · rfl
  | lastFrameIsCompleted mode => rfl
  | injectFence =>
    rw [step]
    split
    · next hidle =>
      have hlocal : { s.reclaimSignaledFences with render := .injecting }.syncs =
          s.reclaimSignaledFences.syncs := by
        simp [syncs_eq, reclaimSignaledFences, hidle, RenderThread.syncs]
      exact hlocal ▸ syncs_reclaimSignaledFences s
    · rfl
  | submit res =>
    rw [step]
    split
    · next hinjecting => exact syncs_submit hinjecting res
    · rfl
  | enqueue =>
    rw [step]
    split
    · next p res hsubmitted => exact syncs_enqueue hsubmitted
    · rfl
  | waiter => exact syncs_waiterStep s

/-! ## Every run

What is permuted in every step is what was created.
-/

/-- A permutation of what was created conserves it. -/
theorem conserved_of_perm {created : List VkSync} (hperm : s.syncs.Perm created) :
    s.Conserved created where
  perm := hperm
  exactlyOne hnodup sync hmem := by
    have hdisjoint := (List.nodup_flatMap.mp (hperm.nodup_iff.mpr hnodup)).2
    have : Std.Symm (Function.onFun List.Disjoint s.syncsAt) :=
      ⟨fun _ _ h => List.disjoint_symm h⟩
    obtain ⟨place, -, hplace⟩ := List.mem_flatMap.mp (hperm.mem_iff.mpr hmem)
    refine ⟨place, hplace, fun other hother => ?_⟩
    by_contra hne
    exact hdisjoint.forall (Place.mem_all other) (Place.mem_all place) hne hother hplace
  nodup hnodup place :=
    (List.nodup_flatMap.mp (hperm.nodup_iff.mpr hnodup)).1 place (Place.mem_all place)
  sizes := by
    rw [← hperm.length_eq, syncs_eq]
    simp only [List.length_append, List.length_map]
    omega

/-- At first all objects are in the pool. -/
theorem syncs_new (created : List VkSync) (hasPendingWork : Bool) :
    (new created hasPendingWork).syncs = created := by
  simp [syncs_eq, new, RenderThread.syncs]

/-- **The sync objects that `initializeVkSyncObjects` made are conserved** in every state of
every run of the two threads. There are `maxPendingFences` of them. -/
theorem conserved_of_initialized {pool : VkResult × UInt64} {driver : ℕ → SyncResults}
    {objects : SyncObjects}
    (hinit : SwappyVkBase.initializeVkSyncObjects pool driver SwappyVkBase.noObjects =
      (vkSuccess, objects))
    (hasPendingWork : Bool) (es : List Event) :
    objects.freeSyncPool.length = SwappyVkBase.maxPendingFences ∧
      objects.freeSyncPool =
        (List.range SwappyVkBase.maxPendingFences).map (fun i => (driver i).sync) ∧
      ∀ s ∈ Runs.states step (new objects.freeSyncPool hasPendingWork) es,
        s.Conserved objects.freeSyncPool := by
  obtain rfl := SwappyVkBase.initializeVkSyncObjects_eq_success hinit
  refine ⟨by simp, rfl, fun s hs => conserved_of_perm ?_⟩
  exact Runs.forall_mem_states (fun s e h => (syncs_step s e).trans h)
    (.of_eq (syncs_new _ _)) es s hs

/-- No call fails. -/
def successfulDriver (i : ℕ) : SyncResults :=
  ⟨0, 0, 0, 0, 0, 0, ⟨.ofNat (i + 1), .ofNat (i + 1), .ofNat (i + 1), .ofNat (i + 1)⟩⟩

/-- Two sync objects, through a frame. -/
theorem conserved_of_initialized_two :
    ([.injectFence, .submit 0, .enqueue, .waiter, .waiter, .waiter].foldl step
      (new [⟨1, 1, 1, 1⟩, ⟨2, 2, 2, 2⟩] false)).Conserved [⟨1, 1, 1, 1⟩, ⟨2, 2, 2, 2⟩] :=
  (@conserved_of_initialized (0, 7) successfulDriver
    ⟨some 7, [⟨1, 1, 1, 1⟩, ⟨2, 2, 2, 2⟩], true⟩ (by decide) false _).2.2 _
    (Runs.foldl_mem_states _ _ _)

end QueueSyncs

/-! ## Every sequence of calls

A queue is initialized in the first call for it, whether or not this succeeds. Later calls find its
command pool and return at once.
-/

namespace SwappyVkBase

/-- A call of `initializeVkSyncObjects`, with the answers of the Vulkan calls it makes. -/
structure Call where
  queue : UInt64
  queueFamilyIndex : UInt32
  pool : VkResult × UInt64
  driver : ℕ → SyncResults

/-- None of the Vulkan calls fails. -/
def Call.Succeeds (c : Call) : Prop :=
  c.pool.1 = vkSuccess ∧ ∀ i ∈ List.range maxPendingFences, (c.driver i).failure = none

instance (c : Call) : Decidable c.Succeeds := inferInstanceAs (Decidable (_ ∧ _))

/-- The entries of all queues, and the calls so far. -/
structure Device where
  objects : UInt64 → SyncObjects
  calls : List Call

namespace Device

/-- Before the first call. -/
def start : Device := ⟨fun _ => noObjects, []⟩

/-- What a call returns, and the entries of its queue after it. -/
def call (d : Device) (c : Call) : VkResult × SyncObjects :=
  initializeVkSyncObjects c.pool c.driver (d.objects c.queue)

/-- One call. -/
def step (d : Device) (c : Call) : Device :=
  ⟨Function.update d.objects c.queue (d.call c).2, d.calls ++ [c]⟩

/-- After a call that succeeds, `injectFence` finds the thread of the queue, and the sync
objects that some call has made without a failure. -/
def FindsObjects (d : Device) (c : Call) : Prop :=
  (d.call c).1 = vkSuccess →
    (d.call c).2.thread = true ∧
      (d.call c).2.freeSyncPool.length = maxPendingFences ∧
      ∃ c' ∈ d.calls ++ [c], c'.queue = c.queue ∧ c'.Succeeds ∧
        (d.call c).2.freeSyncPool = (List.range maxPendingFences).map fun i => (c'.driver i).sync

/-- The first call for a queue. -/
def firstCall (d : Device) (queue : UInt64) : Option Call :=
  d.calls.find? fun c => c.queue = queue

/-- If this is not the first call for the queue, no Vulkan call failed in the first one. -/
def CallOk (d : Device) (c : Call) : Prop := ∀ c' ∈ d.firstCall c.queue, c'.Succeeds

end Device

theorem createSyncs_eq_success_iff {rs : List SyncResults} {pool : List VkSync} :
    (createSyncs rs pool).1 = vkSuccess ↔ ∀ r ∈ rs, r.failure = none := by
  induction rs generalizing pool with
  | nil => simp [createSyncs]
  | cons r rs ih =>
    rw [createSyncs, List.forall_mem_cons]
    split
    · next res hfailure =>
      exact iff_of_false (ne_vkSuccess_of_failure hfailure) fun h =>
        (nomatch hfailure.symm.trans h.1)
    · next hnone => rw [ih, and_iff_right hnone]

/-- What the first call for a queue leaves: a thread and all sync objects, or no thread. -/
theorem first_initializeVkSyncObjects (c : Call) :
    (c.Succeeds ∧ initializeVkSyncObjects c.pool c.driver noObjects = (vkSuccess,
      ⟨some c.pool.2, (List.range maxPendingFences).map (fun i => (c.driver i).sync), true⟩)) ∨
    (¬ c.Succeeds ∧ ∃ res syncs, res ≠ vkSuccess ∧
      initializeVkSyncObjects c.pool c.driver noObjects =
        (res, ⟨some c.pool.2, syncs, false⟩)) := by
  rcases hinit : initializeVkSyncObjects c.pool c.driver noObjects with ⟨res, objects⟩
  rw [initializeVkSyncObjects, if_neg (by simp [noObjects])] at hinit
  have hloop : (createSyncs ((List.range maxPendingFences).map c.driver)
      noObjects.freeSyncPool).1 = vkSuccess ↔ _ := createSyncs_eq_success_iff
  rw [List.forall_mem_map] at hloop
  rcases hsyncs : createSyncs ((List.range maxPendingFences).map c.driver)
    noObjects.freeSyncPool with ⟨res', syncs⟩
  simp only [hsyncs] at hinit hloop
  split at hinit
  · next hpool =>
    cases hinit
    exact Or.inr ⟨fun h => hpool h.1, _, _, hpool, rfl⟩
  · next hpool =>
    rw [not_not] at hpool
    split at hinit
    · next hres =>
      cases hinit
      exact Or.inr ⟨fun h => hres (hloop.mpr h.2), _, _, hres, rfl⟩
    · next hres =>
      rw [not_not] at hres
      subst hres
      cases hinit
      refine Or.inl ⟨⟨hpool, hloop.mp rfl⟩, ?_⟩
      rw [createSyncs_of_success hsyncs, List.map_map]
      rfl

namespace Device

/-! Only the first call for a queue does anything. -/

/-- The entries of a queue are those of the first call for it. -/
structure Inv (d : Device) : Prop where
  first : ∀ queue, d.objects queue = match d.firstCall queue with
    | none => noObjects
    | some c => (initializeVkSyncObjects c.pool c.driver noObjects).2

variable {d : Device}

theorem call_of_firstCall (hinv : d.Inv) {c c' : Call} (h : d.firstCall c.queue = some c') :
    d.call c = (vkSuccess, (initializeVkSyncObjects c'.pool c'.driver noObjects).2) := by
  have hobjects := hinv.first c.queue
  simp only [h] at hobjects
  rw [call, hobjects]
  obtain ⟨-, hinit⟩ | ⟨-, res, syncs, -, hinit⟩ := first_initializeVkSyncObjects c'
  · rw [hinit]
    rfl
  · rw [hinit]
    rfl

theorem call_of_first (hinv : d.Inv) {c : Call} (h : d.firstCall c.queue = none) :
    d.call c = initializeVkSyncObjects c.pool c.driver noObjects := by
  have hobjects := hinv.first c.queue
  simp only [h] at hobjects
  rw [call, hobjects]

theorem inv_step (hinv : d.Inv) (c : Call) : (d.step c).Inv := by
  refine ⟨fun queue => ?_⟩
  by_cases hqueue : queue = c.queue
  · subst hqueue
    simp only [step, Function.update_self, firstCall, List.find?_append]
    cases hfirst : d.firstCall c.queue with
    | none =>
      rw [firstCall] at hfirst
      rw [call_of_first hinv hfirst, hfirst]
      simp
    | some c' =>
      rw [firstCall] at hfirst
      rw [call_of_firstCall hinv hfirst, hfirst]
      rfl
  · have hsame : (d.step c).firstCall queue = d.firstCall queue := by
      simp [step, firstCall, List.find?_append, Ne.symm hqueue]
    rw [hsame, ← hinv.first queue]
    exact Function.update_of_ne hqueue _ _

theorem findsObjects_iff (hinv : d.Inv) (c : Call) : d.FindsObjects c ↔ d.CallOk c := by
  cases hfirst : d.firstCall c.queue with
  | none =>
    refine iff_of_true (fun hres => ?_) fun c' hc' => (nomatch hfirst.symm.trans hc')
    rw [call_of_first hinv hfirst] at hres ⊢
    obtain ⟨hsucceeds, hinit⟩ | ⟨-, res, syncs, hne, hinit⟩ := first_initializeVkSyncObjects c
    · rw [hinit]
      exact ⟨rfl, by simp, c, by simp, rfl, hsucceeds, rfl⟩
    · rw [hinit] at hres
      exact absurd hres hne
  | some c' =>
    have hmem : c' ∈ d.calls := List.mem_of_find?_eq_some hfirst
    have hqueue : c'.queue = c.queue := by simpa using List.find?_some hfirst
    rw [FindsObjects, call_of_firstCall hinv hfirst, CallOk, hfirst]
    simp only [Option.mem_some_iff, forall_eq', forall_const]
    obtain ⟨hsucceeds, hinit⟩ | ⟨hfails, res, syncs, -, hinit⟩ := first_initializeVkSyncObjects c'
    · rw [hinit]
      exact iff_of_true ⟨rfl, by simp, c', List.mem_append_left _ hmem, hqueue, hsucceeds, rfl⟩
        hsucceeds
    · rw [hinit]
      exact iff_of_false (fun h => (nomatch h.1)) hfails

/-- **What a call has not made is missing later**: the calls that succeed have made what
`injectFence` needs exactly when no first call for a queue, that is followed by another, has
failed. -/
theorem findsObjects_iff_callOk (calls : List Call) :
    Runs.StepsOk step FindsObjects start calls ↔ Runs.StepsOk step CallOk start calls :=
  Runs.stepsOk_congr (fun _ c hinv => inv_step hinv c) (fun _ c hinv => findsObjects_iff hinv c)
    ⟨fun _ => rfl⟩ calls

/-- The command pool is not created; the next call returns `VK_SUCCESS`, and there is no
thread. -/
theorem not_findsObjects_retry :
    ¬ Runs.StepsOk step FindsObjects start
      [⟨1, 0, (-1, 0), QueueSyncs.successfulDriver⟩,
        ⟨1, 0, (0, 7), QueueSyncs.successfulDriver⟩] := by
  rintro ⟨-, hsecond, -⟩
  exact absurd (hsecond rfl).1 (by decide)

end Device

end SwappyVkBase

end GameSdk
