import GameSdk.SyncObjects

/-!
# The reuse of sync objects (`SwappyVkBase.cpp`)

`waitForFenceThreadMain` logs a result of `vkWaitForFences` that is not `VK_SUCCESS`, and
goes on as if the fence had signaled: it resets the fence, and the sync object circulates.
Here the GPU runs beside the two threads of a queue. `vkWaitForFences` may return anything
at any time, but it returns `VK_SUCCESS` only for a fence that has signaled.

`reuseOk_iff` is about one step: a sync object is reset, or submitted, only after its fences have
signaled if and only if a wait that fails has found the fence signaled. The invariant behind it is
that every submission whose fence has not signaled is still waited for.
-/

namespace GameSdk

open QueueSyncs (vkSuccess)

/-! ## Submissions

A submission is a sync object with its serial number. It is under way from `vkQueueSubmit` to the
return of the wait for it.
-/

/-- The submission in the local variable of `injectFence`. -/
def RenderThread.unsignaled : RenderThread → List Submitted
  | .submitted p _ => [p]
  | _ => []

/-- The submission that `vkWaitForFences` waits for. -/
def WaiterThread.unsignaled : WaiterThread → List Submitted
  | .inWait p => [p]
  | _ => []

/-- The sync object that was reset and is not in `mSignaledSyncs` yet. -/
def WaiterThread.returnedSync : WaiterThread → List VkSync
  | .returned p => [p.sync]
  | _ => []

namespace QueueSyncs

/-- The submissions whose wait has not returned. -/
def unsignaled (s : QueueSyncs) : List Submitted :=
  s.waitingSyncs ++ (s.render.unsignaled ++ s.waiter.unsignaled)

/-- What the call of `vkQueueSubmit` passes, if there is a free sync object. -/
def submission (s : QueueSyncs) : Option Submitted :=
  match s.render, s.freeSyncPool with
  | .injecting, sync :: _ => some ⟨sync, s.count⟩
  | _, _ => none

variable {s : QueueSyncs}

/-- A sync object is free, or in a submission whose wait has not returned, or was reset. -/
theorem count_syncs (s : QueueSyncs) (sync : VkSync) :
    s.syncs.count sync = s.freeSyncPool.count sync +
      (s.unsignaled.map (fun p => p.sync)).count sync + s.signaledSyncs.count sync +
      s.waiter.returnedSync.count sync := by
  have hrender : s.render.syncs = s.render.unsignaled.map (fun p => p.sync) := by
    rcases s.render <;> rfl
  have hwaiter : s.waiter.syncs =
      s.waiter.unsignaled.map (fun p => p.sync) ++ s.waiter.returnedSync := by
    rcases s.waiter <;> rfl
  simp only [syncs_eq, hrender, hwaiter, unsignaled, List.map_append, List.count_append]
  omega

theorem submission_eq_some {p : Submitted} (h : s.submission = some p) :
    s.render = .injecting ∧ p.sync ∈ s.freeSyncPool := by
  rw [submission] at h
  split at h
  · next hrender hpool =>
    obtain rfl := Option.some.inj h
    exact ⟨hrender, hpool ▸ List.mem_cons_self ..⟩
  · cases h

/-! ## Which submissions are waited for

Only a return of `vkWaitForFences` ends the wait for a submission.
-/

/-- The waiting thread drops a submission only when `vkWaitForFences` returns. -/
theorem mem_unsignaled_waiterStep {q : Submitted} (hmem : q ∈ s.unsignaled)
    (hq : q ∉ s.waiter.unsignaled) : q ∈ s.waiterStep.unsignaled := by
  have hold : q ∈ s.waitingSyncs ∨ q ∈ s.render.unsignaled := by
    simpa [unsignaled, hq] using hmem
  rw [waiterStep]
  cases s.waiter with
  | waiting =>
    simp only
    split
    · exact List.mem_append.mpr (hold.imp_right (List.mem_append_left _))
    · exact hmem
  | taking =>
    rcases hwaiting : s.waitingSyncs with _ | ⟨p, rest⟩
    · exact hmem
    · rw [hwaiting, List.mem_cons] at hold
      simp only [unsignaled, WaiterThread.unsignaled, List.mem_append, List.mem_singleton]
      rcases hold with (rfl | hrest) | hrender
      · exact .inr (.inr rfl)
      · exact .inl hrest
      · exact .inr (.inl hrender)
  | inWait p => exact List.mem_append.mpr (hold.imp_right (List.mem_append_left _))
  | returned p => exact List.mem_append.mpr (hold.imp_right (List.mem_append_left _))
  | stopped => exact hmem

/-- The render thread drops none. -/
theorem mem_unsignaled_step {q : Submitted} (hmem : q ∈ s.unsignaled) (e : Event)
    (hq : e = .waiter → q ∉ s.waiter.unsignaled) : q ∈ (s.step e).unsignaled := by
  cases e with
  | reclaimSignaledFences =>
    rw [step]
    split <;> exact hmem
  | lastFrameIsCompleted mode => exact hmem
  | injectFence =>
    rw [step]
    split
    · next hidle =>
      simpa [unsignaled, reclaimSignaledFences, hidle, RenderThread.unsignaled] using hmem
    · exact hmem
  | submit res =>
    rw [step]
    split
    · next hinjecting =>
      have hold : q ∈ s.waitingSyncs ∨ q ∈ s.waiter.unsignaled := by
        simpa [unsignaled, hinjecting, RenderThread.unsignaled] using hmem
      -- with a free sync or without, those submitted before stay
      rw [submit]
      split <;> exact List.mem_append.mpr (hold.imp_right (List.mem_append_right _))
    · exact hmem
  | enqueue =>
    rw [step]
    split
    · next p res hsubmitted =>
      simp only [unsignaled, hsubmitted, RenderThread.unsignaled, List.mem_append,
        List.mem_singleton, enqueue, List.not_mem_nil, false_or] at hmem ⊢
      rcases hmem with hwaiting | hp | hwaiter
      · exact .inl (.inl hwaiting)
      · exact .inl (.inr hp)
      · exact .inr hwaiter
    · exact hmem
  | waiter =>
    rw [step]
    exact mem_unsignaled_waiterStep hmem (hq rfl)

/-- What is passed to `vkQueueSubmit` is then waited for. -/
theorem mem_unsignaled_of_submission {p : Submitted} (h : s.submission = some p)
    (res : VkResult) : p ∈ (s.step (.submit res)).unsignaled := by
  rw [submission] at h
  split at h
  · next hrender hpool =>
    obtain rfl := Option.some.inj h
    rw [step, if_pos hrender, submit, hpool]
    simp [unsignaled, RenderThread.unsignaled]
  · cases h

/-! ## One owner for every sync object

An object is free, or in one submission, or reset and on its way back. So what is free is not waited
for.
-/

/-- No step makes a second copy of an object. -/
theorem nodup_step (hnodup : s.syncs.Nodup) (e : Event) : (s.step e).syncs.Nodup :=
  (syncs_step s e).nodup_iff.mpr hnodup

/-- Two submissions that are waited for have different objects. -/
theorem eq_of_unsignaled (hnodup : s.syncs.Nodup) {p q : Submitted} (hp : p ∈ s.unsignaled)
    (hq : q ∈ s.unsignaled) (h : q.sync = p.sync) : q = p := by
  have hmap : (s.unsignaled.map (fun p => p.sync)).Nodup := by
    rw [List.nodup_iff_count_le_one]
    intro sync
    have hle := List.nodup_iff_count_le_one.mp hnodup sync
    rw [count_syncs] at hle
    omega
  exact List.inj_on_of_nodup_map hmap hq hp h

/-- A free object is not in a submission. -/
theorem sync_ne_of_free (hnodup : s.syncs.Nodup) {sync : VkSync} (hfree : sync ∈ s.freeSyncPool)
    {q : Submitted} (hq : q ∈ s.unsignaled) : q.sync ≠ sync := by
  rintro rfl
  have hle := List.nodup_iff_count_le_one.mp hnodup q.sync
  have hpool : 0 < s.freeSyncPool.count q.sync := List.count_pos_iff.mpr hfree
  have hwait : 0 < (s.unsignaled.map (fun p => p.sync)).count q.sync :=
    List.count_pos_iff.mpr (List.mem_map_of_mem hq)
  rw [count_syncs] at hle
  omega

end QueueSyncs

/-! ## The GPU

Besides the queue there are two ghosts, the submissions that the driver has accepted and those whose
fence has signaled.
-/

/-- A queue, and what the GPU has done. -/
structure GpuQueue where
  queue : QueueSyncs
  /-- ghost: the submissions that `vkQueueSubmit` accepted -/
  accepted : List Submitted
  /-- ghost: those whose fence has signaled -/
  signaled : List ℕ
  deriving DecidableEq, Repr

namespace GpuQueue

/-- A step of a thread, a return of the driver, or a signal of the GPU. -/
inductive Event where
  /-- a step of one of the threads, but for the return of `vkWaitForFences` -/
  | thread (e : QueueSyncs.Event)
  | vkWaitForFences (res : VkResult)
  /-- the GPU signals the fence of a submission -/
  | signal (serial : ℕ)
  deriving DecidableEq, Repr

/-- A queue whose fences have not been used. -/
def new (syncs : List VkSync) (hasPendingWork : Bool) : GpuQueue :=
  ⟨.new syncs hasPendingWork, [], []⟩

variable (s : GpuQueue)

/-- The submission whose wait returns. -/
def returns (res : VkResult) : Option Submitted :=
  match s.queue.waiter with
  | .inWait p => if res = vkSuccess ∧ p.serial ∉ s.signaled then none else some p
  | _ => none

/-- One event, on the state in which it happens. -/
def step : Event → GpuQueue
  | .thread (.submit res) =>
    { s with
      queue := s.queue.step (.submit res)
      accepted := s.accepted ++ if res = vkSuccess then s.queue.submission.toList else [] }
  | .thread .waiter =>
    if s.queue.waiter.unsignaled = [] then { s with queue := s.queue.step .waiter } else s
  | .thread e => { s with queue := s.queue.step e }
  | .vkWaitForFences res =>
    if (s.returns res).isSome then { s with queue := s.queue.step .waiter } else s
  | .signal serial =>
    if serial ∈ s.accepted.map (fun p => p.serial) then
      { s with signaled := s.signaled ++ [serial] }
    else s

/-- The fences of all submissions of a sync object have signaled. -/
def HasSignaled (sync : VkSync) : Prop :=
  ∀ p ∈ s.accepted, p.sync = sync → p.serial ∈ s.signaled

/-- The sync object that is reset or passed to `vkQueueSubmit` may be. -/
def ReuseOk : Event → Prop
  | .thread (.submit _) => ∀ p ∈ s.queue.submission, s.HasSignaled p.sync
  | .vkWaitForFences res => ∀ p ∈ s.returns res, s.HasSignaled p.sync
  | _ => True

/-- The condition on `vkWaitForFences`: when it fails for a submission that
`vkQueueSubmit` accepted, the fence has signaled by then. -/
def WaitOk : Event → Prop
  | .vkWaitForFences res =>
    ∀ p ∈ s.returns res, res ≠ vkSuccess → p ∈ s.accepted → p.serial ∈ s.signaled
  | _ => True

/-! ## One step

The invariant, for the threads, for a submission, and for the return of the wait.
-/

/-- A submission whose fence has not signaled is waited for. -/
structure Inv : Prop where
  nodup : s.queue.syncs.Nodup
  waitedFor : ∀ p ∈ s.accepted, p.serial ∈ s.signaled ∨ p ∈ s.queue.unsignaled

variable {s}

/-- At first nothing was accepted. -/
theorem inv_new {syncs : List VkSync} (hnew : syncs.Nodup) (hasPendingWork : Bool) :
    (new syncs hasPendingWork).Inv :=
  ⟨by rw [new, QueueSyncs.syncs_new]; exact hnew, fun p hp => absurd hp List.not_mem_nil⟩

/-- A wait returns for the submission of the waiting thread. -/
theorem returns_eq_some {res : VkResult} {p : Submitted} (h : s.returns res = some p) :
    s.queue.waiter = .inWait p ∧ (res = vkSuccess → p.serial ∈ s.signaled) := by
  rw [returns] at h
  split at h
  · next hw =>
    split at h
    · cases h
    · next hres =>
      obtain rfl := Option.some.inj h
      exact ⟨hw, fun hsuccess => by_contra fun hnot => hres ⟨hsuccess, hnot⟩⟩
  · cases h

/-- A step of a thread that is not the return of `vkWaitForFences`. -/
theorem inv_thread (hinv : s.Inv) (e : QueueSyncs.Event)
    (he : e = .waiter → s.queue.waiter.unsignaled = []) :
    { s with queue := s.queue.step e }.Inv where
  nodup := QueueSyncs.nodup_step hinv.nodup e
  waitedFor p hp := (hinv.waitedFor p hp).imp_right fun hmem =>
    QueueSyncs.mem_unsignaled_step hmem e fun h => by rw [he h]; exact List.not_mem_nil

/-- An accepted submission is waited for. -/
theorem inv_submit (hinv : s.Inv) (res : VkResult) : (s.step (.thread (.submit res))).Inv := by
  have hthread := inv_thread hinv (.submit res) (fun h => nomatch h)
  refine ⟨hthread.nodup, fun p hp => ?_⟩
  rcases List.mem_append.mp hp with hold | hnew
  · exact hthread.waitedFor p hold
  · split at hnew
    · exact .inr (QueueSyncs.mem_unsignaled_of_submission (Option.mem_toList.mp hnew) res)
    · exact absurd hnew List.not_mem_nil

/-- A wait that returns in time drops a submission that has signaled. -/
theorem inv_vkWaitForFences (hinv : s.Inv) {res : VkResult}
    (hok : s.WaitOk (.vkWaitForFences res)) : (s.step (.vkWaitForFences res)).Inv := by
  change Inv (if (s.returns res).isSome then { s with queue := s.queue.step .waiter } else s)
  split
  · next hreturns =>
    obtain ⟨p, hp⟩ := Option.isSome_iff_exists.mp hreturns
    obtain ⟨hw, hsuccess⟩ := returns_eq_some hp
    refine ⟨QueueSyncs.nodup_step hinv.nodup .waiter, fun q hq => ?_⟩
    by_cases hqp : q = p
    · subst hqp
      by_cases hres : res = vkSuccess
      · exact .inl (hsuccess hres)
      · exact .inl (hok q hp hres hq)
    · refine (hinv.waitedFor q hq).imp_right fun hmem =>
        QueueSyncs.mem_unsignaled_step hmem .waiter fun _ => ?_
      rw [hw]
      exact fun hmem => hqp (List.mem_singleton.mp hmem)
  · exact hinv

/-- **Every step keeps the invariant**, if it meets the condition. -/
theorem inv_step (hinv : s.Inv) (e : Event) (hok : s.WaitOk e) : (s.step e).Inv := by
  cases e with
  | thread e =>
    cases e with
    | reclaimSignaledFences => exact inv_thread hinv _ (fun h => nomatch h)
    | lastFrameIsCompleted mode =>
      exact inv_thread hinv (.lastFrameIsCompleted mode) (fun h => nomatch h)
    | injectFence => exact inv_thread hinv _ (fun h => nomatch h)
    | submit res => exact inv_submit hinv res
    | enqueue => exact inv_thread hinv _ (fun h => nomatch h)
    | waiter =>
      change Inv (if s.queue.waiter.unsignaled = [] then { s with queue := s.queue.step .waiter }
        else s)
      split
      · next hreturned => exact inv_thread hinv .waiter fun _ => hreturned
      · exact hinv
  | vkWaitForFences res => exact inv_vkWaitForFences hinv hok
  | signal serial =>
    change Inv (if serial ∈ s.accepted.map (fun p => p.serial) then
      { s with signaled := s.signaled ++ [serial] } else s)
    split
    · exact ⟨hinv.nodup, fun p hp => (hinv.waitedFor p hp).imp_left (List.mem_append_left _)⟩
    · exact hinv

/-- What is free is never waited for, so `vkQueueSubmit` gets it only after its fence has
signaled. -/
theorem hasSignaled_of_submission (hinv : s.Inv) {p : Submitted}
    (hp : s.queue.submission = some p) : s.HasSignaled p.sync := by
  intro q hq hsync
  have hfree := (QueueSyncs.submission_eq_some hp).2
  exact (hinv.waitedFor q hq).resolve_right fun hmem =>
    QueueSyncs.sync_ne_of_free hinv.nodup hfree hmem hsync

/-- What is reset after a wait that meets the condition has signaled. -/
theorem hasSignaled_of_returns (hinv : s.Inv) {res : VkResult} {p : Submitted}
    (hp : s.returns res = some p) :
    s.HasSignaled p.sync ↔ (res ≠ vkSuccess → p ∈ s.accepted → p.serial ∈ s.signaled) := by
  obtain ⟨hw, hsuccess⟩ := returns_eq_some hp
  have hpmem : p ∈ s.queue.unsignaled := by
    simp [QueueSyncs.unsignaled, hw, WaiterThread.unsignaled]
  constructor
  · intro hsignaled _ haccepted
    exact hsignaled p haccepted rfl
  · intro hok q hq hsync
    rcases hinv.waitedFor q hq with hsignaled | hqmem
    · exact hsignaled
    · obtain rfl := QueueSyncs.eq_of_unsignaled hinv.nodup hpmem hqmem hsync
      by_cases hres : res = vkSuccess
      · exact hsuccess hres
      · exact hok hres hq

/-- **One step** is right exactly if the wait in it is. -/
theorem reuseOk_iff (hinv : s.Inv) (e : Event) : s.ReuseOk e ↔ s.WaitOk e := by
  cases e with
  | thread e =>
    cases e with
    | submit res => exact iff_of_true (fun p hp => hasSignaled_of_submission hinv hp) trivial
    | _ => exact Iff.rfl
  | vkWaitForFences res => exact forall₂_congr fun p hp => hasSignaled_of_returns hinv hp
  | signal serial => exact Iff.rfl

/-! ## Every run

The two conditions are the same in every state that a run reaches.
-/

/-- **Sync objects are reset and submitted again only after their fences have signaled
exactly when every `vkWaitForFences` that fails does so after the fence has signaled**,
however the two threads and the GPU interleave. -/
theorem reuseOk_iff_waitOk {syncs : List VkSync} (hnew : syncs.Nodup) (hasPendingWork : Bool)
    (es : List Event) :
    Runs.StepsOk step ReuseOk (new syncs hasPendingWork) es ↔
      Runs.StepsOk step WaitOk (new syncs hasPendingWork) es :=
  Runs.stepsOk_congr_of_ok (fun (s : GpuQueue) e (hinv : s.Inv) hok => inv_step hinv e hok)
    (fun _ e hinv => reuseOk_iff hinv e) (inv_new hnew hasPendingWork) es

/-- The wait for a frame succeeds. -/
theorem reuseOk_iff_waitOk_success :
    Runs.StepsOk step ReuseOk (new [⟨1, 1, 1, 1⟩, ⟨2, 2, 2, 2⟩] false)
        [.thread .injectFence, .thread (.submit 0), .thread .enqueue, .thread .waiter,
          .thread .waiter, .signal 0, .vkWaitForFences 0] ↔
      Runs.StepsOk step WaitOk (new [⟨1, 1, 1, 1⟩, ⟨2, 2, 2, 2⟩] false)
        [.thread .injectFence, .thread (.submit 0), .thread .enqueue, .thread .waiter,
          .thread .waiter, .signal 0, .vkWaitForFences 0] :=
  reuseOk_iff_waitOk (by decide) false _

/-- The wait for the first frame times out, and two more frames follow. -/
def timeoutRun : List Event :=
  [.thread .injectFence, .thread (.submit 0), .thread .enqueue, .thread .waiter,
    .thread .waiter, .vkWaitForFences 2, .thread .waiter, .thread .injectFence,
    .thread (.submit 0), .thread .enqueue, .thread .injectFence]

/-- The fence is reset before it has signaled, and the next submission of the sync object
comes before that too. -/
theorem not_reuseOk_timeoutRun :
    ¬ Runs.StepsOk step ReuseOk (new [⟨1, 1, 1, 1⟩, ⟨2, 2, 2, 2⟩] false) timeoutRun ∧
      ¬ ReuseOk (timeoutRun.foldl step (new [⟨1, 1, 1, 1⟩, ⟨2, 2, 2, 2⟩] false))
        (.thread (.submit 0)) := by
  constructor
  · rintro ⟨-, -, -, -, -, hreset, -⟩
    have hmem := hreset ⟨⟨1, 1, 1, 1⟩, 0⟩ rfl ⟨⟨1, 1, 1, 1⟩, 0⟩ (by decide) rfl
    exact absurd hmem (by decide)
  · intro hsubmit
    have hmem := hsubmit ⟨⟨1, 1, 1, 1⟩, 2⟩ rfl ⟨⟨1, 1, 1, 1⟩, 0⟩ (by decide) rfl
    exact absurd hmem (by decide)

end GpuQueue

end GameSdk
