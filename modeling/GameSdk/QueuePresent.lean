import GameSdk.SyncObjects
import Mathlib.Data.List.Count
import Mathlib.Data.List.Nodup

/-!
# Presenting a frame (`SwappyVkFallback.cpp`, `SwappyVkGoogleDisplayTiming.cpp`)

`injectFence` submits a command buffer that waits for the app's semaphores and signals the
semaphore of a sync object; the present should then wait for that one alone. A binary
semaphore is signaled and waited for in turns: every wait consumes a signal.

What the driver is asked to wait for is checked here against the signals that no wait has
consumed yet.

* `WaitsOk`: every wait of a step consumes a signal of its own.
* `AppOk`: the app's semaphores have one signal each, and are listed once.
* `CallOk`: without the extension, there is no free sync object or the app has no semaphores; with
  it, there is a free sync object.
-/

namespace GameSdk

open QueueSyncs (vkSuccess)

/-- A semaphore of the app, or one of a sync object. -/
inductive VkSemaphore where
  | app (handle : UInt64)
  | sync (handle : UInt64)
  deriving DecidableEq, Repr

/-- The `pNext` chain: a pointer, or a `VkPresentTimesInfoGOOGLE` in front of one. -/
inductive PNext where
  | chain (pointer : UInt64)
  | presentTimes (pNext : UInt64) (times : List (UInt32 × UInt64))
  deriving DecidableEq, Repr

/-- What is presented, and what is waited for. -/
structure VkPresentInfoKHR where
  pNext : PNext
  /-- `none` is a variable that was not set -/
  waitSemaphores : List (Option VkSemaphore)
  /-- `pSwapchains` with `pImageIndices` -/
  swapchains : List (UInt64 × UInt32)
  deriving DecidableEq, Repr

/-- What a call of `doQueuePresent` is given, and what the functions it calls return. -/
structure PresentCall where
  pNext : UInt64
  waitSemaphores : List UInt64
  swapchains : List (UInt64 × UInt32)
  isEnabled : Bool
  /-- the result of `initializeVkSyncObjects` -/
  initResult : VkResult
  submitResult : VkResult
  presentResult : VkResult
  /-- `getPresentationTime`, if `needToSetPresentationTime` -/
  presentationTime : Option UInt64
  deriving DecidableEq, Repr

/-- The `pPresentInfo` of the app. -/
def PresentCall.presentInfo (c : PresentCall) : VkPresentInfoKHR :=
  ⟨.chain c.pNext, c.waitSemaphores.map (fun handle => some (.app handle)), c.swapchains⟩

/-- The calls that hand waits to the driver. -/
inductive DriverCall where
  | vkQueueSubmit (waitSemaphores : List (Option VkSemaphore)) (signalSemaphore : UInt64)
  | vkQueuePresentKHR (presentInfo : VkPresentInfoKHR)
  deriving DecidableEq, Repr

namespace QueueSyncs

/-- All of `injectFence`. The caller's semaphore is not initialized. -/
def injectFence (s : QueueSyncs) (submitResult : VkResult) : QueueSyncs :=
  [.injectFence, .submit submitResult, .enqueue].foldl step { s with semaphore := none }

/-- The call of `vkQueueSubmit` in it. -/
def submits (s : QueueSyncs) (c : PresentCall) : List DriverCall :=
  match s.reclaimSignaledFences.freeSyncPool with
  | [] => []
  | sync :: _ => [.vkQueueSubmit c.presentInfo.waitSemaphores sync.semaphore]

end QueueSyncs

/-- What a call of `doQueuePresent` does. -/
structure PresentResult where
  result : VkResult
  queue : QueueSyncs
  driverCalls : List DriverCall
  /-- the present was reached -/
  presented : Bool
  deriving DecidableEq, Repr

/-- What is returned when `injectFence` finds no queue. -/
def vkErrorInitializationFailed : VkResult := -3

/-- The common part of `doQueuePresent`; `presentInfo` is what is presented, once
`injectFence` has stored the semaphore. -/
def doQueuePresent (presentInfo : Option UInt64 → VkPresentInfoKHR) (queue : QueueSyncs)
    (c : PresentCall) : PresentResult :=
  if c.isEnabled = false then ⟨vkErrorInitializationFailed, queue, [], false⟩
  else if c.initResult ≠ vkSuccess then ⟨c.initResult, queue, [], false⟩
  else
    let queue' := queue.injectFence c.submitResult
    if queue'.result ≠ vkSuccess then ⟨queue'.result, queue', queue.submits c, false⟩
    else
      ⟨c.presentResult, queue',
        queue.submits c ++ [.vkQueuePresentKHR (presentInfo queue'.semaphore)], true⟩

namespace SwappyVkFallback

/-- The replacement is made and not used: the app's `pPresentInfo` is presented. -/
def doQueuePresent (queue : QueueSyncs) (c : PresentCall) : PresentResult :=
  GameSdk.doQueuePresent (fun _ => c.presentInfo) queue c

end SwappyVkFallback

namespace SwappyVkGoogleDisplayTiming

/-- The present waits for the semaphore that was stored, with the times to present at. -/
def replacementPresentInfo (nextPresentID : UInt32) (c : PresentCall)
    (semaphore : Option UInt64) : VkPresentInfoKHR where
  pNext :=
    match c.presentationTime with
    | some time => .presentTimes c.pNext (c.swapchains.map fun _ => (nextPresentID, time))
    | none => .chain 0
  waitSemaphores := [semaphore.map .sync]
  swapchains := c.swapchains

/-- `doQueuePresent` with the extension. -/
def doQueuePresent (nextPresentID : UInt32) (queue : QueueSyncs) (c : PresentCall) :
    PresentResult :=
  GameSdk.doQueuePresent (replacementPresentInfo nextPresentID c) queue c

end SwappyVkGoogleDisplayTiming

/-! ## Signals

A wait consumes a signal, and needs one.
-/

/-- A signal that was not waited for: by the app, or by the submit of a call. -/
inductive Signal where
  | app (handle : UInt64)
  | submit (handle : UInt64) (call : ℕ)
  deriving DecidableEq, Repr

/-- The signal that a wait of a call has to consume. -/
def Signal.of (call : ℕ) : VkSemaphore → Signal
  | .app handle => .app handle
  | .sync handle => .submit handle call

/-- Consume the signals that a call waits for, if they are there. -/
def waitAll (call : ℕ) : List (Option VkSemaphore) → List Signal → Option (List Signal)
  | [], signals => some signals
  | none :: _, _ => none
  | some semaphore :: waits, signals =>
    if Signal.of call semaphore ∈ signals then
      waitAll call waits (signals.erase (.of call semaphore))
    else none

/-- The waits and the signal of a call of the driver. -/
def DriverCall.exec (call : ℕ) (signals : List Signal) : DriverCall → Option (List Signal)
  | .vkQueueSubmit waits signal => (waitAll call waits signals).map (· ++ [.submit signal call])
  | .vkQueuePresentKHR presentInfo => waitAll call presentInfo.waitSemaphores signals

/-! ## Runs

The app, the waiting thread, and the presents of one queue.
-/

/-- The two classes that present. -/
inductive Implementation where
  | fallback
  | googleDisplayTiming
  deriving DecidableEq, Repr

/-- A queue and the signals that no wait has consumed. -/
structure Presenter where
  queue : QueueSyncs
  nextPresentID : UInt32
  /-- ghost: the signals that no wait has consumed -/
  signals : List Signal
  /-- ghost: how often `doQueuePresent` was called -/
  calls : ℕ
  deriving DecidableEq, Repr

namespace Presenter

/-- One thing that happens. -/
inductive Event where
  /-- the app makes a signal, or consumes it in a submit of its own -/
  | appSignal (handle : UInt64)
  | appWait (handle : UInt64)
  /-- a step of `waitForFenceThreadMain` -/
  | waiter
  | doQueuePresent (c : PresentCall)
  deriving DecidableEq, Repr

variable (impl : Implementation) (s : Presenter)

/-- `doQueuePresent` of the implementation. -/
def present (c : PresentCall) : PresentResult :=
  match impl with
  | .fallback => SwappyVkFallback.doQueuePresent s.queue c
  | .googleDisplayTiming => SwappyVkGoogleDisplayTiming.doQueuePresent s.nextPresentID s.queue c

/-- The signals after the calls of the driver, if every wait consumes one. -/
def exec (driverCalls : List DriverCall) : Option (List Signal) :=
  driverCalls.foldlM (fun signals call => call.exec s.calls signals) s.signals

/-- One event, on the state in which it happens. -/
def step : Event → Presenter
  | .appSignal handle => { s with signals := s.signals ++ [.app handle] }
  | .appWait handle => { s with signals := s.signals.erase (.app handle) }
  | .waiter => { s with queue := s.queue.waiterStep }
  | .doQueuePresent c =>
    let r := s.present impl c
    { s with
      queue := r.queue
      nextPresentID :=
        if impl = .googleDisplayTiming ∧ r.presented then s.nextPresentID + 1
        else s.nextPresentID
      signals := (s.exec r.driverCalls).getD s.signals
      calls := s.calls + 1 }

/-- What the app promises: the wait semaphores of a call have one signal each, and the
submit succeeds. -/
def AppOk : Event → Prop
  | .doQueuePresent c =>
    c.submitResult = vkSuccess ∧ c.waitSemaphores.Nodup ∧
      ∀ handle ∈ c.waitSemaphores, s.signals.count (.app handle) = 1
  | _ => True

instance (e : Event) : Decidable (s.AppOk e) :=
  match e with
  | .doQueuePresent c =>
    -- by the list, not by all the handles there are
    haveI : Decidable (∀ handle ∈ c.waitSemaphores, s.signals.count (.app handle) = 1) :=
      List.decidableBAll _ _
    inferInstanceAs (Decidable (c.submitResult = vkSuccess ∧ c.waitSemaphores.Nodup ∧
      ∀ handle ∈ c.waitSemaphores, s.signals.count (.app handle) = 1))
  | .appSignal _ => .isTrue trivial
  | .appWait _ => .isTrue trivial
  | .waiter => .isTrue trivial

/-- Every wait of the step consumes a signal of its own. -/
def WaitsOk : Event → Prop
  | .doQueuePresent c => (s.exec (s.present impl c).driverCalls).isSome
  | _ => True

instance (e : Event) : Decidable (s.WaitsOk impl e) :=
  match e with
  | .doQueuePresent c => inferInstanceAs (Decidable (s.exec (s.present impl c).driverCalls).isSome)
  | .appSignal _ => .isTrue trivial
  | .appWait _ => .isTrue trivial
  | .waiter => .isTrue trivial

/-- The condition on a call that presents: without the extension, there is no free sync
object or the app has no wait semaphores; with it, there is a free sync object. -/
def CallOk : Event → Prop
  | .doQueuePresent c =>
    c.isEnabled = true → c.initResult = vkSuccess →
      match impl with
      | .fallback => s.queue.freeSyncPool ++ s.queue.signaledSyncs = [] ∨ c.waitSemaphores = []
      | .googleDisplayTiming => s.queue.freeSyncPool ++ s.queue.signaledSyncs ≠ []
  | _ => True

end Presenter

/-! ## What `injectFence` does

With a free sync object it submits a batch that makes the signal of its semaphore.
-/

namespace QueueSyncs

variable {s : QueueSyncs}

/-- Without a free sync object nothing is submitted and no semaphore is stored. -/
theorem injectFence_of_empty (hidle : s.render = .idle)
    (hpool : s.freeSyncPool ++ s.signaledSyncs = []) (res : VkResult) (c : PresentCall) :
    (s.injectFence res).result = vkSuccess ∧ (s.injectFence res).semaphore = none ∧
      s.submits c = [] := by
  simp [injectFence, submits, step, submit, reclaimSignaledFences, hidle, hpool]

theorem injectFence_of_cons (hidle : s.render = .idle) {sync : VkSync} {rest : List VkSync}
    (hpool : s.freeSyncPool ++ s.signaledSyncs = sync :: rest) (res : VkResult) (c : PresentCall) :
    (s.injectFence res).result = res ∧ (s.injectFence res).semaphore = some sync.semaphore ∧
      s.submits c = [.vkQueueSubmit c.presentInfo.waitSemaphores sync.semaphore] := by
  simp [injectFence, submits, step, submit, enqueue, reclaimSignaledFences, hidle, hpool]

theorem render_injectFence (hidle : s.render = .idle) (res : VkResult) :
    (s.injectFence res).render = .idle := by
  rcases hpool : s.freeSyncPool ++ s.signaledSyncs with _ | ⟨sync, rest⟩ <;>
    simp [injectFence, step, submit, enqueue, reclaimSignaledFences, hidle, hpool]

theorem render_waiterStep (s : QueueSyncs) : s.waiterStep.render = s.render := by
  rw [waiterStep]
  split <;> try rfl
  · split <;> rfl
  · split <;> rfl

end QueueSyncs

/-! ## Waiting for signals

When a batch that waits for some semaphores finds all of its signals.
-/

/-- Waits for semaphores of the app that have one signal each. -/
theorem waitAll_app (call : ℕ) {handles : List UInt64} (hnodup : handles.Nodup)
    {signals : List Signal} (hmem : ∀ handle ∈ handles, .app handle ∈ signals) :
    waitAll call (handles.map (fun handle => some (.app handle))) signals =
      some (signals.diff (handles.map .app)) := by
  induction handles generalizing signals with
  | nil => rfl
  | cons handle handles ih =>
    obtain ⟨hnot, hnodup⟩ := List.nodup_cons.mp hnodup
    rw [List.map_cons, waitAll, Signal.of, if_pos (hmem handle (List.mem_cons_self ..)),
      List.map_cons, List.diff_cons]
    refine ih hnodup fun other hother => ?_
    have hne : Signal.app other ≠ .app handle := by
      rintro ⟨⟩
      exact hnot hother
    exact (List.mem_erase_of_ne hne).mpr (hmem other (List.mem_cons_of_mem _ hother))

/-- After them, the signals are consumed. -/
theorem not_mem_diff_app {handles : List UInt64} {signals : List Signal} {handle : UInt64}
    (hmem : handle ∈ handles) (hone : signals.count (.app handle) = 1) :
    Signal.app handle ∉ signals.diff (handles.map .app) := by
  have hcount : 0 < (handles.map Signal.app).count (.app handle) :=
    List.count_pos_iff.mpr (List.mem_map_of_mem hmem)
  rw [← List.count_eq_zero, List.count_diff, hone]
  omega

/-- A second wait for them finds none. -/
theorem isSome_waitAll_again (call : ℕ) {handles : List UInt64} {signals : List Signal}
    (hone : ∀ handle ∈ handles, signals.count (.app handle) = 1) (handle : UInt64) :
    (waitAll call (handles.map (fun handle => some (.app handle)))
      (signals.diff (handles.map .app) ++ [.submit handle call])).isSome ↔ handles = [] := by
  rcases handles with _ | ⟨first, handles⟩
  · simp [waitAll]
  · have hmem : first ∈ first :: handles := List.mem_cons_self ..
    have hgone := not_mem_diff_app hmem (hone first hmem)
    rw [List.map_cons, waitAll, Signal.of, if_neg (by simpa using hgone)]
    simp

/-! ## One call

The two batches of one present, with the signals before and after each.
-/

theorem driverCalls_eq {queue : QueueSyncs} (hidle : queue.render = .idle) {c : PresentCall}
    (henabled : c.isEnabled = true) (hinit : c.initResult = vkSuccess)
    (hsubmit : c.submitResult = vkSuccess) (presentInfo : Option UInt64 → VkPresentInfoKHR) :
    (doQueuePresent presentInfo queue c).driverCalls = queue.submits c ++
      [.vkQueuePresentKHR (presentInfo (queue.injectFence c.submitResult).semaphore)] := by
  have hresult : (queue.injectFence c.submitResult).result = vkSuccess := by
    rcases hpool : queue.freeSyncPool ++ queue.signaledSyncs with _ | ⟨sync, rest⟩
    · exact (QueueSyncs.injectFence_of_empty hidle hpool _ c).1
    · exact (QueueSyncs.injectFence_of_cons hidle hpool _ c).1.trans hsubmit
  simp [doQueuePresent, henabled, hinit, hresult]

/-- A call that is refused asks the driver for nothing. -/
theorem driverCalls_of_refused {queue : QueueSyncs} {c : PresentCall}
    (h : ¬ (c.isEnabled = true ∧ c.initResult = vkSuccess))
    (presentInfo : Option UInt64 → VkPresentInfoKHR) :
    (doQueuePresent presentInfo queue c).driverCalls = [] := by
  rw [doQueuePresent]
  split
  · rfl
  · next henabled =>
    rw [if_pos fun hinit => h ⟨by simpa using henabled, hinit⟩]

namespace Presenter

variable {s : Presenter}

/-- The submit consumes the signals of the app. -/
theorem exec_submit {c : PresentCall} (happ : s.AppOk (.doQueuePresent c)) (handle : UInt64)
    (presentInfo : VkPresentInfoKHR) :
    s.exec [.vkQueueSubmit c.presentInfo.waitSemaphores handle, .vkQueuePresentKHR presentInfo] =
      waitAll s.calls presentInfo.waitSemaphores
        (s.signals.diff (c.waitSemaphores.map .app) ++ [.submit handle s.calls]) := by
  obtain ⟨-, hnodup, hone⟩ := happ
  have hwait := waitAll_app s.calls hnodup fun handle hmem =>
    List.count_pos_iff.mp (by rw [hone handle hmem]; exact Nat.one_pos)
  simp [exec, DriverCall.exec, PresentCall.presentInfo, hwait]

theorem waitsOk_fallback (hidle : s.queue.render = .idle) {c : PresentCall}
    (happ : s.AppOk (.doQueuePresent c)) (henabled : c.isEnabled = true)
    (hinit : c.initResult = vkSuccess) :
    s.WaitsOk .fallback (.doQueuePresent c) ↔
      s.queue.freeSyncPool ++ s.queue.signaledSyncs = [] ∨ c.waitSemaphores = [] := by
  obtain ⟨hsubmit, hnodup, hone⟩ := happ
  rw [WaitsOk, present, SwappyVkFallback.doQueuePresent,
    driverCalls_eq hidle henabled hinit hsubmit]
  rcases hpool : s.queue.freeSyncPool ++ s.queue.signaledSyncs with _ | ⟨sync, rest⟩
  · have hwait := waitAll_app s.calls hnodup fun handle hmem =>
      List.count_pos_iff.mp (by rw [hone handle hmem]; exact Nat.one_pos)
    rw [(QueueSyncs.injectFence_of_empty hidle hpool c.submitResult c).2.2]
    simp [exec, DriverCall.exec, PresentCall.presentInfo, hwait]
  · rw [(QueueSyncs.injectFence_of_cons hidle hpool c.submitResult c).2.2, List.singleton_append,
      exec_submit ⟨hsubmit, hnodup, hone⟩, PresentCall.presentInfo, isSome_waitAll_again _ hone]
    simp

theorem waitsOk_googleDisplayTiming (hidle : s.queue.render = .idle) {c : PresentCall}
    (happ : s.AppOk (.doQueuePresent c)) (henabled : c.isEnabled = true)
    (hinit : c.initResult = vkSuccess) :
    s.WaitsOk .googleDisplayTiming (.doQueuePresent c) ↔
      s.queue.freeSyncPool ++ s.queue.signaledSyncs ≠ [] := by
  rw [WaitsOk, present, SwappyVkGoogleDisplayTiming.doQueuePresent,
    driverCalls_eq hidle henabled hinit happ.1]
  rcases hpool : s.queue.freeSyncPool ++ s.queue.signaledSyncs with _ | ⟨sync, rest⟩
  · obtain ⟨-, hsemaphore, hsubmits⟩ :=
      QueueSyncs.injectFence_of_empty hidle hpool c.submitResult c
    simp [hsemaphore, hsubmits, exec, DriverCall.exec,
      SwappyVkGoogleDisplayTiming.replacementPresentInfo, waitAll]
  · obtain ⟨-, hsemaphore, hsubmits⟩ :=
      QueueSyncs.injectFence_of_cons hidle hpool c.submitResult c
    rw [hsemaphore, hsubmits, List.singleton_append, exec_submit happ]
    simp [SwappyVkGoogleDisplayTiming.replacementPresentInfo, waitAll, Signal.of]

theorem waitsOk_iff (impl : Implementation) (hidle : s.queue.render = .idle) (e : Event)
    (happ : s.AppOk e) : s.WaitsOk impl e ↔ s.CallOk impl e := by
  cases e with
  | appSignal handle => exact Iff.rfl
  | appWait handle => exact Iff.rfl
  | waiter => exact Iff.rfl
  | doQueuePresent c =>
    by_cases hpresent : c.isEnabled = true ∧ c.initResult = vkSuccess
    · obtain ⟨henabled, hinit⟩ := hpresent
      simp only [CallOk, henabled, hinit, true_implies]
      rcases impl with _ | _
      · exact waitsOk_fallback hidle happ henabled hinit
      · exact waitsOk_googleDisplayTiming hidle happ henabled hinit
    · refine iff_of_true ?_ fun henabled hinit => absurd ⟨henabled, hinit⟩ hpresent
      rcases impl with _ | _ <;>
        simp [WaitsOk, present, SwappyVkFallback.doQueuePresent,
          SwappyVkGoogleDisplayTiming.doQueuePresent, driverCalls_of_refused hpresent, exec]

theorem render_step (impl : Implementation) (hidle : s.queue.render = .idle) (e : Event) :
    (s.step impl e).queue.render = .idle := by
  have hpresent (presentInfo : Option UInt64 → VkPresentInfoKHR) (c : PresentCall) :
      (GameSdk.doQueuePresent presentInfo s.queue c).queue.render = .idle := by
    rw [GameSdk.doQueuePresent]
    split
    · exact hidle
    · split
      · exact hidle
      · simp only
        split <;> exact QueueSyncs.render_injectFence hidle _
  cases e with
  | appSignal handle => exact hidle
  | appWait handle => exact hidle
  | waiter => exact (QueueSyncs.render_waiterStep s.queue).trans hidle
  | doQueuePresent c => rcases impl with _ | _ <;> exact hpresent _ c

/-! ## Every run

The signals of the sync objects are waited for by the present that follows.
-/

/-- **The waits of a run consume signals of their own exactly when its calls meet
`CallOk`**, if the app keeps its promises. -/
theorem waitsOk_iff_callOk (impl : Implementation) (hidle : s.queue.render = .idle)
    {es : List Event} (happ : Runs.StepsOk (step impl) AppOk s es) :
    Runs.StepsOk (step impl) (WaitsOk impl) s es ↔
      Runs.StepsOk (step impl) (CallOk impl) s es :=
  Runs.stepsOk_congr_of_assumption
    (fun (s : Presenter) e (hidle : s.queue.render = .idle) => render_step impl hidle e)
    (fun _ e hidle happ => waitsOk_iff impl hidle e happ) hidle happ

/-- A present that waits for one semaphore. -/
def oneSemaphore : PresentCall := ⟨0, [5], [(9, 0)], true, 0, 0, 0, none⟩

/-- With two free sync objects and nothing signaled. -/
def twoFree : Presenter := ⟨.new [⟨1, 1, 1, 1⟩, ⟨2, 2, 2, 2⟩] false, 0, [], 0⟩

theorem waitsOk_iff_callOk_one :
    Runs.StepsOk (step .googleDisplayTiming) (WaitsOk .googleDisplayTiming) twoFree
        [.appSignal 5, .doQueuePresent oneSemaphore] ↔
      Runs.StepsOk (step .googleDisplayTiming) (CallOk .googleDisplayTiming) twoFree
        [.appSignal 5, .doQueuePresent oneSemaphore] :=
  waitsOk_iff_callOk .googleDisplayTiming rfl (by decide)

/-- Without the extension the first present waits for a semaphore that the submit has waited
for; with it, the third one waits for a semaphore that was not set. -/
theorem not_waitsOk :
    (Runs.StepsOk (step .fallback) AppOk twoFree [.appSignal 5, .doQueuePresent oneSemaphore] ∧
      ¬ Runs.StepsOk (step .fallback) (WaitsOk .fallback) twoFree
        [.appSignal 5, .doQueuePresent oneSemaphore]) ∧
    (Runs.StepsOk (step .googleDisplayTiming) AppOk twoFree
        [.appSignal 5, .doQueuePresent oneSemaphore, .appSignal 5, .doQueuePresent oneSemaphore,
          .appSignal 5, .doQueuePresent oneSemaphore] ∧
      ¬ Runs.StepsOk (step .googleDisplayTiming) (WaitsOk .googleDisplayTiming) twoFree
        [.appSignal 5, .doQueuePresent oneSemaphore, .appSignal 5, .doQueuePresent oneSemaphore,
          .appSignal 5, .doQueuePresent oneSemaphore]) := by
  decide

end Presenter

end GameSdk
