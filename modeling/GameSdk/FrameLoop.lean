import GameSdk.Runs
import GameSdk.SwapInterval

/-!
# The frame loop (`SwappyCommon.cpp`)

The app calls `onPreSwap` and `onPostSwap` around each swap, in its render thread. One of them
waits, depending on the pipeline mode: for the frame the pacer aims at, and then, frame by frame,
for the GPU. `wakeClient` counts the frames in another thread, and the settings change in others.

A step is what a thread does between two points where it waits or takes a mutex, so that a run is
an interleaving of the threads. Times are in nanoseconds, and counts do not overflow.

`Moves` lists the steps, with what each of them requires and does. The invariant `Inv` says where
the frame under way stands: its target, how long it has waited, and what its presentation time is
made of, each phase for itself.
-/

namespace GameSdk

/-! ## The state

Where the render thread is, with its variables, and the members. Ghosts remember the frame under way
and the waits that have been made.
-/

/-- The call that waits. -/
inductive Stage where
  | preSwap | postSwap
  deriving DecidableEq, Repr

/-- `waitForNextFrame`, where it was called and with the time the CPU has worked. -/
structure Waiting where
  stage : Stage
  cpuTime : ℤ
  deriving DecidableEq, Repr

/-- What the render thread does next. -/
inductive FramePhase where
  /-- the app draws, and then calls `onPreSwap` -/
  | onPreSwap
  | waitUntilTargetFrame (w : Waiting)
  | lastFrameIsComplete (w : Waiting) (lateFrames : ℤ)
  | waitOneFrame (w : Waiting) (lateFrames target : ℤ)
  /-- the end of `waitForNextFrame`, with the late frames if it has waited -/
  | getPrevFrameGpuTime (w : Waiting) (slept : Option ℤ)
  /-- the buffers are swapped, and then `onPostSwap` is called -/
  | onPostSwap
  /-- the second half of `updateSwapDuration` -/
  | clampSwapDuration
  | updateSwapInterval
  | updateDisplayTimings
  | startFrame
  deriving DecidableEq, Repr

/-- Ghost: a call of `waitForNextFrame` that has returned. -/
structure Wait where
  /-- the swap interval when the frame started -/
  interval : ℤ
  /-- the late frames, if it has waited -/
  slept : Option ℤ
  deriving DecidableEq, Repr

/-- How many refresh periods a frame with this wait takes at least. -/
def Wait.periods (w : Wait) : ℤ :=
  match w.slept with
  | some lateFrames => w.interval + lateFrames
  | none => 0

/-- Ghost: the frame under way, as it was when it started. -/
structure Frame where
  /-- `mCurrentFrame` -/
  start : ℤ
  /-- `mCurrentFrameTimestamp` -/
  timestamp : ℤ
  interval : ℤ
  /-- 2 when pipelining -/
  intervals : ℤ
  /-- whether it has waited since -/
  waited : Bool
  /-- the frames by which the GPU was late, if that was before the swap -/
  lateFrames : ℤ
  deriving DecidableEq, Repr

/-- The members that the frame loop uses, and ghosts for what it has done. -/
structure FrameLoop where
  pacer : SwappyCommon
  autoSwapIntervalThresholdNS : ℤ
  currentFrame : ℤ
  currentFrameTimestamp : ℤ
  swapDuration : ℤ
  startFrameTime : ℤ
  swapTime : ℤ
  targetFrame : ℤ
  presentationTime : ℤ
  presentationTimeNeeded : Bool
  phase : FramePhase
  /-- ghost -/
  frame : Frame
  /-- ghost: the calls of `waitForNextFrame`, the last one first -/
  waits : List Wait
  /-- ghost: the calls that have changed the pacer, the first one first -/
  calls : List SwappyCommon.Event
  /-- ghost: how many frames have been started by `startFrame` -/
  frames : ℕ

namespace FrameLoop

/-- The members as they are before the first swap. -/
def new (pacer : SwappyCommon) (now : ℤ) : FrameLoop where
  pacer := pacer
  autoSwapIntervalThresholdNS := 50000000
  currentFrame := 0
  currentFrameTimestamp := now
  swapDuration := 0
  startFrameTime := 0
  swapTime := 0
  targetFrame := 0
  presentationTime := now
  presentationTimeNeeded := false
  phase := .onPreSwap
  frame := ⟨0, now, 0, 1, false, 0⟩
  waits := []
  calls := []
  frames := 0

variable (s : FrameLoop)

/-- A call that works on the pacer, under its mutex. -/
def call (c : SwappyCommon.Event) : FrameLoop :=
  { s with pacer := s.pacer.step c, calls := s.calls ++ [c] }

/-! ## The render thread

`onPreSwap` and `onPostSwap`, cut at the points where they wait for a condition variable or for the
GPU.
-/

/-- If the swaps are slower than the threshold there is no point to sleep. -/
def belowThreshold : Bool :=
  s.pacer.refreshPeriod * s.pacer.autoSwapInterval ≤ s.autoSwapIntervalThresholdNS

/-- The beginning of `waitForNextFrame`. -/
def waitForNextFrame (stage : Stage) (now : ℤ) : FrameLoop :=
  let w : Waiting := ⟨stage, now - s.startFrameTime⟩
  { s with
    phase := if s.belowThreshold then .waitUntilTargetFrame w else .getPrevFrameGpuTime w none }

/-- With pipelining the wait is before the swap. -/
def onPreSwap (now : ℤ) : FrameLoop :=
  if s.pacer.pipelineMode = .on then s.waitForNextFrame .preSwap now
  else
    { s with
      presentationTimeNeeded := s.belowThreshold
      swapTime := now
      phase := .onPostSwap }

/-- The answer of `lastFrameIsComplete`. If the GPU is not ready, `waitOneFrame` takes its
target. -/
def checkLastFrame (w : Waiting) (lateFrames : ℤ) (complete : Bool) : FrameLoop :=
  if complete then
    { s with
      presentationTime := s.presentationTime + lateFrames * s.pacer.refreshPeriod
      phase := .getPrevFrameGpuTime w (some lateFrames) }
  else { s with phase := .waitOneFrame w (lateFrames + 1) (s.currentFrame + 1) }

/-- The end of `waitForNextFrame`, and of `onPreSwap` if that has called it. -/
def endWait (w : Waiting) (slept : Option ℤ) (gpuTime now : ℤ) : FrameLoop :=
  let s := s.call (.addFrameDuration w.cpuTime gpuTime)
  let s := { s with waits := ⟨s.frame.interval, slept⟩ :: s.waits }
  match w.stage with
  | .preSwap =>
    { s with
      presentationTimeNeeded := slept.isSome
      swapTime := now
      frame := { s.frame with waited := true, lateFrames := slept.getD 0 }
      phase := .onPostSwap }
  | .postSwap =>
    { s with
      frame := { s.frame with waited := true }
      phase := .updateSwapInterval }

/-- The first half of `updateSwapDuration`, with exponential smoothing. -/
def onPostSwap (now : ℤ) : FrameLoop :=
  let duration := now - s.swapTime
  { s with
    swapDuration := (s.swapDuration * 4).tdiv 5 + duration.tdiv 5
    phase := .clampSwapDuration }

/-- The second half clamps it to half the refresh period. -/
def clamped : FrameLoop :=
  let half := s.pacer.refreshPeriod.tdiv 2
  { s with swapDuration := if s.swapDuration > half then half else s.swapDuration }

/-- The swap duration is clamped, and `onPostSwap` goes on. -/
def clampSwapDuration (now : ℤ) : FrameLoop :=
  let s := s.clamped
  if s.pacer.pipelineMode = .off then s.waitForNextFrame .postSwap now
  else { s with phase := .updateSwapInterval }

/-- The target of the next frame, and the time it is to be presented at. -/
def startFrame (now : ℤ) : FrameLoop :=
  let intervals := if s.pacer.pipelineMode = .on then 2 else 1
  { s with
    targetFrame := s.currentFrame + s.pacer.autoSwapInterval
    presentationTime := s.currentFrameTimestamp +
      s.pacer.autoSwapInterval * intervals * s.pacer.refreshPeriod
    startFrameTime := now
    phase := .onPreSwap
    frame :=
      ⟨s.currentFrame, s.currentFrameTimestamp, s.pacer.autoSwapInterval, intervals, false, 0⟩
    frames := s.frames + 1 }

/-! ## The other threads

The thread of the choreographer counts frames.
-/

/-- It is padded by a millisecond: better a little late than a little early. -/
def wakeClient (now : ℤ) : FrameLoop :=
  { s with
    currentFrame := s.currentFrame + 1
    currentFrameTimestamp := now + s.swapDuration + 1000000 }

/-! ## Runs

The events, and whether a step waits for something.
-/

/-- What one of the threads does, with what it reads from a clock, the GPU or the display. -/
inductive Event where
  | onPreSwap (now : ℤ)
  | waitUntilTargetFrame
  | lastFrameIsComplete (complete : Bool)
  | waitOneFrame
  | getPrevFrameGpuTime (gpuTime now : ℤ)
  | onPostSwap (now : ℤ)
  | clampSwapDuration (now : ℤ)
  | updateSwapInterval
  | updateDisplayTimings (supported : RefreshRateMap)
  | startFrame (now : ℤ)
  | wakeClient (now : ℤ)
  | setMaxAutoSwapIntervalNS (swapIntervalNS : ℤ)
  | onSettingsChanged (timingSettings : TimingSettings)
  | setAutoSwapInterval (enabled : Bool)
  | setAutoPipelineMode (enabled : Bool)
  deriving DecidableEq, Repr

/-- The render thread is somewhere else, or waits. -/
inductive Blocked where
  | blocked
  deriving DecidableEq, Repr

/-- One event, on the state in which it happens. -/
def step (e : Event) : Except Blocked FrameLoop :=
  match e, s.phase with
  | .onPreSwap now, .onPreSwap => .ok (s.onPreSwap now)
  | .waitUntilTargetFrame, .waitUntilTargetFrame w =>
    if s.currentFrame ≥ s.targetFrame then .ok { s with phase := .lastFrameIsComplete w 0 }
    else .error .blocked
  | .lastFrameIsComplete complete, .lastFrameIsComplete w lateFrames =>
    .ok (s.checkLastFrame w lateFrames complete)
  | .waitOneFrame, .waitOneFrame w lateFrames target =>
    if s.currentFrame ≥ target then .ok { s with phase := .lastFrameIsComplete w lateFrames }
    else .error .blocked
  | .getPrevFrameGpuTime gpuTime now, .getPrevFrameGpuTime w slept =>
    .ok (s.endWait w slept gpuTime now)
  | .onPostSwap now, .onPostSwap => .ok (s.onPostSwap now)
  | .clampSwapDuration now, .clampSwapDuration => .ok (s.clampSwapDuration now)
  | .updateSwapInterval, .updateSwapInterval =>
    .ok { s.call .updateSwapInterval with phase := .updateDisplayTimings }
  | .updateDisplayTimings supported, .updateDisplayTimings =>
    .ok { s.call (.updateDisplayTimings supported) with phase := .startFrame }
  | .startFrame now, .startFrame => .ok (s.startFrame now)
  | .wakeClient now, _ => .ok (s.wakeClient now)
  | .setMaxAutoSwapIntervalNS swapIntervalNS, _ =>
    .ok { s with autoSwapIntervalThresholdNS := swapIntervalNS }
  | .onSettingsChanged timingSettings, _ => .ok (s.call (.onSettingsChanged timingSettings))
  | .setAutoSwapInterval enabled, _ => .ok (s.call (.setAutoSwapInterval enabled))
  | .setAutoPipelineMode enabled, _ => .ok (s.call (.setAutoPipelineMode enabled))
  | _, _ => .error .blocked

/-! ## What a step can do

The step function, inverted.
-/

/-- The call of another thread than the render thread that a step is. -/
def Event.setting : Event → Option SwappyCommon.Event
  | .onSettingsChanged timingSettings => some (.onSettingsChanged timingSettings)
  | .setAutoSwapInterval enabled => some (.setAutoSwapInterval enabled)
  | .setAutoPipelineMode enabled => some (.setAutoPipelineMode enabled)
  | _ => none

/-- The steps, by what they do. -/
inductive Moves : Event → FrameLoop → Prop
  | onPreSwap {now} : s.phase = .onPreSwap → Moves (.onPreSwap now) (s.onPreSwap now)
  | waitUntilTargetFrame {w} : s.phase = .waitUntilTargetFrame w →
      s.targetFrame ≤ s.currentFrame →
      Moves .waitUntilTargetFrame { s with phase := .lastFrameIsComplete w 0 }
  | lastFrameIsComplete {w lateFrames complete} : s.phase = .lastFrameIsComplete w lateFrames →
      Moves (.lastFrameIsComplete complete) (s.checkLastFrame w lateFrames complete)
  | waitOneFrame {w lateFrames target} : s.phase = .waitOneFrame w lateFrames target →
      target ≤ s.currentFrame →
      Moves .waitOneFrame { s with phase := .lastFrameIsComplete w lateFrames }
  | endWait {w slept gpuTime now} : s.phase = .getPrevFrameGpuTime w slept →
      Moves (.getPrevFrameGpuTime gpuTime now) (s.endWait w slept gpuTime now)
  | onPostSwap {now} : s.phase = .onPostSwap → Moves (.onPostSwap now) (s.onPostSwap now)
  | clampSwapDuration {now} : s.phase = .clampSwapDuration →
      Moves (.clampSwapDuration now) (s.clampSwapDuration now)
  | updateSwapInterval : s.phase = .updateSwapInterval →
      Moves .updateSwapInterval { s.call .updateSwapInterval with phase := .updateDisplayTimings }
  | updateDisplayTimings {supported} : s.phase = .updateDisplayTimings →
      Moves (.updateDisplayTimings supported)
        { s.call (.updateDisplayTimings supported) with phase := .startFrame }
  | startFrame {now} : s.phase = .startFrame → Moves (.startFrame now) (s.startFrame now)
  | wakeClient {now} : Moves (.wakeClient now) (s.wakeClient now)
  | setThreshold {swapIntervalNS} : Moves (.setMaxAutoSwapIntervalNS swapIntervalNS)
      { s with autoSwapIntervalThresholdNS := swapIntervalNS }
  | setting {e c} : e.setting = some c → Moves e (s.call c)

variable {s} {s' : FrameLoop} {e : Event}

theorem moves_of_step (h : s.step e = .ok s') : s.Moves e s' := by
  cases e with
  | wakeClient now => cases h; exact .wakeClient
  | setMaxAutoSwapIntervalNS swapIntervalNS => cases h; exact .setThreshold
  | onSettingsChanged timingSettings => cases h; exact .setting rfl
  | setAutoSwapInterval enabled => cases h; exact .setting rfl
  | setAutoPipelineMode enabled => cases h; exact .setting rfl
  | onPreSwap now =>
    cases hphase : s.phase <;> simp only [step, hphase, reduceCtorEq] at h
    cases h
    exact .onPreSwap hphase
  | waitUntilTargetFrame =>
    cases hphase : s.phase <;> simp only [step, hphase, reduceCtorEq] at h
    split_ifs at h with hle
    cases h
    exact .waitUntilTargetFrame hphase hle
  | lastFrameIsComplete complete =>
    cases hphase : s.phase <;> simp only [step, hphase, reduceCtorEq] at h
    cases h
    exact .lastFrameIsComplete hphase
  | waitOneFrame =>
    cases hphase : s.phase <;> simp only [step, hphase, reduceCtorEq] at h
    split_ifs at h with hle
    cases h
    exact .waitOneFrame hphase hle
  | getPrevFrameGpuTime gpuTime now =>
    cases hphase : s.phase <;> simp only [step, hphase, reduceCtorEq] at h
    cases h
    exact .endWait hphase
  | onPostSwap now =>
    cases hphase : s.phase <;> simp only [step, hphase, reduceCtorEq] at h
    cases h
    exact .onPostSwap hphase
  | clampSwapDuration now =>
    cases hphase : s.phase <;> simp only [step, hphase, reduceCtorEq] at h
    cases h
    exact .clampSwapDuration hphase
  | updateSwapInterval =>
    cases hphase : s.phase <;> simp only [step, hphase, reduceCtorEq] at h
    cases h
    exact .updateSwapInterval hphase
  | updateDisplayTimings supported =>
    cases hphase : s.phase <;> simp only [step, hphase, reduceCtorEq] at h
    cases h
    exact .updateDisplayTimings hphase
  | startFrame now =>
    cases hphase : s.phase <;> simp only [step, hphase, reduceCtorEq] at h
    cases h
    exact .startFrame hphase

/-! ## The invariant

It is kept by each step of the render thread. The other threads keep it because of what they leave
alone, which is `Keeps`.
-/

/-- The presentation time is that of the frame, and so many refresh periods later. -/
def Presents (s : FrameLoop) (lateFrames : ℤ) : Prop :=
  s.presentationTime = s.frame.timestamp +
    (s.frame.interval * s.frame.intervals + lateFrames) * s.pacer.refreshPeriod

/-- The frame has not waited before. If it waits before the swap then pipelining is on, and its
presentation time is known. -/
def WaitOk (s : FrameLoop) (w : Waiting) (lateFrames : ℤ) : Prop :=
  s.frame.waited = false ∧
    (w.stage = .preSwap → s.pacer.pipelineMode = .on ∧ s.Presents lateFrames)

/-- So many frames have been counted since the frame started that it may go on. -/
def HasSlept (s : FrameLoop) (lateFrames : ℤ) : Prop :=
  0 ≤ lateFrames ∧ s.frame.start + s.frame.interval + lateFrames ≤ s.currentFrame

/-- What holds of the frame under way in each phase. -/
def PhaseOk (s : FrameLoop) : FramePhase → Prop
  | .onPreSwap => s.frame.waited = false ∧ s.Presents 0 ∧ s.frame.lateFrames = 0
  | .waitUntilTargetFrame w => s.WaitOk w 0
  | .lastFrameIsComplete w lateFrames => s.WaitOk w 0 ∧ s.HasSlept lateFrames
  | .waitOneFrame w lateFrames target =>
    s.WaitOk w 0 ∧ 0 ≤ lateFrames ∧ s.frame.start + s.frame.interval + lateFrames ≤ target ∧
      target ≤ s.currentFrame + 1
  | .getPrevFrameGpuTime w slept =>
    s.WaitOk w (slept.getD 0) ∧ ∀ lateFrames, slept = some lateFrames → s.HasSlept lateFrames
  | .onPostSwap =>
    (s.frame.waited = true → s.pacer.pipelineMode = .on) ∧ s.Presents s.frame.lateFrames
  | .clampSwapDuration => s.frame.waited = true → s.pacer.pipelineMode = .on
  | .updateSwapInterval => True
  | .updateDisplayTimings => True
  | .startFrame => True

/-- What holds of the frame under way. -/
structure Inv (s : FrameLoop) : Prop where
  target : s.targetFrame = s.frame.start + s.frame.interval
  start_le : s.frame.start ≤ s.currentFrame
  phaseOk : s.PhaseOk s.phase

/-- It holds before the first frame. -/
theorem inv_new (pacer : SwappyCommon) (now : ℤ) : (new pacer now).Inv where
  target := rfl
  start_le := le_refl 0
  phaseOk := ⟨rfl, by simp [Presents, new], rfl⟩

/-! ### What the other threads leave alone

They touch the pacer and the count of frames, and nothing that the render thread waits with.
-/

/-- What the other threads leave alone. -/
structure Keeps (s s' : FrameLoop) : Prop where
  frame : s'.frame = s.frame
  phase : s'.phase = s.phase
  target : s'.targetFrame = s.targetFrame
  presentationTime : s'.presentationTime = s.presentationTime
  currentFrame_le : s.currentFrame ≤ s'.currentFrame
  refreshPeriod : s'.pacer.refreshPeriod = s.pacer.refreshPeriod
  stays_on : s.pacer.pipelineMode = .on → s'.pacer.pipelineMode = .on

/-- What others leave alone keeps the presentation time. -/
theorem Keeps.presents (h : s.Keeps s') {lateFrames : ℤ} (hp : s.Presents lateFrames) :
    s'.Presents lateFrames := by
  rw [Presents, h.presentationTime, h.frame, h.refreshPeriod]
  exact hp

/-- It keeps a wait. -/
theorem Keeps.waitOk (h : s.Keeps s') {w : Waiting} {lateFrames : ℤ} (hw : s.WaitOk w lateFrames) :
    s'.WaitOk w lateFrames := by
  refine ⟨?_, fun hstage => ?_⟩
  · rw [h.frame]
    exact hw.1
  · obtain ⟨hon, hpresents⟩ := hw.2 hstage
    exact ⟨h.stays_on hon, h.presents hpresents⟩

/-- It keeps what has been waited for, as frames are only counted up. -/
theorem Keeps.hasSlept (h : s.Keeps s') {lateFrames : ℤ} (hs : s.HasSlept lateFrames) :
    s'.HasSlept lateFrames := by
  rw [HasSlept, h.frame]
  exact ⟨hs.1, hs.2.trans h.currentFrame_le⟩

/-- It keeps the invariant. -/
theorem Keeps.inv (h : s.Keeps s') (hinv : s.Inv) : s'.Inv := by
  have hok := hinv.phaseOk
  refine ⟨?_, ?_, ?_⟩
  · rw [h.target, h.frame]
    exact hinv.target
  · rw [h.frame]
    exact hinv.start_le.trans h.currentFrame_le
  · rw [h.phase]
    cases hphase : s.phase <;> rw [hphase] at hok
    case onPreSwap =>
      obtain ⟨hwaited, hpresents, hlate⟩ := hok
      refine ⟨?_, h.presents hpresents, ?_⟩ <;> rwa [h.frame]
    case waitUntilTargetFrame => exact h.waitOk hok
    case lastFrameIsComplete => exact ⟨h.waitOk hok.1, h.hasSlept hok.2⟩
    case waitOneFrame =>
      obtain ⟨hw, hnonneg, hle, htarget⟩ := hok
      refine ⟨h.waitOk hw, hnonneg, ?_, ?_⟩
      · rwa [h.frame]
      · exact htarget.trans (Int.add_le_add_right h.currentFrame_le 1)
    case getPrevFrameGpuTime =>
      exact ⟨h.waitOk hok.1, fun lateFrames hslept => h.hasSlept (hok.2 lateFrames hslept)⟩
    case onPostSwap =>
      obtain ⟨hon, hpresents⟩ := hok
      refine ⟨?_, ?_⟩
      · rw [h.frame]
        exact fun hwaited => h.stays_on (hon hwaited)
      · rw [h.frame]
        exact h.presents hpresents
    case clampSwapDuration =>
      change s'.frame.waited = true → _
      rw [h.frame]
      exact fun hwaited => h.stays_on (hok hwaited)
    all_goals trivial

/-- Counting a frame leaves the rest alone. -/
theorem keeps_wakeClient (now : ℤ) : s.Keeps (s.wakeClient now) :=
  ⟨rfl, rfl, rfl, rfl, (Int.lt_succ _).le, rfl, id⟩

/-- The refresh period changes with settings that are applied only. -/
theorem refreshPeriod_setting {c : SwappyCommon.Event} (hc : e.setting = some c) :
    (s.call c).pacer.refreshPeriod = s.pacer.refreshPeriod := by
  cases e with
  | onSettingsChanged timingSettings =>
    cases hc
    change (s.pacer.onSettingsChanged timingSettings).refreshPeriod = _
    rw [SwappyCommon.onSettingsChanged]
    split_ifs <;> rfl
  | setAutoSwapInterval enabled | setAutoPipelineMode enabled => cases hc; rfl
  | _ => cases hc

/-- A call of the app does not turn pipelining off, and only disabling one of the automatic modes
turns it on. -/
theorem pipelineMode_setting {c : SwappyCommon.Event} (hc : e.setting = some c) :
    (s.call c).pacer.pipelineMode =
      if e = .setAutoSwapInterval false ∨ e = .setAutoPipelineMode false then .on
      else s.pacer.pipelineMode := by
  cases e with
  | onSettingsChanged timingSettings =>
    cases hc
    change (s.pacer.onSettingsChanged timingSettings).pipelineMode = _
    rw [SwappyCommon.onSettingsChanged]
    split_ifs <;> simp_all
  | setAutoSwapInterval enabled | setAutoPipelineMode enabled => cases hc; cases enabled <;> rfl
  | _ => cases hc

/-- A call of the app leaves the frame alone. -/
theorem keeps_setting {c : SwappyCommon.Event} (hc : e.setting = some c) : s.Keeps (s.call c) := by
  refine ⟨rfl, rfl, rfl, rfl, le_refl _, refreshPeriod_setting hc, fun hon => ?_⟩
  rw [pipelineMode_setting hc, hon, ite_self]

/-- The beginning of a wait, in a frame that has not waited. -/
theorem inv_waitForNextFrame (htarget : s.targetFrame = s.frame.start + s.frame.interval)
    (hstart : s.frame.start ≤ s.currentFrame) (hwaited : s.frame.waited = false) (stage : Stage)
    (now : ℤ) (hstage : stage = .preSwap → s.pacer.pipelineMode = .on ∧ s.Presents 0) :
    (s.waitForNextFrame stage now).Inv := by
  refine ⟨htarget, hstart, ?_⟩
  rw [waitForNextFrame]
  dsimp only
  split_ifs
  · exact ⟨hwaited, hstage⟩
  · refine ⟨⟨hwaited, hstage⟩, ?_⟩
    rintro _ ⟨⟩

/-- **Every step keeps the invariant.** -/
theorem inv_step (h : s.Inv) (hmoves : s.Moves e s') : s'.Inv := by
  have hok := h.phaseOk
  have htarget := h.target
  cases hmoves with
  | onPreSwap hphase =>
    rw [hphase] at hok
    obtain ⟨hwaited, hpresents, hlate⟩ := hok
    rw [onPreSwap]
    split_ifs with hon
    · exact inv_waitForNextFrame htarget h.start_le hwaited .preSwap _ fun _ => ⟨hon, hpresents⟩
    · refine ⟨htarget, h.start_le, fun hwaited' => ?_, ?_⟩
      · exact absurd (hwaited.symm.trans hwaited') (by decide)
      · change s.Presents s.frame.lateFrames
        rwa [hlate]
  | waitUntilTargetFrame hphase hle =>
    rw [hphase] at hok
    refine ⟨htarget, h.start_le, hok, le_refl 0, ?_⟩
    change s.frame.start + s.frame.interval + 0 ≤ s.currentFrame
    omega
  | @lastFrameIsComplete w lateFrames complete hphase =>
    rw [hphase] at hok
    obtain ⟨⟨hwaited, hw⟩, hnonneg, hslept⟩ := hok
    rw [checkLastFrame]
    split_ifs
    · refine ⟨htarget, h.start_le, ⟨hwaited, fun hstage => ⟨(hw hstage).1, ?_⟩⟩, ?_⟩
      · have hpresents := (hw hstage).2
        simp only [Presents] at hpresents ⊢
        rw [hpresents, Option.getD_some]
        ring
      · rintro _ ⟨⟩
        exact ⟨hnonneg, hslept⟩
    · refine ⟨htarget, h.start_le, ⟨hwaited, hw⟩, ?_, ?_, le_refl _⟩
      · omega
      · change s.frame.start + s.frame.interval + (lateFrames + 1) ≤ s.currentFrame + 1
        omega
  | waitOneFrame hphase hle =>
    rw [hphase] at hok
    obtain ⟨hw, hnonneg, hslept, -⟩ := hok
    exact ⟨htarget, h.start_le, hw, hnonneg, hslept.trans hle⟩
  | @endWait w slept gpuTime now hphase =>
    rw [hphase] at hok
    obtain ⟨⟨-, hw⟩, -⟩ := hok
    rcases w with ⟨_ | _, cpuTime⟩
    · obtain ⟨hon, hpresents⟩ := hw rfl
      exact ⟨htarget, h.start_le, fun _ => hon, hpresents⟩
    · exact ⟨htarget, h.start_le, trivial⟩
  | onPostSwap hphase =>
    rw [hphase] at hok
    exact ⟨htarget, h.start_le, hok.1⟩
  | @clampSwapDuration now hphase =>
    rw [hphase] at hok
    rw [clampSwapDuration]
    split_ifs with hoff
    · have hwaited : s.frame.waited = false := by
        rw [← Bool.not_eq_true]
        intro hwaited
        exact absurd ((hok hwaited).symm.trans hoff) (by decide)
      exact inv_waitForNextFrame (s := s.clamped) htarget h.start_le hwaited .postSwap now
        (by rintro ⟨⟩)
    · exact ⟨htarget, h.start_le, trivial⟩
  | updateSwapInterval _ => exact ⟨htarget, h.start_le, trivial⟩
  | updateDisplayTimings _ => exact ⟨htarget, h.start_le, trivial⟩
  | startFrame _ =>
    refine ⟨rfl, le_refl _, rfl, ?_, rfl⟩
    simp [Presents, startFrame]
  | wakeClient => exact (keeps_wakeClient _).inv h
  | setThreshold => exact ⟨htarget, h.start_le, hok⟩
  | setting hc => exact (keeps_setting hc).inv h

end FrameLoop

end GameSdk
