import GameSdk.FrameDuration

/-!
# The frame pacer (`SwappyCommon.cpp`)

The part of `SwappyCommon` that chooses how many refresh periods a frame is shown
for, and whether the work of the CPU and of the GPU is pipelined. The calls are
functions on its state; they run under a mutex, one after the other. Times are in
nanoseconds and do not overflow. Requests to the display manager are seen in
`nextModeId`.

Where the source has a sequence of `if`s that assign, there is one function for each branch;
`updateSwapInterval` is put together from them. The state is passed on as it is, so that a reader
can follow the source from line to line.
-/

namespace GameSdk

/-- A display mode that can be asked for. -/
structure RefreshRate where
  period : ℤ
  modeId : ℤ
  period_pos : 0 < period
  deriving DecidableEq, Repr

/-- `SwappyDisplayManager::RefreshRateMap`, in the order of its keys. -/
structure RefreshRateMap where
  rates : List RefreshRate
  sorted : rates.Pairwise fun r r' => r.period < r'.period
  deriving DecidableEq, Repr

/-- What the display and the app ask for, with a real refresh period. -/
structure TimingSettings where
  refreshPeriod : ℤ
  swapIntervalNS : ℤ
  refreshPeriod_pos : 0 < refreshPeriod
  deriving DecidableEq, Repr

/-- The part of the state that configures the pace. -/
structure SwappyCommon where
  refreshPeriod : ℤ
  frameDurations : FrameDurations
  autoSwapIntervalEnabled : Bool
  pipelineModeAutoMode : Bool
  /-- the swap interval of the app -/
  swapIntervalNS : ℤ
  /-- the number of refresh periods in a frame -/
  autoSwapInterval : ℤ
  swapIntervalForNewRefresh : ℤ
  pipelineModeForNewRefresh : PipelineMode
  pipelineMode : PipelineMode
  /-- whether `mDisplayManager` is not null -/
  hasDisplayManager : Bool
  nextModeId : ℤ
  supportedRefreshRates : Option RefreshRateMap
  nextTimingSettings : TimingSettings
  timingSettingsNeedUpdate : Bool
  /-- ghost: timing settings have been applied -/
  applied : Bool

namespace SwappyCommon

/-- 3 ms. -/
def frameMargin : ℤ := 3000000

/-- 4 ms. -/
def edgeHysteresis : ℤ := 4000000

/-- 500 ns. -/
def refreshRateMargin : ℤ := 500

/-- The members that the constructor does not initialize. -/
structure Uninitialized where
  swapIntervalNS : ℤ
  pipelineModeForNewRefresh : PipelineMode
  deriving DecidableEq, Repr

/-- The constructor, with what it read from the display and from `Settings`. Setting
the display timings calls the listener it has just added. -/
def new (settings : TimingSettings) (hasDisplayManager : Bool) (u : Uninitialized) :
    SwappyCommon where
  refreshPeriod := settings.refreshPeriod
  frameDurations := FrameDurations.clear
  autoSwapIntervalEnabled := true
  pipelineModeAutoMode := true
  swapIntervalNS := u.swapIntervalNS
  autoSwapInterval := 1
  swapIntervalForNewRefresh := 0
  pipelineModeForNewRefresh := u.pipelineModeForNewRefresh
  pipelineMode := .off
  hasDisplayManager := hasDisplayManager
  nextModeId := -1
  supportedRefreshRates := none
  nextTimingSettings := settings
  timingSettingsNeedUpdate := true
  applied := false

/-! ## Counting refresh periods

How many periods a frame takes, up to a margin.
-/

/-- How many refresh periods a time takes, as a `long`: a remainder within the margin
does not count. -/
def framesPerRefresh (frameTime refreshPeriod : ℤ) : ℤ :=
  frameTime.tdiv refreshPeriod +
    if frameTime.tmod refreshPeriod > refreshRateMargin then 1 else 0

/-- The result is an `int`. -/
def calculateSwapInterval (frameTime refreshPeriod : ℤ) : ℤ :=
  if frameTime < refreshPeriod then 1
  else (framesPerRefresh frameTime refreshPeriod).bmod (2 ^ 32)

/-- Whether the two differ by less than a millisecond. -/
def isSameDuration (period₁ : ℤ) (interval₁ : ℤ) (period₂ : ℤ)
    (interval₂ : ℤ) : Bool :=
  let duration₁ := period₁ * interval₁
  let duration₂ := period₂ * interval₂
  decide (max duration₁ duration₂ - min duration₁ duration₂ < 1000000)

variable (s : SwappyCommon)

/-! ## Preferred refresh rates

Which of the supported rates suits a frame time, and the request to change to it.
-/

/-- `setPreferredRefreshRate(int)`. -/
def setPreferredMode (modeId : ℤ) : SwappyCommon :=
  if s.hasDisplayManager = false ∨ modeId < 0 ∨ s.nextModeId = modeId then s
  else { s with nextModeId := modeId }

/-- The loop of `setPreferredRefreshRate(nanoseconds)`, over the map backwards: the mode
with the shortest swap below 100 ms. -/
def bestMode (frameTime : ℤ) : ℤ :=
  let rates := (s.supportedRefreshRates.map fun m => m.rates).getD []
  -- do not cross the swap interval set by the app
  let frameTime := max frameTime s.swapIntervalNS
  (rates.foldr (fun r (best : ℤ × ℤ) =>
    let swapIntervalNS := r.period * calculateSwapInterval frameTime r.period
    if swapIntervalNS < best.2 then (r.modeId, swapIntervalNS) else best) (-1, 100000000)).1

/-- `setPreferredRefreshRate(nanoseconds)`. -/
def setPreferredRefreshRate (frameTime : ℤ) : SwappyCommon :=
  if s.hasDisplayManager = false then s else s.setPreferredMode (s.bestMode frameTime)

/-! ## Applying settings

Settings are prepared by whoever changes them and taken over by the frame loop.
-/

/-- New settings are kept until the next frame. -/
def onSettingsChanged (timingSettings : TimingSettings) : SwappyCommon :=
  if timingSettings ≠ s.nextTimingSettings then
    { s with nextTimingSettings := timingSettings, timingSettingsNeedUpdate := true }
  else s

/-- Whether `updateDisplayTimings` drops the configuration that was prepared for the
new refresh rate. -/
def needsNewConfig : Bool :=
  !s.autoSwapIntervalEnabled || s.swapIntervalNS ≠ s.nextTimingSettings.swapIntervalNS ||
    s.swapIntervalForNewRefresh = 0 ||
    ¬ s.nextTimingSettings.refreshPeriod * s.swapIntervalForNewRefresh ≥
      s.nextTimingSettings.swapIntervalNS

/-- Take the configuration that was prepared for the new refresh rate. -/
def takeConfig : SwappyCommon :=
  { s with
    refreshPeriod := s.nextTimingSettings.refreshPeriod
    swapIntervalNS := s.nextTimingSettings.swapIntervalNS
    autoSwapInterval := s.swapIntervalForNewRefresh
    pipelineMode := s.pipelineModeForNewRefresh
    swapIntervalForNewRefresh := 0
    applied := true }

/-- Make a configuration from the swap interval of the app. -/
def newConfig : SwappyCommon :=
  let t := { s with
    autoSwapInterval := calculateSwapInterval s.swapIntervalNS s.refreshPeriod
    pipelineMode := if s.autoSwapIntervalEnabled then .off else .on }
  t.setPreferredRefreshRate t.swapIntervalNS

/-- `updateDisplayTimings` after its early returns. -/
def applySettings : SwappyCommon :=
  let t := if s.needsNewConfig then s.takeConfig.newConfig else s.takeConfig
  let t := if t.nextModeId = -1 then t.setPreferredRefreshRate t.swapIntervalNS else t
  { t with frameDurations := FrameDurations.clear }

/-- There are settings to be applied that are not in force yet. -/
def SettingsPending : Prop :=
  s.timingSettingsNeedUpdate = true ∧ ¬ (s.refreshPeriod = s.nextTimingSettings.refreshPeriod ∧
    s.swapIntervalNS = s.nextTimingSettings.swapIntervalNS)

instance : Decidable s.SettingsPending := inferInstanceAs (Decidable (_ ∧ _))

/-- Settings that wait are applied, unless nothing has changed. -/
def updateDisplayTimings (supported : RefreshRateMap) : SwappyCommon :=
  let s := if s.hasDisplayManager then { s with supportedRefreshRates := some supported } else s
  if s.timingSettingsNeedUpdate = false then s
  else
    let s := { s with timingSettingsNeedUpdate := false }
    if s.refreshPeriod = s.nextTimingSettings.refreshPeriod ∧
        s.swapIntervalNS = s.nextTimingSettings.swapIntervalNS then s
    else s.applySettings

/-! ## Choosing the swap interval

The average frame time is compared with bounds around the present configuration. Outside of them it
is changed in one direction or the other.
-/

/-- A frame is added to the window. -/
def addFrameDuration (cpuTime gpuTime : ℤ) : SwappyCommon :=
  { s with frameDurations := s.frameDurations.push cpuTime gpuTime }

/-- Whether the CPU and the GPU fit one after the other. -/
def pipelineModeNotNeeded (averageFrameTime upperBound : ℤ) : Bool :=
  s.pipelineModeAutoMode && averageFrameTime < upperBound

/-- A new swap interval, and the pipeline mode it needs: the end of `swapSlower` and of
`swapFaster`. -/
def changeSwapInterval (averageFrameTime : FrameDuration) (newSwapInterval : ℤ) : SwappyCommon :=
  { s with
    autoSwapInterval := newSwapInterval
    pipelineMode :=
      if s.pipelineModeNotNeeded (averageFrameTime.getTime .off + frameMargin)
          (s.refreshPeriod * newSwapInterval) then .off else .on }

/-- The frames take too long: first the pipeline is used, then more periods. -/
def swapSlower (averageFrameTime : FrameDuration) (upperBound : ℤ)
    (newSwapInterval : ℤ) : SwappyCommon :=
  if s.pipelineMode = .off ∧ averageFrameTime.getTime .on ≤ upperBound then
    { s with pipelineMode := .on }
  else s.changeSwapInterval averageFrameTime newSwapInterval

/-- The frames would fit into fewer periods. -/
def swapFaster (averageFrameTime : FrameDuration) (newSwapInterval : ℤ) : SwappyCommon :=
  s.changeSwapInterval averageFrameTime newSwapInterval

/-- The average frame time with the margin, when pipelining and when not. -/
def frameTime (mode : PipelineMode) : ℤ :=
  s.frameDurations.average.getTime mode + frameMargin

/-- The current configuration is too fast for the frames. -/
def TooFast : Prop := s.frameTime s.pipelineMode > s.refreshPeriod * s.autoSwapInterval

/-- A faster configuration is possible. The hysteresis avoids going back and forth. -/
def TooSlow : Prop :=
  s.swapIntervalNS ≤ s.refreshPeriod * (s.autoSwapInterval - 1) ∧
    s.frameTime .on < s.refreshPeriod * (s.autoSwapInterval - 1) - edgeHysteresis

/-- The frames fit without pipelining. -/
def CanTurnOff : Prop :=
  s.pipelineMode = .on ∧
    s.pipelineModeNotNeeded (s.frameTime .off) (s.refreshPeriod * s.autoSwapInterval) = true

instance : Decidable s.TooFast := inferInstanceAs (Decidable (_ > _))
instance : Decidable s.TooSlow := inferInstanceAs (Decidable (_ ∧ _))
instance : Decidable s.CanTurnOff := inferInstanceAs (Decidable (_ ∧ _))

/-- The first half of `updateSwapInterval`: whether the configuration has changed. -/
def updateConfig : Bool × SwappyCommon :=
  let average := s.frameDurations.average
  let newSwapInterval := calculateSwapInterval (s.frameTime .on) s.refreshPeriod
  let (configChanged, t) :=
    if s.TooFast then
      (true, s.swapSlower average (s.refreshPeriod * s.autoSwapInterval) newSwapInterval)
    else if s.TooSlow then (true, s.swapFaster average newSwapInterval)
    else if s.CanTurnOff then (true, { s with pipelineMode := .off })
    else (false, s)
  (configChanged, if configChanged then { t with frameDurations := FrameDurations.clear } else t)

/-- A refresh rate, and the swap interval to use with it. -/
structure RefreshConfig where
  rate : RefreshRate
  swapInterval : ℤ
  deriving DecidableEq, Repr

/-- The first loop: a shorter swap period that still accommodates the frame time. -/
def shorterSwapPeriod (pipelineFrameTime : ℤ) (rates : List RefreshRate) :
    Option RefreshConfig :=
  (rates.foldl (fun (best : Option RefreshConfig × ℤ) r =>
    let swapInterval := calculateSwapInterval pipelineFrameTime r.period
    let duration := r.period * swapInterval
    if pipelineFrameTime < duration - edgeHysteresis ∧ duration < best.2 ∧
        duration ≥ s.swapIntervalNS then (some ⟨r, swapInterval⟩, duration)
    else best) (none, s.refreshPeriod * s.autoSwapInterval)).1

/-- The second loop: the same swap period with a lower refresh rate. -/
def sameSwapPeriod (pipelineFrameTime : ℤ) (rates : List RefreshRate) :
    Option RefreshConfig :=
  rates.foldl (fun best r =>
    let swapInterval := calculateSwapInterval pipelineFrameTime r.period
    if isSameDuration r.period swapInterval s.refreshPeriod s.autoSwapInterval ∧
        r.period > s.refreshPeriod then some ⟨r, swapInterval⟩
    else best) none

/-- The search across all supported refresh rates. -/
def betterRefresh (pipelineFrameTime : ℤ) : Option RefreshConfig :=
  match s.supportedRefreshRates with
  | none => none
  | some m =>
    match s.shorterSwapPeriod pipelineFrameTime m.rates with
    | some config => some config
    | none => s.sameSwapPeriod pipelineFrameTime m.rates

/-- The end of `updateSwapInterval`: prepare for a better refresh rate. -/
def prepareRefresh (pipelineFrameTime nonPipelineFrameTime : ℤ) : SwappyCommon :=
  match s.betterRefresh pipelineFrameTime with
  | none => s
  | some config =>
    { s.setPreferredMode config.rate.modeId with
      swapIntervalForNewRefresh := config.swapInterval
      pipelineModeForNewRefresh :=
        if s.pipelineModeNotNeeded nonPipelineFrameTime (config.rate.period * config.swapInterval)
        then .off else .on }

/-- The result tells whether the configuration has changed. -/
def updateSwapInterval : Bool × SwappyCommon :=
  if s.autoSwapIntervalEnabled = false then (false, s)
  else if ¬ s.frameDurations.Full then (false, s)
  else
    let (configChanged, t) := s.updateConfig
    (configChanged, t.prepareRefresh (s.frameTime .on) (s.frameTime .off))

/-! ## The calls of the app

What may happen to the pacer, as events.
-/

/-- Non pipeline mode is not supported when auto mode is disabled. -/
def setAutoSwapInterval (enabled : Bool) : SwappyCommon :=
  { s with
    autoSwapIntervalEnabled := enabled
    pipelineMode := if enabled then s.pipelineMode else .on }

/-- Without the automatic mode the pipeline is always used. -/
def setAutoPipelineMode (enabled : Bool) : SwappyCommon :=
  { s with
    pipelineModeAutoMode := enabled
    pipelineMode := if enabled then s.pipelineMode else .on }

/-- One thing that happens to the pacer. -/
inductive Event where
  | addFrameDuration (cpuTime gpuTime : ℤ)
  | updateSwapInterval
  | updateDisplayTimings (supported : RefreshRateMap)
  | onSettingsChanged (timingSettings : TimingSettings)
  | setAutoSwapInterval (enabled : Bool)
  | setAutoPipelineMode (enabled : Bool)
  deriving DecidableEq, Repr

/-- One event, on the state in which it happens. -/
def step : Event → SwappyCommon
  | .addFrameDuration cpuTime gpuTime => s.addFrameDuration cpuTime gpuTime
  | .updateSwapInterval => s.updateSwapInterval.2
  | .updateDisplayTimings supported => s.updateDisplayTimings supported
  | .onSettingsChanged timingSettings => s.onSettingsChanged timingSettings
  | .setAutoSwapInterval enabled => s.setAutoSwapInterval enabled
  | .setAutoPipelineMode enabled => s.setAutoPipelineMode enabled

/-- The frames that fill the window, all alike. -/
def fillWindow (cpuTime gpuTime : ℤ) : List Event :=
  List.replicate frameDurationSamples (.addFrameDuration cpuTime gpuTime)

end SwappyCommon

end GameSdk
