import GameSdk.Runs
import GameSdk.SwappySteps

/-!
# A refresh rate that was planned

`updateSwapInterval` asks the display for a better refresh rate and prepares a configuration for
it. Frames later the rate arrives with the settings, and `updateDisplayTimings` takes what was
prepared if the swap is not shorter than the app asked for. The first search for a rate has the
same test; the second one goes by the swap that there is, and finds swaps that are shorter by
less than a millisecond.

What is planned is a rate and an interval. `PlanHolds` is what the plan is for: the two are in force
once the settings of that rate have been applied. `PlanOk` is the condition, on the state in which
the rate was selected.

The plan of the first loop always meets the last of the conditions, and this is why the second one
is to blame where the plan does not hold.
-/

namespace GameSdk

namespace SwappyCommon

variable {s : SwappyCommon}

/-- `updateSwapInterval` selects a better refresh rate. -/
structure Selects (s : SwappyCommon) (config : RefreshConfig) : Prop where
  enabled : s.autoSwapIntervalEnabled = true
  full : s.frameDurations.Full
  betterRefresh : s.updateConfig.2.betterRefresh (s.frameTime .on) = some config

/-- The settings with the refresh rate that was selected, and nothing else changed. -/
def plannedSettings (s : SwappyCommon) (config : RefreshConfig) : TimingSettings :=
  { s.nextTimingSettings with
    refreshPeriod := config.rate.period
    refreshPeriod_pos := config.rate.period_pos }

/-- The refresh rate is selected, and the display changes to it. -/
def planned (s : SwappyCommon) (config : RefreshConfig) : SwappyCommon :=
  s.updateSwapInterval.2.onSettingsChanged (s.plannedSettings config)

/-- **What the plan is for**: the configuration that was selected is in force after the settings
have been applied, and the swap interval is not calculated again. -/
structure PlanHolds (s : SwappyCommon) (config : RefreshConfig) (t : SwappyCommon) : Prop where
  refreshPeriod : t.refreshPeriod = config.rate.period
  autoSwapInterval : t.autoSwapInterval = config.swapInterval
  pipelineMode : t.pipelineMode = s.updateSwapInterval.2.pipelineModeForNewRefresh
  kept : (s.planned config).SettingsPending → (s.planned config).needsNewConfig = false

/-- The rate is another one, no other setting is about to change, and the swap is as long as the
app asked for. -/
structure PlanOk (s : SwappyCommon) (config : RefreshConfig) : Prop where
  ne_refreshPeriod : config.rate.period ≠ s.refreshPeriod
  same_swapInterval : s.nextTimingSettings.swapIntervalNS = s.swapIntervalNS
  le_duration : s.swapIntervalNS ≤ config.rate.period * config.swapInterval

/-! ## Settings in force

In every state, settings that need no update are those the pacer goes by.
-/

/-- Settings that need no update are in force. -/
def SettingsInForce (s : SwappyCommon) : Prop :=
  s.timingSettingsNeedUpdate = false → s.refreshPeriod = s.nextTimingSettings.refreshPeriod ∧
    s.swapIntervalNS = s.nextTimingSettings.swapIntervalNS

theorem settingsInForce_step (h : s.SettingsInForce) (e : Event) :
    (s.step e).SettingsInForce := by
  cases e with
  | addFrameDuration cpu gpu => exact h
  | updateSwapInterval =>
    by_cases hupdates : s.autoSwapIntervalEnabled = true ∧ s.frameDurations.Full
    · obtain ⟨k, mode, w, m, i, mode', -, heq, -⟩ := updateSwapInterval_eq hupdates.1 hupdates.2
      rw [step, heq]
      exact h
    · rw [step, updateSwapInterval_of_not hupdates]
      exact h
  | updateDisplayTimings supported =>
    rw [step]
    by_cases hpending : s.SettingsPending
    · obtain ⟨rates, m, w, heq⟩ := updateDisplayTimings_of_pending hpending supported
      rw [heq]
      exact fun _ => ⟨rfl, rfl⟩
    · obtain ⟨rates, heq⟩ := updateDisplayTimings_of_not hpending supported
      rw [heq]
      intro _
      by_contra hnot
      apply hpending
      refine ⟨?_, hnot⟩
      by_contra hneed
      exact hnot (h (by simpa using hneed))
  | onSettingsChanged settings =>
    rw [step, onSettingsChanged]
    split
    · intro hneed
      cases hneed
    · exact h
  | setAutoSwapInterval enabled => exact h
  | setAutoPipelineMode enabled => exact h

/-- After a change the settings are pending unless they are in force. -/
theorem settingsPending_onSettingsChanged (h : s.SettingsInForce) (settings : TimingSettings) :
    (s.onSettingsChanged settings).SettingsPending ↔
      ¬ (s.refreshPeriod = settings.refreshPeriod ∧
        s.swapIntervalNS = settings.swapIntervalNS) := by
  rw [onSettingsChanged]
  split
  · exact and_iff_right rfl
  · next hsame =>
    obtain rfl := not_not.mp hsame
    refine and_iff_right_of_imp fun hnot => ?_
    by_contra hneed
    exact hnot (h (by simpa using hneed))

theorem onSettingsChanged_eq (s : SwappyCommon) (settings : TimingSettings) :
    ∃ timingSettingsNeedUpdate, s.onSettingsChanged settings =
      { s with nextTimingSettings := settings, timingSettingsNeedUpdate } := by
  rw [onSettingsChanged]
  split
  · exact ⟨true, rfl⟩
  · next hsame =>
    obtain rfl := not_not.mp hsame
    exact ⟨s.timingSettingsNeedUpdate, rfl⟩

/-! ## What is selected

What is known of the rate that a search finds, by the loop that finds it.
-/

variable {config : RefreshConfig}

/-- What is selected is prepared. With the refresh period that there is, it would be another swap
interval. -/
theorem Selects.update_eq (h : s.Selects config) :
    ∃ autoSwapInterval pipelineMode frameDurations nextModeId pipelineModeForNewRefresh,
      s.updateSwapInterval.2 = { s with
        autoSwapInterval, pipelineMode, frameDurations, nextModeId, pipelineModeForNewRefresh
        swapIntervalForNewRefresh := config.swapInterval } ∧
      (config.rate.period = s.refreshPeriod → config.swapInterval ≠ autoSwapInterval) := by
  obtain ⟨k, mode, w, -, hconfig⟩ := updateConfig_eq s
  obtain ⟨m, hmode⟩ := setPreferredMode_eq s.updateConfig.2 config.rate.modeId
  refine ⟨k, mode, w, m, if s.updateConfig.2.pipelineModeNotNeeded (s.frameTime .off)
    (config.rate.period * config.swapInterval) then .off else .on, ?_, ?_⟩
  · rw [updateSwapInterval_of_full h.enabled h.full]
    simp only [prepareRefresh, h.betterRefresh]
    rw [hmode, hconfig]
  · intro hperiod hinterval
    rcases betterRefresh_cases h.betterRefresh with hshorter | hsame
    · have hlt := hshorter.lt_duration
      rw [hconfig, hperiod, hinterval] at hlt
      exact lt_irrefl _ hlt
    · have hlt := hsame.lt_period
      rw [hconfig, hperiod] at hlt
      exact lt_irrefl _ hlt

theorem Selects.one_le (h : s.Selects config) : 1 ≤ config.swapInterval := by
  rw [betterRefresh_swapInterval h.betterRefresh]
  exact (isSwapInterval_of_le config.rate.period_pos (frameTime_le h.full)).one_le

/-- The first search plans no swap that is too short. -/
theorem ShorterSwap.planOk_iff (h : s.updateConfig.2.ShorterSwap (s.frameTime .on) config) :
    s.PlanOk config ↔ config.rate.period ≠ s.refreshPeriod ∧
      s.nextTimingSettings.swapIntervalNS = s.swapIntervalNS := by
  obtain ⟨k, mode, w, -, hconfig⟩ := updateConfig_eq s
  have hle := h.swapIntervalNS_le
  rw [hconfig] at hle
  exact ⟨fun hok => ⟨hok.ne_refreshPeriod, hok.same_swapInterval⟩,
    fun ⟨hne, hsame⟩ => ⟨hne, hsame, hle⟩⟩

theorem needsNewConfig_eq_false_iff : s.needsNewConfig = false ↔
    s.autoSwapIntervalEnabled = true ∧
      s.swapIntervalNS = s.nextTimingSettings.swapIntervalNS ∧
      s.swapIntervalForNewRefresh ≠ 0 ∧
      s.nextTimingSettings.swapIntervalNS ≤
        s.nextTimingSettings.refreshPeriod * s.swapIntervalForNewRefresh := by
  simp [needsNewConfig, and_assoc]

theorem Selects.planned_eq (h : s.Selects config) :
    ∃ autoSwapInterval pipelineMode frameDurations nextModeId timingSettingsNeedUpdate,
      s.planned config = { s with
        autoSwapInterval, pipelineMode, frameDurations, nextModeId, timingSettingsNeedUpdate
        swapIntervalForNewRefresh := config.swapInterval
        pipelineModeForNewRefresh := s.updateSwapInterval.2.pipelineModeForNewRefresh
        nextTimingSettings := s.plannedSettings config } ∧
      (config.rate.period = s.refreshPeriod → config.swapInterval ≠ autoSwapInterval) := by
  obtain ⟨k, mode, w, m, mode', hupdate, hother⟩ := h.update_eq
  obtain ⟨need, hplanned⟩ :=
    onSettingsChanged_eq s.updateSwapInterval.2 (s.plannedSettings config)
  refine ⟨k, mode, w, m, need, ?_, hother⟩
  rw [planned, hplanned, hupdate]

theorem Selects.settingsPending_iff (h : s.Selects config) (hforce : s.SettingsInForce) :
    (s.planned config).SettingsPending ↔ ¬ (s.refreshPeriod = config.rate.period ∧
      s.swapIntervalNS = s.nextTimingSettings.swapIntervalNS) := by
  obtain ⟨k, mode, w, m, mode', hupdate, -⟩ := h.update_eq
  have hforce' : s.updateSwapInterval.2.SettingsInForce :=
    settingsInForce_step hforce .updateSwapInterval
  rw [planned, settingsPending_onSettingsChanged hforce', hupdate]
  rfl

theorem Selects.needsNewConfig_iff (h : s.Selects config) :
    (s.planned config).needsNewConfig = false ↔
      s.swapIntervalNS = s.nextTimingSettings.swapIntervalNS ∧
      s.nextTimingSettings.swapIntervalNS ≤ config.rate.period * config.swapInterval := by
  obtain ⟨k, mode, w, m, need, hplanned, -⟩ := h.planned_eq
  have hone := h.one_le
  rw [needsNewConfig_eq_false_iff, hplanned]
  constructor
  · rintro ⟨-, hsame, -, hle⟩
    exact ⟨hsame, hle⟩
  · rintro ⟨hsame, hle⟩
    exact ⟨h.enabled, hsame, by simp only; omega, hle⟩

/-- **The plan holds when the selected rate is another one, its swap is as long as the app asked
for, and nothing else changes.** -/
theorem Selects.planHolds_iff (h : s.Selects config) (hforce : s.SettingsInForce)
    (supported : RefreshRateMap) :
    s.PlanHolds config ((s.planned config).updateDisplayTimings supported) ↔ s.PlanOk config := by
  have hpending := h.settingsPending_iff hforce
  obtain ⟨k, mode, w, m, need, hplanned, hother⟩ := h.planned_eq
  by_cases hsettles : (s.planned config).SettingsPending
  · obtain ⟨rates, m', w', happly⟩ := updateDisplayTimings_of_pending hsettles supported
    constructor
    · intro hholds
      obtain ⟨hsame, hle⟩ := h.needsNewConfig_iff.mp (hholds.kept hsettles)
      refine ⟨fun hperiod => hpending.mp hsettles ⟨hperiod.symm, hsame⟩, hsame.symm, ?_⟩
      exact hsame.trans_le hle
    · intro hok
      have hsame := hok.same_swapInterval
      have hkept := h.needsNewConfig_iff.mpr ⟨hsame.symm, hsame.trans_le hok.le_duration⟩
      rw [happly]
      simp only [hkept, Bool.false_eq_true, if_false]
      refine ⟨?_, ?_, ?_, fun _ => hkept⟩
      · rw [hplanned]
        rfl
      · rw [hplanned]
      · rw [hplanned]
  · -- the settings are those in force
    obtain ⟨hperiod, -⟩ := not_not.mp fun hnot => hsettles (hpending.mpr hnot)
    obtain ⟨rates, happly⟩ := updateDisplayTimings_of_not hsettles supported
    refine iff_of_false (fun hholds => ?_) fun hok => hok.ne_refreshPeriod hperiod.symm
    have hinterval := hholds.autoSwapInterval
    rw [happly, hplanned] at hinterval
    exact hother hperiod.symm hinterval.symm

theorem settingsInForce_of_mem {settings : TimingSettings} {hasDisplayManager : Bool}
    {u : Uninitialized} {es : List Event}
    (h : s ∈ Runs.states step (new settings hasDisplayManager u) es) : s.SettingsInForce :=
  @Runs.forall_mem_states _ _ step SettingsInForce (fun _ e h => settingsInForce_step h e) _
    (fun h => by cases h) es s h

/-- **What is planned is applied**, in every state of a run. -/
theorem planHolds_iff_planOk (settings : TimingSettings) (hasDisplayManager : Bool)
    (u : Uninitialized) (es : List Event) :
    ∀ s ∈ Runs.states step (new settings hasDisplayManager u) es, ∀ config, s.Selects config →
      ∀ supported, s.PlanHolds config ((s.planned config).updateDisplayTimings supported) ↔
        s.PlanOk config := by
  intro s hs config hselects supported
  exact hselects.planHolds_iff (settingsInForce_of_mem hs) supported

theorem sixtyHertz_pos : (0 : ℤ) < 16666667 := by decide

theorem thirtyHertz_pos : (0 : ℤ) < 33333333 := by decide

/-- A display with two refresh rates. -/
def twoRates : RefreshRateMap :=
  ⟨[⟨16666667, 0, sixtyHertz_pos⟩, ⟨33333333, 1, thirtyHertz_pos⟩], by simp⟩

/-- The longer refresh period, for one swap. -/
def longerPeriod : RefreshConfig := ⟨⟨33333333, 1, thirtyHertz_pos⟩, 1⟩

/-- At 60 Hz, a window of frames of 20 ms on the CPU and on the GPU. -/
def longFrames (swapIntervalNS : ℤ) : SwappyCommon :=
  (.updateDisplayTimings twoRates :: fillWindow 20000000 20000000).foldl step
    (new ⟨16666667, swapIntervalNS, sixtyHertz_pos⟩ true ⟨0, .off⟩)

/-- The app asks for the longer refresh period. -/
theorem planHolds_longerPeriod : (longFrames 33333333).PlanHolds longerPeriod
    (((longFrames 33333333).planned longerPeriod).updateDisplayTimings twoRates) :=
  (planHolds_iff_planOk _ _ _ _ _ (Runs.foldl_mem_states ..) longerPeriod
    ⟨by decide +kernel, by decide +kernel, by decide +kernel⟩ twoRates).mpr
    ⟨by decide +kernel, by decide +kernel, by decide +kernel⟩

/-- The app asks for twice the refresh period, which is a nanosecond more than the longer one. The
plan is to pipeline, and the frames are not pipelined. -/
theorem not_planHolds_twicePeriod :
    ∃ s ∈ Runs.states step (new ⟨16666667, 33333334, sixtyHertz_pos⟩ true ⟨0, .off⟩)
        (.updateDisplayTimings twoRates :: fillWindow 20000000 20000000),
      s.Selects longerPeriod ∧ s.updateSwapInterval.2.pipelineModeForNewRefresh = .on ∧
        ((s.planned longerPeriod).updateDisplayTimings twoRates).pipelineMode = .off ∧
        ¬ s.PlanHolds longerPeriod
          ((s.planned longerPeriod).updateDisplayTimings twoRates) := by
  have hon : (longFrames 33333334).updateSwapInterval.2.pipelineModeForNewRefresh = .on := by
    decide +kernel
  have hoff : (((longFrames 33333334).planned longerPeriod).updateDisplayTimings
      twoRates).pipelineMode = .off := by
    decide +kernel
  refine ⟨longFrames 33333334, Runs.foldl_mem_states ..,
    ⟨by decide +kernel, by decide +kernel, by decide +kernel⟩, hon, hoff, fun hholds => ?_⟩
  cases hoff.symm.trans (hholds.pipelineMode.trans hon)

end SwappyCommon

end GameSdk
