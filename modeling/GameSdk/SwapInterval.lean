import GameSdk.Runs
import GameSdk.SwappySteps

/-!
# The swap interval of the app

The pacer is to show a frame for at least the swap interval the app asked for. It goes
faster than that in two ways: `updateSwapInterval` checks that one refresh period less
is still long enough but jumps to the interval of the frame time, which may be several
periods less; and the interval calculated for new settings may not fit an `int`.

`KeepsAppInterval` is what the app asked for, and `IntervalStepOk` the condition on a step for it to
go on.
-/

namespace GameSdk

namespace SwappyCommon

variable {s : SwappyCommon}

/-- Once settings have been applied the swap interval is that of the app or longer. -/
def KeepsAppInterval (s : SwappyCommon) : Prop :=
  s.applied = true → 1 ≤ s.autoSwapInterval ∧
    s.swapIntervalNS ≤ s.refreshPeriod * s.autoSwapInterval + refreshRateMargin

/-- The fewest refresh periods that are as long as the swap interval of the app, up to
the margin. -/
def fewestPeriods (s : SwappyCommon) : ℤ :=
  max 1 (-((refreshRateMargin - s.swapIntervalNS) / s.refreshPeriod))

/-- The frame time does not fit fewer refresh periods than the app allows. -/
def NeedsAppInterval (s : SwappyCommon) : Prop :=
  s.fewestPeriods = 1 ∨
    s.refreshPeriod * (s.fewestPeriods - 1) + refreshRateMargin < s.frameTime .on ∨
    s.refreshPeriod * s.fewestPeriods ≤ s.frameTime .on

/-- The condition on a step. Speeding up: the average frame time needs the interval of
the app. Applying settings: the new interval, if it is calculated, fits an `int`. -/
def IntervalStepOk (s : SwappyCommon) : Event → Prop
  | .updateSwapInterval => s.applied = true → s.autoSwapIntervalEnabled = true →
      s.frameDurations.Full → s.SpeedsUp → s.NeedsAppInterval
  | .updateDisplayTimings _ => s.SettingsPending → s.needsNewConfig = true →
      s.nextTimingSettings.swapIntervalNS < s.nextTimingSettings.refreshPeriod ∨
        framesPerRefresh s.nextTimingSettings.swapIntervalNS
          s.nextTimingSettings.refreshPeriod < 2 ^ 31
  | _ => True

/-- What every state of a run has in common. -/
structure PacerInv (s : SwappyCommon) : Prop where
  refreshPeriod_pos : 0 < s.refreshPeriod
  prepared : 0 ≤ s.swapIntervalForNewRefresh

/-- **Every call keeps the invariant** of the pacer. -/
theorem pacerInv_step (hinv : s.PacerInv) (e : Event) : (s.step e).PacerInv := by
  obtain ⟨hp, hprepared⟩ := hinv
  cases e with
  | addFrameDuration cpu gpu => exact ⟨hp, hprepared⟩
  | updateSwapInterval =>
    by_cases h : s.autoSwapIntervalEnabled = true ∧ s.frameDurations.Full
    · obtain ⟨k, mode, w, m, i, mode', -, heq, hi⟩ := updateSwapInterval_eq h.1 h.2
      rw [step, heq]
      refine ⟨hp, ?_⟩
      rcases hi with rfl | ⟨r, rfl⟩
      · exact hprepared
      · exact (isSwapInterval_of_le r.period_pos (frameTime_le h.2)).one_le.trans' (by decide)
    · rw [step, updateSwapInterval_of_not h]
      exact ⟨hp, hprepared⟩
  | updateDisplayTimings supported =>
    rw [step]
    by_cases h : s.SettingsPending
    · obtain ⟨rates, m, w, heq⟩ := updateDisplayTimings_of_pending h supported
      rw [heq]
      exact ⟨s.nextTimingSettings.refreshPeriod_pos, le_refl 0⟩
    · obtain ⟨rates, heq⟩ := updateDisplayTimings_of_not h supported
      rw [heq]
      exact ⟨hp, hprepared⟩
  | onSettingsChanged settings =>
    rw [step, onSettingsChanged]
    split <;> exact ⟨hp, hprepared⟩
  | setAutoSwapInterval enabled => exact ⟨hp, hprepared⟩
  | setAutoPipelineMode enabled => exact ⟨hp, hprepared⟩

/-! ## Speeding up

The interval that is chosen for a faster pace is that of the frame time, so the frame time has to be
long enough.
-/

/-- `fewestPeriods` is the least that is long enough. -/
theorem fewestPeriods_le_iff (hp : 0 < s.refreshPeriod) {n : ℤ} (hn : 1 ≤ n) :
    s.fewestPeriods ≤ n ↔ s.swapIntervalNS ≤ s.refreshPeriod * n + refreshRateMargin := by
  have hdiv : -n ≤ (refreshRateMargin - s.swapIntervalNS) / s.refreshPeriod ↔
      -n * s.refreshPeriod ≤ refreshRateMargin - s.swapIntervalNS := Int.le_ediv_iff_mul_le hp
  have hmul : -n * s.refreshPeriod = -(s.refreshPeriod * n) := by ring
  rw [hmul] at hdiv
  rw [fewestPeriods, max_le_iff]
  omega

/-- The new interval keeps that of the app exactly when the frame time needs it. -/
theorem needsAppInterval_iff (hp : 0 < s.refreshPeriod) {n : ℤ}
    (hn : IsSwapInterval (s.frameTime .on) s.refreshPeriod n) :
    s.NeedsAppInterval ↔ s.swapIntervalNS ≤ s.refreshPeriod * n + refreshRateMargin := by
  rw [← fewestPeriods_le_iff hp hn.one_le]
  have hone : 1 ≤ s.fewestPeriods := le_max_left ..
  have hmono {a b : ℤ} (h : s.refreshPeriod * a < s.refreshPeriod * b) : a < b :=
    lt_of_mul_lt_mul_left h hp.le
  constructor
  · rintro (h | h | h)
    · have := hn.one_le
      omega
    · have hle := hn.le_add_margin
      have := hmono (a := s.fewestPeriods - 1) (b := n) (by omega)
      omega
    · exact hn.le hp h
  · intro h
    rcases eq_or_lt_of_le hone with heq | hlt
    · exact Or.inl heq.symm
    · refine Or.inr ?_
      have hle : s.refreshPeriod * s.fewestPeriods ≤ s.refreshPeriod * n :=
        mul_le_mul_of_nonneg_left h hp.le
      have hpred : s.refreshPeriod * (s.fewestPeriods - 1) ≤ s.refreshPeriod * (n - 1) :=
        mul_le_mul_of_nonneg_left (by omega) hp.le
      rcases hn.least with rfl | hn | hn
      · omega
      · exact Or.inr (hle.trans hn)
      · exact Or.inl (by omega)

/-! ## Steps

What each call of the app does to the interval.
-/

/-- Slowing down never goes below the current interval. -/
theorem le_newSwapInterval (hinv : s.PacerInv) (hfull : s.frameDurations.Full)
    (hfast : s.TooFast) (hnot : s.pipelineMode = .off →
      s.refreshPeriod * s.autoSwapInterval < s.frameDurations.average.getTime .on) :
    s.autoSwapInterval ≤ s.newSwapInterval := by
  refine (isSwapInterval_of_le hinv.refreshPeriod_pos (frameTime_le hfull)).le
    hinv.refreshPeriod_pos ?_
  rcases hmode : s.pipelineMode
  · have := hnot hmode
    rw [frameTime, frameMargin]
    omega
  · rw [TooFast, hmode] at hfast
    exact le_of_lt hfast

/-- Looking at the frames keeps what the app asked for, under the condition. -/
theorem keepsAppInterval_update (hinv : s.PacerInv) (hkeeps : s.KeepsAppInterval) :
    (s.step .updateSwapInterval).KeepsAppInterval ↔ s.IntervalStepOk .updateSwapInterval := by
  by_cases h : s.autoSwapIntervalEnabled = true ∧ s.frameDurations.Full
  swap
  · rw [step, updateSwapInterval_of_not h]
    exact iff_of_true hkeeps fun _ henabled hfull => absurd ⟨henabled, hfull⟩ h
  obtain ⟨k, mode, w, m, i, mode', hdecision, heq, -⟩ := updateSwapInterval_eq h.1 h.2
  rw [step, heq]
  have hp := hinv.refreshPeriod_pos
  have hnew := isSwapInterval_of_le hp (frameTime_le h.2)
  -- where the interval is not lowered nothing is lost
  have hup (hk : s.autoSwapInterval ≤ k) (hnot : ¬ s.SpeedsUp) :
      KeepsAppInterval { s with
        autoSwapInterval := k, pipelineMode := mode, frameDurations := w, nextModeId := m
        swapIntervalForNewRefresh := i, pipelineModeForNewRefresh := mode' } ↔
      s.IntervalStepOk .updateSwapInterval := by
    refine iff_of_true (fun happlied => ?_) fun _ _ _ hspeeds => absurd hspeeds hnot
    obtain ⟨hone, hle⟩ := hkeeps happlied
    have hmul : s.refreshPeriod * s.autoSwapInterval ≤ s.refreshPeriod * k :=
      mul_le_mul_of_nonneg_left hk hp.le
    exact ⟨hone.trans hk, by simp only; omega⟩
  cases hdecision with
  | turnOn hfast => exact hup (le_refl _) fun h => h.1 hfast
  | slower hfast hnot => exact hup (le_newSwapInterval hinv h.2 hfast hnot) fun h => h.1 hfast
  | faster hspeeds =>
    constructor
    · intro hnext happlied _ _ _
      exact (needsAppInterval_iff hp hnew).mpr (hnext happlied).2
    · intro hok happlied
      exact ⟨hnew.one_le, (needsAppInterval_iff hp hnew).mp (hok happlied h.1 h.2 hspeeds)⟩
  | turnOff _ hslow => exact hup (le_refl _) fun h => hslow h.2
  | keep _ hslow => exact hup (le_refl _) fun h => hslow h.2

/-- The interval calculated for the settings keeps that of the app exactly when it fits. -/
theorem calculateSwapInterval_keeps_iff {t p : ℤ} (hp : 0 < p) :
    (1 ≤ calculateSwapInterval t p ∧
        t ≤ p * calculateSwapInterval t p + refreshRateMargin) ↔
      (t < p ∨ framesPerRefresh t p < 2 ^ 31) := by
  constructor
  · rintro ⟨hone, hle⟩
    by_contra hnot
    obtain ⟨hpt, hbig⟩ := not_or.mp hnot
    have hframes := isSwapInterval_framesPerRefresh hp (not_lt.mp hpt)
    rw [calculateSwapInterval, if_neg hpt] at hle
    -- the conversion takes off at least `2 ^ 32` periods
    have hwrap : (framesPerRefresh t p).bmod (2 ^ 32) ≤ framesPerRefresh t p - 2 ^ 32 := by
      rw [Int.bmod_def]
      split <;> omega
    have hmul := mul_le_mul_of_nonneg_left hwrap hp.le
    have hsub : p * (framesPerRefresh t p - 2 ^ 32) = p * framesPerRefresh t p - p * 2 ^ 32 := by
      ring
    have hpred : p * (framesPerRefresh t p - 1) = p * framesPerRefresh t p - p := by ring
    rw [refreshRateMargin] at hle
    rcases hframes.least with h | h | h
    · omega
    · omega
    · rw [refreshRateMargin] at h
      omega
  · intro hfits
    have hframes := isSwapInterval_calculate hp hfits
    exact ⟨hframes.one_le, hframes.le_add_margin⟩

/-- Applying settings keeps what the app asked for, under the condition. -/
theorem keepsAppInterval_updateDisplayTimings (hinv : s.PacerInv) (hkeeps : s.KeepsAppInterval)
    (supported : RefreshRateMap) :
    (s.step (.updateDisplayTimings supported)).KeepsAppInterval ↔
      s.IntervalStepOk (.updateDisplayTimings supported) := by
  rw [step]
  by_cases hpending : s.SettingsPending
  · obtain ⟨rates, m, w, heq⟩ := updateDisplayTimings_of_pending hpending supported
    rw [heq]
    by_cases hnew : s.needsNewConfig = true
    · simp only [KeepsAppInterval, IntervalStepOk, hnew, hpending, if_true, true_imp_iff]
      exact calculateSwapInterval_keeps_iff s.nextTimingSettings.refreshPeriod_pos
    · refine iff_of_true (fun _ => ?_) fun _ h => absurd h hnew
      simp only [if_neg hnew]
      have hprepared := hinv.prepared
      simp only [needsNewConfig, Bool.or_eq_true, Bool.not_eq_true', decide_eq_true_eq, not_or,
        not_not] at hnew
      obtain ⟨⟨-, hzero⟩, hvalid⟩ := hnew
      exact ⟨by omega, by unfold refreshRateMargin; omega⟩
  · obtain ⟨rates, heq⟩ := updateDisplayTimings_of_not hpending supported
    rw [heq]
    exact iff_of_true hkeeps fun h => absurd h hpending

/-- **One step**, under the condition. -/
theorem keepsAppInterval_step (hinv : s.PacerInv) (hkeeps : s.KeepsAppInterval) (e : Event) :
    (s.step e).KeepsAppInterval ↔ s.IntervalStepOk e := by
  cases e with
  | addFrameDuration cpu gpu => exact iff_of_true hkeeps trivial
  | updateSwapInterval => exact keepsAppInterval_update hinv hkeeps
  | updateDisplayTimings supported =>
    exact keepsAppInterval_updateDisplayTimings hinv hkeeps supported
  | onSettingsChanged settings =>
    rw [step, onSettingsChanged]
    split <;> exact iff_of_true hkeeps trivial
  | setAutoSwapInterval enabled => exact iff_of_true hkeeps trivial
  | setAutoPipelineMode enabled => exact iff_of_true hkeeps trivial

/-- **The pacer never runs faster than the app asked for in exactly the runs all of
whose steps meet `IntervalStepOk`.** -/
theorem keepsAppInterval_iff (settings : TimingSettings) (hasDisplayManager : Bool)
    (u : Uninitialized) (es : List Event) :
    (∀ s ∈ Runs.states step (new settings hasDisplayManager u) es, s.KeepsAppInterval) ↔
      Runs.StepsOk step IntervalStepOk (new settings hasDisplayManager u) es :=
  Runs.forall_states_iff (fun _ e hinv => pacerInv_step hinv e)
    (fun _ e hinv hkeeps => keepsAppInterval_step hinv hkeeps e)
    ⟨settings.refreshPeriod_pos, le_refl 0⟩ (fun h => absurd h Bool.false_ne_true) es

/-- At 60 Hz the app asks for two refresh periods. Frames of 40 ms take the interval to
three, and frames of 1 ms take it to one. -/
theorem not_keepsAppInterval_fast_frames :
    ∃ s ∈ Runs.states step (new ⟨16666667, 33333334, by decide⟩ false ⟨0, .off⟩)
        (.updateDisplayTimings ⟨[], .nil⟩ :: (fillWindow 40000000 0 ++ .updateSwapInterval ::
          (fillWindow 1000000 0 ++ [.updateSwapInterval]))),
      s.autoSwapInterval = 1 ∧ ¬ s.KeepsAppInterval := by
  refine ⟨_, Runs.foldl_mem_states .., ?_⟩
  rw [KeepsAppInterval]
  decide +kernel

end SwappyCommon

end GameSdk
