import GameSdk.Runs
import GameSdk.SwappySteps

/-!
# Whether the configuration has changed

The result of `updateSwapInterval` tells whether there is a new configuration: the callbacks for
a new swap interval run, and the window of frames starts anew. It is true in every branch that
chooses a configuration. But the swap interval is counted with a margin that the bounds of the
branches do not have, so at their edges what is chosen may be what was there.

`ChangesConfig` is the condition on the state under which the result is true. It is compared with
whether interval or mode are in fact different afterwards.
-/

namespace GameSdk

namespace SwappyCommon

/-! ## Counting at a bound

Where the bounds of the branches meet the margin of the count.
-/

/-- A time above a number of periods takes no more periods than that only within the margin. -/
theorem IsSwapInterval.eq_iff_of_lt {t p n k : ℤ} (h : IsSwapInterval t p n)
    (hp : refreshRateMargin < p) (hlt : p * k < t) :
    n = k ↔ 1 ≤ k ∧ t ≤ p * k + refreshRateMargin := by
  have hmargin : refreshRateMargin = 500 := rfl
  have hpos : 0 < p := by omega
  constructor
  · rintro rfl
    exact ⟨h.one_le, h.le_add_margin⟩
  · rintro ⟨hone, hle⟩
    apply le_antisymm _ (h.le hpos hlt.le)
    rcases h.least with heq | hcovers | hleft
    · omega
    · -- the margin is less than a period
      have hsucc : p * (k + 1) = p * k + p := by ring
      have hless : p * n < p * (k + 1) := by omega
      have := lt_of_mul_lt_mul_left hless hpos.le
      omega
    · have hless : p * (n - 1) < p * k := by omega
      have := lt_of_mul_lt_mul_left hless hpos.le
      omega

/-- A time below one period less takes as many only if there is one. -/
theorem IsSwapInterval.eq_iff_of_gt {t p n k : ℤ} (h : IsSwapInterval t p n) (hp : 0 < p)
    (hlt : t < p * (k - 1)) : n = k ↔ k = 1 := by
  have hmargin : refreshRateMargin = 500 := rfl
  have hone := h.one_le
  -- it takes one period, or less than `k`
  have hless : n = 1 ∨ n < k := by
    rcases h.least with heq | hcovers | hleft
    · exact Or.inl heq
    · have hlt' : p * n < p * (k - 1) := by omega
      have := lt_of_mul_lt_mul_left hlt' hp.le
      exact Or.inr (by omega)
    · have hlt' : p * (n - 1) < p * (k - 1) := by omega
      have := lt_of_mul_lt_mul_left hlt' hp.le
      exact Or.inr (by omega)
  omega

variable {s : SwappyCommon}

/-! ## The result and the configuration

One lemma for each way the two may differ.
-/

/-- **What the result is for**: it is true if the swap interval or the pipeline mode is another
one after the call. -/
def ReportsChange (s : SwappyCommon) : Prop :=
  s.updateSwapInterval.1 = true ↔
    s.updateSwapInterval.2.autoSwapInterval ≠ s.autoSwapInterval ∨
      s.updateSwapInterval.2.pipelineMode ≠ s.pipelineMode

instance (s : SwappyCommon) : Decidable s.ReportsChange := inferInstanceAs (Decidable (_ ↔ _))

/-- Frames that are pipelined, and take longer than the swap period by no more than the margin. -/
structure AboveBound (s : SwappyCommon) : Prop where
  pipelined : s.pipelineMode = .on
  one_le : 1 ≤ s.autoSwapInterval
  lt_frameTime : s.refreshPeriod * s.autoSwapInterval < s.frameTime .on
  frameTime_le : s.frameTime .on ≤ s.refreshPeriod * s.autoSwapInterval + refreshRateMargin
  needed : s.pipelineModeNotNeeded (s.frameTime .off) (s.refreshPeriod * s.autoSwapInterval) = false

/-- The swap interval is to be below one, in the pipeline mode that there is. -/
structure BelowBound (s : SwappyCommon) : Prop where
  speedsUp : s.SpeedsUp
  eq_one : s.autoSwapInterval = 1
  modeFor : s.modeFor 1 = s.pipelineMode

/-- The frame time is not at the edge of a bound. -/
def OffBounds (s : SwappyCommon) : Prop :=
  s.autoSwapIntervalEnabled = true → s.frameDurations.Full → ¬ s.AboveBound ∧ ¬ s.BelowBound

/-- One of the branches is taken. -/
def ChangesConfig (s : SwappyCommon) : Prop := s.TooFast ∨ s.TooSlow ∨ s.CanTurnOff

/-- When the result is true. -/
theorem updateConfig_fst (s : SwappyCommon) : s.updateConfig.1 = true ↔ s.ChangesConfig := by
  rw [updateConfig, ChangesConfig]
  by_cases hfast : s.TooFast
  · simp [hfast]
  · by_cases hslow : s.TooSlow
    · simp [hfast, hslow]
    · by_cases hoff : s.CanTurnOff <;> simp [hfast, hslow, hoff]

/-- Above the bound the configuration is too fast for the frames. -/
theorem AboveBound.tooFast (h : s.AboveBound) : s.TooFast := by
  rw [TooFast, h.pipelined]
  exact h.lt_frameTime

/-- When the pipeline is needed. -/
theorem modeFor_eq_on_iff (n : ℤ) : s.modeFor n = .on ↔
    s.pipelineModeNotNeeded (s.frameTime .off) (s.refreshPeriod * n) = false := by
  rw [modeFor]
  split
  · next h => simp [h]
  · next h => simpa using h

/-- The interval that is chosen is that of the average frame time. -/
theorem isSwapInterval_newSwapInterval (hp : refreshRateMargin < s.refreshPeriod)
    (hfull : s.frameDurations.Full) :
    IsSwapInterval (s.frameTime .on) s.refreshPeriod s.newSwapInterval := by
  have hmargin : refreshRateMargin = 500 := rfl
  exact isSwapInterval_of_le (by omega) (frameTime_le hfull)

/-- Where the configuration is too fast for the frames, it stays as it is exactly above the bound.
-/
theorem slower_same_iff (hp : refreshRateMargin < s.refreshPeriod) (hfull : s.frameDurations.Full)
    (hfast : s.TooFast) (hnot : s.pipelineMode = .off →
      s.refreshPeriod * s.autoSwapInterval < s.frameDurations.average.getTime .on) :
    s.newSwapInterval = s.autoSwapInterval ∧ s.modeFor s.newSwapInterval = s.pipelineMode ↔
      s.AboveBound := by
  have hcount := isSwapInterval_newSwapInterval hp hfull
  have hmargin : refreshRateMargin = 500 := rfl
  rcases hmode : s.pipelineMode
  · -- without pipelining the time is above the bound by more than the margin
    have hlt := hnot hmode
    have htime : s.frameTime .on = s.frameDurations.average.getTime .on + 3000000 := rfl
    refine iff_of_false (fun ⟨heq, _⟩ => ?_) fun h => ?_
    · have := ((hcount.eq_iff_of_lt hp (by omega)).mp heq).2
      omega
    · cases hmode.symm.trans h.pipelined
  · rw [TooFast, hmode] at hfast
    rw [hcount.eq_iff_of_lt hp hfast]
    constructor
    · rintro ⟨⟨hone, hle⟩, hnew⟩
      rw [(hcount.eq_iff_of_lt hp hfast).mpr ⟨hone, hle⟩, modeFor_eq_on_iff] at hnew
      exact ⟨hmode, hone, hfast, hle, hnew⟩
    · intro h
      have heq := (hcount.eq_iff_of_lt hp hfast).mpr ⟨h.one_le, h.frameTime_le⟩
      rw [heq, modeFor_eq_on_iff]
      exact ⟨⟨h.one_le, h.frameTime_le⟩, h.needed⟩

/-- Where a faster one is possible, it stays as it is exactly below the bound. -/
theorem faster_same_iff (hp : refreshRateMargin < s.refreshPeriod) (hfull : s.frameDurations.Full)
    (hspeeds : s.SpeedsUp) :
    s.newSwapInterval = s.autoSwapInterval ∧ s.modeFor s.newSwapInterval = s.pipelineMode ↔
      s.BelowBound := by
  have hcount := isSwapInterval_newSwapInterval hp hfull
  have hmargin : refreshRateMargin = 500 := rfl
  have hhysteresis : edgeHysteresis = 4000000 := rfl
  have hlt := hspeeds.2.2
  have heq := hcount.eq_iff_of_gt (by omega) (k := s.autoSwapInterval) (by omega)
  constructor
  · rintro ⟨hsame, hmode⟩
    have hone := heq.mp hsame
    rw [hsame, hone] at hmode
    exact ⟨hspeeds, hone, hmode⟩
  · intro h
    have hsame := heq.mpr h.eq_one
    rw [hsame, h.eq_one]
    exact ⟨rfl, h.modeFor⟩

/-- Each decision changes the configuration when its branch says so, off the bounds. -/
theorem Decision.reports_iff (hp : refreshRateMargin < s.refreshPeriod)
    (hfull : s.frameDurations.Full) {k : ℤ} {mode : PipelineMode} (h : s.Decision k mode) :
    (s.ChangesConfig ↔ k ≠ s.autoSwapInterval ∨ mode ≠ s.pipelineMode) ↔
      ¬ s.AboveBound ∧ ¬ s.BelowBound := by
  have hdiffer (k : ℤ) (mode : PipelineMode) : (k ≠ s.autoSwapInterval ∨ mode ≠ s.pipelineMode) ↔
      ¬ (k = s.autoSwapInterval ∧ mode = s.pipelineMode) := by
    rw [not_and_or]
  cases h with
  | turnOn hfast hoff hle =>
    have hchanges : s.ChangesConfig := Or.inl hfast
    have hmode : PipelineMode.on ≠ s.pipelineMode := by simp [hoff]
    refine iff_of_true (iff_of_true hchanges (Or.inr hmode)) ⟨fun h => ?_, fun h => ?_⟩
    · cases hoff.symm.trans h.pipelined
    · exact h.speedsUp.1 hfast
  | slower hfast hnot =>
    have hchanges : s.ChangesConfig := Or.inl hfast
    rw [hdiffer, slower_same_iff hp hfull hfast hnot, iff_true_left hchanges]
    exact (and_iff_left fun h => h.speedsUp.1 hfast).symm
  | faster hspeeds =>
    have hchanges : s.ChangesConfig := Or.inr (Or.inl hspeeds.2)
    rw [hdiffer, faster_same_iff hp hfull hspeeds, iff_true_left hchanges]
    exact (and_iff_right fun h => hspeeds.1 h.tooFast).symm
  | turnOff hfast hslow hoff =>
    have hchanges : s.ChangesConfig := Or.inr (Or.inr hoff)
    have hmode : PipelineMode.off ≠ s.pipelineMode := by simp [hoff.1]
    refine iff_of_true (iff_of_true hchanges (Or.inr hmode)) ⟨fun h => ?_, fun h => ?_⟩
    · exact hfast h.tooFast
    · exact hslow h.speedsUp.2
  | keep hfast hslow hoff =>
    have hchanges : ¬ s.ChangesConfig := by
      rintro (h | h | h)
      · exact hfast h
      · exact hslow h
      · exact hoff h
    refine iff_of_true (iff_of_false hchanges (by simp)) ⟨fun h => ?_, fun h => ?_⟩
    · exact hfast h.tooFast
    · exact hslow h.speedsUp.2

/-- **The result tells whether the configuration has changed**, off the bounds and only there. -/
theorem reportsChange_iff (hp : refreshRateMargin < s.refreshPeriod) :
    s.ReportsChange ↔ s.OffBounds := by
  rw [ReportsChange, OffBounds]
  by_cases h : s.autoSwapIntervalEnabled = true ∧ s.frameDurations.Full
  · obtain ⟨henabled, hfull⟩ := h
    obtain ⟨k, mode, w, hdecision, hconfig⟩ := updateConfig_eq s
    obtain ⟨m, i, mode', hprepare, -⟩ :=
      prepareRefresh_eq s.updateConfig.2 (s.frameTime .on) (s.frameTime .off)
    rw [updateSwapInterval_of_full henabled hfull, hprepare, hconfig]
    simp only [updateConfig_fst, henabled, hfull, forall_const]
    exact hdecision.reports_iff hp hfull
  · rw [updateSwapInterval_eq_of_not h]
    refine iff_of_true (by simp) fun henabled hfull => ?_
    exact absurd ⟨henabled, hfull⟩ h

/-- Frames that take some time are not below a bound. -/
theorem not_belowBound (htime : 0 ≤ s.frameDurations.average.cpuTime) : ¬ s.BelowBound := by
  intro h
  have hlt := h.speedsUp.2.2
  rw [h.eq_one, frameTime, FrameDuration.getTime, frameMargin, edgeHysteresis] at hlt
  have hmax := le_max_left s.frameDurations.average.cpuTime s.frameDurations.average.gpuTime
  omega

/-- At 60 Hz, a window of frames with the same times. -/
def firstWindow (cpuTime gpuTime : ℤ) : SwappyCommon :=
  (.updateDisplayTimings ⟨[], .nil⟩ :: fillWindow cpuTime gpuTime).foldl step
    (new ⟨16666667, 16666667, by decide⟩ false ⟨0, .off⟩)

/-- Frames of 20 ms take a longer swap interval. -/
theorem reportsChange_longFrames : (firstWindow 20000000 0).ReportsChange :=
  (reportsChange_iff (by decide +kernel)).mpr fun _ _ =>
    ⟨fun h => absurd h.pipelined (by decide +kernel), not_belowBound (by decide +kernel)⟩

/-- Frames that take the swap period less the margin of 3 ms, and 100 ns more. The first window
turns pipelining on, and the second one changes nothing. -/
theorem not_reportsChange_secondWindow :
    ∃ s ∈ Runs.states step (new ⟨16666667, 16666667, by decide⟩ false ⟨0, .off⟩)
        (.updateDisplayTimings ⟨[], .nil⟩ :: (fillWindow 13666767 13666767 ++
          .updateSwapInterval :: fillWindow 13666767 13666767)),
      refreshRateMargin < s.refreshPeriod ∧ s.updateSwapInterval.1 = true ∧
        s.updateSwapInterval.2.autoSwapInterval = s.autoSwapInterval ∧
        s.updateSwapInterval.2.pipelineMode = s.pipelineMode ∧ ¬ s.ReportsChange := by
  refine ⟨_, Runs.foldl_mem_states .., ?_⟩
  rw [ReportsChange]
  decide +kernel

end SwappyCommon

end GameSdk
