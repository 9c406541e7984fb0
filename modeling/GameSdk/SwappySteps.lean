import GameSdk.SwappyCommon
import Mathlib.Tactic.Ring

/-!
# What the frame pacer decides

`calculateSwapInterval` counts refresh periods up to a margin; `updateSwapInterval`
comes to one of five decisions about the swap interval and the pipeline mode; applying
settings takes the configuration that was prepared or makes a new one. Invariants of
the pacer are proved from these facts.

`Decision` lists what `updateSwapInterval` may do, with the condition of each branch. What is proved
later about every run goes through the decisions, and not through the branches themselves.
-/

namespace GameSdk

namespace SwappyCommon

/-! ## Counting refresh periods

A count of periods is pinned down by two bounds: the time fits with the margin, and would not fit
into one period less.
-/

/-- `n` is the number of periods `p` in the time `t`: the least that covers it, unless
what is left over is within the margin. -/
structure IsSwapInterval (t p : ℤ) (n : ℤ) : Prop where
  one_le : 1 ≤ n
  le_add_margin : t ≤ p * n + refreshRateMargin
  lt_succ : t < p * (n + 1)
  least : n = 1 ∨ p * n ≤ t ∨ p * (n - 1) + refreshRateMargin < t

/-- The count is the swap interval of the time. -/
theorem isSwapInterval_framesPerRefresh {t p : ℤ} (hp : 0 < p) (ht : p ≤ t) :
    IsSwapInterval t p (framesPerRefresh t p) := by
  have ht0 : 0 ≤ t := by omega
  have hmargin : refreshRateMargin = 500 := rfl
  rw [framesPerRefresh, Int.tdiv_eq_ediv_of_nonneg ht0, Int.tmod_eq_emod_of_nonneg ht0]
  have hsum := Int.mul_ediv_add_emod t p
  have hlt := Int.emod_lt_of_pos t hp
  have hnonneg := Int.emod_nonneg t hp.ne'
  have hone : 1 ≤ t / p := (Int.le_ediv_iff_mul_le hp).mpr (by omega)
  generalize t / p = q at *
  generalize t % p = r at *
  by_cases hr : r > refreshRateMargin
  · rw [if_pos hr]
    have hsucc : p * (q + 1) = p * q + p := by ring
    have hsucc₂ : p * (q + 1 + 1) = p * q + p + p := by ring
    have hpred : p * (q + 1 - 1) = p * q := by ring
    exact ⟨by omega, by omega, by omega, Or.inr (Or.inr (by omega))⟩
  · rw [if_neg hr]
    have hsucc : p * (q + 0 + 1) = p * q + p := by ring
    have hzero : p * (q + 0) = p * q := by ring
    exact ⟨by omega, by omega, by omega, Or.inr (Or.inl (by omega))⟩

/-- The count is at most one more than the time. -/
theorem framesPerRefresh_le {t p : ℤ} (ht : 0 ≤ t) :
    framesPerRefresh t p ≤ t + 1 := by
  have hdiv : t.tdiv p ≤ t := Int.tdiv_le_self p ht
  rw [framesPerRefresh]
  split <;> omega

/-- An `int` holds what is below `2 ^ 31`. -/
theorem bmod_eq_self {n : ℤ} (h₁ : 0 ≤ n) (h₂ : n < 2 ^ 31) : n.bmod (2 ^ 32) = n :=
  Int.bmod_eq_of_le (by omega) (by omega)

/-- The swap interval is right when it fits an `int`. -/
theorem isSwapInterval_calculate {t p : ℤ} (hp : 0 < p)
    (hfits : t < p ∨ framesPerRefresh t p < 2 ^ 31) :
    IsSwapInterval t p (calculateSwapInterval t p) := by
  have hmargin : refreshRateMargin = 500 := rfl
  rw [calculateSwapInterval]
  split
  · next hlt => exact ⟨le_refl 1, by omega, by omega, Or.inl rfl⟩
  · next hle =>
    have hframes := isSwapInterval_framesPerRefresh hp (not_lt.mp hle)
    have hone := hframes.one_le
    rwa [bmod_eq_self (by omega) (hfits.resolve_left hle)]

/-- Frame times are short: their swap intervals fit. -/
theorem isSwapInterval_of_le {t p : ℤ} (hp : 0 < p) (ht : t ≤ 103000000) :
    IsSwapInterval t p (calculateSwapInterval t p) := by
  refine isSwapInterval_calculate hp ?_
  rcases lt_or_ge t p with hlt | hle
  · exact Or.inl hlt
  · have := framesPerRefresh_le (p := p) (t := t) (by omega)
    exact Or.inr (by omega)

/-- More time takes more periods. -/
theorem IsSwapInterval.le {t p : ℤ} {n m : ℤ} (h : IsSwapInterval t p n) (hp : 0 < p)
    (hm : p * m ≤ t) : m ≤ n := by
  have hlt := h.lt_succ
  have : p * m < p * (n + 1) := by omega
  have := lt_of_mul_lt_mul_left this hp.le
  omega

variable {s : SwappyCommon}

/-- An average of capped durations, and the margin. -/
theorem frameTime_le (h : s.frameDurations.Full) : s.frameTime .on ≤ 103000000 := by
  obtain ⟨hcpu, hgpu⟩ := FrameDurations.capped_average h
  have hmax : max s.frameDurations.average.cpuTime s.frameDurations.average.gpuTime ≤ 100000000 :=
    max_le hcpu hgpu
  simp only [frameTime, FrameDuration.getTime, frameMargin]
  omega

/-! ## Parts that leave the configuration alone

Looking for a better refresh rate changes only what is prepared for it.
-/

/-- Asking for a mode changes only what was asked for. -/
theorem setPreferredMode_eq (s : SwappyCommon) (modeId : ℤ) :
    ∃ nextModeId, s.setPreferredMode modeId = { s with nextModeId } := by
  rw [setPreferredMode]
  split
  · exact ⟨s.nextModeId, rfl⟩
  · exact ⟨modeId, rfl⟩

/-- So does asking for a refresh rate. -/
theorem setPreferredRefreshRate_eq (s : SwappyCommon) (frameTime : ℤ) :
    ∃ nextModeId, s.setPreferredRefreshRate frameTime = { s with nextModeId } := by
  rw [setPreferredRefreshRate]
  split
  · exact ⟨s.nextModeId, rfl⟩
  · exact setPreferredMode_eq s _

/-- What the first loop finds: a shorter swap that is as long as the app asked for. -/
structure ShorterSwap (s : SwappyCommon) (t : ℤ) (config : RefreshConfig) : Prop where
  swapInterval_eq : config.swapInterval = calculateSwapInterval t config.rate.period
  lt_duration : config.rate.period * config.swapInterval < s.refreshPeriod * s.autoSwapInterval
  swapIntervalNS_le : s.swapIntervalNS ≤ config.rate.period * config.swapInterval

/-- What the second loop finds: the swap that there is, with a longer refresh period. -/
structure SameSwap (s : SwappyCommon) (t : ℤ) (config : RefreshConfig) : Prop where
  swapInterval_eq : config.swapInterval = calculateSwapInterval t config.rate.period
  sameDuration : isSameDuration config.rate.period config.swapInterval s.refreshPeriod
    s.autoSwapInterval = true
  lt_period : s.refreshPeriod < config.rate.period

/-- What is known of a configuration with a shorter swap period. -/
theorem shorterSwap_of_eq_some {t : ℤ} {rates : List RefreshRate} {config : RefreshConfig}
    (h : s.shorterSwapPeriod t rates = some config) : s.ShorterSwap t config := by
  rw [shorterSwapPeriod] at h
  refine (List.foldlRecOn (motive := fun best : Option RefreshConfig × ℤ =>
    best.2 ≤ s.refreshPeriod * s.autoSwapInterval ∧ ∀ c, best.1 = some c → s.ShorterSwap t c)
    rates _ ⟨le_refl _, fun c hc => by cases hc⟩ ?_).2 config h
  intro best hbest r _
  dsimp only
  split
  · next hshorter =>
    obtain ⟨-, hlt, hle⟩ := hshorter
    refine ⟨hlt.le.trans hbest.1, fun c hc => ?_⟩
    obtain rfl := Option.some.inj hc
    exact ⟨rfl, hlt.trans_le hbest.1, hle⟩
  · exact hbest

/-- What is known of a configuration with the same swap period. -/
theorem sameSwap_of_eq_some {t : ℤ} {rates : List RefreshRate} {config : RefreshConfig}
    (h : s.sameSwapPeriod t rates = some config) : s.SameSwap t config := by
  rw [sameSwapPeriod] at h
  refine List.foldlRecOn (motive := fun best : Option RefreshConfig =>
    ∀ c, best = some c → s.SameSwap t c) rates _ (fun c hc => by cases hc) ?_ config h
  intro best hbest r _
  dsimp only
  split
  · next hsame =>
    intro c hc
    obtain rfl := Option.some.inj hc
    exact ⟨rfl, hsame.1, hsame.2⟩
  · exact hbest

/-- A better refresh rate is one of the two. -/
theorem betterRefresh_cases {t : ℤ} {config : RefreshConfig}
    (h : s.betterRefresh t = some config) : s.ShorterSwap t config ∨ s.SameSwap t config := by
  rw [betterRefresh] at h
  split at h
  · cases h
  · split at h
    · next heq => exact Or.inl (shorterSwap_of_eq_some (heq.trans h))
    · exact Or.inr (sameSwap_of_eq_some h)

/-- The search returns a rate with its swap interval for the frame time. -/
theorem betterRefresh_swapInterval {t : ℤ} {config : RefreshConfig}
    (h : s.betterRefresh t = some config) :
    config.swapInterval = calculateSwapInterval t config.rate.period := by
  rcases betterRefresh_cases h with hshorter | hsame
  · exact hshorter.swapInterval_eq
  · exact hsame.swapInterval_eq

/-- Preparing a refresh rate changes only what is prepared. -/
theorem prepareRefresh_eq (s : SwappyCommon) (t t' : ℤ) :
    ∃ nextModeId swapIntervalForNewRefresh pipelineModeForNewRefresh,
      s.prepareRefresh t t' =
        { s with nextModeId, swapIntervalForNewRefresh, pipelineModeForNewRefresh } ∧
      (swapIntervalForNewRefresh = s.swapIntervalForNewRefresh ∨ ∃ r : RefreshRate,
        swapIntervalForNewRefresh = calculateSwapInterval t r.period) := by
  rw [prepareRefresh]
  split
  · exact ⟨_, _, _, rfl, Or.inl rfl⟩
  · next config hconfig =>
    obtain ⟨nextModeId, hmode⟩ := setPreferredMode_eq s config.rate.modeId
    rw [hmode]
    exact ⟨nextModeId, _, _, rfl, Or.inr ⟨config.rate, betterRefresh_swapInterval hconfig⟩⟩

/-! ## Decisions

The five branches, and that there are no others.
-/

/-- The swap interval for the average frame time when pipelining. -/
def newSwapInterval (s : SwappyCommon) : ℤ :=
  calculateSwapInterval (s.frameTime .on) s.refreshPeriod

/-- The pipeline mode after a change to the swap interval `n`. -/
def modeFor (s : SwappyCommon) (n : ℤ) : PipelineMode :=
  if s.pipelineModeNotNeeded (s.frameTime .off) (s.refreshPeriod * n) then .off else .on

/-- The speed-up branch of `updateSwapInterval`. -/
def SpeedsUp (s : SwappyCommon) : Prop := ¬ s.TooFast ∧ s.TooSlow

instance (s : SwappyCommon) : Decidable s.SpeedsUp := inferInstanceAs (Decidable (_ ∧ _))

/-- The possible decisions: a swap interval and a pipeline mode. -/
inductive Decision (s : SwappyCommon) : ℤ → PipelineMode → Prop
  | turnOn (hfast : s.TooFast) (hoff : s.pipelineMode = .off)
      (hle : s.frameDurations.average.getTime .on ≤ s.refreshPeriod * s.autoSwapInterval) :
      Decision s s.autoSwapInterval .on
  | slower (hfast : s.TooFast) (hnot : s.pipelineMode = .off →
      s.refreshPeriod * s.autoSwapInterval < s.frameDurations.average.getTime .on) :
      Decision s s.newSwapInterval (s.modeFor s.newSwapInterval)
  | faster (h : s.SpeedsUp) : Decision s s.newSwapInterval (s.modeFor s.newSwapInterval)
  | turnOff (hfast : ¬ s.TooFast) (hslow : ¬ s.TooSlow) (hoff : s.CanTurnOff) :
      Decision s s.autoSwapInterval .off
  | keep (hfast : ¬ s.TooFast) (hslow : ¬ s.TooSlow) (hoff : ¬ s.CanTurnOff) :
      Decision s s.autoSwapInterval s.pipelineMode

/-- **Every change of the configuration is a decision.** -/
theorem updateConfig_eq (s : SwappyCommon) :
    ∃ autoSwapInterval pipelineMode frameDurations,
      Decision s autoSwapInterval pipelineMode ∧
        s.updateConfig.2 = { s with autoSwapInterval, pipelineMode, frameDurations } := by
  rw [updateConfig]
  by_cases hfast : s.TooFast
  · by_cases hon : s.pipelineMode = .off ∧
        s.frameDurations.average.getTime .on ≤ s.refreshPeriod * s.autoSwapInterval
    · exact ⟨_, _, _, .turnOn hfast hon.1 hon.2,
        by simp only [if_pos hfast, swapSlower, if_pos hon]; rfl⟩
    · have hnot := fun hoff => not_le.mp fun hle => hon ⟨hoff, hle⟩
      exact ⟨_, _, _, .slower hfast hnot,
        by simp only [if_pos hfast, swapSlower, if_neg hon]; rfl⟩
  · by_cases hslow : s.TooSlow
    · exact ⟨_, _, _, .faster ⟨hfast, hslow⟩, by simp only [if_neg hfast, if_pos hslow]; rfl⟩
    · by_cases hoff : s.CanTurnOff
      · exact ⟨_, _, _, .turnOff hfast hslow hoff,
          by simp only [if_neg hfast, if_neg hslow, if_pos hoff]; rfl⟩
      · exact ⟨_, _, _, .keep hfast hslow hoff,
          by simp only [if_neg hfast, if_neg hslow, if_neg hoff]; rfl⟩

/-- With a full window the configuration is looked at, and then the refresh rates. -/
theorem updateSwapInterval_of_full (henabled : s.autoSwapIntervalEnabled = true)
    (hfull : s.frameDurations.Full) :
    s.updateSwapInterval = (s.updateConfig.1,
      s.updateConfig.2.prepareRefresh (s.frameTime .on) (s.frameTime .off)) := by
  rw [updateSwapInterval, if_neg (by rw [henabled]; decide), if_neg (not_not.mpr hfull)]

/-- Otherwise nothing happens. -/
theorem updateSwapInterval_eq_of_not
    (h : ¬ (s.autoSwapIntervalEnabled = true ∧ s.frameDurations.Full)) :
    s.updateSwapInterval = (false, s) := by
  rw [updateSwapInterval]
  by_cases henabled : s.autoSwapIntervalEnabled = false
  · rw [if_pos henabled]
  · rw [if_neg henabled, if_pos fun hfull => h ⟨by simpa using henabled, hfull⟩]

/-- **`updateSwapInterval`** with a full window comes to a decision, and may prepare for
another refresh rate. -/
theorem updateSwapInterval_eq (henabled : s.autoSwapIntervalEnabled = true)
    (hfull : s.frameDurations.Full) :
    ∃ autoSwapInterval pipelineMode frameDurations nextModeId swapIntervalForNewRefresh
        pipelineModeForNewRefresh, Decision s autoSwapInterval pipelineMode ∧
      s.updateSwapInterval.2 = { s with
        autoSwapInterval, pipelineMode, frameDurations, nextModeId, swapIntervalForNewRefresh
        pipelineModeForNewRefresh } ∧
      (swapIntervalForNewRefresh = s.swapIntervalForNewRefresh ∨ ∃ r : RefreshRate,
        swapIntervalForNewRefresh = calculateSwapInterval (s.frameTime .on) r.period) := by
  obtain ⟨k, mode, w, hdecision, hconfig⟩ := updateConfig_eq s
  obtain ⟨m, i, mode', hprepare, hi⟩ :=
    prepareRefresh_eq s.updateConfig.2 (s.frameTime .on) (s.frameTime .off)
  refine ⟨k, mode, w, m, i, mode', hdecision, ?_, ?_⟩
  · rw [updateSwapInterval_of_full henabled hfull]
    simp only [hprepare]
    rw [hconfig]
  · rw [hconfig] at hi
    exact hi

/-- The state stays. -/
theorem updateSwapInterval_of_not
    (h : ¬ (s.autoSwapIntervalEnabled = true ∧ s.frameDurations.Full)) :
    s.updateSwapInterval.2 = s := by
  rw [updateSwapInterval_eq_of_not h]

/-! ## Settings

Applying settings takes over what was prepared, or counts anew.
-/

/-- A configuration from the settings alone. -/
theorem newConfig_eq (s : SwappyCommon) :
    ∃ nextModeId, s.newConfig = { s with
      autoSwapInterval := calculateSwapInterval s.swapIntervalNS s.refreshPeriod
      pipelineMode := if s.autoSwapIntervalEnabled then .off else .on
      nextModeId } := setPreferredRefreshRate_eq ..

/-- **Applying settings**: the period and the interval are theirs, the rest is one of two. -/
theorem applySettings_eq (s : SwappyCommon) :
    ∃ nextModeId frameDurations, s.applySettings = { s with
      refreshPeriod := s.nextTimingSettings.refreshPeriod
      swapIntervalNS := s.nextTimingSettings.swapIntervalNS
      autoSwapInterval :=
        if s.needsNewConfig then calculateSwapInterval s.nextTimingSettings.swapIntervalNS
          s.nextTimingSettings.refreshPeriod
        else s.swapIntervalForNewRefresh
      pipelineMode :=
        if s.needsNewConfig then if s.autoSwapIntervalEnabled then .off else .on
        else s.pipelineModeForNewRefresh
      swapIntervalForNewRefresh := 0
      applied := true
      nextModeId, frameDurations } := by
  have hrate (t : SwappyCommon) : ∃ nextModeId, (if t.nextModeId = -1 then
      t.setPreferredRefreshRate t.swapIntervalNS else t) = { t with nextModeId } := by
    split
    · exact setPreferredRefreshRate_eq t t.swapIntervalNS
    · exact ⟨t.nextModeId, rfl⟩
  rw [applySettings]
  by_cases hnew : s.needsNewConfig
  · obtain ⟨m, hconfig⟩ := newConfig_eq s.takeConfig
    obtain ⟨m', hmode⟩ := hrate s.takeConfig.newConfig
    refine ⟨m', FrameDurations.clear, ?_⟩
    simp only [if_pos hnew]
    rw [hmode, hconfig]
    rfl
  · obtain ⟨m', hmode⟩ := hrate s.takeConfig
    refine ⟨m', FrameDurations.clear, ?_⟩
    simp only [if_neg hnew]
    rw [hmode]
    rfl

/-- Settings that wait and differ are applied. -/
theorem updateDisplayTimings_eq (s : SwappyCommon) (supported : RefreshRateMap) :
    ∃ supportedRefreshRates, s.updateDisplayTimings supported =
      if s.SettingsPending then applySettings
        { s with supportedRefreshRates, timingSettingsNeedUpdate := false }
      else { s with supportedRefreshRates, timingSettingsNeedUpdate := false } := by
  rw [updateDisplayTimings]
  refine ⟨if s.hasDisplayManager then some supported else s.supportedRefreshRates, ?_⟩
  have hpush : (if s.hasDisplayManager then { s with supportedRefreshRates := some supported }
      else s) = { s with supportedRefreshRates :=
        if s.hasDisplayManager then some supported else s.supportedRefreshRates } := by
    split <;> rfl
  simp only [hpush]
  by_cases hneed : s.timingSettingsNeedUpdate = false
  · have hpending : ¬ s.SettingsPending :=
      fun h => absurd (hneed.symm.trans h.1) Bool.false_ne_true
    rw [if_pos hneed, if_neg hpending]
    simp only [hneed]
  · rw [if_neg hneed]
    by_cases hsame : s.refreshPeriod = s.nextTimingSettings.refreshPeriod ∧
        s.swapIntervalNS = s.nextTimingSettings.swapIntervalNS
    · have hpending : ¬ s.SettingsPending := fun h => h.2 hsame
      rw [if_pos hsame, if_neg hpending]
    · have hpending : s.SettingsPending := ⟨by simpa using hneed, hsame⟩
      rw [if_neg hsame, if_pos hpending]

/-- **Applying settings** takes the configuration that was prepared, or makes a new one. -/
theorem updateDisplayTimings_of_pending (h : s.SettingsPending) (supported : RefreshRateMap) :
    ∃ supportedRefreshRates nextModeId frameDurations,
      s.updateDisplayTimings supported = { s with
        refreshPeriod := s.nextTimingSettings.refreshPeriod
        swapIntervalNS := s.nextTimingSettings.swapIntervalNS
        autoSwapInterval :=
          if s.needsNewConfig then calculateSwapInterval s.nextTimingSettings.swapIntervalNS
            s.nextTimingSettings.refreshPeriod
          else s.swapIntervalForNewRefresh
        pipelineMode :=
          if s.needsNewConfig then if s.autoSwapIntervalEnabled then .off else .on
          else s.pipelineModeForNewRefresh
        swapIntervalForNewRefresh := 0
        applied := true
        timingSettingsNeedUpdate := false
        supportedRefreshRates, nextModeId, frameDurations } := by
  obtain ⟨rates, heq⟩ := updateDisplayTimings_eq s supported
  obtain ⟨m, w, happly⟩ := applySettings_eq
    { s with supportedRefreshRates := rates, timingSettingsNeedUpdate := false }
  exact ⟨rates, m, w, by rw [heq, if_pos h, happly]; rfl⟩

/-- Otherwise only the flag is cleared. -/
theorem updateDisplayTimings_of_not (h : ¬ s.SettingsPending) (supported : RefreshRateMap) :
    ∃ supportedRefreshRates, s.updateDisplayTimings supported =
      { s with supportedRefreshRates, timingSettingsNeedUpdate := false } := by
  obtain ⟨rates, heq⟩ := updateDisplayTimings_eq s supported
  exact ⟨rates, by rw [heq, if_neg h]⟩

end SwappyCommon

end GameSdk
