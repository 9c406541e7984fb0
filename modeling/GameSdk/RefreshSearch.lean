import GameSdk.RefreshPlan
import GameSdk.RunningBest
import Mathlib.Algebra.Order.Group.Unbundled.Abs

/-!
# The search for a refresh rate

`updateSwapInterval` goes over the supported refresh rates twice. The first loop is for a
shorter swap that still holds the frame, the second one for the swap that there is at a
lower rate. Both are loops that keep the best so far, over rates in the order of their
periods.

`Best` says what the search is for, in three cases: a shorter swap that holds the frame, else the
present swap at a lower rate, else nothing. Of several rates with the same swap the one with the
smallest period is taken.
-/

namespace GameSdk

namespace SwappyCommon

variable {s : SwappyCommon} {t : ℤ} {rates : List RefreshRate}

/-- How long a swap takes at a refresh rate, for frames that take `t`. -/
def swapPeriod (t : ℤ) (r : RefreshRate) : ℤ := r.period * calculateSwapInterval t r.period

/-- The rate with the swap interval for frames that take `t`. -/
def configFor (t : ℤ) (r : RefreshRate) : RefreshConfig := ⟨r, calculateSwapInterval t r.period⟩

/-- The swap holds the frame with the hysteresis, and is as long as the app asked for. -/
def Accommodates (s : SwappyCommon) (t : ℤ) (r : RefreshRate) : Prop :=
  t < swapPeriod t r - edgeHysteresis ∧ s.swapIntervalNS ≤ swapPeriod t r

/-- Such a swap that is shorter than the one that there is. -/
def Shortens (s : SwappyCommon) (t : ℤ) (r : RefreshRate) : Prop :=
  s.Accommodates t r ∧ swapPeriod t r < s.refreshPeriod * s.autoSwapInterval

/-- The swap that there is, up to a millisecond, at a lower refresh rate. -/
def SavesPower (s : SwappyCommon) (t : ℤ) (r : RefreshRate) : Prop :=
  |swapPeriod t r - s.refreshPeriod * s.autoSwapInterval| < 1000000 ∧ s.refreshPeriod < r.period

instance : DecidablePred (s.Accommodates t) := fun _ => inferInstanceAs (Decidable (_ ∧ _))
instance : DecidablePred (s.Shortens t) := fun _ => inferInstanceAs (Decidable (_ ∧ _))
instance : DecidablePred (s.SavesPower t) := fun _ => inferInstanceAs (Decidable (_ ∧ _))

/-- **The search**: the shortest swap that holds the frame, and of several the smallest
period; else the lowest refresh rate for the swap that there is; else nothing. -/
inductive Best (s : SwappyCommon) (t : ℤ) (rates : List RefreshRate) :
    Option RefreshConfig → Prop
  | shorter (r : RefreshRate) (hr : r ∈ rates) (h : s.Shortens t r)
      (hbest : ∀ r' ∈ rates, s.Shortens t r' → swapPeriod t r < swapPeriod t r' ∨
        swapPeriod t r = swapPeriod t r' ∧ r.period ≤ r'.period) :
      Best s t rates (some (configFor t r))
  | lower (hnone : ∀ r' ∈ rates, ¬ s.Shortens t r') (r : RefreshRate) (hr : r ∈ rates)
      (h : s.SavesPower t r) (hbest : ∀ r' ∈ rates, s.SavesPower t r' → r'.period ≤ r.period) :
      Best s t rates (some (configFor t r))
  | none (hshorter : ∀ r' ∈ rates, ¬ s.Shortens t r')
      (hlower : ∀ r' ∈ rates, ¬ s.SavesPower t r') : Best s t rates none

/-! ## The two loops

Each of them keeps the best so far, and is an instance of `RunningBest`.
-/

theorem isSameDuration_iff (p₁ i₁ p₂ i₂ : ℤ) :
    isSameDuration p₁ i₁ p₂ i₂ = true ↔ |p₁ * i₁ - p₂ * i₂| < 1000000 := by
  rw [isSameDuration, decide_eq_true_iff, max_sub_min_eq_abs']

theorem shorterSwapPeriod_eq (s : SwappyCommon) (t : ℤ) (rates : List RefreshRate) :
    s.shorterSwapPeriod t rates = (RunningBest.least (s.Accommodates t) (swapPeriod t)
      (s.refreshPeriod * s.autoSwapInterval) rates).map (configFor t) := by
  rw [shorterSwapPeriod, RunningBest.least]
  refine congrArg Prod.fst (@List.foldl_hom _ _ _ (Prod.map (Option.map (configFor t)) id) _ _ _
    (none, s.refreshPeriod * s.autoSwapInterval) fun best r => ?_)
  have hiff : (t < swapPeriod t r - edgeHysteresis ∧ swapPeriod t r < best.2 ∧
      swapPeriod t r ≥ s.swapIntervalNS) ↔ s.Accommodates t r ∧ swapPeriod t r < best.2 := by
    rw [Accommodates, and_comm (a := swapPeriod t r < best.2), ← and_assoc]
  rw [RunningBest.leastStep]
  by_cases h : s.Accommodates t r ∧ swapPeriod t r < best.2
  · rw [if_pos h]
    exact if_pos (hiff.mpr h)
  · rw [if_neg h]
    exact if_neg fun hbetter => h (hiff.mp hbetter)

theorem sameSwapPeriod_eq (s : SwappyCommon) (t : ℤ) (rates : List RefreshRate) :
    s.sameSwapPeriod t rates = (RunningBest.last (s.SavesPower t) rates).map (configFor t) := by
  rw [sameSwapPeriod, RunningBest.last]
  refine @List.foldl_hom _ _ _ (Option.map (configFor t)) _ _ _ none fun best r => ?_
  have hiff : (isSameDuration r.period (calculateSwapInterval t r.period) s.refreshPeriod
      s.autoSwapInterval ∧ r.period > s.refreshPeriod) ↔ s.SavesPower t r :=
    and_congr_left' (isSameDuration_iff ..)
  by_cases h : s.SavesPower t r
  · rw [if_pos h]
    exact if_pos (hiff.mpr h)
  · rw [if_neg h]
    exact if_neg fun hsame => h (hiff.mp hsame)

/-- The map is in the order of the periods. -/
theorem best_betterRefresh {m : RefreshRateMap} (hm : s.supportedRefreshRates = some m) (t : ℤ) :
    s.Best t m.rates (s.betterRefresh t) := by
  rw [betterRefresh, hm]
  dsimp only
  rw [shorterSwapPeriod_eq, sameSwapPeriod_eq]
  rcases hfirst : RunningBest.least (s.Accommodates t) (swapPeriod t)
    (s.refreshPeriod * s.autoSwapInterval) m.rates with _ | r
  · have hnone : ∀ r' ∈ m.rates, ¬ s.Shortens t r' := fun r' hr' h =>
      absurd h.2 (not_lt.mpr (RunningBest.le_of_eq_none m.sorted hfirst r' hr' h.1))
    rcases hsecond : RunningBest.last (s.SavesPower t) m.rates with _ | r
    · exact .none hnone (RunningBest.not_of_eq_none hsecond)
    · obtain ⟨hmem, hpass, hle⟩ := RunningBest.isLast_of_eq_some m.sorted hsecond
      refine .lower hnone r hmem hpass fun r' hr' h => ?_
      rcases hle r' hr' h with rfl | hlt
      · exact le_rfl
      · exact hlt.le
  · obtain ⟨hmem, hpass, hlt, hle⟩ := RunningBest.isLeast_of_eq_some m.sorted hfirst
    refine .shorter r hmem ⟨hpass, hlt⟩ fun r' hr' h => ?_
    rcases hle r' hr' h.1 with hlt | ⟨heq, rfl | hlt⟩
    · exact Or.inl hlt
    · exact Or.inr ⟨heq, le_rfl⟩
    · exact Or.inr ⟨heq, hlt.le⟩

/-! ## What is prepared

The rate that was found is asked for, with the interval for it.
-/

theorem supportedRefreshRates_updateConfig (s : SwappyCommon) :
    s.updateConfig.2.supportedRefreshRates = s.supportedRefreshRates ∧
      s.updateConfig.2.swapIntervalForNewRefresh = s.swapIntervalForNewRefresh := by
  obtain ⟨k, mode, w, -, heq⟩ := updateConfig_eq s
  rw [heq]
  exact ⟨rfl, rfl⟩

/-- **`updateSwapInterval`** with a full window selects the best refresh rate for the
configuration it has decided on, and prepares its swap interval, which holds the frame up
to the margin. Otherwise nothing is prepared. -/
theorem updateSwapInterval_best {m : RefreshRateMap} (henabled : s.autoSwapIntervalEnabled = true)
    (hfull : s.frameDurations.Full) (hm : s.supportedRefreshRates = some m) :
    let selected := s.updateConfig.2.betterRefresh (s.frameTime .on)
    s.updateConfig.2.Best (s.frameTime .on) m.rates selected ∧
      (selected = none → s.updateSwapInterval.2 = s.updateConfig.2 ∧
        s.updateSwapInterval.2.swapIntervalForNewRefresh = s.swapIntervalForNewRefresh) ∧
      ∀ config, selected = some config →
        s.updateSwapInterval.2.nextModeId =
          (s.updateConfig.2.setPreferredMode config.rate.modeId).nextModeId ∧
        s.updateSwapInterval.2.swapIntervalForNewRefresh = config.swapInterval ∧
        s.frameTime .on ≤ config.rate.period * config.swapInterval + refreshRateMargin := by
  intro selected
  obtain ⟨hrates, hkept⟩ := supportedRefreshRates_updateConfig s
  refine ⟨best_betterRefresh (hrates.trans hm) _, fun hnone => ?_, fun config hconfig => ?_⟩
  · have hsame : s.updateSwapInterval.2 = s.updateConfig.2 := by
      rw [updateSwapInterval_of_full henabled hfull]
      simp only [prepareRefresh, show s.updateConfig.2.betterRefresh _ = none from hnone]
    exact ⟨hsame, by rw [hsame, hkept]⟩
  · have hinterval := betterRefresh_swapInterval hconfig
    have hholds := (isSwapInterval_of_le config.rate.period_pos (frameTime_le hfull)).le_add_margin
    rw [updateSwapInterval_of_full henabled hfull]
    simp only [prepareRefresh, show s.updateConfig.2.betterRefresh _ = some config from hconfig]
    exact ⟨trivial, trivial, by rw [hinterval]; exact hholds⟩

/-- At 60 Hz with frames that take 20 ms, a rate of 30 Hz is the same swap. -/
theorem updateSwapInterval_best_longFrames :
    (longFrames 33333333).updateConfig.2.Best ((longFrames 33333333).frameTime .on)
      twoRates.rates (some longerPeriod) ∧
    (longFrames 33333333).updateSwapInterval.2.swapIntervalForNewRefresh = 1 := by
  have hselected : (longFrames 33333333).updateConfig.2.betterRefresh
      ((longFrames 33333333).frameTime .on) = some longerPeriod := by decide +kernel
  obtain ⟨hbest, -, hprepared⟩ := updateSwapInterval_best (s := longFrames 33333333)
    (m := twoRates) (by decide +kernel) (by decide +kernel) (by decide +kernel)
  exact ⟨hselected ▸ hbest, (hprepared longerPeriod hselected).2.1⟩

end SwappyCommon

end GameSdk
