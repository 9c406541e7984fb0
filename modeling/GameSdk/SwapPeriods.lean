import GameSdk.SwappySteps
import Mathlib.Order.Bounds.Basic
import Mathlib.Tactic.Linarith

/-!
# The count of refresh periods

What `calculateSwapInterval` is for: the least number of refresh periods that hold a
frame, up to the margin. The remainder is looked at after the division, so the number
of periods may be one more than a quotient that fits an `int`.

The result is exact: the count is the least number exactly if it fits an `int`, which is said in
terms of the two arguments.
-/

namespace GameSdk

namespace SwappyCommon

variable {t t' p p' : ℤ}

/-- The numbers of periods `p` that hold the time `t`, up to the margin. -/
def swapIntervals (t p : ℤ) : Set ℤ := {n | 1 ≤ n ∧ t ≤ n * p + refreshRateMargin}

/-- More time needs no fewer periods. -/
theorem swapIntervals_subset_of_le (h : t' ≤ t) : swapIntervals t p ⊆ swapIntervals t' p :=
  fun _ hn => ⟨hn.1, h.trans hn.2⟩

/-- Longer periods hold as much. -/
theorem swapIntervals_subset_of_period_le (h : p ≤ p') :
    swapIntervals t p ⊆ swapIntervals t p' := by
  intro n hn
  have hmul : n * p ≤ n * p' := mul_le_mul_of_nonneg_left h (by linarith [hn.1])
  exact ⟨hn.1, by linarith [hn.2]⟩

/-- Rounding by the remainder is division with a tolerance: the count is at most `n` when
`n` periods hold the time. -/
theorem framesPerRefresh_le_iff (ht : 0 ≤ t) (hp : refreshRateMargin < p) (n : ℤ) :
    framesPerRefresh t p ≤ n ↔ t ≤ n * p + refreshRateMargin := by
  have hmargin : refreshRateMargin = 500 := rfl
  have hp₀ : 0 < p := by omega
  rw [framesPerRefresh, Int.tdiv_eq_ediv_of_nonneg ht, Int.tmod_eq_emod_of_nonneg ht]
  have hsum := Int.mul_ediv_add_emod t p
  have hlt := Int.emod_lt_of_pos t hp₀
  have hnonneg := Int.emod_nonneg t hp₀.ne'
  generalize t / p = q at *
  generalize t % p = r at *
  rw [mul_comm] at hsum
  -- `n` periods against the quotient, and against one more
  have hle {m : ℤ} (h : m ≤ n) : m * p ≤ n * p := mul_le_mul_of_nonneg_right h hp₀.le
  have hge {m : ℤ} (h : n ≤ m) : n * p ≤ m * p := mul_le_mul_of_nonneg_right h hp₀.le
  by_cases hr : r > refreshRateMargin
  · rw [if_pos hr]
    constructor
    · intro h
      have := hle h
      linarith [add_mul q 1 p]
    · intro h
      by_contra hlt'
      have := hge (m := q) (by omega)
      linarith
  · rw [if_neg hr, add_zero]
    constructor
    · intro h
      have := hle h
      omega
    · intro h
      by_contra hlt'
      have := hge (m := q - 1) (by omega)
      linarith [sub_mul q 1 p]

/-- The short cut for a frame within one period agrees with the division. -/
theorem calculateSwapInterval_eq_max (ht : 0 ≤ t) (hp : refreshRateMargin < p)
    (hfits : framesPerRefresh t p < 2 ^ 31) :
    calculateSwapInterval t p = max 1 (framesPerRefresh t p) := by
  have hmargin : refreshRateMargin = 500 := rfl
  rw [calculateSwapInterval]
  split
  · next hlt =>
    have hone := (framesPerRefresh_le_iff ht hp 1).mpr (by omega)
    exact (max_eq_left hone).symm
  · next hle =>
    have hzero := (framesPerRefresh_le_iff ht hp 0).not.mpr (by omega)
    rw [bmod_eq_self (by omega) hfits, max_eq_right (by omega)]

theorem isLeast_calculateSwapInterval (ht : 0 ≤ t) (hp : refreshRateMargin < p)
    (hfits : framesPerRefresh t p < 2 ^ 31) :
    IsLeast (swapIntervals t p) (calculateSwapInterval t p) := by
  rw [calculateSwapInterval_eq_max ht hp hfits]
  constructor
  · exact ⟨le_max_left .., (framesPerRefresh_le_iff ht hp _).mp (le_max_right ..)⟩
  · intro n hn
    exact max_le hn.1 ((framesPerRefresh_le_iff ht hp n).mpr hn.2)

/-- A time that needs no more periods than one that fits an `int` fits too. -/
theorem calculateSwapInterval_le_of_subset (ht : 0 ≤ t) (hp : refreshRateMargin < p)
    (hfits : framesPerRefresh t p < 2 ^ 31) (ht' : 0 ≤ t') (hp' : refreshRateMargin < p')
    (hsub : swapIntervals t p ⊆ swapIntervals t' p') :
    calculateSwapInterval t' p' ≤ calculateSwapInterval t p := by
  have hleast := isLeast_calculateSwapInterval ht hp hfits
  have hle : framesPerRefresh t' p' ≤ calculateSwapInterval t p :=
    (framesPerRefresh_le_iff ht' hp' _).mpr (hsub hleast.1).2
  have hfits' : calculateSwapInterval t p < 2 ^ 31 := by
    rw [calculateSwapInterval_eq_max ht hp hfits]
    exact max_lt (by decide) hfits
  exact hleast.mono (isLeast_calculateSwapInterval ht' hp' (hle.trans_lt hfits')) hsub

/-- **`calculateSwapInterval`** is the least number of periods that hold the frame, when
that number fits an `int`. It grows with the frame time, and falls as the period grows. -/
theorem calculateSwapInterval_least (ht : 0 ≤ t) (hp : refreshRateMargin < p)
    (hfits : framesPerRefresh t p < 2 ^ 31) :
    IsLeast {n | 1 ≤ n ∧ t ≤ n * p + refreshRateMargin} (calculateSwapInterval t p) ∧
      (∀ t', 0 ≤ t' → t' ≤ t → calculateSwapInterval t' p ≤ calculateSwapInterval t p) ∧
      ∀ p', p ≤ p' → calculateSwapInterval t p' ≤ calculateSwapInterval t p := by
  refine ⟨isLeast_calculateSwapInterval ht hp hfits, ?_, ?_⟩
  · intro t' ht' hle
    exact calculateSwapInterval_le_of_subset ht hp hfits ht' hp (swapIntervals_subset_of_le hle)
  · intro p' hle
    exact calculateSwapInterval_le_of_subset ht hp hfits ht (hp.trans_le hle)
      (swapIntervals_subset_of_period_le hle)

/-- A 60 Hz display and a frame of two periods, and 400 ns. -/
theorem calculateSwapInterval_least_sixtyHertz :
    calculateSwapInterval 33333732 16666666 = 2 ∧
      IsLeast {n | 1 ≤ n ∧ (33333732 : ℤ) ≤ n * 16666666 + refreshRateMargin}
        (calculateSwapInterval 33333732 16666666) :=
  ⟨by decide, (calculateSwapInterval_least (t := 33333732) (p := 16666666) (by decide)
    (by decide) (by decide)).1⟩

/-- The largest quotient that fits an `int`, and a remainder: one more does not fit. -/
theorem calculateSwapInterval_not_least :
    ((2 ^ 31 - 1) * 1000 + 600 : ℤ).tdiv 1000 = 2 ^ 31 - 1 ∧
      calculateSwapInterval ((2 ^ 31 - 1) * 1000 + 600) 1000 = -2 ^ 31 ∧
      ¬ IsLeast {n | 1 ≤ n ∧ ((2 ^ 31 - 1) * 1000 + 600 : ℤ) ≤ n * 1000 + refreshRateMargin}
        (calculateSwapInterval ((2 ^ 31 - 1) * 1000 + 600) 1000) := by
  have heq : calculateSwapInterval ((2 ^ 31 - 1) * 1000 + 600) 1000 = -2 ^ 31 := by decide
  refine ⟨by decide, heq, fun h => ?_⟩
  rw [heq] at h
  exact absurd h.1.1 (by decide)

end SwappyCommon

end GameSdk
