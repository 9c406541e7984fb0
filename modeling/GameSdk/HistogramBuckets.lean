import GameSdk.Histogram
import Mathlib.Data.Rat.Floor
import Mathlib.Tactic.Linarith

/-!
# The buckets of a histogram

A histogram with a range counts a sample in the bucket whose interval it is in: there are
`n` of equal width, and one to either side. `Add` finds the bucket from a quotient that is
rounded toward zero. That is rounding down, except between the bucket before the range and
the first one inside.

`inBucket_bucketIndex_iff` says for which samples the bucket that the quotient gives is the one
whose interval they are in. It is not for those just below the range, where the quotient is between
minus one and zero.
-/

namespace GameSdk

/-! ## Rounding toward zero

When two ways of rounding agree.
-/

theorem truncate_of_nonneg {x : ℚ} (h : 0 ≤ x) : truncate x = ⌊x⌋ := by
  rw [truncate, Rat.floor_def', Int.tdiv_eq_ediv_of_nonneg (Rat.num_nonneg.mpr h)]

theorem truncate_of_nonpos {x : ℚ} (h : x ≤ 0) : truncate x = -⌊-x⌋ := by
  rw [← truncate_of_nonneg (neg_nonneg.mpr h), truncate, truncate, Rat.neg_num, Rat.neg_den,
    Int.neg_tdiv, neg_neg]

theorem truncate_neg_iff (x : ℚ) : truncate x < 0 ↔ x ≤ -1 := by
  rcases le_total 0 x with h | h
  · rw [truncate_of_nonneg h]
    exact iff_of_false (not_lt.mpr (Int.floor_nonneg.mpr h)) (by linarith)
  · rw [truncate_of_nonpos h, neg_lt_zero, Int.floor_pos, le_neg]

/-- What is between -1 and 0 is rounded up. -/
theorem truncate_eq_zero {x : ℚ} (h₁ : -1 < x) (h₀ : x < 0) : truncate x = 0 := by
  have hneg : ¬ truncate x < 0 := fun h => absurd ((truncate_neg_iff x).mp h) (not_le.mpr h₁)
  have hpos : 0 ≤ ⌊-x⌋ := Int.floor_nonneg.mpr (by linarith)
  rw [truncate_of_nonpos h₀.le] at hneg ⊢
  omega

namespace Histogram

/-- A histogram with a range, and `n` buckets in it. -/
structure Ranged (h : Histogram) (n : ℕ) : Prop where
  start_lt_end : h.startMs < h.endMs
  one_le : 1 ≤ n
  bucketDtMs : h.bucketDtMs = (h.endMs - h.startMs) / n
  numBuckets : h.numBuckets.toNat = n + 2
  sized : h.Sized
  autoRange : h.autoRange = false

/-- The sample belongs into the bucket. -/
def InBucket (h : Histogram) (n : ℕ) (d : ℚ) (k : ℕ) : Prop :=
  k = 0 ∧ d < h.startMs ∨
    (∃ j < n, k = j + 1 ∧ h.startMs + j * h.bucketDtMs ≤ d ∧
      d < h.startMs + (j + 1) * h.bucketDtMs) ∨
    k = n + 1 ∧ h.endMs ≤ d

/-- `Add` increments the bucket that the sample belongs into, no other one, and the count. -/
def CountsInBucket (sqrt : ℚ → ℚ) (h : Histogram) (n : ℕ) (d : Sample) : Prop :=
  ∃ k h', h.InBucket n d.ms k ∧ k < h.buckets.length ∧ h.add sqrt d = .ok h' ∧
    h'.buckets = h.buckets.modify k (· + 1) ∧ h'.count = h.count + 1

namespace Ranged

variable {h : Histogram} {n : ℕ}

theorem bucketDtMs_pos (hr : h.Ranged n) : 0 < h.bucketDtMs := by
  rw [hr.bucketDtMs]
  exact div_pos (sub_pos.mpr hr.start_lt_end) (Nat.cast_pos.mpr hr.one_le)

theorem mul_bucketDtMs (hr : h.Ranged n) : h.startMs + n * h.bucketDtMs = h.endMs := by
  have hn : (n : ℚ) ≠ 0 := Nat.cast_ne_zero.mpr (Nat.one_le_iff_ne_zero.mp hr.one_le)
  rw [hr.bucketDtMs, mul_div_cancel₀ _ hn, add_sub_cancel]

theorem length_buckets (hr : h.Ranged n) : h.buckets.length = n + 2 :=
  hr.sized.trans hr.numBuckets

/-- In the widths of a bucket, from the start of the range. -/
theorem quotient_lt_iff (hr : h.Ranged n) (d c : ℚ) :
    (d - h.startMs) / h.bucketDtMs < c ↔ d < h.startMs + c * h.bucketDtMs := by
  rw [div_lt_iff₀ hr.bucketDtMs_pos, sub_lt_iff_lt_add']

theorem le_quotient_iff (hr : h.Ranged n) (d c : ℚ) :
    c ≤ (d - h.startMs) / h.bucketDtMs ↔ h.startMs + c * h.bucketDtMs ≤ d := by
  rw [← not_lt, hr.quotient_lt_iff, not_lt]

theorem inBucket_iff (hr : h.Ranged n) (d : ℚ) (k : ℕ) :
    h.InBucket n d k ↔
      k = 0 ∧ (d - h.startMs) / h.bucketDtMs < 0 ∨
        (∃ j < n, k = j + 1 ∧ (j : ℚ) ≤ (d - h.startMs) / h.bucketDtMs ∧
          (d - h.startMs) / h.bucketDtMs < j + 1) ∨
        k = n + 1 ∧ (n : ℚ) ≤ (d - h.startMs) / h.bucketDtMs := by
  simp only [hr.quotient_lt_iff, hr.le_quotient_iff, zero_mul, add_zero, hr.mul_bucketDtMs,
    InBucket]

/-- The bucket of a quotient that is not negative. -/
theorem bucketIndex_of_nonneg (hr : h.Ranged n) (i : ℕ) :
    h.bucketIndex i = if i < n then i + 1 else n + 1 := by
  have hlast : (h.numBuckets - 1).toNat = n + 1 := by
    have hle : (1 : UInt32) ≤ h.numBuckets := by
      rw [UInt32.le_iff_toNat_le, hr.numBuckets]
      exact Nat.succ_le_succ (Nat.zero_le _)
    rw [UInt32.toNat_sub_of_le _ _ hle, hr.numBuckets]
    rfl
  rw [bucketIndex, if_neg (Int.not_lt.mpr (Int.natCast_nonneg i)), hr.numBuckets, hlast]
  split_ifs <;> omega

/-- **The quotient finds the right bucket**, unless the sample is before the start by less than
the width of a bucket. -/
theorem inBucket_bucketIndex_iff (hr : h.Ranged n) (d : ℚ) :
    h.InBucket n d (h.bucketIndex (truncate ((d - h.startMs) / h.bucketDtMs))) ↔
      ¬ (-1 < (d - h.startMs) / h.bucketDtMs ∧ (d - h.startMs) / h.bucketDtMs < 0) := by
  rw [hr.inBucket_iff]
  generalize (d - h.startMs) / h.bucketDtMs = x
  rcases lt_or_ge x 0 with hneg | hnonneg
  · rcases le_or_gt x (-1) with hle | hlt
    · -- below the range, and rounded below zero
      have hindex : h.bucketIndex (truncate x) = 0 := if_pos ((truncate_neg_iff x).mpr hle)
      exact iff_of_true (Or.inl ⟨hindex, hneg⟩) fun hbad => absurd hbad.1 (not_lt.mpr hle)
    · -- below the range, and rounded to zero
      have hindex : h.bucketIndex (truncate x) = 1 := by
        rw [truncate_eq_zero hlt hneg]
        exact (hr.bucketIndex_of_nonneg 0).trans (if_pos hr.one_le)
      rw [hindex]
      refine iff_of_false ?_ (not_not.mpr ⟨hlt, hneg⟩)
      rintro (⟨h0, -⟩ | ⟨j, -, -, hj, -⟩ | ⟨-, hn⟩)
      · cases h0
      · exact absurd (hj.trans_lt hneg) (not_lt.mpr (Nat.cast_nonneg j))
      · exact absurd (hn.trans_lt hneg) (not_lt.mpr (Nat.cast_nonneg n))
  · -- rounded down
    obtain ⟨i, hi⟩ := Int.eq_ofNat_of_zero_le (Int.floor_nonneg.mpr hnonneg)
    have hfloor : (i : ℚ) ≤ x := by
      have := Int.floor_le x
      rwa [hi, Int.cast_natCast] at this
    have hceil : x < i + 1 := by
      have := Int.lt_floor_add_one x
      rwa [hi, Int.cast_natCast] at this
    rw [truncate_of_nonneg hnonneg, hi, hr.bucketIndex_of_nonneg]
    refine iff_of_true (Or.inr ?_) fun hbad => absurd hbad.2 (not_lt.mpr hnonneg)
    split_ifs with hlt
    · exact Or.inl ⟨i, hlt, rfl, hfloor, hceil⟩
    · have hn : (n : ℚ) ≤ i := Nat.cast_le.mpr (not_lt.mp hlt)
      exact Or.inr ⟨rfl, hn.trans hfloor⟩

theorem bucketIndex_lt (hr : h.Ranged n) (i : ℤ) : h.bucketIndex i < h.buckets.length := by
  rw [hr.length_buckets]
  rcases lt_or_ge i 0 with hneg | hnonneg
  · rw [bucketIndex, if_pos hneg]
    exact Nat.succ_pos _
  · obtain ⟨i, rfl⟩ := Int.eq_ofNat_of_zero_le hnonneg
    rw [hr.bucketIndex_of_nonneg]
    split_ifs <;> omega

theorem add_eq (hr : h.Ranged n) (sqrt : ℚ → ℚ) (d : Sample) :
    h.add sqrt d = .ok { h with
      buckets := h.buckets.modify
        (h.bucketIndex (truncate ((d.ms - h.startMs) / h.bucketDtMs))) (· + 1)
      count := h.count + 1
      held := h.held ++ [d] } := by
  rw [add, if_neg (by rw [hr.autoRange]; decide), addToBuckets, divide,
    if_neg hr.bucketDtMs_pos.ne', Checked.ok_bind, Checked.modify, if_pos (hr.bucketIndex_lt _)]
  rfl

/-! Histograms that are given a range have it, and keep it. -/

theorem of_new {startMs endMs : ℚ} {buckets : Int32} (hlt : startMs < endMs)
    (hone : 1 ≤ buckets.toInt) (hnew : new startMs endMs buckets = .ok h) :
    h.Ranged buckets.toInt.toNat ∧ h.startMs = startMs ∧ h.endMs = endMs := by
  have hcast : (buckets.toInt : ℚ) = (buckets.toInt.toNat : ℕ) := by
    exact_mod_cast (Int.toNat_of_nonneg (by omega : 0 ≤ buckets.toInt)).symm
  rw [new, divide] at hnew
  split at hnew
  · cases hnew
  · cases hnew
    refine ⟨⟨hlt, by omega, ?_, toNat_numBuckets hone, List.length_replicate .., ?_⟩, rfl, rfl⟩
    · rw [hcast]
    · refine decide_eq_false fun hauto => ?_
      rw [hauto.1, hauto.2] at hlt
      exact lt_irrefl 0 hlt

theorem add (hr : h.Ranged n) {sqrt : ℚ → ℚ} {d : Sample} {h' : Histogram}
    (hadd : h.add sqrt d = .ok h') : h'.Ranged n := by
  obtain rfl := Except.ok.inj ((hr.add_eq sqrt d).symm.trans hadd)
  exact ⟨hr.start_lt_end, hr.one_le, hr.bucketDtMs, hr.numBuckets,
    (List.length_modify ..).trans hr.sized, hr.autoRange⟩

theorem clear (hr : h.Ranged n) : h.clear.Ranged n :=
  ⟨hr.start_lt_end, hr.one_le, hr.bucketDtMs, hr.numBuckets, sized_clear hr.sized, rfl⟩

end Ranged

/-- Incrementing one bucket is not incrementing another. -/
theorem modify_succ_inj {xs : List UInt32} {k k' : ℕ} (hk : k < xs.length)
    (h : xs.modify k (· + 1) = xs.modify k' (· + 1)) : k = k' := by
  by_contra hne
  -- the bucket would be one more than it is
  have hget := congrArg (fun l => l[k]?) h
  simp only [List.getElem?_modify, List.getElem?_eq_getElem hk, if_neg (Ne.symm hne),
    if_true] at hget
  have hsucc : (xs[k].toNat + 1) % 2 ^ 32 = xs[k].toNat :=
    (UInt32.toNat_add xs[k] 1).symm.trans (congrArg UInt32.toNat (Option.some.inj hget))
  omega

/-- The sample is counted in the bucket of the quotient, right or wrong. -/
theorem Ranged.countsInBucket_iff_inBucket {h : Histogram} {n : ℕ} (hr : h.Ranged n)
    (sqrt : ℚ → ℚ) (d : Sample) : h.CountsInBucket sqrt n d ↔
      h.InBucket n d.ms (h.bucketIndex (truncate ((d.ms - h.startMs) / h.bucketDtMs))) := by
  constructor
  · rintro ⟨k, h', hk, hlt, hadd, hbuckets, -⟩
    obtain rfl := Except.ok.inj ((hr.add_eq sqrt d).symm.trans hadd)
    rwa [← modify_succ_inj hlt hbuckets.symm]
  · intro hk
    exact ⟨_, _, hk, hr.bucketIndex_lt _, hr.add_eq sqrt d, rfl, rfl⟩

/-- **A sample is counted where it belongs** exactly when it is not before the start of the
range by less than the width of a bucket. -/
theorem countsInBucket_iff (sqrt : ℚ → ℚ) {h : Histogram} {n : ℕ} (hr : h.Ranged n)
    (d : Sample) : h.CountsInBucket sqrt n d ↔
      ¬ (h.startMs - h.bucketDtMs < d.ms ∧ d.ms < h.startMs) := by
  rw [hr.countsInBucket_iff_inBucket, hr.inBucket_bucketIndex_iff,
    lt_div_iff₀ hr.bucketDtMs_pos, hr.quotient_lt_iff]
  refine not_congr ⟨fun ⟨h₁, h₂⟩ => ⟨?_, ?_⟩, fun ⟨h₁, h₂⟩ => ⟨?_, ?_⟩⟩ <;> linarith

/-- `Histogram(10, 40, 30)`. -/
def tenToForty : Histogram :=
  ⟨10, 40, 1, 32, List.replicate 32 0, [], 0, false, 0, []⟩

theorem new_tenToForty : new 10 40 30 = .ok tenToForty := by decide +kernel

theorem ranged_tenToForty : tenToForty.Ranged 30 :=
  (Ranged.of_new (by norm_num) (by decide) new_tenToForty).1

theorem countsInBucket_twentyFive : tenToForty.CountsInBucket (fun x => x) 30 ⟨25, 0⟩ :=
  (countsInBucket_iff _ ranged_tenToForty _).mpr (by norm_num [tenToForty])

/-- Half a bucket before the range counts as in it. -/
theorem not_countsInBucket_nineAndHalf :
    ¬ tenToForty.CountsInBucket (fun x => x) 30 ⟨19 / 2, 0⟩ := by
  rw [ranged_tenToForty.countsInBucket_iff_inBucket, ranged_tenToForty.inBucket_bucketIndex_iff]
  norm_num [tenToForty]

end Histogram

end GameSdk
