import GameSdk.Histogram
import GameSdk.Runs
import Mathlib.Tactic.Linarith
import Mathlib.Tactic.NormNum

/-!
# Whole runs of a histogram

Samples are added to a histogram, it is told to take its range from those it has, it is
cleared, in any order. `Count()` should be the number of samples added since it was last
cleared, and that of the samples in the buckets.

The samples that a histogram took its range from stay in `samples_`. A second
`CalcBucketsFromSamples` counts them again.

What range the samples give does not matter for this: it is a parameter here.

`Counted` is the property, of a histogram and the samples that were added to it. `Ok` is the
condition on one operation; a run whose operations all meet it keeps the property, and one that does
not loses it at once.
-/

namespace GameSdk

namespace Histogram

/-! ## Any range

The operations of the source, with the computation of the range left open. With the range that the
source computes they are those of `Histogram.lean`.
-/

/-- The range that is taken from the samples: start, end and bucket width. -/
abbrev RangeOf := Histogram → Except (Fault Vec) (ℚ × ℚ × ℚ)

/-- `CalcBucketsFromSamples`, whatever range the samples give. -/
def calcBuckets (range : RangeOf) (h : Histogram) : Except (Fault Vec) Histogram := do
  let (startMs, endMs, bucketDtMs) ← range h
  h.samples.foldlM addToBuckets { h with startMs, endMs, bucketDtMs, autoRange := false }

/-- `Add`, whatever range the samples give. -/
def addSample (range : RangeOf) (h : Histogram) (d : Sample) : Except (Fault Vec) Histogram :=
  if h.autoRange then
    let h := h.pushSample d
    if h.samples.length = h.capacity then h.calcBuckets range else .ok h
  else h.addToBuckets d

/-- The operation of the source, with the range it computes. -/
theorem calcBuckets_calcRange (sqrt : ℚ → ℚ) (h : Histogram) :
    h.calcBuckets (calcRange sqrt) = h.calcBucketsFromSamples sqrt := rfl

/-- So for `Add`. -/
theorem addSample_calcRange (sqrt : ℚ → ℚ) (h : Histogram) (d : Sample) :
    h.addSample (calcRange sqrt) d = h.add sqrt d := rfl

/-- Samples, when there are any, give buckets of a positive width. -/
def RangeOf.Positive (range : RangeOf) : Prop :=
  ∀ h : Histogram, h.samples ≠ [] → 2 < h.numBuckets.toNat →
    ∃ startMs endMs bucketDtMs, range h = .ok (startMs, endMs, bucketDtMs) ∧ 0 < bucketDtMs

/-- The range of the source has this property. -/
theorem positive_calcRange (sqrt : ℚ → ℚ) : RangeOf.Positive (calcRange sqrt) := by
  intro h hsamples hbuckets
  have hn : ((h.samples.length : ℕ) : ℚ) ≠ 0 :=
    Nat.cast_ne_zero.mpr (mt List.length_eq_zero_iff.mp hsamples)
  have hbetween : (((h.numBuckets - 2).toNat : ℕ) : ℚ) ≠ 0 := by
    have hle : (2 : UInt32) ≤ h.numBuckets := UInt32.le_iff_toNat_le.mpr hbuckets.le
    rw [UInt32.toNat_sub_of_le _ _ hle]
    exact Nat.cast_ne_zero.mpr (Nat.sub_ne_zero_of_lt hbuckets)
  have hmin : (0 : ℚ) < kAutoSizeMinBucketSizeMs := by norm_num [kAutoSizeMinBucketSizeMs]
  simp only [calcRange, divide, if_neg hn, if_neg hbetween, Checked.ok_bind]
  generalize sqrt _ = stddev
  split
  · exact ⟨_, _, _, rfl, hmin⟩
  · next hwide => exact ⟨_, _, _, rfl, hmin.trans_le (not_lt.mp hwide)⟩

/-! ## Runs

The operations, what they should keep, and the condition.
-/

/-- One operation on a histogram. -/
inductive Op where
  | add (d : Sample)
  | calcBucketsFromSamples
  | clear (autorange : Bool)
  deriving DecidableEq, Repr

/-- A histogram, and the samples added to it since the last `Clear`. -/
structure Recording where
  histogram : Histogram
  added : List Sample
  deriving DecidableEq, Repr

namespace Recording

/-- One operation, on the histogram and the samples added. -/
def step (range : RangeOf) (r : Recording) : Op → Except (Fault Vec) Recording
  | .add d => do
    let histogram ← r.histogram.addSample range d
    .ok ⟨histogram, r.added ++ [d]⟩
  | .calcBucketsFromSamples => do
    let histogram ← r.histogram.calcBuckets range
    .ok ⟨histogram, r.added⟩
  | .clear autorange => .ok ⟨r.histogram.clear autorange, []⟩

/-- A range is taken only from samples. -/
def Allowed (r : Recording) : Op → Prop
  | .calcBucketsFromSamples => r.histogram.samples ≠ []
  | _ => True

instance (r : Recording) : (op : Op) → Decidable (r.Allowed op)
  | .add _ => inferInstanceAs (Decidable True)
  | .calcBucketsFromSamples => inferInstanceAs (Decidable (_ ≠ _))
  | .clear _ => inferInstanceAs (Decidable True)

end Recording

/-- The bucket that `Add` counts the sample in. -/
def bucketOf (h : Histogram) (d : Sample) : ℕ :=
  h.bucketIndex (truncate ((d.ms - h.startMs) / h.bucketDtMs))

/-- The sum of `buckets_` -/
def total (h : Histogram) : ℕ := (h.buckets.map UInt32.toNat).sum

/-- Each bucket has the number of the samples that belong into it. -/
def Tallied (h : Histogram) (ds : List Sample) : Prop :=
  ∀ k (hk : k < h.buckets.length),
    (h.buckets[k]).toNat = ds.countP fun d => decide (h.bucketOf d = k)

namespace Recording

/-- **Every sample is counted once**, or waits for the range. -/
structure Counted (r : Recording) : Prop where
  count_eq : r.histogram.count = r.histogram.total
  ranged : r.histogram.autoRange = false →
    r.histogram.count = r.added.length ∧ r.histogram.Tallied r.added
  unranged : r.histogram.autoRange = true →
    r.histogram.count = 0 ∧ r.histogram.samples = r.added

/-- The range is taken once. Samples are counted in buckets of some width, none of which is
full. -/
def Ok (r : Recording) : Op → Prop
  | .add d => r.histogram.autoRange = true ∨
      r.histogram.bucketDtMs ≠ 0 ∧
        r.histogram.buckets[r.histogram.bucketOf d]? ≠ some 0xFFFFFFFF
  | .calcBucketsFromSamples => r.histogram.autoRange = true
  | .clear _ => True

instance (r : Recording) : (op : Op) → Decidable (r.Ok op)
  | .add _ => inferInstanceAs (Decidable (_ ∨ _))
  | .calcBucketsFromSamples => inferInstanceAs (Decidable (_ = _))
  | .clear _ => inferInstanceAs (Decidable True)

end Recording

/-! ## One sample in the buckets

Adding to a bucket raises the sum by one unless the 32-bit counter is full.
-/

/-- One more in a bucket. -/
theorem total_modify_succ {xs : List UInt32} {k : ℕ} (hk : k < xs.length) :
    ((xs.modify k (· + 1)).map UInt32.toNat).sum + xs[k].toNat =
      (xs.map UInt32.toNat).sum + (xs[k] + 1).toNat := by
  induction xs generalizing k with
  | nil => cases hk
  | cons x xs ih =>
    cases k with
    | zero =>
      simp only [List.modify_zero_cons, List.map_cons, List.sum_cons, List.getElem_cons_zero]
      omega
    | succ k =>
      have := ih (Nat.lt_of_succ_lt_succ hk)
      simp only [List.modify_succ_cons, List.map_cons, List.sum_cons, List.getElem_cons_succ]
      omega

/-- A bucket that is not full has one more after `Add`. -/
theorem toNat_succ_iff (x : UInt32) : (x + 1).toNat = x.toNat + 1 ↔ x ≠ 0xFFFFFFFF := by
  rw [UInt32.toNat_add, Ne, ← UInt32.toNat_inj]
  have hlt := x.toNat_lt
  change (x.toNat + 1) % 2 ^ 32 = x.toNat + 1 ↔ ¬ x.toNat = 4294967295
  omega

variable {range : RangeOf} {h h' : Histogram} {d : Sample} {ds : List Sample}

theorem bucketOf_lt (hsized : h.Sized) (hpos : 0 < h.numBuckets.toNat) (d : Sample) :
    h.bucketOf d < h.buckets.length := by
  have hlast : (h.numBuckets - 1).toNat = h.numBuckets.toNat - 1 :=
    UInt32.toNat_sub_of_le _ _ (UInt32.le_iff_toNat_le.mpr hpos)
  rw [bucketOf, bucketIndex, hsized, hlast]
  split_ifs <;> omega

/-- The histogram with one more sample in its buckets. -/
def counted (h : Histogram) (d : Sample) : Histogram :=
  { h with
    buckets := h.buckets.modify (h.bucketOf d) (· + 1)
    count := h.count + 1
    held := h.held ++ [d] }

@[simp] theorem bucketOf_counted (h : Histogram) (d d' : Sample) :
    (h.counted d).bucketOf d' = h.bucketOf d' := rfl

theorem sized_counted (hsized : h.Sized) (d : Sample) : (h.counted d).Sized :=
  (List.length_modify ..).trans hsized

theorem addToBuckets_eq (hsized : h.Sized) (hpos : 0 < h.numBuckets.toNat)
    (hdt : h.bucketDtMs ≠ 0) (d : Sample) :
    h.addToBuckets d = .ok (h.counted d) := by
  rw [addToBuckets, divide, if_neg hdt, Checked.ok_bind, Checked.modify]
  exact congrArg (· >>= _) (if_pos (bucketOf_lt hsized hpos d))

/-! ### Several samples

Adding one sample after the other counts each of them, as long as no bucket is full on the way.
-/

/-- The samples are those that the histogram has counted, each in its bucket. -/
structure Counts (h : Histogram) (ds : List Sample) : Prop where
  count_eq : h.count = ds.length
  total_eq : h.total = ds.length
  tallied : h.Tallied ds

/-- The sum of the buckets is one more when the bucket of the sample was not full, and only
then. -/
theorem total_add_iff (hk : h.bucketOf d < h.buckets.length) :
    (h.counted d).total = h.total + 1 ↔ h.buckets[h.bucketOf d]? ≠ some 0xFFFFFFFF := by
  have hsum : (h.counted d).total + h.buckets[h.bucketOf d].toNat =
      h.total + (h.buckets[h.bucketOf d] + 1).toNat := total_modify_succ hk
  rw [List.getElem?_eq_getElem hk, Ne, Option.some.injEq, ← Ne, ← toNat_succ_iff]
  omega

theorem Counts.add (hc : h.Counts ds) (hk : h.bucketOf d < h.buckets.length)
    (hfull : h.buckets[h.bucketOf d]? ≠ some 0xFFFFFFFF) :
    (h.counted d).Counts (ds ++ [d]) := by
  refine ⟨?_, ?_, fun k hk' => ?_⟩
  · rw [List.length_append, ← hc.count_eq, counted, List.length_singleton]
  · rw [(total_add_iff hk).mpr hfull, hc.total_eq, List.length_append]
    rfl
  · have hlt : k < h.buckets.length := hk'.trans_eq (List.length_modify ..)
    rw [List.getElem?_eq_getElem hk, Ne, Option.some.injEq, ← Ne, ← toNat_succ_iff] at hfull
    have hcount : (ds ++ [d]).countP (fun d' => decide ((h.counted d).bucketOf d' = k)) =
        (h.buckets[k]).toNat + if h.bucketOf d = k then 1 else 0 := by
      change (ds ++ [d]).countP (fun d' => decide (h.bucketOf d' = k)) = _
      simp only [List.countP_append, List.countP_singleton, hc.tallied k hlt, decide_eq_true_eq]
    rw [hcount]
    refine (congrArg UInt32.toNat (List.getElem_modify _ _ h.buckets k hk')).trans ?_
    by_cases hd : h.bucketOf d = k
    · subst hd
      rw [if_pos rfl, if_pos rfl, hfull]
    · rw [if_neg hd, if_neg hd, Nat.add_zero]

/-- No bucket is full while there are fewer samples than it can count. -/
theorem Counts.not_full (hc : h.Counts ds) (hlt : ds.length < 2 ^ 32 - 1) (k : ℕ) :
    h.buckets[k]? ≠ some 0xFFFFFFFF := by
  intro hk
  obtain ⟨hlen, hget⟩ := List.getElem?_eq_some_iff.mp hk
  have hle := List.countP_le_length (p := fun d => decide (h.bucketOf d = k)) (l := ds)
  rw [← hc.tallied k hlen, hget] at hle
  exact absurd (hle.trans_lt hlt) (by decide)

/-- **The loop counts every sample**, as long as no bucket can be full. -/
theorem Counts.foldlM_addToBuckets (hc : h.Counts ds) (hsized : h.Sized)
    (hpos : 0 < h.numBuckets.toNat) (hdt : h.bucketDtMs ≠ 0) {ds' : List Sample}
    (hlt : ds.length + ds'.length < 2 ^ 32) :
    ∃ h', ds'.foldlM Histogram.addToBuckets h = .ok h' ∧ h'.Counts (ds ++ ds') := by
  induction ds' generalizing h ds with
  | nil => exact ⟨h, rfl, by rwa [List.append_nil]⟩
  | cons d ds' ih =>
    rw [List.length_cons] at hlt
    have hadd := hc.add (bucketOf_lt hsized hpos d) (hc.not_full (by omega) _)
    obtain ⟨h', hfold, hc'⟩ := ih hadd (sized_counted hsized d) hpos hdt
      (by rw [List.length_append, List.length_singleton]; omega)
    refine ⟨h', ?_, by rwa [List.append_assoc, List.singleton_append] at hc'⟩
    rw [List.foldlM_cons, addToBuckets_eq hsized hpos hdt, Checked.ok_bind]
    exact hfold

/-- What `calcBuckets` changes. -/
theorem calcBuckets_eq_ok (hcalc : h.calcBuckets range = .ok h') :
    ∃ (r : ℚ × ℚ × ℚ) (buckets : List UInt32), buckets.length = h.buckets.length ∧
      h' = { h with
        startMs := r.1, endMs := r.2.1, bucketDtMs := r.2.2, autoRange := false
        buckets, count := h.count + h.samples.length, held := h.held ++ h.samples } := by
  obtain ⟨r, -, hcalc⟩ := Checked.bind_eq_ok.mp hcalc
  obtain ⟨buckets, hb⟩ := foldlM_addToBuckets_eq_ok hcalc
  exact ⟨r, buckets, hb⟩

/-- An empty histogram with a range to find counts its samples. -/
theorem exists_calcBuckets (hrange : range.Positive) (hsized : h.Sized)
    (hbuckets : 2 < h.numBuckets.toNat) (hc : h.Counts []) (hsamples : h.samples ≠ [])
    (hlt : h.samples.length < 2 ^ 32) :
    ∃ h', h.calcBuckets range = .ok h' ∧ h'.autoRange = false ∧ h'.Counts h.samples := by
  obtain ⟨startMs, endMs, bucketDtMs, hr, hdt⟩ := hrange h hsamples hbuckets
  -- all buckets are empty, whatever their bounds
  have hempty : Counts { h with startMs, endMs, bucketDtMs, autoRange := false } [] :=
    ⟨hc.count_eq, hc.total_eq, hc.tallied⟩
  have hpos : 0 < h.numBuckets.toNat := Nat.zero_lt_of_lt hbuckets
  have hroom : ([] : List Sample).length + h.samples.length < 2 ^ 32 := by
    rwa [List.length_nil, Nat.zero_add]
  obtain ⟨h', hfold, hc'⟩ := hempty.foldlM_addToBuckets hsized hpos hdt.ne' hroom
  have hcalc : h.calcBuckets range = .ok h' := by
    rw [calcBuckets, hr]
    exact hfold
  refine ⟨h', hcalc, ?_, hc'⟩
  obtain ⟨-, -, -, rfl⟩ := calcBuckets_eq_ok hcalc
  rfl

/-! ## What every run keeps

The shape of the histogram: buckets as many as there should be, and of a positive width once there
is a range.
-/

/-- The vector of samples has room for one more, and is no larger than that of the buckets. -/
structure Roomy (h : Histogram) : Prop where
  sized : h.Sized
  two_lt : 2 < h.numBuckets.toNat
  capacity_le : h.capacity ≤ h.numBuckets.toNat
  length_lt : h.autoRange = true → h.samples.length < max 1 h.capacity

namespace Roomy

theorem new {startMs endMs : ℚ} {n : Int32} (hn : 1 ≤ n.toInt)
    (hnew : Histogram.new startMs endMs n = .ok h) : h.Roomy := by
  have hnum := toNat_numBuckets hn
  obtain ⟨dt, -, hok⟩ := Checked.bind_eq_ok.mp hnew
  cases hok
  refine ⟨List.length_replicate .., by rw [hnum]; omega, ?_, fun _ => ?_⟩
  · change (if _ then _ else _) ≤ _
    split
    · exact le_rfl
    · exact Nat.zero_le _
  · exact lt_max_of_lt_left Nat.zero_lt_one

theorem calcBuckets (hr : h.Roomy) (hcalc : h.calcBuckets range = .ok h') : h'.Roomy := by
  obtain ⟨_, _, hlen, rfl⟩ := calcBuckets_eq_ok hcalc
  exact ⟨hlen.trans hr.sized, hr.two_lt, hr.capacity_le, fun h => (nomatch h)⟩

/-- One more sample fits, or is the last one that does. -/
theorem pushSample (hr : h.Roomy) (hauto : h.autoRange = true) (d : Sample) :
    (h.pushSample d).capacity ≤ h.numBuckets.toNat ∧
      (h.pushSample d).samples.length ≤ max 1 (h.pushSample d).capacity ∧
      ((h.pushSample d).samples.length ≠ (h.pushSample d).capacity →
        (h.pushSample d).samples.length < max 1 (h.pushSample d).capacity) := by
  have hlt := hr.length_lt hauto
  have hcap := hr.capacity_le
  have htwo := hr.two_lt
  simp only [Histogram.pushSample, List.length_append, List.length_singleton]
  split_ifs <;> omega

theorem addSample (hr : h.Roomy) (hadd : h.addSample range d = .ok h') : h'.Roomy := by
  rw [Histogram.addSample] at hadd
  split at hadd
  · next hauto =>
    obtain ⟨hcap, -, hlt⟩ := hr.pushSample hauto d
    simp only at hadd
    split at hadd
    · obtain ⟨_, _, hlen, rfl⟩ := calcBuckets_eq_ok hadd
      exact ⟨hlen.trans hr.sized, hr.two_lt, hcap, fun h => (nomatch h)⟩
    · next hne =>
      cases hadd
      exact ⟨hr.sized, hr.two_lt, hcap, fun _ => hlt hne⟩
  · next hauto =>
    obtain ⟨_, hlen, rfl⟩ := addToBuckets_eq_ok hadd
    exact ⟨hlen.trans hr.sized, hr.two_lt, hr.capacity_le, fun h => absurd h hauto⟩

theorem clear (hr : h.Roomy) (autorange : Bool) : (h.clear autorange).Roomy :=
  ⟨(List.length_map ..).trans hr.sized, hr.two_lt, hr.capacity_le,
    fun _ => lt_max_of_lt_left Nat.zero_lt_one⟩

end Roomy

namespace Recording

variable {r r' : Recording}

theorem roomy_step {op : Op} (hr : r.histogram.Roomy) (hstep : r.step range op = .ok r') :
    r'.histogram.Roomy := by
  cases op with
  | add d =>
    obtain ⟨h', hadd, hok⟩ := Checked.bind_eq_ok.mp hstep
    cases hok
    exact hr.addSample hadd
  | calcBucketsFromSamples =>
    obtain ⟨h', hcalc, hok⟩ := Checked.bind_eq_ok.mp hstep
    cases hok
    exact hr.calcBuckets hcalc
  | clear autorange =>
    cases hstep
    exact hr.clear autorange

/-! ## The steps that count every sample once

Each operation with its condition. Taking the range a second time is what the condition excludes.
-/

theorem Counted.of_counts (hauto : r.histogram.autoRange = false)
    (hc : r.histogram.Counts r.added) : r.Counted :=
  ⟨hc.count_eq.trans hc.total_eq.symm, fun _ => ⟨hc.count_eq, hc.tallied⟩,
    fun h => (nomatch hauto.symm.trans h)⟩

theorem Counted.counts (hc : r.Counted) (hauto : r.histogram.autoRange = false) :
    r.histogram.Counts r.added := by
  obtain ⟨hlen, htally⟩ := hc.ranged hauto
  exact ⟨hlen, hc.count_eq.symm.trans hlen, htally⟩

/-- Nothing is in the buckets before there is a range. -/
theorem Counted.counts_nil (hc : r.Counted) (hauto : r.histogram.autoRange = true) :
    r.histogram.Counts [] := by
  have hcount := (hc.unranged hauto).1
  have htotal : r.histogram.total = 0 := hc.count_eq.symm.trans hcount
  refine ⟨hcount, htotal, fun k hk => ?_⟩
  have hmem : (r.histogram.buckets[k]).toNat ∈ r.histogram.buckets.map UInt32.toNat :=
    List.mem_map_of_mem (List.getElem_mem hk)
  exact List.sum_eq_zero_iff_forall_eq_nat.mp htotal _ hmem

theorem counts_clear (h : Histogram) (autorange : Bool) : (h.clear autorange).Counts [] := by
  refine ⟨rfl, ?_, fun k hk => ?_⟩
  · simp [total, Histogram.clear]
  · simp [Histogram.clear]

/-- A sample is counted in its bucket. -/
theorem exists_add_ranged (hr : r.histogram.Roomy) (hc : r.Counted)
    (hauto : r.histogram.autoRange = false) {d : Sample} (hok : r.Ok (.add d)) :
    ∃ h', r.histogram.addSample range d = .ok h' ∧ Counted ⟨h', r.added ++ [d]⟩ := by
  obtain ⟨hdt, hfull⟩ := hok.resolve_left (by rw [hauto]; decide)
  have hpos : 0 < r.histogram.numBuckets.toNat := Nat.zero_lt_of_lt hr.two_lt
  refine ⟨r.histogram.counted d, ?_, .of_counts hauto ?_⟩
  · rw [addSample, hauto]
    exact addToBuckets_eq hr.sized hpos hdt d
  · exact (hc.counts hauto).add (bucketOf_lt hr.sized hpos d) hfull

/-- A sample is kept, or is the last one that there is room for. -/
theorem exists_add_unranged (hrange : range.Positive) (hr : r.histogram.Roomy) (hc : r.Counted)
    (hauto : r.histogram.autoRange = true) (d : Sample) :
    ∃ h', r.histogram.addSample range d = .ok h' ∧ Counted ⟨h', r.added ++ [d]⟩ := by
  have hsmall := r.histogram.numBuckets.toNat_lt
  have htwo := hr.two_lt
  obtain ⟨hcount, hsamples⟩ := hc.unranged hauto
  obtain ⟨hcap, hle, -⟩ := hr.pushSample hauto d
  have hpush : (r.histogram.pushSample d).samples = r.added ++ [d] := by
    rw [← hsamples]
    rfl
  by_cases hlast : (r.histogram.pushSample d).samples.length =
      (r.histogram.pushSample d).capacity
  · have hnil := hc.counts_nil hauto
    obtain ⟨h', hcalc, hauto', hc'⟩ := exists_calcBuckets hrange
      (h := r.histogram.pushSample d) hr.sized htwo
      ⟨hnil.count_eq, hnil.total_eq, hnil.tallied⟩ (by simp [hpush]) (by omega)
    rw [hpush] at hc'
    refine ⟨h', ?_, .of_counts hauto' hc'⟩
    rw [addSample, if_pos hauto]
    exact (if_pos hlast).trans hcalc
  · refine ⟨r.histogram.pushSample d, ?_, ?_⟩
    · rw [addSample, if_pos hauto]
      exact if_neg hlast
    · exact ⟨hc.count_eq, fun h => (nomatch hauto.symm.trans h), fun _ => ⟨hcount, hpush⟩⟩

theorem exists_step (hrange : range.Positive) {op : Op} (hr : r.histogram.Roomy)
    (hc : r.Counted) (ha : r.Allowed op) (hok : r.Ok op) :
    ∃ r', r.step range op = .ok r' ∧ r'.Counted := by
  have hsmall := r.histogram.numBuckets.toNat_lt
  have hcap := hr.capacity_le
  have htwo := hr.two_lt
  cases op with
  | add d =>
    have hadd : ∃ h', r.histogram.addSample range d = .ok h' ∧ Counted ⟨h', r.added ++ [d]⟩ := by
      cases hauto : r.histogram.autoRange with
      | false => exact exists_add_ranged hr hc hauto hok
      | true => exact exists_add_unranged hrange hr hc hauto d
    obtain ⟨h', hadd, hc'⟩ := hadd
    refine ⟨⟨h', r.added ++ [d]⟩, ?_, hc'⟩
    rw [step, hadd, Checked.ok_bind]
  | calcBucketsFromSamples =>
    have hauto : r.histogram.autoRange = true := hok
    have hlen := hr.length_lt hauto
    obtain ⟨h', hcalc, hauto', hc'⟩ := exists_calcBuckets hrange hr.sized htwo
      (hc.counts_nil hauto) ha (by omega)
    rw [(hc.unranged hauto).2] at hc'
    refine ⟨⟨h', r.added⟩, ?_, .of_counts hauto' hc'⟩
    rw [step, hcalc, Checked.ok_bind]
  | clear autorange =>
    refine ⟨_, rfl, ?_⟩
    have hnil := counts_clear r.histogram autorange
    exact ⟨hnil.count_eq.trans hnil.total_eq.symm, fun _ => ⟨rfl, hnil.tallied⟩,
      fun _ => ⟨rfl, rfl⟩⟩

/-- A step that counts a sample twice, or drops it, is not `Ok`. -/
theorem ok_of_counted {op : Op} (hr : r.histogram.Roomy) (hc : r.Counted) (ha : r.Allowed op)
    (hstep : r.step range op = .ok r') (hc' : r'.Counted) : r.Ok op := by
  cases op with
  | add d =>
    obtain ⟨h', hadd, hok⟩ := Checked.bind_eq_ok.mp hstep
    cases hok
    rcases hauto : r.histogram.autoRange with _ | _
    · rw [addSample, hauto] at hadd
      have hpos : 0 < r.histogram.numBuckets.toNat := Nat.zero_lt_of_lt hr.two_lt
      have hdt : r.histogram.bucketDtMs ≠ 0 := by
        intro hzero
        obtain ⟨x, hx, -⟩ := Checked.bind_eq_ok.mp hadd
        rw [divide, if_pos hzero] at hx
        cases hx
      obtain rfl := Except.ok.inj ((addToBuckets_eq hr.sized hpos hdt d).symm.trans hadd)
      refine Or.inr ⟨hdt, (total_add_iff (bucketOf_lt hr.sized hpos d)).mp ?_⟩
      rw [← hc.count_eq]
      exact hc'.count_eq.symm
    · exact Or.inl hauto
  | calcBucketsFromSamples =>
    obtain ⟨h', hcalc, hok⟩ := Checked.bind_eq_ok.mp hstep
    cases hok
    change r.histogram.autoRange = true
    by_contra hauto
    rw [Bool.not_eq_true] at hauto
    -- the samples were counted when the range was taken, and are counted again
    obtain ⟨_, _, -, rfl⟩ := calcBuckets_eq_ok hcalc
    have hlen : r.histogram.count = r.added.length := (hc.ranged hauto).1
    have htwice : r.histogram.count + r.histogram.samples.length = r.added.length :=
      (hc'.ranged rfl).1
    exact ha (List.eq_nil_of_length_eq_zero (by omega))
  | clear autorange => trivial

theorem Counted.new {startMs endMs : ℚ} {n : Int32}
    (hnew : Histogram.new startMs endMs n = .ok h) : Counted ⟨h, []⟩ := by
  obtain ⟨dt, -, hok⟩ := Checked.bind_eq_ok.mp hnew
  cases hok
  refine ⟨?_, fun _ => ⟨rfl, fun k hk => ?_⟩, fun _ => ⟨rfl, rfl⟩⟩
  · simp [total]
  · simp

/-- **Every sample is counted once** in the runs that take the range once, and in no others. -/
theorem stays_counted_iff (hrange : range.Positive) {startMs endMs : ℚ} {n : Int32}
    (hn : 1 ≤ n.toInt) (hnew : Histogram.new startMs endMs n = .ok h) {ops : List Op}
    (ha : Runs.ChecksOk (step range) Allowed ⟨h, []⟩ ops) :
    Runs.Stays (step range) Counted ⟨h, []⟩ ops ↔ Runs.ChecksOk (step range) Ok ⟨h, []⟩ ops :=
  Runs.stays_iff_checksOk (I := fun r => r.histogram.Roomy) (fun _ _ _ => roomy_step)
    (fun _ _ hr hc ha hok => exists_step hrange hr hc ha hok)
    (fun _ _ _ hr hc ha hstep hc' => ok_of_counted hr hc ha hstep hc')
    (Roomy.new hn hnew) (Counted.new hnew) ha

/-- `Histogram(0, 0, 1)`. -/
def oneBucket : Histogram := ⟨0, 0, 0, 3, [0, 0, 0], [], 3, true, 0, []⟩

theorem new_oneBucket : Histogram.new 0 0 1 = .ok oneBucket := by decide +kernel

/-- The range is taken when the third sample comes, and the fourth is counted at once. -/
theorem stays_counted_four : Runs.Stays (step (calcRange fun x => x)) Counted ⟨oneBucket, []⟩
    [.add ⟨5, 0⟩, .add ⟨5, 1⟩, .add ⟨5, 2⟩, .add ⟨7, 3⟩, .clear true, .add ⟨1, 4⟩,
      .calcBucketsFromSamples] :=
  (stays_counted_iff (positive_calcRange _) (by decide) new_oneBucket (by decide +kernel)).mpr
    (by decide +kernel)

/-- One sample, counted twice. -/
theorem not_stays_counted_twice :
    Histogram.new 0 0 1 = .ok oneBucket ∧
      Runs.ChecksOk (step (calcRange fun x => x)) Allowed ⟨oneBucket, []⟩
        [.add ⟨5, 0⟩, .calcBucketsFromSamples, .calcBucketsFromSamples] ∧
      ¬ Runs.Stays (step (calcRange fun x => x)) Counted ⟨oneBucket, []⟩
        [.add ⟨5, 0⟩, .calcBucketsFromSamples, .calcBucketsFromSamples] := by
  refine ⟨new_oneBucket, by decide +kernel, fun hstays => ?_⟩
  have hcounted := hstays.of_runChecked (t := ⟨⟨99 / 20, 101 / 20, 1 / 10, 3, [0, 2, 0],
    [⟨5, 0⟩], 3, false, 2, [⟨5, 0⟩, ⟨5, 0⟩]⟩, [⟨5, 0⟩]⟩) (by decide +kernel)
  exact absurd (hcounted.ranged rfl).1 (by decide)

end Recording

end Histogram

end GameSdk
