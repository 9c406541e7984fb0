import GameSdk.Checked
import Mathlib.Algebra.Order.Field.Rat
import Mathlib.Algebra.BigOperators.Group.List.Basic

/-!
# Histograms (`histogram.cpp`)

A histogram counts durations, in milliseconds, in buckets of equal width. One
whose settings give no range keeps its samples at first and takes a range from
them once its sample vector is full.

`double`s are rationals. A sample also carries a serial number, and a histogram
the list `held` of the samples it counts: ghosts, which no computation reads.
They tell samples of equal length apart when we ask where each of them went.

The two invariants here are `Wf`, that a histogram counts as many samples as it holds, and `Sized`,
that it has as many buckets as it was made with. Each operation has a lemma for either.
-/

namespace GameSdk

/-- The vectors whose accesses are checked. -/
inductive Vec where
  | liveTraces | prongs | ikeys | histograms | buckets
  deriving DecidableEq, Repr

/-- Floating-point division. -/
def divide (x y : ℚ) : Except (Fault Vec) ℚ :=
  if y = 0 then .error .zeroDivisor else .ok (x / y)

/-- The conversion from `double` to `int`. -/
def truncate (x : ℚ) : ℤ := x.num.tdiv x.den

/-- One duration that the game measured. -/
structure Sample where
  ms : ℚ
  /-- ghost: which recording this sample is from -/
  serial : ℕ
  deriving DecidableEq, Repr

/-- The settings of one histogram. -/
structure TFHistogram where
  instrumentKey : Int32
  bucketMin : ℚ
  bucketMax : ℚ
  nBuckets : Int32
  deriving DecidableEq, Repr

/-- The fields of the class, and which samples are in the buckets. -/
structure Histogram where
  startMs : ℚ
  endMs : ℚ
  bucketDtMs : ℚ
  numBuckets : UInt32
  buckets : List UInt32
  samples : List Sample
  /-- of the vector `samples_` -/
  capacity : ℕ
  autoRange : Bool
  count : ℕ
  /-- ghost: the samples counted since the last `Clear` -/
  held : List Sample
  deriving DecidableEq, Repr

namespace Histogram

/-- How many standard deviations the range reaches to either side. -/
def kAutoSizeNumStdDev : ℚ := 3

/-- No bucket is narrower than this. -/
def kAutoSizeMinBucketSizeMs : ℚ := 1 / 10

/-- How many buckets there are if the settings do not say. -/
def kDefaultNumBuckets : Int32 := 30

/-- The constructor. Two extra buckets count what is out of range. -/
def new (startMs endMs : ℚ) (numBucketsBetween : Int32) : Except (Fault Vec) Histogram := do
  let bucketDtMs ← divide (endMs - startMs) numBucketsBetween.toInt
  let numBuckets := (numBucketsBetween + 2).toUInt32
  let autoRange := decide (startMs = 0 ∧ endMs = 0)
  .ok { startMs, endMs, bucketDtMs, numBuckets, autoRange
        buckets := List.replicate numBuckets.toNat 0
        samples := []
        capacity := if autoRange then numBuckets.toNat else 0
        count := 0
        held := [] }

/-- A histogram as the settings of its key ask for it. -/
def ofSettings (hs : TFHistogram) : Except (Fault Vec) Histogram :=
  new hs.bucketMin hs.bucketMax hs.nBuckets

/-- The bucket of a sample that is `i` whole widths above the start of the range. -/
def bucketIndex (h : Histogram) (i : ℤ) : ℕ :=
  if i < 0 then 0
  else if h.numBuckets.toNat ≤ i + 1 then (h.numBuckets - 1).toNat
  else (i + 1).toNat

/-- `Add` on a histogram that has its range. -/
def addToBuckets (h : Histogram) (d : Sample) : Except (Fault Vec) Histogram := do
  let x ← divide (d.ms - h.startMs) h.bucketDtMs
  let buckets ← Checked.modify .buckets h.buckets (h.bucketIndex (truncate x)) (· + 1)
  .ok { h with buckets, count := h.count + 1, held := h.held ++ [d] }

/-- Start, end and bucket width from the samples: three standard deviations to
either side of the mean, but no bucket narrower than the minimum. -/
def calcRange (sqrt : ℚ → ℚ) (h : Histogram) : Except (Fault Vec) (ℚ × ℚ × ℚ) := do
  let sum := (h.samples.map fun d => d.ms).sum
  let sum2 := (h.samples.map fun d => d.ms * d.ms).sum
  let n : ℚ := h.samples.length
  let mean ← divide sum n
  let meanSquare ← divide sum2 n
  let var := meanSquare - mean * mean
  -- Can be negative due to rounding errors
  let stddev := sqrt (if var < 0 then 0 else var)
  let startMs := max (mean - kAutoSizeNumStdDev * stddev) 0
  let endMs := mean + kAutoSizeNumStdDev * stddev
  let between : ℚ := (h.numBuckets - 2).toNat
  let bucketDtMs ← divide (endMs - startMs) between
  if bucketDtMs < kAutoSizeMinBucketSizeMs then
    let w := kAutoSizeMinBucketSizeMs * between
    .ok (mean - w / 2, mean + w / 2, kAutoSizeMinBucketSizeMs)
  else .ok (startMs, endMs, bucketDtMs)

/-- Take the range from the samples and count them. -/
def calcBucketsFromSamples (sqrt : ℚ → ℚ) (h : Histogram) : Except (Fault Vec) Histogram := do
  let (startMs, endMs, bucketDtMs) ← h.calcRange sqrt
  h.samples.foldlM addToBuckets { h with startMs, endMs, bucketDtMs, autoRange := false }

/-- `samples_.push_back`: a full vector doubles its capacity. -/
def pushSample (h : Histogram) (d : Sample) : Histogram :=
  { h with
    samples := h.samples ++ [d]
    capacity := if h.samples.length = h.capacity then max 1 (2 * h.capacity) else h.capacity }

/-- `Add`: into a bucket, or kept until there are enough samples to take a range from. -/
def add (sqrt : ℚ → ℚ) (h : Histogram) (d : Sample) : Except (Fault Vec) Histogram :=
  if h.autoRange then
    let h := h.pushSample d
    if h.samples.length = h.capacity then h.calcBucketsFromSamples sqrt else .ok h
  else h.addToBuckets d

/-- `Clear`: the buckets are empty and the samples gone, but the range stays. -/
def clear (h : Histogram) (autorange : Bool := false) : Histogram :=
  { h with
    buckets := h.buckets.map fun _ => 0
    samples := []
    autoRange := autorange
    count := 0
    held := [] }

/-! ## Which samples a histogram has

A sample is held once it is in a bucket. Until the range is known it is only recorded. No operation
loses one but `Clear`, which drops them all.
-/

/-- The samples that wait for a range. -/
def unranged (h : Histogram) : List Sample := if h.autoRange then h.samples else []

/-- All samples since the last `Clear`. -/
def recorded (h : Histogram) : List Sample := h.held ++ h.unranged

/-- The count is that of the held samples, and there are none without a range. -/
structure Wf (h : Histogram) : Prop where
  count_eq : h.count = h.held.length
  held_eq_nil : h.autoRange = true → h.held = []

/-- A histogram that has counted something has a range. -/
theorem Wf.autoRange_eq_false {h : Histogram} (hwf : h.Wf) (hcount : h.count > 0) :
    h.autoRange = false := by
  rcases hauto : h.autoRange
  · rfl
  · rw [hwf.count_eq, hwf.held_eq_nil hauto] at hcount
    exact absurd hcount (Nat.lt_irrefl 0)

/-- A histogram that counts nothing holds nothing. -/
theorem Wf.held_eq_nil_of_count {h : Histogram} (hwf : h.Wf) (hcount : ¬ h.count > 0) :
    h.held = [] := by
  rw [hwf.count_eq] at hcount
  exact List.eq_nil_of_length_eq_zero (Nat.eq_zero_of_not_pos hcount)

/-- The buckets between and the two extra ones. -/
theorem toNat_numBuckets {n : Int32} (hn : 1 ≤ n.toInt) :
    (n + 2).toUInt32.toNat = n.toInt.toNat + 2 := by
  have hpos : (0 : Int32) ≤ n := Int32.le_iff_toInt_le.mpr (by change 0 ≤ n.toInt; omega)
  have hbits : n.toUInt32.toNat = n.toInt.toNat := Int32.toNat_toUInt32_of_le hpos
  have hlt31 := n.toInt_lt
  rw [Int32.toUInt32_add, UInt32.toNat_add, hbits]
  exact Nat.mod_eq_of_lt (by change n.toInt.toNat + 2 < 2 ^ 32; omega)

/-- What a new histogram is like. -/
theorem new_eq_ok {startMs endMs : ℚ} {n : Int32} {h : Histogram}
    (hnew : new startMs endMs n = .ok h) :
    (n.toInt : ℚ) ≠ 0 ∧ h.bucketDtMs = (endMs - startMs) / n.toInt ∧
      h.numBuckets = (n + 2).toUInt32 ∧ h.autoRange = decide (startMs = 0 ∧ endMs = 0) ∧
      h.samples = [] ∧ h.count = 0 ∧ h.held = [] := by
  rw [new] at hnew
  obtain ⟨dt, hdt, hok⟩ := Checked.bind_eq_ok.mp hnew
  rw [divide] at hdt
  split at hdt
  · cases hdt
  · cases hdt
    cases hok
    exact ⟨by assumption, rfl, rfl, rfl, rfl, rfl, rfl⟩

/-- A new histogram counts what it holds. -/
theorem wf_new {startMs endMs : ℚ} {n : Int32} {h : Histogram}
    (hnew : new startMs endMs n = .ok h) : h.Wf := by
  obtain ⟨-, -, -, -, -, hcount, hheld⟩ := new_eq_ok hnew
  exact ⟨by rw [hcount, hheld]; rfl, fun _ => hheld⟩

/-- Nothing is recorded in a new histogram. -/
theorem recorded_new {startMs endMs : ℚ} {n : Int32} {h : Histogram}
    (hnew : new startMs endMs n = .ok h) : h.recorded = [] := by
  obtain ⟨-, -, -, -, hsamples, -, hheld⟩ := new_eq_ok hnew
  simp [recorded, unranged, hsamples, hheld]

/-- What `addToBuckets` changes: one bucket, the count, the ghost. -/
theorem addToBuckets_eq_ok {h h' : Histogram} {d : Sample} (hadd : h.addToBuckets d = .ok h') :
    ∃ buckets, buckets.length = h.buckets.length ∧
      h' = { h with buckets, count := h.count + 1, held := h.held ++ [d] } := by
  rw [addToBuckets] at hadd
  obtain ⟨x, -, hadd⟩ := Checked.bind_eq_ok.mp hadd
  obtain ⟨buckets, hmodify, hadd⟩ := Checked.bind_eq_ok.mp hadd
  obtain ⟨-, rfl⟩ := Checked.modify_eq_ok hmodify
  cases hadd
  exact ⟨_, List.length_modify .., rfl⟩

/-- Sorting samples into buckets adds them in order, and changes nothing else. -/
theorem foldlM_addToBuckets_eq_ok {ds : List Sample} {h h' : Histogram}
    (hadd : ds.foldlM addToBuckets h = .ok h') :
    ∃ buckets, buckets.length = h.buckets.length ∧
      h' = { h with buckets, count := h.count + ds.length, held := h.held ++ ds } := by
  induction ds generalizing h with
  | nil =>
    obtain rfl : h = h' := Except.ok.inj hadd
    exact ⟨h.buckets, rfl, by simp⟩
  | cons d ds ih =>
    rw [List.foldlM_cons] at hadd
    obtain ⟨h₁, h1, hadd⟩ := Checked.bind_eq_ok.mp hadd
    obtain ⟨buckets₁, hlen₁, rfl⟩ := addToBuckets_eq_ok h1
    obtain ⟨buckets, hlen, rfl⟩ := ih hadd
    exact ⟨buckets, hlen.trans hlen₁, by simp [Nat.add_assoc, Nat.add_comm 1]⟩

/-- Ranging moves every waiting sample into the buckets. -/
theorem calcBucketsFromSamples_eq_ok {sqrt : ℚ → ℚ} {h h' : Histogram}
    (hcalc : h.calcBucketsFromSamples sqrt = .ok h') :
    ∃ range, h.calcRange sqrt = .ok range ∧ ∃ buckets, buckets.length = h.buckets.length ∧
      h' = { h with
        startMs := range.1, endMs := range.2.1, bucketDtMs := range.2.2, autoRange := false
        buckets, count := h.count + h.samples.length, held := h.held ++ h.samples } := by
  rw [calcBucketsFromSamples] at hcalc
  obtain ⟨range, hrange, hcalc⟩ := Checked.bind_eq_ok.mp hcalc
  obtain ⟨buckets, hb⟩ := foldlM_addToBuckets_eq_ok hcalc
  exact ⟨range, hrange, buckets, hb⟩

/-- **`Add` records its sample**, and loses none. -/
theorem recorded_add {sqrt : ℚ → ℚ} {h h' : Histogram} {d : Sample} (hwf : h.Wf)
    (hadd : h.add sqrt d = .ok h') : h'.Wf ∧ h'.recorded = h.recorded ++ [d] := by
  rw [add] at hadd
  by_cases hauto : h.autoRange = true
  · rw [if_pos hauto] at hadd
    have hheld := hwf.held_eq_nil hauto
    have hcount := hwf.count_eq
    rw [hheld, List.length_nil] at hcount
    by_cases hfull : (h.pushSample d).samples.length = (h.pushSample d).capacity
    · -- the vector is full: all of its samples are counted
      simp only [if_pos hfull] at hadd
      obtain ⟨range, -, buckets, -, rfl⟩ := calcBucketsFromSamples_eq_ok hadd
      refine ⟨⟨?_, fun h => (nomatch h)⟩, ?_⟩
      · simp [pushSample, hheld, hcount]
      · simp [recorded, unranged, pushSample, hauto, hheld]
    · simp only [if_neg hfull] at hadd
      obtain rfl : h.pushSample d = h' := Except.ok.inj hadd
      refine ⟨⟨hwf.count_eq, hwf.held_eq_nil⟩, ?_⟩
      simp [recorded, unranged, pushSample, hauto]
  · rw [if_neg hauto] at hadd
    obtain ⟨buckets, -, rfl⟩ := addToBuckets_eq_ok hadd
    refine ⟨⟨?_, fun h => absurd h hauto⟩, ?_⟩
    · simp [hwf.count_eq]
    · simp [recorded, unranged, hauto]

/-- A histogram that was cleared counts what it holds. -/
theorem wf_clear {h : Histogram} : h.clear.Wf := ⟨rfl, fun h => (nomatch h)⟩

/-- `Clear` drops what is held. -/
@[simp] theorem held_clear (h : Histogram) : h.clear.held = [] := rfl

/-- `Clear` drops what waits for a range. -/
@[simp] theorem unranged_clear (h : Histogram) : h.clear.unranged = [] := rfl

/-! ## As many buckets as there should be

The vector of buckets is filled by the constructor and afterwards only changed in place.
-/

/-- `buckets_.size() == num_buckets_` -/
def Sized (h : Histogram) : Prop := h.buckets.length = h.numBuckets.toNat

instance (h : Histogram) : Decidable h.Sized := inferInstanceAs (Decidable (_ = _))

/-- A new histogram has all its buckets. -/
theorem sized_ofSettings {hs : TFHistogram} {h : Histogram} (hnew : ofSettings hs = .ok h) :
    h.Sized := by
  obtain ⟨dt, -, hok⟩ := Checked.bind_eq_ok.mp hnew
  cases hok
  exact List.length_replicate ..

/-- `Add` leaves their number as it is. -/
theorem sized_add {sqrt : ℚ → ℚ} {h h' : Histogram} {d : Sample} (hsized : h.Sized)
    (hadd : h.add sqrt d = .ok h') : h'.Sized := by
  rw [add] at hadd
  split at hadd
  · simp only at hadd
    split at hadd
    · obtain ⟨range, -, buckets, hlen, rfl⟩ := calcBucketsFromSamples_eq_ok hadd
      exact hlen.trans hsized
    · cases hadd
      exact hsized
  · obtain ⟨buckets, hlen, rfl⟩ := addToBuckets_eq_ok hadd
    exact hlen.trans hsized

/-- So does `Clear`. -/
theorem sized_clear {h : Histogram} (hsized : h.Sized) : h.clear.Sized :=
  (List.length_map ..).trans hsized

end Histogram

end GameSdk
