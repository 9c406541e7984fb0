import GameSdk.Prong
import Mathlib.Tactic.Linarith
import Mathlib.Tactic.Ring

/-!
# Caches without faults

When do the operations on histograms, prongs and caches stay within `prongs_` and
`ikeys_`, and never divide by zero? `Ok` is the invariant of each of them, and `Bad`
tells which faults are looked for.

The faults ruled out here are a division by zero and an access outside a vector. What is needed for
it is that a histogram never has two buckets only, that its range is not empty once it is used, and
that the cache has a prong for each key and annotation.
-/

namespace GameSdk

/-- The faults that are looked for. The other vectors are the settings and the buckets of the
histograms. -/
def Bad : Fault Vec → Prop
  | .zeroDivisor => True
  | .outOfRange vec _ _ => vec = .liveTraces ∨ vec = .prongs ∨ vec = .ikeys

/-- Dividing by what is not zero is safe. -/
theorem safe_divide {x y : ℚ} (hy : y ≠ 0) : Checked.Safe Bad (divide x y) := by
  rw [divide, if_neg hy]
  exact Checked.safe_ok _

/-! ## Histograms

`Divides` is what `Add` needs: buckets of some width once there is a range, and more than the two
outer ones. The settings give it, and each operation keeps it.
-/

/-- A range of some width for every bucket. -/
structure TFHistogram.Ok (hs : TFHistogram) : Prop where
  nBuckets_ne : hs.nBuckets ≠ 0
  range_ne : hs.bucketMin = hs.bucketMax → hs.bucketMin = 0

namespace Histogram

/-- No division of this histogram is by zero. -/
structure Divides (h : Histogram) : Prop where
  bucketDtMs_ne : h.autoRange = false → h.bucketDtMs ≠ 0
  numBuckets_ne : h.numBuckets ≠ 2

/-- A number of buckets that is not zero is not zero as a `double`. -/
theorem toInt_cast_ne_zero {n : Int32} (h : n ≠ 0) : (n.toInt : ℚ) ≠ 0 := by
  intro h0
  exact h (Int32.toInt_inj.mp (by exact_mod_cast h0))

/-- Histograms of good settings are made without a fault. -/
theorem safe_ofSettings {hs : TFHistogram} (h : hs.Ok) : Checked.Safe Bad (ofSettings hs) := by
  rw [ofSettings, new, Checked.safe_bind]
  exact ⟨safe_divide (toInt_cast_ne_zero h.nBuckets_ne), fun _ _ => Checked.safe_ok _⟩

/-- They can be added to. -/
theorem divides_ofSettings {hs : TFHistogram} (hok : hs.Ok) {h : Histogram}
    (hnew : ofSettings hs = .ok h) : h.Divides := by
  obtain ⟨hn, hdt, hnum, hauto, -⟩ := new_eq_ok hnew
  constructor
  · intro hfalse hzero
    rw [hdt, div_eq_zero_iff] at hzero
    rcases hzero with hzero | hzero
    · have heq : hs.bucketMin = hs.bucketMax := by linarith
      have hmin := hok.range_ne heq
      rw [hauto, decide_eq_false_iff_not] at hfalse
      exact hfalse ⟨hmin, by rw [← heq, hmin]⟩
    · exact hn hzero
  · rw [hnum]
    intro h2
    have hsum : hs.nBuckets + 2 = 2 := congrArg UInt32.toInt32 h2
    exact hok.nBuckets_ne (Int32.add_eq_right.mp hsum)

/-- Sorting into buckets is safe if they have a width. -/
theorem safe_addToBuckets {h : Histogram} (hdt : h.bucketDtMs ≠ 0) (d : Sample) :
    Checked.Safe Bad (h.addToBuckets d) := by
  rw [addToBuckets, Checked.safe_bind]
  refine ⟨safe_divide hdt, fun x _ => ?_⟩
  rw [Checked.safe_bind]
  refine ⟨?_, fun _ _ => Checked.safe_ok _⟩
  rw [Checked.modify]
  split
  · exact Checked.safe_ok _
  · rw [Checked.safe_error]
    rintro (h | h | h) <;> cases h

/-- Taking the range is safe if there are samples and buckets between the outer two. -/
theorem safe_calcRange {sqrt : ℚ → ℚ} {h : Histogram} (hsamples : h.samples ≠ [])
    (hnum : h.numBuckets ≠ 2) : Checked.Safe Bad (h.calcRange sqrt) := by
  have hn : (h.samples.length : ℚ) ≠ 0 := by
    have := List.length_pos_iff.mpr hsamples
    exact_mod_cast this.ne'
  have hbetween : ((h.numBuckets - 2).toNat : ℚ) ≠ 0 := by
    intro h0
    have h0' : (h.numBuckets - 2).toNat = (0 : UInt32).toNat := by exact_mod_cast h0
    have hsub := UInt32.sub_eq_iff_eq_add.mp (UInt32.toNat_inj.mp h0')
    exact hnum (hsub.trans (UInt32.zero_add 2))
  rw [calcRange]
  simp only [Checked.safe_bind]
  refine ⟨safe_divide hn, fun _ _ => ⟨safe_divide hn, fun _ _ => ⟨safe_divide hbetween, ?_⟩⟩⟩
  intro dt _
  split <;> exact Checked.safe_ok _

/-- The range computed from samples has some width. -/
theorem calcRange_ne_zero {sqrt : ℚ → ℚ} {h : Histogram} {range : ℚ × ℚ × ℚ}
    (hrange : h.calcRange sqrt = .ok range) : range.2.2 ≠ 0 := by
  have hmin : (0 : ℚ) < kAutoSizeMinBucketSizeMs := by norm_num [kAutoSizeMinBucketSizeMs]
  rw [calcRange] at hrange
  obtain ⟨mean, -, hrange⟩ := Checked.bind_eq_ok.mp hrange
  obtain ⟨meanSquare, -, hrange⟩ := Checked.bind_eq_ok.mp hrange
  obtain ⟨dt, -, hrange⟩ := Checked.bind_eq_ok.mp hrange
  split at hrange
  · cases hrange
    exact hmin.ne'
  · cases hrange
    have hge : kAutoSizeMinBucketSizeMs ≤ dt := not_lt.mp (by assumption)
    exact (lt_of_lt_of_le hmin hge).ne'

/-- `Add` is safe. -/
theorem safe_add {sqrt : ℚ → ℚ} {h : Histogram} (hdiv : h.Divides) (d : Sample) :
    Checked.Safe Bad (h.add sqrt d) := by
  rw [add]
  by_cases hauto : h.autoRange = true
  · rw [if_pos hauto]
    simp only
    split
    · rw [calcBucketsFromSamples, Checked.safe_bind]
      refine ⟨safe_calcRange (by simp [pushSample]) hdiv.numBuckets_ne, fun range hrange => ?_⟩
      refine Checked.safe_foldlM (P := fun h => h.bucketDtMs ≠ 0) (fun h₁ d _ h₂ hdt h12 => ?_)
        (fun h₁ d _ hdt => safe_addToBuckets hdt d) (calcRange_ne_zero hrange)
      obtain ⟨buckets, -, rfl⟩ := addToBuckets_eq_ok h12
      exact hdt
    · exact Checked.safe_ok _
  · rw [if_neg hauto]
    exact safe_addToBuckets (hdiv.bucketDtMs_ne (by simpa using hauto)) d

/-- After `Add` the histogram can be added to again. -/
theorem divides_add {sqrt : ℚ → ℚ} {h h' : Histogram} {d : Sample} (hdiv : h.Divides)
    (hadd : h.add sqrt d = .ok h') : h'.Divides := by
  rw [add] at hadd
  by_cases hauto : h.autoRange = true
  · rw [if_pos hauto] at hadd
    simp only at hadd
    split at hadd
    · obtain ⟨range, hrange, buckets, -, rfl⟩ := calcBucketsFromSamples_eq_ok hadd
      exact ⟨fun _ => calcRange_ne_zero hrange, hdiv.numBuckets_ne⟩
    · cases hadd
      exact ⟨hdiv.bucketDtMs_ne, hdiv.numBuckets_ne⟩
  · rw [if_neg hauto] at hadd
    obtain ⟨buckets, -, rfl⟩ := addToBuckets_eq_ok hadd
    exact ⟨hdiv.bucketDtMs_ne, hdiv.numBuckets_ne⟩

/-- A histogram that has counted something has a range, and keeps it. -/
theorem divides_clear {h : Histogram} (hwf : h.Wf) (hdiv : h.Divides) (hcount : h.count > 0) :
    h.clear.Divides :=
  ⟨fun _ => hdiv.bucketDtMs_ne (hwf.autoRange_eq_false hcount), hdiv.numBuckets_ne⟩

end Histogram

/-! ## Prongs

The same for a prong, whose operations are those of its histogram.
-/

/-- What is kept of every histogram in a cache. -/
structure Prong.Ok (p : Prong) : Prop where
  wf : p.histogram.Wf
  divides : p.histogram.Divides

namespace Prong

variable {sqrt : ℚ → ℚ} {p p' : Prong}

/-- `Trace` is safe. -/
theorem safe_trace (hp : p.Ok) (dt : Duration) (serial : ℕ) :
    Checked.Safe Bad (p.trace sqrt dt serial) := by
  rw [trace, Checked.safe_bind]
  exact ⟨Histogram.safe_add hp.divides _, fun _ _ => Checked.safe_ok _⟩

/-- `Trace` keeps a prong in order. -/
theorem ok_trace (hp : p.Ok) {dt : Duration} {serial : ℕ}
    (h : p.trace sqrt dt serial = .ok p') : p'.Ok := by
  obtain ⟨histogram, hadd, rfl⟩ := trace_eq_ok h
  exact ⟨(Histogram.recorded_add hp.wf hadd).1, Histogram.divides_add hp.divides hadd⟩

/-- `Tick` is safe. -/
theorem safe_tick (hp : p.Ok) (t : TimePoint) (serial : ℕ) :
    Checked.Safe Bad (p.tick sqrt t serial) := by
  rw [tick, Checked.safe_bind]
  refine ⟨?_, fun _ _ => Checked.safe_ok _⟩
  split
  · exact safe_trace hp _ _
  · exact Checked.safe_ok _

/-- `Tick` keeps a prong in order. -/
theorem ok_tick (hp : p.Ok) {t : TimePoint} {serial : ℕ}
    (h : p.tick sqrt t serial = .ok p') : p'.Ok := by
  rcases tick_eq_ok h with ⟨-, rfl⟩ | ⟨-, histogram, hadd, rfl⟩
  · exact ⟨hp.wf, hp.divides⟩
  · exact ⟨(Histogram.recorded_add hp.wf hadd).1, Histogram.divides_add hp.divides hadd⟩

end Prong

/-! ## Caches

A cache of `maxKeys` times `n` prongs has one for each pair of key index and annotation id, so the
compound id of a key and an annotation is the index of a prong.
-/

/-- A cache for `maxKeys` keys and `n` annotations. -/
structure ProngCache.Ok (maxKeys : UInt32) (n : ℕ) (c : ProngCache) : Prop where
  length_eq : c.prongs.length = maxKeys.toNat * n
  maxKeys_eq : c.maxNumInstrumentationKeys = maxKeys.toInt32
  prongs : ∀ p ∈ c.prongs, p.Ok

/-- The number of keys is the same as an `int`. -/
theorem sizeT_toInt32 {k : UInt32} (h : k.toNat < 2 ^ 31) : k.toInt32.toInt = k.toNat := by
  rw [← UInt32.ofNat_toNat (x := k), UInt32.toInt32_ofNat', Int32.toInt_ofNat_of_lt h,
    UInt32.ofNat_toNat]

namespace ProngCache

variable {maxKeys : UInt32} {n : ℕ} {c c' : ProngCache}

/-- Putting a prong back where it was keeps the cache in order. -/
theorem ok_put (hc : c.Ok maxKeys n) {p : Prong} (hp : p.Ok) (id : UInt64) :
    (c.put id p).Ok maxKeys n := by
  refine ⟨by rw [put, List.length_set, hc.length_eq], hc.maxKeys_eq, fun q hq => ?_⟩
  rcases List.mem_or_eq_of_mem_set hq with hq | rfl
  · exact hc.prongs q hq
  · exact hp

/-- `Clear` keeps the cache in order. -/
theorem ok_clear (hc : c.Ok maxKeys n) : c.clear.Ok maxKeys n := by
  refine ⟨by rw [clear, List.length_map, hc.length_eq], hc.maxKeys_eq, fun q hq => ?_⟩
  obtain ⟨p, hp, rfl⟩ := List.mem_map.mp hq
  have hok := hc.prongs p hp
  split
  · exact ⟨Histogram.wf_clear, Histogram.divides_clear hok.wf hok.divides (by assumption)⟩
  · exact hok

/-- Setting the keys keeps the cache in order. -/
theorem ok_setInstrumentKeys (hc : c.Ok maxKeys n) {keys : List InstrumentationKey}
    (h : c.setInstrumentKeys keys = .ok c') : c'.Ok maxKeys n := by
  obtain ⟨hprongs, hmax⟩ := withoutKeys_setInstrumentKeys h
  refine ⟨(length_eq_of_withoutKeys hprongs).trans hc.length_eq, hmax.trans hc.maxKeys_eq, ?_⟩
  intro q hq
  obtain ⟨p, hp, heq⟩ := exists_mem_of_withoutKeys hprongs hq
  have hok := hc.prongs p hp
  exact ⟨heq ▸ hok.wf, heq ▸ hok.divides⟩

/-- The index `i + j * maxKeys` stays below `maxKeys * n`. -/
theorem safe_setInstrumentKeys (hc : c.Ok maxKeys n) (hsize : maxKeys.toNat * n < 2 ^ 31)
    (hpos : 0 < maxKeys.toNat) (hmax : maxKeys.toNat < 2 ^ 31) {keys : List InstrumentationKey}
    (hkeys : keys.length = maxKeys.toNat) : Checked.Safe Bad (c.setInstrumentKeys keys) := by
  have hint : c.maxNumInstrumentationKeys.toInt = maxKeys.toNat := by
    rw [hc.maxKeys_eq, sizeT_toInt32 hmax]
  have hsizeT : sizeT maxKeys.toNat = maxKeys.toNat := sizeT_of_lt (by omega)
  rw [setInstrumentKeys]
  rw [hint, hsizeT, if_neg (by omega), hc.length_eq, Nat.mul_div_cancel_left _ hpos,
    Checked.safe_bind]
  refine ⟨?_, fun _ _ => Checked.safe_ok _⟩
  -- both loops keep the number of prongs
  refine Checked.safe_foldlM (P := fun ps => ps.length = maxKeys.toNat * n)
    (fun ps j _ ps' hps hj =>
      (length_eq_of_withoutKeys (withoutKeys_setInstrumentKeysOf hj)).trans hps)
    (fun ps j hj hps => ?_) hc.length_eq
  have hjn : j < n := List.mem_range.mp hj
  refine Checked.safe_foldlM (P := fun ps => ps.length = maxKeys.toNat * n)
    (fun qs i _ qs' hqs hi => ?_) (fun qs i hi hqs => ?_) hps
  · obtain ⟨k, -, hk⟩ := Checked.bind_eq_ok.mp hi
    obtain ⟨-, rfl⟩ := Checked.modify_eq_ok hk
    rw [List.length_modify, hqs]
  · have hik : i < keys.length := List.mem_range.mp hi
    have hlt : i + j * maxKeys.toNat < maxKeys.toNat * n := by
      calc i + j * maxKeys.toNat < maxKeys.toNat + j * maxKeys.toNat := by omega
        _ = maxKeys.toNat * (j + 1) := by ring
        _ ≤ maxKeys.toNat * n := Nat.mul_le_mul_left _ hjn
    have hindex : sizeT (i + j * maxKeys.toNat) = i + j * maxKeys.toNat := by
      have := sizeT_of_lt (n := i + j * maxKeys.toNat) (by omega)
      push_cast at this
      exact this
    rw [Checked.safe_bind]
    refine ⟨Checked.safe_read hik, fun k _ => ?_⟩
    rw [hindex]
    exact Checked.safe_modify (by omega)

/-- The key index of the next prong is below the number of keys again. -/
theorem next_ikey_lt (ikey : InstrumentationKey) (hpos : 0 < maxKeys.toNat)
    (hmax : maxKeys.toNat < 2 ^ 31) :
    (if maxKeys.toInt32.toInt ≤ (ikey + 1).toNat then 0 else ikey + 1).toNat < maxKeys.toNat := by
  rw [sizeT_toInt32 hmax]
  split
  · exact hpos
  · omega

/-- The constructor's loop, when every id serializes and the first `maxKeys` settings
are usable. -/
theorem allocate_spec {histogramSettings : List TFHistogram}
    {serializeId : ℕ → Except (Fault Vec) SerializedAnnotation} (hpos : 0 < maxKeys.toNat)
    (hmax : maxKeys.toNat < 2 ^ 31) (hlen : maxKeys.toNat ≤ histogramSettings.length)
    (hok : ∀ hs ∈ histogramSettings.take maxKeys.toNat, hs.Ok) {n i : ℕ} {ikey : InstrumentationKey}
    (hser : ∀ j < i + n, Checked.Safe Bad (serializeId j)) (hikey : ikey.toNat < maxKeys.toNat) :
    Checked.Safe Bad (allocate maxKeys.toInt32 histogramSettings serializeId n i ikey) ∧
      ∀ ps, allocate maxKeys.toInt32 histogramSettings serializeId n i ikey = .ok ps →
        ps.length = n ∧ ∀ p ∈ ps, p.Ok := by
  induction n generalizing i ikey with
  | zero =>
    refine ⟨Checked.safe_ok _, fun ps hps => ?_⟩
    cases hps
    exact ⟨rfl, fun p hp => (nomatch hp)⟩
  | succ n ih =>
    have hlt : ikey.toNat < histogramSettings.length := by omega
    have hmem : histogramSettings[ikey.toNat] ∈ histogramSettings.take maxKeys.toNat := by
      rw [List.mem_take_iff_getElem]
      exact ⟨ikey.toNat, by omega, rfl⟩
    obtain ⟨hsafe, hrest⟩ := ih (i := i + 1) (fun j hj => hser j (by omega))
      (next_ikey_lt ikey hpos hmax)
    rw [allocate]
    simp only [Checked.safe_bind, if_pos hlt]
    refine ⟨⟨hser i (by omega), fun _ _ => ⟨Checked.safe_read hlt, fun hs hhs => ?_⟩⟩, ?_⟩
    · -- the settings that are read are among the first `maxKeys`
      have hread := Checked.read_eq_ok_iff.mp hhs
      rw [List.getElem?_eq_getElem hlt, Option.some.injEq] at hread
      rw [← hread]
      exact ⟨Histogram.safe_ofSettings (hok _ hmem),
        fun _ _ => ⟨hsafe, fun _ _ => Checked.safe_ok _⟩⟩
    · intro ps hps
      obtain ⟨ann, -, hps⟩ := Checked.bind_eq_ok.mp hps
      obtain ⟨hs, hhs, hps⟩ := Checked.bind_eq_ok.mp hps
      obtain ⟨histogram, hhist, hps⟩ := Checked.bind_eq_ok.mp hps
      obtain ⟨qs, hqs, hps⟩ := Checked.bind_eq_ok.mp hps
      cases hps
      have hread := Checked.read_eq_ok_iff.mp hhs
      rw [List.getElem?_eq_getElem hlt, Option.some.injEq] at hread
      obtain ⟨hlen, hall⟩ := hrest qs hqs
      refine ⟨by rw [List.length_cons, hlen], List.forall_mem_cons.mpr ⟨⟨?_, ?_⟩, hall⟩⟩
      · exact Histogram.wf_new hhist
      · exact Histogram.divides_ofSettings (hread ▸ hok _ hmem) hhist

/-- **A new cache** is made without a fault and is in order. -/
theorem new_spec {size : ℕ} {histogramSettings : List TFHistogram}
    {serializeId : ℕ → Except (Fault Vec) SerializedAnnotation} (hsize : size = maxKeys.toNat * n)
    (hmax : maxKeys.toNat < 2 ^ 31) (hlen : maxKeys.toNat ≤ histogramSettings.length)
    (hok : ∀ hs ∈ histogramSettings.take maxKeys.toNat, hs.Ok)
    (hser : 0 < maxKeys.toNat → ∀ j < size, Checked.Safe Bad (serializeId j)) :
    Checked.Safe Bad (new size maxKeys.toInt32 histogramSettings serializeId) ∧
      ∀ c, new size maxKeys.toInt32 histogramSettings serializeId = .ok c → c.Ok maxKeys n := by
  have hall : Checked.Safe Bad
        (allocate maxKeys.toInt32 histogramSettings serializeId size 0 0) ∧
      ∀ ps, allocate maxKeys.toInt32 histogramSettings serializeId size 0 0 = .ok ps →
        ps.length = size ∧ ∀ p ∈ ps, p.Ok := by
    rcases Nat.eq_zero_or_pos maxKeys.toNat with hzero | hpos
    · -- without keys there are no prongs to allocate
      rw [hzero, Nat.zero_mul] at hsize
      subst hsize
      refine ⟨Checked.safe_ok _, fun ps hps => ?_⟩
      cases hps
      exact ⟨rfl, fun p hp => (nomatch hp)⟩
    · exact allocate_spec hpos hmax hlen hok (fun j hj => hser hpos j (by omega)) hpos
  rw [new, Checked.safe_bind]
  refine ⟨⟨hall.1, fun _ _ => Checked.safe_ok _⟩, fun c hc => ?_⟩
  obtain ⟨ps, hps, hc⟩ := Checked.bind_eq_ok.mp hc
  cases hc
  obtain ⟨hlen, hprongs⟩ := hall.2 ps hps
  exact ⟨hlen.trans hsize, rfl, hprongs⟩

end ProngCache

end GameSdk
