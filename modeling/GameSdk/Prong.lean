import GameSdk.AnnotationUtil
import GameSdk.Histogram

/-!
# Prongs (`prong.h`, `prong.cpp`)

A prong is a histogram for one instrument key and one annotation, with the time
of its last tick. A cache holds the prongs of all pairs: prong `i + j * K` is for
the key with index `i`, out of `K`, and annotation id `j`.

A cache never changes its length. What may change in a prong is its histogram, its last time, and,
before an upload, the key. `withoutKeys` forgets the keys, and what it keeps is what the later
modules argue with.
-/

namespace GameSdk

/-- Nanoseconds of the steady clock; `min` stands for "no time". -/
abbrev TimePoint : Type := ℤ

/-- The time of a prong that has not ticked yet. -/
def TimePoint.min : TimePoint := -2 ^ 63

/-- A time difference in nanoseconds. -/
abbrev Duration : Type := ℤ

/-- The key under which the game records. -/
abbrev InstrumentationKey : Type := UInt16

/-- The histogram of one key and one annotation. -/
structure Prong where
  instrumentationKey : InstrumentationKey
  annotation : SerializedAnnotation
  histogram : Histogram
  lastTimeNs : TimePoint
  deriving DecidableEq, Repr

namespace Prong

/-- The histogram stores millisecond values as doubles. -/
def sample (dtNs : Duration) (serial : ℕ) : Sample := ⟨dtNs / 1000000, serial⟩

/-- `Trace`: a duration that the caller measured. -/
def trace (sqrt : ℚ → ℚ) (p : Prong) (dtNs : Duration) (serial : ℕ) :
    Except (Fault Vec) Prong := do
  let histogram ← p.histogram.add sqrt (sample dtNs serial)
  .ok { p with histogram }

/-- `Tick`: the time since the last tick, if there was one. -/
def tick (sqrt : ℚ → ℚ) (p : Prong) (tNs : TimePoint) (serial : ℕ) :
    Except (Fault Vec) Prong := do
  let p ← (if p.lastTimeNs ≠ TimePoint.min then p.trace sqrt (tNs - p.lastTimeNs) serial
    else .ok p : Except (Fault Vec) Prong)
  .ok { p with lastTimeNs := tNs }

/-- The key of the game, in place of its index. -/
def setInstrumentKey (p : Prong) (key : InstrumentationKey) : Prong :=
  { p with instrumentationKey := key }

/-- How many samples are in the buckets. -/
def count (p : Prong) : ℕ := p.histogram.count

/-- `Trace` changes the histogram and nothing else. -/
theorem trace_eq_ok {sqrt : ℚ → ℚ} {p p' : Prong} {dt : Duration} {serial : ℕ}
    (h : p.trace sqrt dt serial = .ok p') :
    ∃ histogram, p.histogram.add sqrt (sample dt serial) = .ok histogram ∧
      p' = { p with histogram } := by
  obtain ⟨histogram, hadd, h⟩ := Checked.bind_eq_ok.mp h
  cases h
  exact ⟨histogram, hadd, rfl⟩

/-- A tick traces the time since the last one, if there was one, and becomes the
last one. -/
theorem tick_eq_ok {sqrt : ℚ → ℚ} {p p' : Prong} {t : TimePoint} {serial : ℕ}
    (h : p.tick sqrt t serial = .ok p') :
    (p.lastTimeNs = TimePoint.min ∧ p' = { p with lastTimeNs := t }) ∨
      (p.lastTimeNs ≠ TimePoint.min ∧ ∃ histogram,
        p.histogram.add sqrt (sample (t - p.lastTimeNs) serial) = .ok histogram ∧
        p' = { p with histogram, lastTimeNs := t }) := by
  obtain ⟨p₁, hp₁, h⟩ := Checked.bind_eq_ok.mp h
  cases h
  split at hp₁
  · obtain ⟨histogram, hadd, rfl⟩ := trace_eq_ok hp₁
    exact Or.inr ⟨by assumption, histogram, hadd, rfl⟩
  · cases hp₁
    exact Or.inl ⟨not_not.mp (by assumption), rfl⟩

/-- After a tick the last time is the time of the tick. -/
theorem lastTimeNs_tick {sqrt : ℚ → ℚ} {p p' : Prong} {t : TimePoint} {serial : ℕ}
    (h : p.tick sqrt t serial = .ok p') : p'.lastTimeNs = t := by
  rcases tick_eq_ok h with ⟨-, rfl⟩ | ⟨-, histogram, -, rfl⟩ <;> rfl

end Prong

/-- All prongs of one upload period. -/
structure ProngCache where
  prongs : List Prong
  maxNumInstrumentationKeys : Int32

namespace ProngCache

/-- The loop of the constructor: `n` prongs from index `i` on, the first of them
for the key with index `ikey`. The `int` counter is a natural number. -/
def allocate (maxNumInstrumentationKeys : Int32) (histogramSettings : List TFHistogram)
    (serializeId : ℕ → Except (Fault Vec) SerializedAnnotation) :
    ℕ → ℕ → InstrumentationKey → Except (Fault Vec) (List Prong)
  | 0, _, _ => .ok []
  | n + 1, i, ikey => do
    let annotation ← serializeId i
    let h ← Checked.read .histograms histogramSettings
      (if ikey.toNat < histogramSettings.length then ikey.toNat else 0)
    let histogram ← Histogram.ofSettings h
    let next := if maxNumInstrumentationKeys.toInt ≤ (ikey + 1).toNat then 0 else ikey + 1
    let prongs ← allocate maxNumInstrumentationKeys histogramSettings serializeId n (i + 1) next
    .ok (⟨ikey, annotation, histogram, TimePoint.min⟩ :: prongs)

/-- Allocate all the prongs up front. -/
def new (size : ℕ) (maxNumInstrumentationKeys : Int32) (histogramSettings : List TFHistogram)
    (serializeId : ℕ → Except (Fault Vec) SerializedAnnotation) :
    Except (Fault Vec) ProngCache := do
  let prongs ← allocate maxNumInstrumentationKeys histogramSettings serializeId size 0 0
  .ok ⟨prongs, maxNumInstrumentationKeys⟩

/-- `none` is the null pointer: the id has overrun the number of histograms. -/
def get (c : ProngCache) (compoundId : UInt64) : Except (Fault Vec) (Option Prong) :=
  if c.prongs.length ≤ compoundId.toNat then .ok none
  else do
    let p ← Checked.read .prongs c.prongs compoundId.toNat
    .ok (some p)

/-- Assignment through the pointer that `get` returned. -/
def put (c : ProngCache) (compoundId : UInt64) (p : Prong) : ProngCache :=
  { c with prongs := c.prongs.set compoundId.toNat p }

/-- `Clear`: every histogram with samples is emptied. -/
def clear (c : ProngCache) : ProngCache :=
  { c with
    prongs := c.prongs.map fun p =>
      if p.histogram.count > 0 then { p with histogram := p.histogram.clear } else p }

/-- The inner loop of `SetInstrumentKeys`: the keys of the prongs of annotation `j`. -/
def setInstrumentKeysOf (maxKeys : ℤ) (instrumentKeys : List InstrumentationKey)
    (prongs : List Prong) (j : ℕ) : Except (Fault Vec) (List Prong) :=
  (List.range instrumentKeys.length).foldlM (fun prongs (i : ℕ) => do
    let k ← Checked.read .ikeys instrumentKeys i
    Checked.modify .prongs prongs (sizeT (i + j * maxKeys)) (·.setInstrumentKey k)) prongs

/-- The number of annotations is a `size_t` divided by an `int`. -/
def setInstrumentKeys (c : ProngCache) (instrumentKeys : List InstrumentationKey) :
    Except (Fault Vec) ProngCache :=
  if sizeT c.maxNumInstrumentationKeys.toInt = 0 then .error .zeroDivisor
  else do
    let prongs ← (List.range (c.prongs.length / sizeT c.maxNumInstrumentationKeys.toInt)).foldlM
      (setInstrumentKeysOf c.maxNumInstrumentationKeys.toInt instrumentKeys) c.prongs
    .ok { c with prongs }

/-- Every prong is built from the settings of a histogram, and has not been ticked. -/
theorem allocate_eq_ok {maxKeys : Int32} {histogramSettings : List TFHistogram}
    {serializeId : ℕ → Except (Fault Vec) SerializedAnnotation} {n i : ℕ}
    {ikey : InstrumentationKey} {ps : List Prong}
    (h : allocate maxKeys histogramSettings serializeId n i ikey = .ok ps) :
    ps.length = n ∧ ∀ p ∈ ps, p.lastTimeNs = TimePoint.min ∧
      ∃ hs, Histogram.ofSettings hs = .ok p.histogram := by
  induction n generalizing i ikey ps with
  | zero =>
    cases h
    exact ⟨rfl, fun p hp => absurd hp List.not_mem_nil⟩
  | succ n ih =>
    obtain ⟨ann, -, h⟩ := Checked.bind_eq_ok.mp h
    obtain ⟨hs, -, h⟩ := Checked.bind_eq_ok.mp h
    obtain ⟨histogram, hhist, h⟩ := Checked.bind_eq_ok.mp h
    obtain ⟨qs, hqs, h⟩ := Checked.bind_eq_ok.mp h
    cases h
    obtain ⟨hlen, hall⟩ := ih hqs
    rw [List.length_cons, hlen, List.forall_mem_cons]
    exact ⟨rfl, ⟨rfl, hs, hhist⟩, hall⟩

/-! ## Prongs and caches as records of samples

Ticking a prong adds the time since its last tick to its histogram, and so to the samples of the
cache. This relates each operation on a cache to the lists of samples before and after it.
-/

/-- The prongs without their keys. -/
def withoutKeys (prongs : List Prong) : List Prong := prongs.map (·.setInstrumentKey 0)

/-- Changing one element in a way that `g` does not see. -/
theorem map_modify_of_comp {α β : Type} {g : α → β} {f : α → α} (h : ∀ a, g (f a) = g a)
    (xs : List α) (i : ℕ) : (xs.modify i f).map g = xs.map g := by
  refine List.ext_getElem? fun j => ?_
  simp only [List.getElem?_map, List.getElem?_modify]
  rcases xs[j]? with _ | a
  · rfl
  · by_cases hj : i = j <;> simp [hj, h]

/-- Prongs that are the same without their keys agree in all that does not look at
the keys. -/
theorem map_eq_of_withoutKeys {α : Type} {f : Prong → α}
    (hf : ∀ p, f (p.setInstrumentKey 0) = f p) {ps qs : List Prong}
    (h : withoutKeys ps = withoutKeys qs) : ps.map f = qs.map f := by
  have hcomp (rs : List Prong) : (withoutKeys rs).map f = rs.map f := by
    rw [withoutKeys, List.map_map]
    exact List.map_congr_left fun p _ => hf p
  rw [← hcomp, h, hcomp]

/-- Caches that differ in keys only are of one length. -/
theorem length_eq_of_withoutKeys {ps qs : List Prong} (h : withoutKeys ps = withoutKeys qs) :
    ps.length = qs.length := by
  simpa using congrArg List.length (map_eq_of_withoutKeys (f := fun _ => ()) (fun _ => rfl) h)

/-- Each histogram of one is also one of the other. -/
theorem exists_mem_of_withoutKeys {ps qs : List Prong} (h : withoutKeys ps = withoutKeys qs)
    {p : Prong} (hp : p ∈ ps) : ∃ q ∈ qs, q.histogram = p.histogram := by
  have hmem : p.histogram ∈ qs.map fun q => q.histogram := by
    rw [← map_eq_of_withoutKeys (fun _ => rfl) h]
    exact List.mem_map_of_mem hp
  exact List.mem_map.mp hmem

/-- Setting the keys changes keys only. -/
theorem withoutKeys_setInstrumentKeysOf {maxKeys : ℤ} {keys : List InstrumentationKey} {j : ℕ}
    {prongs prongs' : List Prong} (h : setInstrumentKeysOf maxKeys keys prongs j = .ok prongs') :
    withoutKeys prongs' = withoutKeys prongs := by
  refine Checked.foldlM_invariant (P := fun ps => withoutKeys ps = withoutKeys prongs)
    (fun ps i ps' hps hi => ?_) rfl h
  obtain ⟨k, -, hk⟩ := Checked.bind_eq_ok.mp hi
  obtain ⟨-, rfl⟩ := Checked.modify_eq_ok hk
  rw [← hps]
  exact map_modify_of_comp (f := fun p => p.setInstrumentKey k) (g := fun p => p.setInstrumentKey 0)
    (fun _ => rfl) ps _

/-- `SetInstrumentKeys` changes the keys of the prongs and nothing else. -/
theorem withoutKeys_setInstrumentKeys {c c' : ProngCache} {keys : List InstrumentationKey}
    (h : c.setInstrumentKeys keys = .ok c') :
    withoutKeys c'.prongs = withoutKeys c.prongs ∧
      c'.maxNumInstrumentationKeys = c.maxNumInstrumentationKeys := by
  rw [setInstrumentKeys] at h
  split at h
  · cases h
  obtain ⟨prongs, hprongs, h⟩ := Checked.bind_eq_ok.mp h
  cases h
  refine ⟨?_, rfl⟩
  exact Checked.foldlM_invariant (P := fun ps => withoutKeys ps = withoutKeys c.prongs)
    (fun ps j ps' hps hj => (withoutKeys_setInstrumentKeysOf hj).trans hps) rfl hprongs

end ProngCache

end GameSdk
