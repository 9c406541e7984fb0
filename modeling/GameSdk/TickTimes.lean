import GameSdk.Safety
import Mathlib.Data.List.Find

/-!
# The times between ticks

A prong remembers its last tick, and the two caches have a prong each for the same
key and annotation. Clearing a cache empties its histograms but leaves these times,
so a tick may be measured from one made two swaps ago. The runs here remember every
`FrameTick`, to compare with.

`Truthful` is what a tick should do, and `StepOk` the condition: the preceding tick for the key and
the annotation was made in the same cache, or none was, and annotation ids do not wrap. The
condition looks at the ticks so far and at the number of swaps.

The argument goes by way of the prongs. Compound ids tell keys and annotations apart, so that each
prong remembers the ticks of one key under one annotation; and which of the two caches a tick goes
to is the number of swaps modulo two.
-/

namespace GameSdk

/-- ghost: a call of `FrameTick`. -/
structure TickRecord where
  key : InstrumentationKey
  annotationId : AnnotationId
  time : TimePoint
  /-- how many flushes had gone through -/
  swaps : ℕ
  deriving DecidableEq, Repr

namespace TickRecord

/-- Each flush that goes through changes to the other cache. -/
def cache (r : TickRecord) : Bool := decide (r.swaps % 2 = 1)

/-- The same key, under the same annotation id. -/
def IsFor (key : InstrumentationKey) (a : AnnotationId) (r : TickRecord) : Prop :=
  r.key = key ∧ r.annotationId = a

instance (key : InstrumentationKey) (a : AnnotationId) (r : TickRecord) :
    Decidable (r.IsFor key a) := inferInstanceAs (Decidable (_ ∧ _))

end TickRecord

/-- A state with the ticks so far, the last one first. -/
structure Traced where
  impl : TuningForkImpl
  history : List TickRecord
  swaps : ℕ

namespace Traced

/-- Before the first tick. -/
def start (s : TuningForkImpl) : Traced := ⟨s, [], 0⟩

/-- The ticks after an event. -/
def record (τ : Traced) : Event → List TickRecord
  | .call (.frameTick key t) => ⟨key, τ.impl.currentAnnotationId, t, τ.swaps⟩ :: τ.history
  | _ => τ.history

/-- One event, with the ticks and the swaps it makes. -/
def step (sqrt : ℚ → ℚ) (τ : Traced) (e : Event) : Except (Fault Vec) Traced := do
  let s ← τ.impl.step sqrt e
  let swaps := if s.currentProngCache = τ.impl.currentProngCache then τ.swaps else τ.swaps + 1
  .ok ⟨s, τ.record e, swaps⟩

/-- The immediately preceding tick of a key under an annotation id. -/
def lastTick (τ : Traced) (key : InstrumentationKey) (a : AnnotationId) : Option TickRecord :=
  τ.history.find? fun r => r.IsFor key a

/-- A tick gives the histograms at most one sample, and that is the time since the
preceding tick. -/
def Truthful (τ : Traced) (e : Event) (τ' : Traced) : Prop :=
  ∀ key t, e = .call (.frameTick key t) →
    ∃ news, τ'.impl.added = τ.impl.added ++ news ∧ news.length ≤ 1 ∧
      ∀ a ∈ news, ∃ r, τ.lastTick key τ.impl.currentAnnotationId = some r ∧
        a.2.ms = (t - r.time : ℤ) / 1000000

/-- The condition on a step. A tick: the preceding one for the key and the annotation is
an even number of swaps ago, or all earlier ones are an odd number. Setting an
annotation: the ids it makes do not wrap, unless it is refused. -/
def StepOk (τ : Traced) : Event → Prop
  | .call (.frameTick key _) =>
    (∀ r ∈ τ.lastTick key τ.impl.currentAnnotationId, r.swaps % 2 = τ.swaps % 2) ∨
      ∀ r ∈ τ.history, r.IsFor key τ.impl.currentAnnotationId → r.swaps % 2 ≠ τ.swaps % 2
  | .call <| Call.setCurrentAnnotation ann =>
    let id := decodeAnnotationSerialization ann τ.impl.annotationRadixMult
    id = kAnnotationError ∨
      (id.toNat + 1) * τ.impl.settings.maxInstrumentationKeys.toNat ≤ 2 ^ 64
  | _ => True

instance (τ : Traced) (e : Event) : Decidable (τ.StepOk e) := by
  unfold StepOk
  split <;> infer_instance

end Traced

/-! ## Compound ids

A compound id is the index of the key plus the annotation id, a multiple of the number of keys. As
long as nothing wraps the two can be told apart.
-/

namespace InstrumentKeys

/-- The index of a key in use. -/
def keyIndex (t : InstrumentKeys) (key : InstrumentationKey) : Option ℕ :=
  (List.range t.nextIkey).find? fun i => t.ikeys[i]? = some key

/-- A key has an index if it is in use. -/
theorem keyIndex_eq_some_iff {t : InstrumentKeys} (hwf : t.Wf) {key : InstrumentationKey} {i : ℕ} :
    t.keyIndex key = some i ↔ i < t.nextIkey ∧ t.ikeys[i]? = some key := by
  rw [keyIndex, List.find?_range_eq_some]
  simp only [decide_eq_true_eq, List.mem_range, Bool.not_eq_eq_eq_not, Bool.not_true,
    decide_eq_false_iff_not]
  constructor
  · rintro ⟨hget, hi, -⟩
    exact ⟨hi, hget⟩
  · rintro ⟨hi, hget⟩
    refine ⟨hget, hi, fun j hj hjget => ?_⟩
    have := hwf.inj j (by omega) i hi (hjget.trans hget.symm)
    omega

/-- A key that is not in use has none. -/
theorem keyIndex_eq_none_iff {t : InstrumentKeys} {key : InstrumentationKey} :
    t.keyIndex key = none ↔ ∀ i < t.nextIkey, t.ikeys[i]? ≠ some key := by
  rw [keyIndex]
  simp [List.find?_eq_none]

/-- Two keys have two indices. -/
theorem keyIndex_inj {t : InstrumentKeys} (hwf : t.Wf) {key key' : InstrumentationKey} {i : ℕ}
    (h : t.keyIndex key = some i) (h' : t.keyIndex key' = some i) : key = key' := by
  have hget := ((keyIndex_eq_some_iff hwf).mp h).2
  rw [((keyIndex_eq_some_iff hwf).mp h').2] at hget
  exact (Option.some.inj hget).symm

/-- A key keeps its index. -/
theorem Extends.keyIndex {t t' : InstrumentKeys} (hwf : t.Wf) (hwf' : t'.Wf) (h : Extends t t')
    {key : InstrumentationKey} {i : ℕ} (hi : t.keyIndex key = some i) :
    t'.keyIndex key = some i := by
  obtain ⟨hlt, hget⟩ := (keyIndex_eq_some_iff hwf).mp hi
  rw [keyIndex_eq_some_iff hwf']
  exact ⟨Nat.lt_of_lt_of_le hlt h.nextIkey_le, (h.getElem?_eq i hlt).trans hget⟩

/-- The key that was asked for has the index returned, and if there is none the table
is full. -/
theorem keyIndex_getOrCreate {t t' : InstrumentKeys} {key : InstrumentationKey} {r : Option ℕ}
    (hwf : t.Wf) (h : t.getOrCreateInstrumentKeyIndex key = .ok (r, t')) :
    t'.keyIndex key = r ∧ (r = none → t'.nextIkey = t'.ikeys.length) := by
  obtain ⟨hwf', -, hindex⟩ := getOrCreate_eq_ok hwf h
  rcases r with _ | i
  · rcases getOrCreate_cases hwf key with ⟨i, _, _, heq⟩ | ⟨_, _, heq⟩ | ⟨hnew, hfull, heq⟩
    · rw [h] at heq
      cases heq
    · rw [h] at heq
      cases heq
    · rw [h] at heq
      cases heq
      exact ⟨keyIndex_eq_none_iff.mpr hnew, fun _ => hfull⟩
  · exact ⟨(keyIndex_eq_some_iff hwf').mpr (hindex i rfl), fun h => (nomatch h)⟩

end InstrumentKeys

/-! ### Annotation ids

The current annotation id is that of an annotation, times the number of keys. The error value is not
one of them, but it may be current as well, and then no cache has a prong for it.
-/

/-- An annotation id the compound ids of which stay apart: a multiple of the number of
keys, below `2 ^ 64` with all of them, or too big for any cache. -/
def GoodId (k : ℕ) (a : AnnotationId) : Prop :=
  (∃ m, a.toNat = k * m ∧ k * (m + 1) ≤ 2 ^ 64) ∨ ∀ i < k, 2 ^ 32 ≤ (UInt64.ofNat i + a).toNat

/-- The id of no annotation. -/
theorem goodId_zero (k : UInt32) : GoodId k.toNat 0 :=
  Or.inl ⟨0, rfl, by have := k.toNat_lt; omega⟩

/-- Compound ids that fit in a cache tell key index and annotation id apart. -/
theorem goodId_inj {k i j : ℕ} {a b : AnnotationId} (ha : GoodId k a)
    (hb : GoodId k b) (hi : i < k) (hj : j < k) (h : UInt64.ofNat i + a = UInt64.ofNat j + b)
    (hsmall : (UInt64.ofNat i + a).toNat < 2 ^ 32) : i = j ∧ a = b := by
  have hsum {i m : ℕ} {a : AnnotationId} (hi : i < k) (ham : a.toNat = k * m)
      (hm : k * (m + 1) ≤ 2 ^ 64) : (UInt64.ofNat i + a).toNat = i + k * m := by
    rw [Nat.mul_succ] at hm
    rw [UInt64.toNat_add, UInt64.toNat_ofNat_of_lt' (by simp only [UInt64.size]; omega), ham,
      Nat.mod_eq_of_lt (by omega)]
  rcases ha with ⟨m, ham, hm⟩ | ha
  · rcases hb with ⟨n, hbn, hn⟩ | hb
    · have heq := congrArg UInt64.toNat h
      rw [hsum hi ham hm, hsum hj hbn hn] at heq
      have hij : i = j := by
        have := congrArg (· % k) heq
        simpa [Nat.mod_eq_of_lt hi, Nat.mod_eq_of_lt hj] using this
      refine ⟨hij, UInt64.toNat_inj.mp ?_⟩
      omega
    · rw [h] at hsmall
      exact absurd hsmall (Nat.not_lt.mpr (hb j hj))
  · exact absurd hsmall (Nat.not_lt.mpr (ha i hi))

/-- The shifted id is good if the product does not wrap, or the id is the error. -/
theorem goodId_mul (k : UInt32) (id : AnnotationId)
    (h : id = kAnnotationError ∨ (id.toNat + 1) * k.toNat ≤ 2 ^ 64) :
    GoodId k.toNat (id * k.toUInt64) := by
  have hk := k.toNat_lt
  rcases h with rfl | h
  · rcases Nat.eq_zero_or_pos k.toNat with hzero | hpos
    · exact Or.inr fun i hi => by omega
    · -- `-1 * k` is `2 ^ 64 - k`
      have hmul : (kAnnotationError * k.toUInt64).toNat = 2 ^ 64 - k.toNat := by
        rw [UInt64.toNat_mul, UInt32.toNat_toUInt64, kAnnotationError]
        change 18446744073709551615 * k.toNat % 2 ^ 64 = _
        omega
      refine Or.inr fun i hi => ?_
      rw [UInt64.toNat_add, UInt64.toNat_ofNat_of_lt' (by simp only [UInt64.size]; omega), hmul,
        Nat.mod_eq_of_lt (by omega)]
      omega
  · refine Or.inl ⟨id.toNat, ?_, by rwa [Nat.mul_comm]⟩
    have hle : id.toNat * k.toNat < 2 ^ 64 := by
      rw [Nat.add_mul, Nat.one_mul] at h
      rcases Nat.eq_zero_or_pos k.toNat with hzero | hpos
      · rw [hzero, Nat.mul_zero]
        omega
      · omega
    rw [UInt64.toNat_mul, UInt32.toNat_toUInt64, Nat.mod_eq_of_lt hle, Nat.mul_comm]

/-- An annotation that is set has a good id. -/
theorem goodId_setCurrentAnnotation {s : TuningForkImpl} {ann : SerializedAnnotation} {k : UInt32}
    (hk : s.settings.maxInstrumentationKeys = k)
    (hok : decodeAnnotationSerialization ann s.annotationRadixMult = kAnnotationError ∨
      ((decodeAnnotationSerialization ann s.annotationRadixMult).toNat + 1) * k.toNat ≤ 2 ^ 64) :
    GoodId k.toNat (s.annotated ann).currentAnnotationId := by
  subst hk
  rw [TuningForkImpl.annotated_eq]
  simp only
  split
  · exact goodId_zero _
  · exact goodId_mul _ _ hok

/-- A call sets a good annotation id, or none. -/
theorem goodId_of_callBody {sqrt : ℚ → ℚ} {s s' : TuningForkImpl} (hwf : s.keys.Wf) {k : UInt32}
    (hk : s.settings.maxInstrumentationKeys = k) (hgood : GoodId k.toNat s.currentAnnotationId)
    {c : Call} (hok : ∀ ann, c = Call.setCurrentAnnotation ann →
      decodeAnnotationSerialization ann s.annotationRadixMult = kAnnotationError ∨
        ((decodeAnnotationSerialization ann s.annotationRadixMult).toNat + 1) * k.toNat ≤ 2 ^ 64)
    {due : Option TimePoint} (h : s.callBody sqrt c = .ok (due, s')) :
    GoodId k.toNat s'.currentAnnotationId := by
  by_cases hann : ∃ ann, c = Call.setCurrentAnnotation ann
  · obtain ⟨ann, rfl⟩ := hann
    cases h
    exact goodId_setCurrentAnnotation hk (hok ann rfl)
  · rw [not_exists] at hann
    rw [(TuningForkImpl.follows_of_callBody hwf h).2.2.2 hann]
    exact hgood

/-! ## What a prong remembers

The last time of a prong in a cache is that of the last tick for its key and annotation while this
cache was the current one.
-/

/-- The prong a tick was for, if its key was given an index. -/
def TickRecord.compoundId (t : InstrumentKeys) (r : TickRecord) : Option UInt64 :=
  (t.keyIndex r.key).map fun i => UInt64.ofNat i + r.annotationId

/-- A tick on prong `id` of cache `c`. -/
def TickRecord.IsOn (t : InstrumentKeys) (c : Bool) (id : UInt64) (r : TickRecord) : Prop :=
  r.cache = c ∧ r.compoundId t = some id

instance (t : InstrumentKeys) (c : Bool) (id : UInt64) (r : TickRecord) :
    Decidable (r.IsOn t c id) := inferInstanceAs (Decidable (_ ∧ _))

/-- The last tick on prong `id` while `c` was the current cache. -/
def lastOn (t : InstrumentKeys) (h : List TickRecord) (c : Bool) (id : UInt64) :
    Option TickRecord := h.find? fun r => r.IsOn t c id

/-- If every match of `p` is one of `q`, and the first match of `q` is one of `p`, it is
the first match of `p`. -/
theorem find?_eq_of_imp {α : Type} {p q : α → Bool} {l : List α} {x z : α}
    (himp : ∀ y ∈ l, p y = true → q y = true) (hp : l.find? p = some x) (hq : l.find? q = some z)
    (hz : p z = true) : x = z := by
  induction l with
  | nil => cases hp
  | cons y l ih =>
    obtain ⟨hy, hl⟩ := List.forall_mem_cons.mp himp
    rw [List.find?_cons] at hp hq
    rcases hqy : q y
    · have hpy : p y = false := by
        rcases hpy : p y
        · rfl
        · rw [hy hpy] at hqy
          cases hqy
      rw [hqy] at hq
      rw [hpy] at hp
      exact ih hl hp hq
    · rw [hqy] at hq
      obtain rfl : y = z := Option.some.inj hq
      rw [hz] at hp
      exact (Option.some.inj hp).symm

namespace ProngCache

/-! ### The last times of a cache

Only a tick changes them. `Clear` does not, which is how a time may come from two swaps ago.
-/

/-- The times of the last ticks. -/
def times (c : ProngCache) : List TimePoint := c.prongs.map fun p => p.lastTimeNs

/-- The times after one prong has changed. -/
theorem times_put (c : ProngCache) (id : UInt64) (p : Prong) :
    (c.put id p).times = c.times.set id.toNat p.lastTimeNs := List.map_set

/-- The time of one prong. -/
theorem getElem?_times {c : ProngCache} {i : ℕ} {p : Prong} (h : c.prongs[i]? = some p) :
    c.times[i]? = some p.lastTimeNs := by
  rw [times, List.getElem?_map, h]
  rfl

/-- `Clear` does not reset the times. -/
theorem times_clear (c : ProngCache) : c.clear.times = c.times := by
  rw [times, clear, List.map_map]
  refine List.map_congr_left fun p _ => ?_
  simp only [Function.comp_apply]
  split <;> rfl

/-- Setting the keys leaves the times. -/
theorem times_setInstrumentKeys {c c' : ProngCache} {keys : List InstrumentationKey}
    (h : c.setInstrumentKeys keys = .ok c') : c'.times = c.times :=
  map_eq_of_withoutKeys (fun _ => rfl) (withoutKeys_setInstrumentKeys h).1

/-- The times of one cache do not matter for the other. -/
theorem times_update {f : Bool → ProngCache} {c₀ : Bool} {cache : ProngCache}
    (h : cache.times = (f c₀).times) (c : Bool) :
    (Function.update f c₀ cache c).times = (f c).times := by
  rcases eq_or_ne c c₀ with rfl | hc
  · rw [Function.update_self, h]
  · rw [Function.update_of_ne hc]

/-- The times after a tick. -/
theorem times_putProng (s : TuningForkImpl) (id : UInt64) (p : Prong) (ds : List Sample)
    (c : Bool) : ((s.putProng id p ds).prongCaches c).times =
      if s.currentProngCache = c then (s.prongCaches c).times.set id.toNat p.lastTimeNs
      else (s.prongCaches c).times := by
  split
  · next hc =>
    subst hc
    exact (congrArg times (TuningForkImpl.current_putProng s id p ds)).trans (times_put ..)
  · next hc => rw [TuningForkImpl.prongCaches_putProng (Ne.symm hc)]

/-- No prong has been ticked yet. -/
theorem times_allocate {maxKeys : Int32} {histogramSettings : List TFHistogram}
    {serializeId : ℕ → Except (Fault Vec) SerializedAnnotation} {n i : ℕ}
    {ikey : InstrumentationKey} {ps : List Prong}
    (h : allocate maxKeys histogramSettings serializeId n i ikey = .ok ps) :
    ps.map (fun p => p.lastTimeNs) = List.replicate n TimePoint.min := by
  obtain ⟨hlen, hall⟩ := allocate_eq_ok h
  rw [List.eq_replicate_iff, List.length_map, List.forall_mem_map]
  exact ⟨hlen, fun p hp => (hall p hp).1⟩

end ProngCache

/-! ### The last ticks

For each cache and each compound id, the time that the prong has is that of the last tick in the
history on this prong.
-/

/-- The keys, the ids and the times of a state after the ticks `h`. -/
structure TickInv (s : TuningForkImpl) (h : List TickRecord) : Prop where
  keys : s.keys.Wf
  length_ikeys : s.keys.ikeys.length = s.settings.maxInstrumentationKeys.toNat
  small : ∀ c, (s.prongCaches c).times.length ≤ 2 ^ 32
  goodId : GoodId s.settings.maxInstrumentationKeys.toNat s.currentAnnotationId
  goodIds : ∀ r ∈ h, GoodId s.settings.maxInstrumentationKeys.toNat r.annotationId
  /-- a tick whose key has no index found the table full -/
  registered : ∀ r ∈ h, s.keys.keyIndex r.key = none → s.keys.nextIkey = s.keys.ikeys.length
  lastTime : ∀ (c : Bool) (id : UInt64) (t : TimePoint),
    (s.prongCaches c).times[id.toNat]? = some t →
      t = ((lastOn s.keys h c id).map fun r => r.time).getD TimePoint.min

namespace TickInv

variable {sqrt : ℚ → ℚ} {s s' : TuningForkImpl} {h : List TickRecord}

/-- A new key does not change the compound ids of earlier ticks: they have theirs, or
there was no room for a new key. -/
theorem compoundId_eq (hinv : TickInv s h) {key : InstrumentationKey} {i : Option ℕ}
    {keys : InstrumentKeys} (hkeys : s.keys.getOrCreateInstrumentKeyIndex key = .ok (i, keys)) :
    ∀ r ∈ h, r.compoundId keys = r.compoundId s.keys := by
  intro r hr
  obtain ⟨hwf, hext, -⟩ := InstrumentKeys.getOrCreate_eq_ok hinv.keys hkeys
  rcases hindex : s.keys.keyIndex r.key with _ | j
  · have hfull := hinv.registered r hr hindex
    rcases InstrumentKeys.getOrCreate_cases hinv.keys key with
      ⟨_, _, _, heq⟩ | ⟨_, hlt, _⟩ | ⟨_, _, heq⟩
    · rw [hkeys] at heq
      cases heq
      rfl
    · omega
    · rw [hkeys] at heq
      cases heq
      rfl
  · rw [TickRecord.compoundId, TickRecord.compoundId, hindex, hext.keyIndex hinv.keys hwf hindex]

theorem lastOn_eq (hinv : TickInv s h) {key : InstrumentationKey} {i : Option ℕ}
    {keys : InstrumentKeys} (hkeys : s.keys.getOrCreateInstrumentKeyIndex key = .ok (i, keys))
    (c : Bool) (id : UInt64) : lastOn keys h c id = lastOn s.keys h c id := by
  refine List.find?_congr fun r hr => ?_
  rw [decide_eq_decide, TickRecord.IsOn, TickRecord.IsOn, hinv.compoundId_eq hkeys r hr]

theorem setKeys (hinv : TickInv s h) {key : InstrumentationKey} {i : Option ℕ}
    {keys : InstrumentKeys} (hkeys : s.keys.getOrCreateInstrumentKeyIndex key = .ok (i, keys)) :
    TickInv { s with keys } h := by
  obtain ⟨hwf, hext, -⟩ := InstrumentKeys.getOrCreate_eq_ok hinv.keys hkeys
  refine ⟨hwf, hext.length_eq.trans hinv.length_ikeys, hinv.small, hinv.goodId, hinv.goodIds,
    fun r hr hnone => ?_, fun c id t ht => ?_⟩
  · have hle := hwf.nextIkey_le
    have hlen := hext.length_eq
    have hnext := hext.nextIkey_le
    rcases hindex : s.keys.keyIndex r.key with _ | j
    · have hfull := hinv.registered r hr hindex
      simp only
      omega
    · rw [hext.keyIndex hinv.keys hwf hindex] at hnone
      cases hnone
  · simp only [hinv.lastOn_eq hkeys]
    exact hinv.lastTime c id t ht

/-- The invariant is about the keys, the annotation id and the times only. -/
theorem frame (hinv : TickInv s h) (hkeys : s'.keys = s.keys) (hsettings : s'.settings = s.settings)
    (hid : s'.currentAnnotationId = s.currentAnnotationId)
    (htimes : ∀ c, (s'.prongCaches c).times = (s.prongCaches c).times) : TickInv s' h := by
  obtain ⟨h₁, h₂, h₃, h₄, h₅, h₆, h₇⟩ := hinv
  constructor
  all_goals simpa only [hkeys, hsettings, hid, htimes]

theorem quiet (hinv : TickInv s h) (hquiet : TuningForkImpl.Quiet sqrt s s') : TickInv s' h := by
  rcases hquiet with hkeys | ⟨hp, htrace⟩ | ⟨i, t⟩
  · exact hinv.setKeys hkeys
  · refine hinv.frame rfl rfl rfl (ProngCache.times_update ?_)
    obtain ⟨histogram, -, rfl⟩ := Prong.trace_eq_ok htrace
    rw [ProngCache.times_put]
    obtain ⟨hlt, hget⟩ := List.getElem?_eq_some_iff.mp (ProngCache.getElem?_times hp)
    simp only [← hget]
    exact List.set_getElem_self hlt
  · exact hinv.frame rfl rfl rfl fun _ => rfl

theorem annotation (hinv : TickInv s h) {ann : SerializedAnnotation}
    (hok : GameSdk.decodeAnnotationSerialization ann s.annotationRadixMult = kAnnotationError ∨
      ((GameSdk.decodeAnnotationSerialization ann s.annotationRadixMult).toNat + 1) *
        s.settings.maxInstrumentationKeys.toNat ≤ 2 ^ 64) :
    TickInv (s.annotated ann) h := by
  have hgood := goodId_setCurrentAnnotation rfl hok
  rw [TuningForkImpl.annotated_eq] at hgood ⊢
  exact ⟨hinv.keys, hinv.length_ikeys, hinv.small, hgood, hinv.goodIds, hinv.registered,
    hinv.lastTime⟩

theorem prepareFlush (hinv : TickInv s h) (hprep : s.prepareFlush = .ok s') : TickInv s' h := by
  obtain ⟨cache, hcache, rfl⟩ := TuningForkImpl.prepareFlush_eq_ok hprep
  exact hinv.frame rfl rfl rfl
    (ProngCache.times_update (ProngCache.times_setInstrumentKeys hcache))

theorem swapCaches (hinv : TickInv s h) (tNs : TimePoint) :
    TickInv (s.setReady.swapCaches tNs) h :=
  hinv.frame rfl rfl rfl (ProngCache.times_update (ProngCache.times_clear _))

theorem checkForSubmit (hinv : TickInv s h) {due : Option TimePoint} {err : TFErrorCode}
    (hflush : s.checkForSubmit due = .ok (err, s')) : TickInv s' h :=
  TuningForkImpl.flush_preserves (P := fun s => TickInv s h) (fun _ _ hs => hs.prepareFlush)
    (fun _ tNs hs _ => hs.swapCaches tNs) (fun _ _ hs _ => hs.frame rfl rfl rfl fun _ => rfl)
    hinv hflush

/-- One more tick, for which `times` may have changed on its prong. -/
theorem record (hinv : TickInv s h) {r₀ : TickRecord}
    (hgood : r₀.annotationId = s.currentAnnotationId)
    (hreg : s.keys.keyIndex r₀.key = none → s.keys.nextIkey = s.keys.ikeys.length)
    (hkeys : s'.keys = s.keys) (hsettings : s'.settings = s.settings)
    (hid : s'.currentAnnotationId = s.currentAnnotationId)
    (hlen : ∀ c, (s'.prongCaches c).times.length = (s.prongCaches c).times.length)
    (htimes : ∀ (c : Bool) (id : UInt64) (t : TimePoint),
      (s'.prongCaches c).times[id.toNat]? = some t →
        if r₀.IsOn s.keys c id then t = r₀.time
        else (s.prongCaches c).times[id.toNat]? = some t) : TickInv s' (r₀ :: h) := by
  refine ⟨hkeys ▸ hinv.keys, ?_, fun c => ?_, ?_, ?_, ?_, fun c id t ht => ?_⟩
  · rw [hkeys, hsettings]
    exact hinv.length_ikeys
  · rw [hlen]
    exact hinv.small c
  · rw [hsettings, hid]
    exact hinv.goodId
  · rw [hsettings, List.forall_mem_cons, hgood]
    exact ⟨hinv.goodId, hinv.goodIds⟩
  · rw [hkeys, List.forall_mem_cons]
    exact ⟨hreg, hinv.registered⟩
  · have htime := htimes c id t ht
    rw [hkeys, lastOn, List.find?_cons]
    by_cases hon : r₀.IsOn s.keys c id
    · rw [if_pos hon] at htime
      simp only [hon, decide_true]
      exact htime
    · rw [if_neg hon] at htime
      simp only [hon, decide_false]
      exact hinv.lastTime c id t htime

/-- A tick is recorded, and is the last one of its prong. -/
theorem frameTickBody (hinv : TickInv s h) {key : InstrumentationKey} {t : TimePoint}
    {err : TFErrorCode} {due : Option TimePoint} {n : ℕ}
    (hcache : s.currentProngCache = decide (n % 2 = 1))
    (hbody : s.frameTickBody sqrt key t = .ok (err, due, s')) :
    TickInv s' (⟨key, s.currentAnnotationId, t, n⟩ :: h) := by
  obtain ⟨r, keys, hkeys, hcases⟩ := TuningForkImpl.frameTickBody_eq_ok hbody
  obtain ⟨hindex, hfull⟩ := InstrumentKeys.keyIndex_getOrCreate hinv.keys hkeys
  have hon (c : Bool) (id : UInt64) :
      TickRecord.IsOn keys c id ⟨key, s.currentAnnotationId, t, n⟩ ↔ s.currentProngCache = c ∧
        (r.map fun i => UInt64.ofNat i + s.currentAnnotationId) = some id := by
    rw [TickRecord.IsOn, TickRecord.cache, TickRecord.compoundId, hindex, hcache]
  have hreg : keys.keyIndex key = none → keys.nextIkey = keys.ikeys.length := hindex ▸ hfull
  rcases hcases with ⟨rfl, hnone⟩ | ⟨i, p, p', rfl, hget, htick, rfl⟩
  · refine (hinv.setKeys hkeys).record rfl hreg rfl rfl rfl (fun _ => rfl) fun c id t' ht' => ?_
    split
    · next hc =>
      -- the prong would have to exist
      obtain ⟨rfl, hid⟩ := (hon c id).mp hc
      obtain ⟨i, rfl, rfl⟩ := Option.map_eq_some_iff.mp hid
      have := hnone i rfl
      rw [ProngCache.times, List.getElem?_map] at ht'
      rw [TuningForkImpl.current] at this
      rw [this] at ht'
      cases ht'
    · exact ht'
  · have htimes := ProngCache.times_putProng { s with keys }
      (UInt64.ofNat i + s.currentAnnotationId) p' (TuningForkImpl.tickSamples p t s.added.length)
    rw [Prong.lastTimeNs_tick htick] at htimes
    refine (hinv.setKeys hkeys).record rfl hreg rfl rfl rfl (fun c => ?_) fun c id t' ht' => ?_
    · rw [htimes]
      split
      · exact List.length_set ..
      · rfl
    · rw [htimes] at ht'
      simp only [hon, Option.map_some, Option.some.injEq]
      by_cases hc : s.currentProngCache = c
      · rw [if_pos hc, List.getElem?_set] at ht'
        by_cases hid : UInt64.ofNat i + s.currentAnnotationId = id
        · subst hid hc
          have hlt : _ < (s.prongCaches s.currentProngCache).times.length :=
            (List.getElem?_eq_some_iff.mp (ProngCache.getElem?_times hget)).1
          rw [if_pos rfl, if_pos hlt] at ht'
          rw [if_pos ⟨rfl, rfl⟩]
          exact (Option.some.inj ht').symm
        · rw [if_neg fun h => hid (UInt64.toNat_inj.mp h)] at ht'
          rw [if_neg fun h => hid h.2]
          exact ht'
      · rw [if_neg hc] at ht'
        rw [if_neg fun h => hc h.1]
        exact ht'

/-- Under the condition on ticks, the time a prong remembers is that of the preceding
tick for the same key and annotation id. -/
theorem lastTick_of_prong (hinv : TickInv s h) {key : InstrumentationKey} {i n : ℕ} {p : Prong}
    (hcache : s.currentProngCache = decide (n % 2 = 1)) (hindex : s.keys.keyIndex key = some i)
    (hget : s.current.prongs[(UInt64.ofNat i + s.currentAnnotationId).toNat]? = some p)
    (hmin : p.lastTimeNs ≠ TimePoint.min)
    (hok : (∀ r ∈ h.find? fun r => r.IsFor key s.currentAnnotationId, r.swaps % 2 = n % 2) ∨
      ∀ r ∈ h, r.IsFor key s.currentAnnotationId → r.swaps % 2 ≠ n % 2) :
    ∃ r, (h.find? fun r => r.IsFor key s.currentAnnotationId) = some r ∧ r.time = p.lastTimeNs := by
  have htime := hinv.lastTime _ _ _ (ProngCache.getElem?_times hget)
  have hi := ((InstrumentKeys.keyIndex_eq_some_iff hinv.keys).mp hindex).1
  have hle := hinv.keys.nextIkey_le
  have hlen := hinv.length_ikeys
  have hsmall : (UInt64.ofNat i + s.currentAnnotationId).toNat < 2 ^ 32 :=
    Nat.lt_of_lt_of_le (List.getElem?_eq_some_iff.mp (ProngCache.getElem?_times hget)).1
      (hinv.small s.currentProngCache)
  -- a tick on this prong was for this key and this id
  have hfor : ∀ r ∈ h, r.IsOn s.keys s.currentProngCache
      (UInt64.ofNat i + s.currentAnnotationId) → r.IsFor key s.currentAnnotationId := by
    rintro r hr ⟨-, hid⟩
    obtain ⟨j, hj, hsum⟩ := Option.map_eq_some_iff.mp hid
    have hjlt := ((InstrumentKeys.keyIndex_eq_some_iff hinv.keys).mp hj).1
    obtain ⟨rfl, ha⟩ := goodId_inj hinv.goodId (hinv.goodIds r hr) (by omega) (by omega) hsum.symm
      hsmall
    exact ⟨InstrumentKeys.keyIndex_inj hinv.keys hj hindex, ha.symm⟩
  rcases hz : lastOn s.keys h s.currentProngCache (UInt64.ofNat i + s.currentAnnotationId)
    with _ | z
  · rw [hz] at htime
    exact absurd htime hmin
  · rw [hz] at htime
    have hzmem := List.mem_of_find?_eq_some hz
    have hzon : z.IsOn s.keys s.currentProngCache (UInt64.ofNat i + s.currentAnnotationId) := by
      simpa using List.find?_some hz
    have hzfor := hfor z hzmem hzon
    have hparity {r : TickRecord} : r.cache = s.currentProngCache ↔ r.swaps % 2 = n % 2 := by
      rw [TickRecord.cache, hcache, decide_eq_decide]
      omega
    rcases hok with hlast | hnone
    · rcases hr : h.find? fun r => r.IsFor key s.currentAnnotationId with _ | r
      · exact absurd (decide_eq_true hzfor) (List.find?_eq_none.mp hr z hzmem)
      · have hrfor : r.IsFor key s.currentAnnotationId := by simpa using List.find?_some hr
        have hron : r.IsOn s.keys s.currentProngCache
            (UInt64.ofNat i + s.currentAnnotationId) := by
          refine ⟨hparity.mpr (hlast r hr), ?_⟩
          rw [TickRecord.compoundId, hrfor.1, hrfor.2, hindex]
          rfl
        have hzr : z = r := find?_eq_of_imp
          (fun y hy hon => decide_eq_true (hfor y hy (of_decide_eq_true hon))) hz hr
          (decide_eq_true hron)
        exact ⟨r, hr, hzr ▸ htime.symm⟩
    · exact absurd (hparity.mp hzon.1) (hnone z hzmem hzfor)

end TickInv

/-! ## Runs

The invariant after every run, and what it says about the next tick.
-/

namespace Traced

variable {sqrt : ℚ → ℚ} {τ τ' : Traced}

/-- The invariant with the cache that is current. -/
structure Inv (τ : Traced) : Prop where
  tick : TickInv τ.impl τ.history
  parity : τ.impl.currentProngCache = decide (τ.swaps % 2 = 1)

theorem record_of_ne {c : Call} (h : ∀ key t, c ≠ .frameTick key t) (τ : Traced) :
    τ.record (.call c) = τ.history := by
  cases c with
  | frameTick key t => exact absurd rfl (h key t)
  | _ => rfl

/-- A flush gives the histograms no samples. -/
theorem added_checkForSubmit {s s' : TuningForkImpl} {due : Option TimePoint} {err : TFErrorCode}
    (h : s.checkForSubmit due = .ok (err, s')) : s'.added = s.added := by
  refine TuningForkImpl.flush_preserves (P := fun s' => s'.added = s.added)
    (fun s₁ s₂ hs hprep => ?_) (fun _ _ hs _ => hs) (fun _ _ hs _ => hs) rfl h
  obtain ⟨cache, -, rfl⟩ := TuningForkImpl.prepareFlush_eq_ok hprep
  exact hs

theorem tick_step {s : TuningForkImpl} {e : Event} (hinv : τ.Inv) (hok : τ.StepOk e)
    (h : τ.impl.step sqrt e = .ok s) : TickInv s (τ.record e) := by
  cases e with
  | call c =>
    obtain ⟨due, s₁, err, hbody, hflush⟩ := TuningForkImpl.call_eq_ok h
    refine TickInv.checkForSubmit ?_ hflush
    rcases TuningForkImpl.callBody_cases hbody with
      ⟨ann, rfl, rfl⟩ | ⟨key, t, err, rfl, htick⟩ | ⟨hne, hquiet⟩
    · exact hinv.tick.annotation hok
    · exact hinv.tick.frameTickBody hinv.parity htick
    · rw [record_of_ne hne]
      exact Runs.invariant_of_reachable (P := fun s => TickInv s τ.history)
        (fun _ _ hs => hs.quiet) hinv.tick hquiet
  | upload v =>
    cases h
    exact hinv.tick.frame rfl rfl rfl fun _ => rfl

theorem truthful_step {s : TuningForkImpl} {e : Event} (hinv : τ.Inv) (hok : τ.StepOk e)
    (h : τ.impl.step sqrt e = .ok s) (hτ' : τ'.impl = s) : τ.Truthful e τ' := by
  rintro key t rfl
  rw [TuningForkImpl.step] at h
  obtain ⟨due, s₁, err, hbody, hflush⟩ := TuningForkImpl.call_eq_ok h
  obtain ⟨⟨err', r⟩, hbody, rfl⟩ := Checked.map_eq_ok.mp hbody
  rw [hτ', added_checkForSubmit hflush]
  obtain ⟨r, keys, hkeys, ⟨rfl, -⟩ | ⟨i, p, p', rfl, hget, -, rfl⟩⟩ :=
    TuningForkImpl.frameTickBody_eq_ok hbody
  · exact ⟨[], (List.append_nil _).symm, Nat.zero_le _, fun a ha => absurd ha List.not_mem_nil⟩
  · refine ⟨_, rfl, ?_, fun a ha => ?_⟩
    · rw [TuningForkImpl.tickSamples]
      split
      · exact Nat.le_refl 1
      · exact Nat.zero_le _
    · have hindex := (InstrumentKeys.keyIndex_getOrCreate hinv.tick.keys hkeys).1
      obtain ⟨d, hd, rfl⟩ := List.mem_map.mp ha
      rw [TuningForkImpl.tickSamples] at hd
      split at hd
      · next hmin =>
        obtain rfl := List.mem_singleton.mp hd
        obtain ⟨r, hr, htime⟩ := (hinv.tick.setKeys hkeys).lastTick_of_prong hinv.parity hindex
          hget hmin hok
        exact ⟨r, hr, htime ▸ rfl⟩
      · cases hd

theorem inv_step {e : Event} (hinv : τ.Inv) (hok : τ.StepOk e) (h : τ.step sqrt e = .ok τ') :
    τ'.Inv ∧ τ.Truthful e τ' := by
  obtain ⟨s, hs, h⟩ := Checked.bind_eq_ok.mp h
  cases h
  refine ⟨⟨tick_step hinv hok hs, ?_⟩, truthful_step hinv hok hs rfl⟩
  have hparity := hinv.parity
  simp only
  split
  · next hsame => rw [hsame, hparity]
  · next hne =>
    -- the caches are two
    rw [(Bool.eq_not_iff.mpr hne), hparity, ← decide_not, decide_eq_decide]
    omega

/-- The constructor starts with no ticks. -/
theorem inv_start {st : Settings} {info : ExtraUploadInfo} {now : TimePoint} {s : TuningForkImpl}
    (hnew : TuningForkImpl.new st info now = .ok s) : (start s).Inv := by
  obtain ⟨keys, hinit, hkeys, hlen⟩ := TuningForkImpl.initHistogramSettings_spec
    (n := st.maxInstrumentationKeys.toNat) (i := 0) (Nat.zero_le st.histograms.length)
    (InstrumentKeys.wf_replicate _)
  rw [List.length_replicate] at hlen
  obtain ⟨histograms, keys', ps, hinit', hps, rfl⟩ := TuningForkImpl.new_eq_ok hnew
  rw [hinit] at hinit'
  cases hinit'
  have htimes := ProngCache.times_allocate hps
  refine ⟨⟨hkeys, hlen, fun c => ?_, goodId_zero _, fun r hr => absurd hr List.not_mem_nil,
    fun r hr => absurd hr List.not_mem_nil, fun c id t ht => ?_⟩, rfl⟩
  · simp only [start, ProngCache.times, htimes, List.length_replicate]
    exact Nat.le_of_lt (TuningForkImpl.maxNumProngs_lt _ _)
  · simp only [start, ProngCache.times, htimes] at ht
    exact List.eq_of_mem_replicate (List.mem_of_getElem? ht)

/-- **Ticks measure the time since the preceding tick**, in runs whose steps meet
`StepOk`. -/
theorem each_tick_truthful (sqrt : ℚ → ℚ) {st : Settings} {info : ExtraUploadInfo}
    {now : TimePoint} {s : TuningForkImpl} (hnew : TuningForkImpl.new st info now = .ok s)
    {es : List Event} (hok : Runs.ChecksOk (step sqrt) StepOk (start s) es) :
    Runs.EachStep (step sqrt) Truthful (start s) es :=
  Runs.eachStep_of_checksOk (fun (τ : Traced) _ _ (hinv : τ.Inv) => inv_step hinv)
    (inv_start hnew) hok

/-- Two ticks with a flush right after them, and one in the other cache. -/
theorem each_tick_truthful_two_keys :
    ∃ s, TuningForkImpl.new twoKeys noExtraInfo 0 = .ok s ∧
      Runs.EachStep (step fun x => x) Truthful (start s)
        [.call <| Call.setCurrentAnnotation [], .call (.frameTick 7 1000000000),
          .call (.frameTick 7 1016000000), .call (.flush 61000000000),
          .call (.frameTick 7 61016000000)] := by
  have hok : (TuningForkImpl.new twoKeys noExtraInfo 0).map (fun s =>
      decide (Runs.ChecksOk (step fun x => x) StepOk (start s)
        [.call <| Call.setCurrentAnnotation [], .call (.frameTick 7 1000000000),
          .call (.frameTick 7 1016000000), .call (.flush 61000000000),
          .call (.frameTick 7 61016000000)])) = .ok true := by
    decide +kernel
  obtain ⟨s, hs, hok⟩ := Checked.map_eq_ok.mp hok
  exact ⟨s, hs, each_tick_truthful (fun x => x) hs (of_decide_eq_true hok)⟩

/-- Ticks at 1 s, 62 s and 123 s with a flush between any two: the third one, in the
cache of the first, adds 122 s. -/
theorem not_truthful_two_flushes :
    ∃ s τ τ', TuningForkImpl.new twoKeys noExtraInfo 0 = .ok s ∧
      Runs.runChecked (step fun x => x) (start s)
        [.call (.frameTick 7 1000000000), .call (.flush 61000000000), .upload 0x30002,
          .call (.frameTick 7 62000000000), .call (.flush 122000000000)] = .ok τ ∧
      τ.step (fun x => x) (.call (.frameTick 7 123000000000)) = .ok τ' ∧
      τ.lastTick 7 τ.impl.currentAnnotationId = some ⟨7, 0, 62000000000, 1⟩ ∧
      τ'.impl.added = τ.impl.added ++ [(0, ⟨122000, 0⟩)] ∧
      ¬ τ.Truthful (.call (.frameTick 7 123000000000)) τ' := by
  have hrun : (do
      let s ← TuningForkImpl.new twoKeys noExtraInfo 0
      let τ ← Runs.runChecked (step fun x => x) (start s)
        [.call (.frameTick 7 1000000000), .call (.flush 61000000000), .upload 0x30002,
          .call (.frameTick 7 62000000000), .call (.flush 122000000000)]
      let τ' ← τ.step (fun x => x) (.call (.frameTick 7 123000000000))
      .ok (τ.lastTick 7 τ.impl.currentAnnotationId, τ.impl.added, τ'.impl.added) :
        Except (Fault Vec) _) =
      .ok (some ⟨7, 0, 62000000000, 1⟩, [], [(0, ⟨122000, 0⟩)]) := by
    decide +kernel
  obtain ⟨s, hs, hrun⟩ := Checked.bind_eq_ok.mp hrun
  obtain ⟨τ, hτ, hrun⟩ := Checked.bind_eq_ok.mp hrun
  obtain ⟨τ', hτ', hrun⟩ := Checked.bind_eq_ok.mp hrun
  obtain ⟨hlast, hadded⟩ := Prod.mk.inj (Except.ok.inj hrun)
  obtain ⟨hadded, hadded'⟩ := Prod.mk.inj hadded
  have hnews : τ'.impl.added = τ.impl.added ++ [(0, ⟨122000, 0⟩)] := by rw [hadded, hadded']; rfl
  refine ⟨s, τ, τ', hs, hτ, hτ', hlast, hnews, fun htrue => ?_⟩
  obtain ⟨news, heq, -, hall⟩ := htrue 7 123000000000 rfl
  obtain rfl := List.append_cancel_left (hnews.symm.trans heq)
  obtain ⟨r, hr, hms⟩ := hall _ (List.mem_singleton_self _)
  rw [hlast, Option.some.injEq] at hr
  rw [← hr] at hms
  norm_num at hms

end Traced

end GameSdk
