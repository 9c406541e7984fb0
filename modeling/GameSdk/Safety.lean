import GameSdk.AnnotationCodec
import GameSdk.CacheSafety
import GameSdk.Runs
import GameSdk.SetAnnotation

/-!
# Indices and divisors

When do the calls of the game stay within `live_traces_`, `prongs_` and `ikeys_`,
and never divide by zero? The invariant `Inv` ties the sizes of these vectors to
the settings; what is left is a condition on the settings and on single calls.

* The constructor, from settings that are in order, makes a state with the invariant.
* A step that meets the condition ends without a fault, and keeps the invariant.
* So does a run of such steps.

`Checked.Safe Bad` says of a computation that it does not end in one of the faults that are looked
for. It composes along the steps of a computation, so the proof for a call follows the call.
-/

namespace GameSdk

open MixedRadix

/-! ## The constructor

Settings are in order if the caches have a size, and their histograms have buckets.
-/

/-- The settings the tuning fork can work with. -/
structure Settings.Ok (st : Settings) : Prop where
  /-- the number of prongs is computed without overflow -/
  size_lt : st.maxInstrumentationKeys.toNat * (radices st.annotationEnumSize).prod < 2 ^ 31
  /-- the histograms in use have a range, and buckets to divide it into -/
  histograms : ∀ hs ∈ st.histograms.take st.maxInstrumentationKeys.toNat, hs.Ok

namespace TuningForkImpl

theorem ok_defaultHistogram : defaultHistogram.Ok := by
  refine ⟨by decide, fun h => ?_⟩
  norm_num [defaultHistogram] at h

/-- The settings of the first `i + n` keys are those given, filled up with defaults. -/
theorem initHistogramSettings_spec {n i : ℕ} {histograms : List TFHistogram}
    {keys : InstrumentKeys} (hi : i ≤ histograms.length) (hwf : keys.Wf) :
    ∃ keys', initHistogramSettings n i histograms keys =
        .ok (histograms ++ List.replicate (i + n - histograms.length) defaultHistogram, keys') ∧
      keys'.Wf ∧ keys'.ikeys.length = keys.ikeys.length := by
  induction n generalizing i histograms keys with
  | zero =>
    have hzero : i + 0 - histograms.length = 0 := by omega
    exact ⟨keys, by rw [initHistogramSettings, hzero]; simp, hwf, rfl⟩
  | succ n ih =>
    rw [initHistogramSettings]
    rcases hget : histograms[i]? with _ | h
    · have hlen : histograms.length = i := by
        have := List.getElem?_eq_none_iff.mp hget
        omega
      have hi' : i + 1 ≤ (histograms ++ [defaultHistogram]).length := by simp [hlen]
      obtain ⟨keys', heq, hwf', hlen'⟩ := ih hi' hwf
      refine ⟨keys', ?_, hwf', hlen'⟩
      simp only [heq, List.length_append, List.length_singleton, List.append_assoc]
      rw [show i + (n + 1) - histograms.length = i + 1 + n - (histograms.length + 1) + 1 by omega,
        List.replicate_succ, List.singleton_append]
    · have hlt : i < histograms.length := (List.getElem?_eq_some_iff.mp hget).1
      obtain ⟨r, keys₁, hkeys₁⟩ :=
        InstrumentKeys.exists_getOrCreate hwf h.instrumentKey.toUInt32.toUInt16
      obtain ⟨hwf₁, hext, -⟩ := InstrumentKeys.getOrCreate_eq_ok hwf hkeys₁
      obtain ⟨keys', heq, hwf', hlen'⟩ := ih (Nat.succ_le_of_lt hlt) hwf₁
      refine ⟨keys', ?_, hwf', hlen'.trans hext.length_eq⟩
      simp only [hkeys₁, Checked.ok_bind, heq]
      rw [Nat.add_right_comm i 1 n, Nat.add_assoc i n 1]

/-- What every state of a run has in common. -/
structure Inv (s : TuningForkImpl) : Prop where
  size_lt : s.settings.maxInstrumentationKeys.toNat *
    (radices s.settings.annotationEnumSize).prod < 2 ^ 31
  radixMult_eq : s.annotationRadixMult = setUpAnnotationRadixes s.settings.annotationEnumSize
  length_liveTraces : s.liveTraces.length = s.settings.maxInstrumentationKeys.toNat *
    (radices s.settings.annotationEnumSize).prod
  caches : ∀ c, (s.prongCaches c).Ok s.settings.maxInstrumentationKeys
    (radices s.settings.annotationEnumSize).prod
  keys : s.keys.Wf
  length_ikeys : s.keys.ikeys.length = s.settings.maxInstrumentationKeys.toNat
  /-- the id is that of the bytes set last, or 0 if they were refused -/
  annotationId : s.currentAnnotationId =
    if s.decodeAnnotationSerialization s.currentAnnotation = kAnnotationError then 0
    else s.decodeAnnotationSerialization s.currentAnnotation

theorem prod_radices_pos (enumSizes : List UInt32) : 0 < (radices enumSizes).prod :=
  List.prod_pos (radices_pos enumSizes)

theorem maxNumProngs_eq {st : Settings}
    (hsize : st.maxInstrumentationKeys.toNat * (radices st.annotationEnumSize).prod < 2 ^ 31) :
    maxNumProngs st.maxInstrumentationKeys (setUpAnnotationRadixes st.annotationEnumSize) =
      st.maxInstrumentationKeys.toNat * (radices st.annotationEnumSize).prod := by
  have hne : (setUpAnnotationRadixes st.annotationEnumSize).length ≠ 0 := by
    rw [setUpAnnotationRadixes]
    rcases st.annotationEnumSize with _ | ⟨e, es⟩ <;> simp [annotationRadixLoop]
  rw [maxNumProngs]
  by_cases hk : st.maxInstrumentationKeys = 0
  · rw [if_pos (Or.inr hk), hk]
    simp
  · have hpos : 0 < st.maxInstrumentationKeys.toNat :=
      Nat.pos_of_ne_zero fun h0 => hk (UInt32.toNat_inj.mp h0)
    have hprod : (radices st.annotationEnumSize).prod ≤
        st.maxInstrumentationKeys.toNat * (radices st.annotationEnumSize).prod :=
      Nat.le_mul_of_pos_left _ hpos
    rw [if_neg (by tauto), UInt32.toNat_mul, getLastD_setUpAnnotationRadixes (by omega),
      Nat.mod_eq_of_lt (by omega)]

/-- Every id below the number of prongs serializes. -/
theorem safe_serializeAnnotationId {st : Settings} (h : st.Ok)
    (hpos : 0 < st.maxInstrumentationKeys.toNat) {i : ℕ} (hi : i < 2 ^ 31) :
    Checked.Safe Bad (serializeAnnotationId st.maxInstrumentationKeys
      (setUpAnnotationRadixes st.annotationEnumSize) (UInt64.ofNat i)) := by
  have hprod : (radices st.annotationEnumSize).prod ≤
      st.maxInstrumentationKeys.toNat * (radices st.annotationEnumSize).prod :=
    Nat.le_mul_of_pos_left _ hpos
  have hsize := h.size_lt
  have hdiv : UInt64.ofNat i / st.maxInstrumentationKeys.toUInt64 =
      UInt64.ofNat (i / st.maxInstrumentationKeys.toNat) := by
    have hle := Nat.div_le_self i st.maxInstrumentationKeys.toNat
    rw [← UInt64.toNat_inj, UInt64.toNat_div, UInt32.toNat_toUInt64,
      UInt64.toNat_ofNat_of_lt' (by simp only [UInt64.size]; omega),
      UInt64.toNat_ofNat_of_lt' (by simp only [UInt64.size]; omega)]
  have hlt : i / st.maxInstrumentationKeys.toNat < 2 ^ 63 :=
    lt_of_le_of_lt (Nat.div_le_self ..) (by omega)
  rw [serializeAnnotationId]
  rw [if_neg fun h0 => by rw [h0] at hpos; exact absurd hpos (Nat.lt_irrefl 0), hdiv,
    GameSdk.serializeAnnotationId, serializeAnnotationLoop_eq
      (setUpAnnotationRadixes_bounds (by omega)) 0 hlt]
  exact Checked.safe_ok _

/-- No bytes at all decode to the id 0. -/
theorem decodeAnnotationSerialization_nil (s : TuningForkImpl) :
    s.decodeAnnotationSerialization [] = 0 := by
  rw [decodeAnnotationSerialization, GameSdk.decodeAnnotationSerialization, decodeAnnotationLoop,
    dif_neg (by simp), UInt64.zero_mul]

/-- The settings of the prongs, after `InitHistogramSettings`. -/
abbrev histogramSettings (st : Settings) : List TFHistogram :=
  st.histograms ++ List.replicate
    (0 + st.maxInstrumentationKeys.toNat - st.histograms.length) defaultHistogram

theorem histogramSettings_length (st : Settings) :
    st.maxInstrumentationKeys.toNat ≤ (histogramSettings st).length := by
  rw [List.length_append, List.length_replicate]
  omega

theorem ok_histogramSettings {st : Settings} (h : st.Ok) :
    ∀ hs ∈ (histogramSettings st).take st.maxInstrumentationKeys.toNat, hs.Ok := by
  intro hs hmem
  rw [List.take_append, List.mem_append] at hmem
  rcases hmem with hmem | hmem
  · exact h.histograms hs hmem
  · rw [List.eq_of_mem_replicate (List.mem_of_mem_take hmem)]
    exact ok_defaultHistogram

/-- **The constructor is safe for usable settings and establishes the invariant.** -/
theorem new_spec {st : Settings} (h : st.Ok) (info : ExtraUploadInfo) (now : TimePoint) :
    Checked.Safe Bad (new st info now) ∧
      ∀ s, new st info now = .ok s → s.Inv := by
  obtain ⟨keys, hinit, hkeys, hlen⟩ := initHistogramSettings_spec
    (n := st.maxInstrumentationKeys.toNat) (i := 0) (Nat.zero_le st.histograms.length)
    (InstrumentKeys.wf_replicate _)
  rw [List.length_replicate] at hlen
  have hsize := h.size_lt
  have hmaxKeys : st.maxInstrumentationKeys.toNat ≤
      st.maxInstrumentationKeys.toNat * (radices st.annotationEnumSize).prod :=
    Nat.le_mul_of_pos_right _ (prod_radices_pos _)
  have hser : 0 < st.maxInstrumentationKeys.toNat →
      ∀ i < maxNumProngs st.maxInstrumentationKeys (setUpAnnotationRadixes st.annotationEnumSize),
        Checked.Safe Bad (serializeAnnotationId st.maxInstrumentationKeys
          (setUpAnnotationRadixes st.annotationEnumSize) (UInt64.ofNat i)) := by
    intro hpos i hi
    rw [maxNumProngs_eq hsize] at hi
    exact safe_serializeAnnotationId h hpos (by omega)
  have hprong := ProngCache.new_spec (maxNumProngs_eq hsize) (by omega)
    (histogramSettings_length st) (ok_histogramSettings h) hser
  rw [new, hinit, Checked.ok_bind]
  simp only [Checked.safe_bind]
  refine ⟨⟨hprong.1, fun _ _ => Checked.safe_ok _⟩, fun s hs => ?_⟩
  obtain ⟨cache, hcache, hs⟩ := Checked.bind_eq_ok.mp hs
  cases hs
  refine ⟨h.size_lt, rfl, ?_, fun _ => hprong.2 cache hcache, hkeys, hlen, ?_⟩
  · rw [List.length_replicate, maxNumProngs_eq hsize]
  · simp only [decodeAnnotationSerialization_nil]
    rfl

/-! ## One step

The condition on a call: a trace starts under an annotation id that is in range, and a flush without
instrument keys comes too early to go through.
-/

variable {sqrt : ℚ → ℚ} {s s' : TuningForkImpl}

theorem Inv.current (hinv : s.Inv) : s.current.Ok s.settings.maxInstrumentationKeys
    (radices s.settings.annotationEnumSize).prod := hinv.caches s.currentProngCache

theorem Inv.prong (hinv : s.Inv) {i : ℕ} {p : Prong} (hp : s.current.prongs[i]? = some p) : p.Ok :=
  hinv.current.prongs p (List.mem_of_getElem? hp)

theorem inv_putProng (hinv : s.Inv) {p : Prong} (hp : p.Ok) (id : UInt64) (ds : List Sample) :
    (s.putProng id p ds).Inv :=
  ⟨hinv.size_lt, hinv.radixMult_eq, hinv.length_liveTraces,
    forall_update hinv.caches (ProngCache.ok_put hinv.current hp id), hinv.keys, hinv.length_ikeys,
    hinv.annotationId⟩

theorem inv_change (hinv : s.Inv) (h : Change sqrt s s') : s'.Inv := by
  cases h with
  | quiet hquiet =>
    cases hquiet with
    | keys hkeys =>
      obtain ⟨hwf, hext, -⟩ := InstrumentKeys.getOrCreate_eq_ok hinv.keys hkeys
      exact ⟨hinv.size_lt, hinv.radixMult_eq, hinv.length_liveTraces, hinv.caches, hwf,
        hext.length_eq.trans hinv.length_ikeys, hinv.annotationId⟩
    | trace hp htrace => exact inv_putProng hinv (Prong.ok_trace (hinv.prong hp) htrace) _ _
    | liveTraces h t =>
      exact ⟨hinv.size_lt, hinv.radixMult_eq, (List.length_set ..).trans hinv.length_liveTraces,
        hinv.caches, hinv.keys, hinv.length_ikeys, hinv.annotationId⟩
  | tick hp htick => exact inv_putProng hinv (Prong.ok_tick (hinv.prong hp) htick) _ _
  | annotate ann =>
    rw [annotated_eq]
    exact ⟨hinv.size_lt, hinv.radixMult_eq, hinv.length_liveTraces, hinv.caches, hinv.keys,
      hinv.length_ikeys, rfl⟩

theorem inv_step {e : Event} (hinv : s.Inv) (h : s.step sqrt e = .ok s') : s'.Inv := by
  refine step_preserves (fun s s' => inv_change) (fun s s' hinv h => ?_) (fun s t hinv _ => ?_)
    (fun s t hinv _ => ?_) (fun s v hinv => ?_) hinv h
  · obtain ⟨cache, hcache, rfl⟩ := prepareFlush_eq_ok h
    exact ⟨hinv.size_lt, hinv.radixMult_eq, hinv.length_liveTraces,
      forall_update hinv.caches (ProngCache.ok_setInstrumentKeys hinv.current hcache), hinv.keys,
      hinv.length_ikeys, hinv.annotationId⟩
  · exact ⟨hinv.size_lt, hinv.radixMult_eq, hinv.length_liveTraces,
      forall_update hinv.caches (ProngCache.ok_clear (hinv.caches _)), hinv.keys,
      hinv.length_ikeys, hinv.annotationId⟩
  · exact ⟨hinv.size_lt, hinv.radixMult_eq, hinv.length_liveTraces, hinv.caches, hinv.keys,
      hinv.length_ikeys, hinv.annotationId⟩
  · exact ⟨hinv.size_lt, hinv.radixMult_eq, hinv.length_liveTraces, hinv.caches, hinv.keys,
      hinv.length_ikeys, hinv.annotationId⟩

/-! ### The condition

A start of a trace writes to the live traces at a compound id, which is one of a prong only if the
annotation id is in range. The other calls look whether there is a prong.
-/

/-- The key is in the table or there is room for it. -/
def HasIndex (t : InstrumentKeys) (key : InstrumentationKey) : Prop :=
  (∃ i < t.nextIkey, t.ikeys[i]? = some key) ∨ t.nextIkey < t.ikeys.length

/-- Only such a key is given an index. -/
theorem hasIndex_of_getOrCreate {t t' : InstrumentKeys} (hwf : t.Wf) {key : InstrumentationKey}
    {i : ℕ} (h : t.getOrCreateInstrumentKeyIndex key = .ok (some i, t')) : HasIndex t key := by
  rcases InstrumentKeys.getOrCreate_cases hwf key with ⟨j, hj, hget, -⟩ | ⟨-, hlt, -⟩ | ⟨-, -, heq⟩
  · exact Or.inl ⟨j, hj, hget⟩
  · exact Or.inr hlt
  · rw [h] at heq
    cases heq

/-- The bytes set last decode to an id below the number of annotations, or were
refused: that takes a single key. -/
def AnnotationInRange (s : TuningForkImpl) : Prop :=
  let id := GameSdk.decodeAnnotationSerialization s.currentAnnotation s.annotationRadixMult
  id.toNat < (s.annotationRadixMult.getLastD 0).toNat ∨
    (s.settings.maxInstrumentationKeys = 1 ∧ id = kAnnotationError)

/-- The condition on a step. -/
def StepOk (s : TuningForkImpl) : Event → Prop
  | .call (.startTrace key _) => HasIndex s.keys key → s.AnnotationInRange
  | .call (.flush t) =>
    s.settings.maxInstrumentationKeys = 0 → t - s.lastSubmitTimeNs ≤ 60 * 1000000000
  | _ => True

instance decidableHasIndex (t : InstrumentKeys) (key : InstrumentationKey) :
    Decidable (HasIndex t key) :=
  inferInstanceAs (Decidable ((∃ i < t.nextIkey, t.ikeys[i]? = some key) ∨
    t.nextIkey < t.ikeys.length))

instance decidableAnnotationInRange (s : TuningForkImpl) : Decidable s.AnnotationInRange :=
  inferInstanceAs (Decidable (_ ∨ _))

instance decidableStepOk (s : TuningForkImpl) : (e : Event) → Decidable (s.StepOk e)
  | .call (.startTrace key _) => inferInstanceAs (Decidable (HasIndex s.keys key → _))
  | .call (.flush _) => inferInstanceAs (Decidable (_ = _ → _ ≤ _))
  | .call <| Call.setCurrentAnnotation _ | .call (.frameTick _ _)
  | .call (.frameDeltaTimeNanos _ _ _) | .call (.endTrace _ _) | .upload _ => .isTrue trivial

/-- A key gets an index below the number of keys. -/
theorem makeCompoundId_spec (hinv : s.Inv) (k : InstrumentationKey) (a : AnnotationId) :
    Checked.Safe Bad (s.makeCompoundId k a) ∧
      ∀ id s', s.makeCompoundId k a = .ok (some id, s') → HasIndex s.keys k ∧
        ∃ i < s.settings.maxInstrumentationKeys.toNat, id = UInt64.ofNat i + a ∧
          ∃ keys, s' = { s with keys } ∧ s'.Inv := by
  have hle := hinv.keys.nextIkey_le
  have hlen := hinv.length_ikeys
  constructor
  · rw [makeCompoundId, Checked.safe_bind]
    constructor
    · obtain ⟨r, keys, hkeys⟩ := InstrumentKeys.exists_getOrCreate hinv.keys k
      rw [hkeys]
      exact Checked.safe_ok _
    · rintro ⟨i, keys⟩ -
      cases i <;> exact Checked.safe_ok _
  · intro id s' h
    obtain ⟨i, keys, hkeys, rfl, hid⟩ := makeCompoundId_eq_ok h
    obtain ⟨i, rfl, rfl⟩ := Option.map_eq_some_iff.mp hid.symm
    have hchange : Change (fun x => x) s { s with keys } := .quiet (.keys hkeys)
    have hinv' := inv_change hinv hchange
    obtain ⟨hwf, hext, hget⟩ := InstrumentKeys.getOrCreate_eq_ok hinv.keys hkeys
    obtain ⟨hi, -⟩ := hget i rfl
    have hile := hwf.nextIkey_le
    have hilen := hext.length_eq
    exact ⟨hasIndex_of_getOrCreate hinv.keys hkeys, i, by omega, rfl, keys, rfl, hinv'⟩

/-! ### The parts of a call

Each part is safe where the invariant holds, and leaves what the next part needs.
-/

theorem safe_get (c : ProngCache) (id : UInt64) : Checked.Safe Bad (c.get id) := by
  rw [ProngCache.get]
  split
  · exact Checked.safe_ok _
  · rw [Checked.safe_bind]
    exact ⟨Checked.safe_read (by omega), fun _ _ => Checked.safe_ok _⟩

theorem safe_bind_get (hinv : s.Inv) {id : UInt64} {β : Type}
    {f : Option Prong → Except (Fault Vec) β} (hnone : Checked.Safe Bad (f none))
    (hsome : ∀ p, p.Ok → Checked.Safe Bad (f (some p))) :
    Checked.Safe Bad (s.current.get id >>= f) := by
  rw [Checked.safe_bind]
  refine ⟨safe_get _ _, fun p hp => ?_⟩
  have hget := get_eq_ok hp
  rcases p with _ | p
  · exact hnone
  · exact hsome p (hinv.prong hget)

theorem safe_tickNanos (hinv : s.Inv) (id : UInt64) (t : TimePoint) :
    Checked.Safe Bad (s.tickNanos sqrt id t) := by
  rw [tickNanos]
  refine safe_bind_get hinv (Checked.safe_ok _) fun p hp => ?_
  rw [Checked.safe_bind]
  exact ⟨Prong.safe_tick hp t _, fun _ _ => Checked.safe_ok _⟩

theorem safe_traceNanos (hinv : s.Inv) (id : UInt64) (dt : Duration) :
    Checked.Safe Bad (s.traceNanos sqrt id dt) := by
  rw [traceNanos]
  refine safe_bind_get hinv (Checked.safe_ok _) fun p hp => ?_
  rw [Checked.safe_bind]
  exact ⟨Prong.safe_trace hp dt _, fun _ _ => Checked.safe_ok _⟩

theorem maxKeys_lt (hinv : s.Inv) : s.settings.maxInstrumentationKeys.toNat < 2 ^ 31 :=
  lt_of_le_of_lt (Nat.le_mul_of_pos_right _ (prod_radices_pos _)) hinv.size_lt

theorem safe_flushAt (hinv : s.Inv) (hpos : 0 < s.settings.maxInstrumentationKeys.toNat)
    (tNs : TimePoint) : Checked.Safe Bad (s.flushAt tNs) := by
  rw [flushAt_eq, Checked.safe_bind]
  constructor
  · rw [prepareFlush, Checked.safe_bind]
    exact ⟨ProngCache.safe_setInstrumentKeys hinv.current hinv.size_lt hpos (maxKeys_lt hinv)
      hinv.length_ikeys, fun _ _ => Checked.safe_ok _⟩
  · intro s₁ _
    split <;> exact Checked.safe_ok _

/-! ### Compound ids

The index of a key is below the number of keys, and the annotation id is a multiple of it below the
size of a cache. So their sum is the position of a prong.
-/

/-- The id of an annotation in range, and the compound ids made with it. -/
theorem compoundId_lt (hinv : s.Inv) (hrange : s.AnnotationInRange) {i : ℕ}
    (hi : i < s.settings.maxInstrumentationKeys.toNat) :
    (UInt64.ofNat i + s.currentAnnotationId).toNat < s.liveTraces.length := by
  have hsize := hinv.size_lt
  have hmax := maxKeys_lt hinv
  have hprod := prod_radices_pos s.settings.annotationEnumSize
  rw [hinv.length_liveTraces]
  rcases hrange with hlt | ⟨hone, herr⟩
  · -- the id is `d * maxKeys`, without overflow
    have hprod_lt : (radices s.settings.annotationEnumSize).prod < 2 ^ 32 := by
      have := Nat.le_mul_of_pos_left (radices s.settings.annotationEnumSize).prod
        (Nat.zero_lt_of_lt hi)
      omega
    rw [hinv.radixMult_eq, getLastD_setUpAnnotationRadixes hprod_lt] at hlt
    have hid := hinv.annotationId
    rw [decodeAnnotationSerialization, hinv.radixMult_eq] at hid
    generalize GameSdk.decodeAnnotationSerialization s.currentAnnotation
      (setUpAnnotationRadixes s.settings.annotationEnumSize) = d at hlt hid
    have hmul : d.toNat * s.settings.maxInstrumentationKeys.toNat <
        s.settings.maxInstrumentationKeys.toNat * (radices s.settings.annotationEnumSize).prod := by
      rw [Nat.mul_comm]
      exact Nat.mul_lt_mul_of_pos_left hlt (Nat.zero_lt_of_lt hi)
    have hdk : (d * s.settings.maxInstrumentationKeys.toUInt64).toNat =
        d.toNat * s.settings.maxInstrumentationKeys.toNat := by
      rw [UInt64.toNat_mul, UInt32.toNat_toUInt64, Nat.mod_eq_of_lt (by omega)]
    have hne : d * s.settings.maxInstrumentationKeys.toUInt64 ≠ kAnnotationError := by
      intro h
      have := congrArg UInt64.toNat h
      rw [hdk] at this
      change _ = 2 ^ 64 - 1 at this
      omega
    rw [if_neg hne] at hid
    rw [hid, UInt64.toNat_add, UInt64.toNat_ofNat_of_lt' (by simp only [UInt64.size]; omega), hdk]
    have hstep : i + d.toNat * s.settings.maxInstrumentationKeys.toNat <
        s.settings.maxInstrumentationKeys.toNat * (radices s.settings.annotationEnumSize).prod := by
      calc i + d.toNat * s.settings.maxInstrumentationKeys.toNat <
            s.settings.maxInstrumentationKeys.toNat +
              d.toNat * s.settings.maxInstrumentationKeys.toNat := by omega
        _ = s.settings.maxInstrumentationKeys.toNat * (d.toNat + 1) := by ring
        _ ≤ _ := Nat.mul_le_mul_left _ hlt
    rw [Nat.mod_eq_of_lt (by omega)]
    exact hstep
  · -- the only key, under the empty annotation's id
    have hid := hinv.annotationId
    rw [decodeAnnotationSerialization, herr, hone,
      show (1 : UInt32).toUInt64 = 1 from rfl, UInt64.mul_one, if_pos rfl] at hid
    rw [hone] at hi ⊢
    obtain rfl : i = 0 := by
      change i < 1 at hi
      omega
    rw [hid]
    change 0 < 1 * _
    omega

/-- What follows on a compound id may rely on its key index. -/
theorem safe_bind_makeCompoundId (hinv : s.Inv) {k : InstrumentationKey} {a : AnnotationId}
    {β : Type} {f : Option UInt64 × TuningForkImpl → Except (Fault Vec) β}
    (hnone : ∀ s', Checked.Safe Bad (f (none, s')))
    (hsome : ∀ i < s.settings.maxInstrumentationKeys.toNat, ∀ keys, HasIndex s.keys k →
      TuningForkImpl.Inv { s with keys } →
        Checked.Safe Bad (f (some (UInt64.ofNat i + a), { s with keys }))) :
    Checked.Safe Bad (s.makeCompoundId k a >>= f) := by
  obtain ⟨hsafe, hspec⟩ := makeCompoundId_spec hinv k a
  rw [Checked.safe_bind]
  refine ⟨hsafe, ?_⟩
  rintro ⟨_ | id, s₁⟩ hid
  · exact hnone s₁
  · obtain ⟨hindex, i, hi, rfl, keys, rfl, hinv'⟩ := hspec id s₁ hid
    exact hsome i hi keys hindex hinv'

theorem safe_startTrace (hinv : s.Inv) {key : InstrumentationKey}
    (hok : HasIndex s.keys key → s.AnnotationInRange) (now : TimePoint) :
    Checked.Safe Bad (s.startTrace key now) := by
  rw [startTrace]
  refine safe_bind_makeCompoundId hinv (fun _ => Checked.safe_ok _) ?_
  intro i hi keys hindex _
  rw [Checked.safe_bind]
  exact ⟨Checked.safe_write (compoundId_lt hinv (hok hindex) hi), fun _ _ => Checked.safe_ok _⟩

theorem safe_endTrace (hinv : s.Inv) (h : TraceHandle) (now : TimePoint) :
    Checked.Safe Bad (s.endTrace sqrt h now) := by
  rw [endTrace]
  split
  · exact Checked.safe_ok _
  · have hlt : h.toNat < s.liveTraces.length := by omega
    rw [Checked.safe_bind]
    refine ⟨Checked.safe_read hlt, fun i _ => ?_⟩
    split
    · rw [Checked.safe_bind]
      refine ⟨safe_traceNanos hinv h _, fun r hr => ?_⟩
      rw [Checked.safe_bind]
      refine ⟨Checked.safe_write ?_, fun _ _ => Checked.safe_ok _⟩
      rcases traceNanos_eq_ok hr with ⟨-, -, heq⟩ | ⟨p, p', -, -, -, heq⟩ <;> rw [heq] <;> exact hlt
    · exact Checked.safe_ok _

theorem safe_frameTickBody (hinv : s.Inv) (key : InstrumentationKey) (t : TimePoint) :
    Checked.Safe Bad (s.frameTickBody sqrt key t) := by
  rw [frameTickBody]
  refine safe_bind_makeCompoundId hinv (fun _ => Checked.safe_ok _) ?_
  intro i _ keys _ hinv'
  rw [Checked.safe_bind]
  exact ⟨safe_tickNanos hinv' _ t, fun _ _ => Checked.safe_ok _⟩

theorem safe_frameDeltaTimeNanosBody (hinv : s.Inv) (key : InstrumentationKey) (dt : Duration)
    (now : TimePoint) : Checked.Safe Bad (s.frameDeltaTimeNanosBody sqrt key dt now) := by
  rw [frameDeltaTimeNanosBody]
  refine safe_bind_makeCompoundId hinv (fun _ => Checked.safe_ok _) ?_
  intro i _ keys _ hinv'
  rw [Checked.safe_bind]
  exact ⟨safe_traceNanos hinv' _ dt, fun _ _ => Checked.safe_ok _⟩

theorem safe_callBody (hinv : s.Inv) {c : Call} (hok : s.StepOk (.call c)) :
    Checked.Safe Bad (s.callBody sqrt c) := by
  cases c with
  | setCurrentAnnotation ann => exact Checked.safe_ok _
  | frameTick key t => exact Checked.safe_map.mpr (safe_frameTickBody hinv key t)
  | frameDeltaTimeNanos key dt now =>
    exact Checked.safe_map.mpr (safe_frameDeltaTimeNanosBody hinv key dt now)
  | startTrace key now => exact Checked.safe_map.mpr (safe_startTrace hinv hok now)
  | endTrace h now => exact Checked.safe_map.mpr (safe_endTrace hinv h now)
  | flush t => exact Checked.safe_ok _

/-- A call that flushes has been given a key index, or is `Flush` itself. -/
theorem callBody_due (hinv : s.Inv) {c : Call} {tNs : TimePoint}
    (h : s.callBody sqrt c = .ok (some tNs, s')) :
    0 < s.settings.maxInstrumentationKeys.toNat ∨ ∃ t, c = .flush t ∧ s.flushTime t = some tNs := by
  have hkey {k : InstrumentationKey} {id : UInt64} {s₁ : TuningForkImpl}
      (hid : s.makeCompoundId k s.currentAnnotationId = .ok (some id, s₁)) :
      0 < s.settings.maxInstrumentationKeys.toNat := by
    obtain ⟨-, i, hi, -⟩ := (makeCompoundId_spec hinv k s.currentAnnotationId).2 id s₁ hid
    exact Nat.zero_lt_of_lt hi
  cases c with
  | setCurrentAnnotation ann => cases h
  | frameTick key t | frameDeltaTimeNanos key dt now =>
    obtain ⟨⟨err, r⟩, hbody, rfl⟩ := Checked.map_eq_ok.mp h
    obtain ⟨⟨_ | id, s₁⟩, hid, hbody⟩ := Checked.bind_eq_ok.mp hbody
    · cases hbody
    · exact Or.inl (hkey hid)
  | startTrace key now | endTrace handle now =>
    obtain ⟨r, -, heq⟩ := Checked.map_eq_ok.mp h
    cases heq
  | flush t => exact Or.inr ⟨t, rfl, (Prod.mk.inj (Except.ok.inj h)).1⟩

theorem settings_of_callBody {c : Call} {due : Option TimePoint}
    (h : s.callBody sqrt c = .ok (due, s')) : s'.settings = s.settings :=
  callBody_preserves (P := fun t => t.settings = s.settings) (fun _ _ _ _ ht _ => ht)
    (fun _ _ _ _ ht => ht) (fun _ _ ht => ht) (fun _ _ _ ht => ht) rfl h

theorem safe_step (hinv : s.Inv) {e : Event} (hok : s.StepOk e) :
    Checked.Safe Bad (s.step sqrt e) := by
  cases e with
  | call c =>
    rw [step, call_eq, Checked.safe_bind]
    refine ⟨safe_callBody hinv hok, ?_⟩
    rintro ⟨_ | tNs, s₁⟩ hbody
    · exact Checked.safe_ok _
    · have hinv₁ : s₁.Inv := Runs.invariant_of_reachable (P := Inv)
        (fun _ _ h hc => inv_change h hc) hinv (callBody_changes hbody)
      have hsettings : s₁.settings = s.settings := settings_of_callBody hbody
      refine Checked.safe_map.mpr (safe_flushAt hinv₁ ?_ tNs)
      rw [hsettings]
      rcases callBody_due hinv hbody with hpos | ⟨t, rfl, ht⟩
      · exact hpos
      · -- `Flush` after more than a minute, so there are keys
        refine Nat.pos_of_ne_zero fun hzero => ?_
        have hle : t - s.lastSubmitTimeNs ≤ 60 * 1000000000 := hok (UInt32.toNat_inj.mp hzero)
        rw [flushTime, if_neg (not_lt.mpr hle)] at ht
        cases ht
  | upload v => exact Checked.safe_ok _

/-! ## Runs

By induction, from the constructor on.
-/

/-- What `StartTrace` hands out is an index of `live_traces_`. -/
def HandleOk (s : TuningForkImpl) (e : Event) (_ : TuningForkImpl) : Prop :=
  ∀ key now err h s', e = .call (.startTrace key now) →
    s.startTrace key now = .ok (err, some h, s') → h.toNat < s.liveTraces.length

theorem handleOk_step (s : TuningForkImpl) (e : Event) (s' : TuningForkImpl) :
    HandleOk s e s' := by
  rintro key now err h s₁ - hstart
  obtain ⟨⟨_ | id, s₂⟩, hid, hstart⟩ := Checked.bind_eq_ok.mp hstart
  · cases hstart
  · obtain ⟨i, keys, -, rfl, -⟩ := makeCompoundId_eq_ok hid
    obtain ⟨liveTraces, hlive, hstart⟩ := Checked.bind_eq_ok.mp hstart
    cases hstart
    exact (Checked.write_eq_ok hlive).1

/-- **From `Init` with usable settings, a run whose steps meet `StepOk` makes no access
out of range and no division by zero, and hands out only good handles.** -/
theorem run_safe (sqrt : ℚ → ℚ) {st : Settings} (hst : st.Ok) (info : ExtraUploadInfo)
    (now : TimePoint) :
    Checked.Safe Bad (new st info now) ∧
      ∀ s, new st info now = .ok s → ∀ es, Runs.ChecksOk (step sqrt) StepOk s es →
        Checked.Safe Bad (Runs.runChecked (step sqrt) s es) ∧
          Runs.EachStep (step sqrt) HandleOk s es := by
  obtain ⟨hsafe, hinit⟩ := new_spec hst info now
  refine ⟨hsafe, fun s hs es hok => ?_⟩
  have hinv := hinit s hs
  constructor
  · exact Runs.not_bad_of_checksOk (fun s e s' hinv h => inv_step hinv h)
      (fun s e f hinv hok => safe_step hinv hok f) hinv hok
  · exact Runs.eachStep_of_checksOk
      (fun s e s' hinv _ h => ⟨inv_step hinv h, handleOk_step s e s'⟩) hinv hok

/-- The calls of a short session, and a step of the upload thread. -/
def annotatedRun : List Event :=
  [.call <| Call.setCurrentAnnotation [8, 1], .call (.startTrace 7 5), .call (.endTrace 2 16000005),
    .call (.frameTick 7 17000000), .call (.flush 61000000000), .upload 0x30002]

theorem ok_twoKeys : twoKeys.Ok := ⟨by decide, fun hs hmem => (nomatch hmem)⟩

theorem ok_twoKeysOneValue : twoKeysOneValue.Ok := ⟨by decide, fun hs hmem => (nomatch hmem)⟩

/-- An annotation, a trace from its start to its end, a tick, a flush and its upload. The trace
is started under the annotation, so its handle is 2, and its sample is in prong 2 when the cache
is uploaded. -/
theorem run_safe_annotated :
    ∃ s s', new twoKeysOneValue noExtraInfo 0 = .ok s ∧
      Runs.runChecked (step fun x => x) s annotatedRun = .ok s' ∧
      s'.added = [(2, ⟨16, 0⟩)] ∧ s'.uploadThread.processed.length = 1 ∧
      Runs.ChecksOk (step fun x => x) StepOk s annotatedRun ∧
      Checked.Safe Bad (Runs.runChecked (step fun x => x) s annotatedRun) ∧
      Runs.EachStep (step fun x => x) HandleOk s annotatedRun := by
  have hok : (new twoKeysOneValue noExtraInfo 0 >>= fun s =>
      (Runs.runChecked (step fun x => x) s annotatedRun).map fun s' =>
        (s'.added, s'.uploadThread.processed.length,
          decide (Runs.ChecksOk (step fun x => x) StepOk s annotatedRun))) =
      .ok ([(2, ⟨16, 0⟩)], 1, true) := by
    decide +kernel
  obtain ⟨s, hs, hok⟩ := Checked.bind_eq_ok.mp hok
  obtain ⟨s', hs', heq⟩ := Checked.map_eq_ok.mp hok
  obtain ⟨hadded, hprocessed, hchecks⟩ : _ ∧ _ ∧ _ := by simpa only [Prod.mk.injEq] using heq
  have hchecks := of_decide_eq_true hchecks
  exact ⟨s, s', hs, hs', hadded, hprocessed, hchecks,
    (run_safe (fun x => x) ok_twoKeysOneValue noExtraInfo 0).2 s hs _ hchecks⟩

/-- Two keys, a byte that is no tag, a trace: the handle is `2 ^ 64 - 2`, and
`live_traces_` has two elements. -/
theorem run_unsafe_two_keys :
    twoKeys.Ok ∧
      (do
        let s ← new twoKeys noExtraInfo 0
        let s ← Runs.runChecked (step fun x => x) s
          [.call <| Call.setCurrentAnnotation [1], .call (.startTrace 7 5)]
        .ok s.liveTraces) = .error (.outOfRange .liveTraces 18446744073709551614 2) ∧
      Bad (.outOfRange .liveTraces 18446744073709551614 2) :=
  ⟨ok_twoKeys, by decide +kernel, Or.inl rfl⟩

end TuningForkImpl

end GameSdk
