import GameSdk.SampleAccounting
import GameSdk.TickTimes

/-!
# What the samples of a prong are for

Keys get their indices as they turn up, the prongs are laid out when the tuning fork is
made, and the keys are written to the prongs of the current cache just before it is
submitted. The runs here remember what each sample was recorded for: its key, and the
annotation id its prong was looked up with. In a submitted cache the key on a prong is
the key of its samples.

A trace belongs to the annotation that was set when it started. By the time it ends and
its sample is recorded, another one may be set.

The records are ghosts: an `Origin` for each sample, and one for each open trace. `Landed` says that
a sample is in the prong of its origin, and `Keyed` that the keys on a cache are those of the table.

* `Marked`: each sample in the caches has an origin with a given property, and lies where its origin
  says.
* `Landed`: the property is that of landing in the prong.
* `Inv`: between the writing of the keys and the submission, the keys on the cache are right too.
-/

namespace GameSdk

open MixedRadix

/-! ## Writing the keys

`SetInstrumentKeys` writes the same list of keys into each annotation's row of prongs.
-/

namespace ProngCache

/-- The first `n` prongs carry the keys for their indices. -/
def Keyed (keys : List InstrumentationKey) (n : ℕ) (prongs : List Prong) : Prop :=
  ∀ i < n, ∀ p, prongs[i]? = some p → keys[i % keys.length]? = some p.instrumentationKey

variable {keys : List InstrumentationKey} {n : ℕ} {ps ps' : List Prong}

/-- Writing the next key. -/
theorem keyed_modify (h : Keyed keys n ps) {k : InstrumentationKey}
    (hk : keys[n % keys.length]? = some k) :
    Keyed keys (n + 1) (ps.modify n (·.setInstrumentKey k)) := by
  intro i hi p hp
  rw [List.getElem?_modify] at hp
  obtain ⟨q, hq, rfl⟩ := Option.map_eq_some_iff.mp hp
  rcases Nat.lt_succ_iff_lt_or_eq.mp hi with hlt | rfl
  · rw [if_neg (Nat.ne_of_gt hlt)]
    exact h i hlt q hq
  · rw [if_pos rfl]
    exact hk

/-- The inner loop goes on from where the annotation before ended. -/
theorem keyed_setInstrumentKeysOf {j : ℕ} (hsize : (j + 1) * keys.length < 2 ^ 64)
    (hps : Keyed keys (j * keys.length) ps)
    (h : setInstrumentKeysOf keys.length keys ps j = .ok ps') :
    Keyed keys ((j + 1) * keys.length) ps' := by
  rw [Nat.succ_mul] at hsize ⊢
  refine Checked.foldlM_range_invariant (P := fun i ps => Keyed keys (j * keys.length + i) ps)
    (fun qs qs' i hi hqs hstep => ?_) hps h
  obtain ⟨k, hk, hstep⟩ := Checked.bind_eq_ok.mp hstep
  obtain ⟨-, rfl⟩ := Checked.modify_eq_ok hstep
  have hindex : sizeT (i + j * keys.length) = j * keys.length + i := by
    have := sizeT_of_lt (n := j * keys.length + i) (by omega)
    push_cast at this
    rwa [add_comm]
  rw [hindex]
  refine keyed_modify hqs ?_
  rw [Nat.mul_add_mod_of_lt hi]
  exact Checked.read_eq_ok_iff.mp hk

/-- `SetInstrumentKeys` writes a key to every prong of a cache laid out for the keys. -/
theorem keyed_setInstrumentKeys {c c' : ProngCache}
    (hmax : c.maxNumInstrumentationKeys.toInt = keys.length)
    (hlen : c.prongs.length = keys.length * n) (hsize : keys.length * n < 2 ^ 31)
    (h : c.setInstrumentKeys keys = .ok c') : Keyed keys c'.prongs.length c'.prongs := by
  have hlen' := length_eq_of_withoutKeys (withoutKeys_setInstrumentKeys h).1
  have hlt := Int32.toInt_lt c.maxNumInstrumentationKeys
  have hsizeT : sizeT c.maxNumInstrumentationKeys.toInt = keys.length := by
    rw [hmax]
    exact sizeT_of_lt (by omega)
  rw [setInstrumentKeys, hsizeT, hlen] at h
  split at h
  · cases h
  · obtain ⟨prongs, hprongs, h⟩ := Checked.bind_eq_ok.mp h
    cases h
    have hpos : 0 < keys.length := Nat.pos_of_ne_zero (by assumption)
    rw [Nat.mul_div_cancel_left _ hpos, hmax] at hprongs
    rw [hlen', hlen, Nat.mul_comm]
    refine Checked.foldlM_range_invariant
      (P := fun j ps => Keyed keys (j * keys.length) ps) (fun qs qs' j hj hqs hstep => ?_)
      (fun i hi => ?_) hprongs
    · have hle : (j + 1) * keys.length ≤ n * keys.length := Nat.mul_le_mul_right _ hj
      rw [Nat.mul_comm n] at hle
      exact keyed_setInstrumentKeysOf (by omega) hqs hstep
    · rw [Nat.zero_mul] at hi
      exact absurd hi (Nat.not_lt_zero i)

/-- A cache for `k` keys and `n` annotations. -/
structure HasShape (k : UInt32) (n : ℕ) (c : ProngCache) : Prop where
  length_eq : c.prongs.length = k.toNat * n
  maxKeys_eq : c.maxNumInstrumentationKeys = k.toInt32

end ProngCache

/-! ## Runs that remember what samples are for

The calls, with the origin of what they record.
-/

/-! ### Origins

A sample is for a key and an annotation id. It lands in a prong if this is the one at the index of
the key, plus the id.
-/

/-- ghost: a key under an annotation id. -/
@[ext]
structure Origin where
  key : InstrumentationKey
  annotationId : AnnotationId
  deriving DecidableEq, Repr

/-- ghost: a sample that was added. -/
structure SampleRecord where
  sample : Sample
  origin : Origin
  /-- `current_annotation_id_` when it was added -/
  currentAnnotationId : AnnotationId
  deriving DecidableEq, Repr

namespace Origin

/-- The annotation id is a multiple of the number of keys, and there is room for the
key indices after it. A shifted annotation id that wraps around need not be one. -/
def Whole (k : ℕ) (o : Origin) : Prop :=
  k ∣ o.annotationId.toNat ∧ o.annotationId.toNat + k ≤ 2 ^ 64

/-- `i` is the compound id of the key and the annotation id. -/
def LandsIn (t : InstrumentKeys) (i : ℕ) (o : Origin) : Prop :=
  ∃ j, t.keyIndex o.key = some j ∧ (UInt64.ofNat j + o.annotationId).toNat = i

theorem LandsIn.extends {t t' : InstrumentKeys} (hwf : t.Wf) (hwf' : t'.Wf)
    (hext : InstrumentKeys.Extends t t') {i : ℕ} {o : Origin} (h : o.LandsIn t i) :
    o.LandsIn t' i := by
  obtain ⟨j, hj, hi⟩ := h
  exact ⟨j, hext.keyIndex hwf hwf' hj, hi⟩

/-- The prong number of a key under a multiple of the number of keys tells both. -/
theorem LandsIn.eq_of_whole {t : InstrumentKeys} (hwf : t.Wf) {i : ℕ} {o : Origin}
    (h : o.LandsIn t i) (hwhole : o.Whole t.ikeys.length) :
    t.keyIndex o.key = some (i % t.ikeys.length) ∧
      o.annotationId.toNat = i / t.ikeys.length * t.ikeys.length := by
  obtain ⟨j, hj, hi⟩ := h
  obtain ⟨⟨m, hm⟩, hroom⟩ := hwhole
  have hjlt := ((InstrumentKeys.keyIndex_eq_some_iff hwf).mp hj).1
  have hlt : j < t.ikeys.length := Nat.lt_of_lt_of_le hjlt hwf.nextIkey_le
  rw [UInt64.toNat_add, UInt64.toNat_ofNat_of_lt' (by simp only [UInt64.size]; omega),
    Nat.mod_eq_of_lt (by omega), hm] at hi
  subst hi
  rw [Nat.add_mul_mod_self_left, Nat.mod_eq_of_lt hlt,
    Nat.add_mul_div_left _ _ (Nat.zero_lt_of_lt hlt), Nat.div_eq_of_lt hlt, Nat.zero_add, hm,
    Nat.mul_comm]
  exact ⟨hj, rfl⟩

/-- So different ones have different prongs. -/
theorem LandsIn.inj {t : InstrumentKeys} (hwf : t.Wf) {i : ℕ} {o o' : Origin}
    (h : o.LandsIn t i) (hwhole : o.Whole t.ikeys.length) (h' : o'.LandsIn t i)
    (hwhole' : o'.Whole t.ikeys.length) : o = o' := by
  obtain ⟨hindex, hid⟩ := h.eq_of_whole hwf hwhole
  obtain ⟨hindex', hid'⟩ := h'.eq_of_whole hwf hwhole'
  have hkey := InstrumentKeys.keyIndex_inj hwf hindex hindex'
  have hann : o.annotationId = o'.annotationId := UInt64.toNat_inj.mp (hid.trans hid'.symm)
  exact Origin.ext hkey hann

end Origin

/-! ### The runs

A step of the two threads, with the record that it makes. For the end of a trace the origin is that
of its start.
-/

/-- A state of the two threads, with what the samples and the traces are for. -/
structure Recorded where
  system : System
  /-- of the samples added, in their order -/
  records : List SampleRecord
  /-- of the last trace started with a handle -/
  traces : TraceHandle → Option Origin

namespace Recorded

/-- Nothing is recorded and no trace is open. -/
def start (s : TuningForkImpl) : Recorded := ⟨⟨s, .between⟩, [], fun _ => none⟩

variable (τ : Recorded)

/-- A key under the annotation that is set now. -/
def now (key : InstrumentationKey) : Origin := ⟨key, τ.system.impl.currentAnnotationId⟩

/-- What a call adds samples for. -/
def origin : Call → Option Origin
  | .frameTick key _ => some (τ.now key)
  | .frameDeltaTimeNanos key _ _ => some (τ.now key)
  | .endTrace h _ => τ.traces h
  | _ => none

/-- The records after a call that leaves the state `s'`. -/
def record (c : Call) (s' : TuningForkImpl) : List SampleRecord :=
  match τ.origin c with
  | none => τ.records
  | some o => τ.records ++ (s'.added.drop τ.system.impl.added.length).map fun a =>
      ⟨a.2, o, τ.system.impl.currentAnnotationId⟩

/-- The traces after a call. -/
def trace : Call → TraceHandle → Option Origin
  | .startTrace key now =>
    match τ.system.impl.startTrace key now with
    | .ok (_, some handle, _) => Function.update τ.traces handle (some (τ.now key))
    | _ => τ.traces
  | _ => τ.traces

/-- After the body of a call. -/
def after (c : Call) (due : Option TimePoint) (s' : TuningForkImpl) : Recorded :=
  ⟨⟨s', Phase.ofDue due⟩, τ.record c s', τ.trace c⟩

/-- The steps of the two threads: a call, a part of a flush, or the upload. -/
inductive Step (sqrt : ℚ → ℚ) (τ : Recorded) : Recorded → Prop
  | call {c due s'} (hphase : τ.system.phase = .between)
      (h : τ.system.impl.callBody sqrt c = .ok (due, s')) : Step sqrt τ (τ.after c due s')
  | flush {σ'} (hphase : τ.system.phase ≠ .between) (h : System.Step sqrt τ.system σ') :
      Step sqrt τ { τ with system := σ' }
  | upload (glEsVersion : UInt32) : Step sqrt τ { τ with
      system := ⟨τ.system.impl.upload glEsVersion, τ.system.phase⟩ }

variable {τ} {sqrt : ℚ → ℚ} {τ' : Recorded}

/-- These are the steps of the two threads, with something to remember. -/
theorem Step.system (h : Step sqrt τ τ') : System.Step sqrt τ.system τ'.system := by
  cases h with
  | call hphase hbody =>
    obtain ⟨⟨s, phase⟩, records, traces⟩ := τ
    obtain rfl : phase = .between := hphase
    exact .body hbody
  | flush _ hstep => exact hstep
  | upload v => exact .upload v

theorem exists_step {σ' : System} (h : System.Step sqrt τ.system σ') :
    ∃ τ', Step sqrt τ τ' ∧ τ'.system = σ' := by
  by_cases hphase : τ.system.phase = .between
  · obtain ⟨⟨s, phase⟩, records, traces⟩ := τ
    obtain rfl : phase = .between := hphase
    cases h with
    | body hbody => exact ⟨_, .call rfl hbody, rfl⟩
    | upload v => exact ⟨_, .upload v, rfl⟩
  · exact ⟨_, .flush hphase h, rfl⟩

/-- Every run of the two threads is one of these. -/
theorem exists_run {s : TuningForkImpl} {σ : System}
    (h : Relation.ReflTransGen (System.Step sqrt) ⟨s, .between⟩ σ) :
    ∃ τ, Relation.ReflTransGen (Step sqrt) (start s) τ ∧ τ.system = σ := by
  induction h with
  | refl => exact ⟨start s, .refl, rfl⟩
  | tail _ hstep ih =>
    obtain ⟨τ, hτ, rfl⟩ := ih
    obtain ⟨τ', hτ', rfl⟩ := exists_step hstep
    exact ⟨τ', hτ.tail hτ', rfl⟩

/-- If the call added the samples `ds`, these are recorded. -/
theorem record_of_added {c : Call} {s' : TuningForkImpl} {o : Origin} {i : ℕ} {ds : List Sample}
    (ho : τ.origin c = some o)
    (hadded : s'.added = τ.system.impl.added ++ ds.map fun d => (i, d)) :
    τ.record c s' = τ.records ++ ds.map fun d => ⟨d, o, τ.system.impl.currentAnnotationId⟩ := by
  rw [record, ho, hadded]
  simp

theorem record_of_eq {c : Call} {s' : TuningForkImpl} (hadded : s'.added = τ.system.impl.added) :
    τ.record c s' = τ.records := by
  rw [record, hadded]
  rcases τ.origin c with _ | o <;> simp

end Recorded

/-! ## The invariant

It is kept by calls and by each part of a flush. Between the writing of the keys and the submission
the cache is `Keyed`.
-/

/-- A property of a key under an annotation that new keys do not change. -/
abbrev Origin.Property : Type := InstrumentKeys → Origin → Prop

/-- A property of origins that a key table keeps when it is extended. -/
def Origin.Property.Stable (Q : Origin.Property) : Prop :=
  ∀ {t t' : InstrumentKeys} {o : Origin}, t.Wf → t'.Wf → InstrumentKeys.Extends t t' →
    (∃ j, t.keyIndex o.key = some j) → Q t o → Q t' o

/-! ### Samples with an origin

This is said for any property of origins that a growing key table keeps, since two of them are
needed: to land in the prong, and to have suitable settings.
-/

/-- How a state goes with what is remembered: the origin of a sample leads to its prong, and
has the property. -/
structure Marked (Q : Origin.Property) (s : TuningForkImpl) (records : List SampleRecord)
    (traces : TraceHandle → Option Origin) : Prop where
  keys : s.keys.Wf
  samples : List.Forall₂
    (fun a r => r.sample = a.2 ∧ r.origin.LandsIn s.keys a.1 ∧ Q s.keys r.origin) s.added records
  /-- the handle of a live trace is the number of its prong -/
  liveTraces : ∀ (h : TraceHandle) t, s.liveTraces[h.toNat]? = some t → t ≠ TimePoint.min →
    ∃ o, traces h = some o ∧ o.LandsIn s.keys h.toNat ∧ Q s.keys o

namespace Marked

variable {Q : Origin.Property} {s s' : TuningForkImpl} {records : List SampleRecord}
  {traces : TraceHandle → Option Origin} {sqrt : ℚ → ℚ}

/-- A new key leaves the others where they are. -/
theorem setKeys (hQ : Q.Stable) (h : Marked Q s records traces) {key : InstrumentationKey}
    {r : Option ℕ} {keys : InstrumentKeys}
    (hkeys : s.keys.getOrCreateInstrumentKeyIndex key = .ok (r, keys)) :
    Marked Q { s with keys } records traces := by
  obtain ⟨hwf, hext, -⟩ := InstrumentKeys.getOrCreate_eq_ok h.keys hkeys
  have hstays {i : ℕ} {o : Origin} (hlands : o.LandsIn s.keys i) (ho : Q s.keys o) :
      o.LandsIn keys i ∧ Q keys o :=
    ⟨hlands.extends h.keys hwf hext, hQ h.keys hwf hext (hlands.imp fun _ hj => hj.1) ho⟩
  refine ⟨hwf, ?_, fun id t ht hmin => ?_⟩
  · exact h.samples.imp fun a r hr => ⟨hr.1, hstays hr.2.1 hr.2.2⟩
  · obtain ⟨o, ho, hlands, hoQ⟩ := h.liveTraces id t ht hmin
    exact ⟨o, ho, hstays hlands hoQ⟩

/-- Samples are given to the prong their origin leads to. -/
theorem putProng (h : Marked Q s records traces) {id : UInt64} {o : Origin}
    (ho : o.LandsIn s.keys id.toNat) (hoQ : Q s.keys o) (p : Prong) (ds : List Sample)
    (current : AnnotationId) :
    Marked Q (s.putProng id p ds) (records ++ ds.map fun d => ⟨d, o, current⟩) traces := by
  refine ⟨h.keys, ?_, h.liveTraces⟩
  refine List.rel_append h.samples ?_
  rw [List.forall₂_map_left_iff, List.forall₂_map_right_iff, List.forall₂_same]
  exact fun d _ => ⟨rfl, ho, hoQ⟩

/-- Setting the time of a trace. -/
theorem setLiveTraces (h : Marked Q s records traces) {id : TraceHandle} {t : TimePoint}
    {traces' : TraceHandle → Option Origin} (hother : ∀ id', id' ≠ id → traces' id' = traces id')
    (hid : t ≠ TimePoint.min →
      ∃ o, traces' id = some o ∧ o.LandsIn s.keys id.toNat ∧ Q s.keys o) :
    Marked Q { s with liveTraces := s.liveTraces.set id.toNat t } records traces' := by
  refine ⟨h.keys, h.samples, fun id' t' ht' hmin => ?_⟩
  simp only [List.getElem?_set] at ht'
  by_cases heq : id' = id
  · subst heq
    rw [if_pos rfl] at ht'
    obtain ⟨-, ht'⟩ := Option.ite_none_right_eq_some.mp ht'
    exact hid (Option.some.inj ht' ▸ hmin)
  · rw [if_neg fun hnat => heq (UInt64.toNat_inj.mp hnat).symm] at ht'
    rw [hother id' heq]
    exact h.liveTraces id' t' ht' hmin

/-- The keys are not read by what stays the same here. -/
theorem frame (h : Marked Q s records traces) (hkeys : s'.keys = s.keys)
    (hadded : s'.added = s.added) (hlive : s'.liveTraces = s.liveTraces) :
    Marked Q s' records traces := by
  refine ⟨hkeys ▸ h.keys, ?_, ?_⟩
  · rw [hadded, hkeys]
    exact h.samples
  · rw [hlive, hkeys]
    exact h.liveTraces

/-- The samples of a tick or a frame time are for the key under the annotation set. -/
theorem now {τ : Recorded} (h : Marked Q τ.system.impl τ.records τ.traces)
    {key : InstrumentationKey} {r : Option ℕ} {keys : InstrumentKeys}
    (hkeys : τ.system.impl.keys.getOrCreateInstrumentKeyIndex key = .ok (r, keys)) {i : ℕ}
    (hi : r = some i) : (τ.now key).LandsIn keys
      (UInt64.ofNat i + τ.system.impl.currentAnnotationId).toNat := by
  subst hi
  exact ⟨i, (InstrumentKeys.keyIndex_getOrCreate h.keys hkeys).1, rfl⟩

theorem unrecorded {τ : Recorded} {c : Call} (h : Marked Q s' τ.records traces)
    (hadded : s'.added = τ.system.impl.added) : Marked Q s' (τ.record c s') traces := by
  rw [Recorded.record_of_eq hadded]
  exact h

theorem recorded {τ : Recorded} {c : Call} {o : Origin} {i : ℕ} {ds : List Sample}
    (h : Marked Q s' (τ.records ++ ds.map fun d => ⟨d, o, τ.system.impl.currentAnnotationId⟩)
      traces)
    (ho : τ.origin c = some o)
    (hadded : s'.added = τ.system.impl.added ++ ds.map fun d => (i, d)) :
    Marked Q s' (τ.record c s') traces := by
  rw [Recorded.record_of_added ho hadded]
  exact h

end Marked

/-- The key that a call gives an index to, if it has none. -/
def Call.key : Call → Option InstrumentationKey
  | .frameTick key _ => some key
  | .frameDeltaTimeNanos key _ _ => some key
  | .startTrace key _ => some key
  | _ => none

namespace Marked

variable {Q : Origin.Property} {s' : TuningForkImpl} {sqrt : ℚ → ℚ}

/-- A call with its records, if what it starts or records has the property. -/
theorem call (hQ : Q.Stable) {τ : Recorded} (h : Marked Q τ.system.impl τ.records τ.traces)
    {c : Call} {due : Option TimePoint}
    (hnow : ∀ key i keys, c.key = some key →
      τ.system.impl.keys.getOrCreateInstrumentKeyIndex key = .ok (some i, keys) →
        Q keys (τ.now key))
    (hbody : τ.system.impl.callBody sqrt c = .ok (due, s')) :
    Marked Q s' (τ.record c s') (τ.trace c) := by
  cases c with
  | setCurrentAnnotation ann =>
    cases hbody
    rw [TuningForkImpl.annotated_eq]
    exact h.frame rfl rfl rfl
  | frameTick key t =>
    obtain ⟨⟨err, r⟩, htick, rfl⟩ := Checked.map_eq_ok.mp hbody
    obtain ⟨r, keys, hkeys, ⟨rfl, -⟩ | ⟨i, p, p', hi, -, -, rfl⟩⟩ :=
      TuningForkImpl.frameTickBody_eq_ok htick
    · exact (h.setKeys hQ hkeys).unrecorded rfl
    · have hkey := hnow key i keys rfl (hi ▸ hkeys)
      exact ((h.setKeys hQ hkeys).putProng (h.now hkeys hi) hkey _ _ _).recorded rfl rfl
  | frameDeltaTimeNanos key dt now =>
    obtain ⟨⟨err, r⟩, hdelta, rfl⟩ := Checked.map_eq_ok.mp hbody
    obtain ⟨r, keys, hkeys, ⟨rfl, -⟩ | ⟨i, p, p', hi, -, -, rfl⟩⟩ :=
      TuningForkImpl.frameDeltaTimeNanosBody_eq_ok hdelta
    · exact (h.setKeys hQ hkeys).unrecorded rfl
    · have hkey := hnow key i keys rfl (hi ▸ hkeys)
      exact ((h.setKeys hQ hkeys).putProng (h.now hkeys hi) hkey _ _ _).recorded rfl rfl
  | startTrace key now =>
    obtain ⟨⟨err, handle, s₁⟩, hstart, heq⟩ := Checked.map_eq_ok.mp hbody
    obtain ⟨-, rfl⟩ := Prod.mk.inj heq
    simp only [Recorded.trace, hstart]
    obtain ⟨r, keys, hkeys, hhandle, ⟨rfl, rfl⟩ | ⟨id, rfl, rfl⟩⟩ :=
      TuningForkImpl.startTrace_eq_ok hstart
    · exact (h.setKeys hQ hkeys).unrecorded rfl
    · obtain ⟨i, hi, rfl⟩ := Option.map_eq_some_iff.mp hhandle.symm
      have hkey := hnow key i keys rfl (hi ▸ hkeys)
      refine unrecorded ((h.setKeys hQ hkeys).setLiveTraces (fun id' hne => ?_) fun _ => ?_) rfl
      · exact Function.update_of_ne hne ..
      · exact ⟨_, Function.update_self .., h.now hkeys hi, hkey⟩
  | endTrace handle now =>
    obtain ⟨⟨err, s₁⟩, hend, heq⟩ := Checked.map_eq_ok.mp hbody
    obtain ⟨-, rfl⟩ := Prod.mk.inj heq
    rcases TuningForkImpl.endTrace_eq_ok hend with
      ⟨rfl, -⟩ | ⟨t, s₁, ht, hmin, rfl, ⟨rfl, -⟩ | ⟨p, p', -, -, rfl⟩⟩
    · exact h.unrecorded rfl
    · refine unrecorded (h.setLiveTraces (fun _ _ => rfl) fun hne => ?_) rfl
      exact absurd rfl hne
    · obtain ⟨o, ho, hlands, hoQ⟩ := h.liveTraces handle t ht hmin
      refine recorded ((h.putProng hlands hoQ _ _ _).setLiveTraces (fun _ _ => rfl)
        fun hne => ?_) ho rfl
      exact absurd rfl hne
  | flush t =>
    cases hbody
    exact h.unrecorded rfl

variable {s : TuningForkImpl} {records : List SampleRecord}
  {traces : TraceHandle → Option Origin}

/-- The record of a sample leads to the prong of the sample. -/
theorem landsIn (h : Marked Q s records traces)
    (hserials : s.added.map (fun a => a.2.serial) = List.range s.added.length) {i : ℕ} {d : Sample}
    (hd : (i, d) ∈ s.added) :
    (∃ r ∈ records, r.sample = d) ∧
      ∀ r ∈ records, r.sample = d → r.origin.LandsIn s.keys i ∧ Q s.keys r.origin := by
  obtain ⟨hlen, hget⟩ := List.forall₂_iff_get.mp h.samples
  obtain ⟨j, hj, heq⟩ := List.mem_iff_getElem.mp hd
  have hserial := TuningForkImpl.serial_getElem hserials hj
  rw [heq] at hserial
  refine ⟨⟨records[j], List.getElem_mem _, ?_⟩, fun r hr hsample => ?_⟩
  · have hsame := (hget j hj (hlen ▸ hj)).1
    simp only [List.get_eq_getElem, heq] at hsame
    exact hsame
  · -- samples differ by their serial numbers, so it is the record at the same place
    obtain ⟨m, hm, rfl⟩ := List.mem_iff_getElem.mp hr
    obtain ⟨hrecord, hlands⟩ := hget m (hlen ▸ hm) hm
    simp only [List.get_eq_getElem] at hrecord hlands
    have hserial' := TuningForkImpl.serial_getElem hserials (j := m) (hlen ▸ hm)
    rw [← hrecord, hsample, hserial] at hserial'
    subst hserial'
    rw [heq] at hlands
    exact hlands

theorem start {st : Settings} {info : ExtraUploadInfo} {now : TimePoint}
    (hnew : TuningForkImpl.new st info now = .ok s) : Marked Q s [] fun _ => none := by
  have hkeys := (Traced.inv_start hnew).tick.keys
  obtain ⟨histograms, keys, ps, -, hps, rfl⟩ := TuningForkImpl.new_eq_ok hnew
  refine ⟨hkeys, .nil, fun h t ht hmin => ?_⟩
  exact absurd (List.eq_of_mem_replicate (List.mem_of_getElem? ht)) hmin

end Marked

/-! ### Samples in their prong

The first of the two properties.
-/

/-- How a state with caches of one shape goes with what is remembered. -/
structure Landed (k : UInt32) (n : ℕ) (s : TuningForkImpl) (records : List SampleRecord)
    (traces : TraceHandle → Option Origin) : Prop where
  keys : s.keys.Wf
  length_ikeys : s.keys.ikeys.length = k.toNat
  shape : ∀ c, (s.prongCaches c).HasShape k n
  samples : List.Forall₂ (fun a r => r.sample = a.2 ∧ r.origin.LandsIn s.keys a.1) s.added records
  /-- the handle of a live trace is the number of its prong -/
  liveTraces : ∀ (h : TraceHandle) t, s.liveTraces[h.toNat]? = some t → t ≠ TimePoint.min →
    ∃ o, traces h = some o ∧ o.LandsIn s.keys h.toNat

namespace Landed

variable {k : UInt32} {n : ℕ} {s s' : TuningForkImpl} {records : List SampleRecord}
  {traces : TraceHandle → Option Origin} {sqrt : ℚ → ℚ}

theorem marked (h : Landed k n s records traces) :
    Marked (fun _ _ => True) s records traces where
  keys := h.keys
  samples := h.samples.imp fun _ _ hr => ⟨hr.1, hr.2, trivial⟩
  liveTraces id t ht hmin :=
    (h.liveTraces id t ht hmin).imp fun _ ho => ⟨ho.1, ho.2, trivial⟩

theorem of_marked (h : Marked (fun _ _ => True) s records traces)
    (hlen : s.keys.ikeys.length = k.toNat) (hshape : ∀ c, (s.prongCaches c).HasShape k n) :
    Landed k n s records traces where
  keys := h.keys
  length_ikeys := hlen
  shape := hshape
  samples := h.samples.imp fun _ _ hr => ⟨hr.1, hr.2.1⟩
  liveTraces id t ht hmin := (h.liveTraces id t ht hmin).imp fun _ ho => ⟨ho.1, ho.2.1⟩

theorem frame (h : Landed k n s records traces) (hkeys : s'.keys = s.keys)
    (hadded : s'.added = s.added) (hlive : s'.liveTraces = s.liveTraces)
    (hshape : ∀ c, (s'.prongCaches c).HasShape k n) : Landed k n s' records traces :=
  of_marked (h.marked.frame hkeys hadded hlive) (hkeys ▸ h.length_ikeys) hshape

/-- A call leaves the sizes of the tables. -/
theorem shape_of_callBody (h : Landed k n s records traces) {c : Call} {due : Option TimePoint}
    (hbody : s.callBody sqrt c = .ok (due, s')) :
    s'.keys.ikeys.length = k.toNat ∧ ∀ c, (s'.prongCaches c).HasShape k n := by
  suffices hsizes : s'.keys.Wf ∧ s'.keys.ikeys.length = k.toNat ∧
      ∀ c, (s'.prongCaches c).HasShape k n from hsizes.2
  refine TuningForkImpl.callBody_preserves
    (P := fun t => t.keys.Wf ∧ t.keys.ikeys.length = k.toNat ∧
      ∀ c, (t.prongCaches c).HasShape k n) ?_ ?_ (fun _ _ ht => ht) (fun _ _ _ ht => ht)
    ⟨h.keys, h.length_ikeys, h.shape⟩ hbody
  · rintro t key r keys ⟨hwf, hlen, hshape⟩ hkeys
    obtain ⟨hwf', hext, -⟩ := InstrumentKeys.getOrCreate_eq_ok hwf hkeys
    exact ⟨hwf', hext.length_eq.trans hlen, hshape⟩
  · rintro t id p ds ⟨hwf, hlen, hshape⟩
    have hcurrent := hshape t.currentProngCache
    have hset : (t.current.put id p).HasShape k n :=
      ⟨(List.length_set ..).trans hcurrent.length_eq, hcurrent.maxKeys_eq⟩
    exact ⟨hwf, hlen, TuningForkImpl.forall_update hshape hset⟩

/-- A call with its records. -/
theorem call {τ : Recorded} (h : Landed k n τ.system.impl τ.records τ.traces) {c : Call}
    {due : Option TimePoint} (hbody : τ.system.impl.callBody sqrt c = .ok (due, s')) :
    Landed k n s' (τ.record c s') (τ.trace c) := by
  obtain ⟨hlen, hshape⟩ := h.shape_of_callBody hbody
  have hmarked := h.marked.call (fun _ _ _ _ _ => trivial) (fun _ _ _ _ _ => trivial) hbody
  exact of_marked hmarked hlen hshape

/-- The record of a sample leads to the prong of the sample. -/
theorem landsIn (h : Landed k n s records traces)
    (hserials : s.added.map (fun a => a.2.serial) = List.range s.added.length) {i : ℕ} {d : Sample}
    (hd : (i, d) ∈ s.added) :
    (∃ r ∈ records, r.sample = d) ∧
      ∀ r ∈ records, r.sample = d → r.origin.LandsIn s.keys i := by
  obtain ⟨hex, hall⟩ := h.marked.landsIn hserials hd
  exact ⟨hex, fun r hr hsample => (hall r hr hsample).1⟩

end Landed

namespace Recorded

variable {k : UInt32} {n : ℕ} {sqrt : ℚ → ℚ} {τ τ' : Recorded}

/-! ### Every run

The invariant of the two threads. The keys are written in one step and the cache is handed over in a
later one, with the upload thread in between.
-/

/-- With the keys on the prongs of a cache that is handed over. -/
structure Inv (k : UInt32) (n : ℕ) (τ : Recorded) : Prop where
  landed : Landed k n τ.system.impl τ.records τ.traces
  keyed : ∀ tNs, τ.system.phase = .submitting tNs → ProngCache.Keyed τ.system.impl.keys.ikeys
    τ.system.impl.current.prongs.length τ.system.impl.current.prongs

theorem inv_step (hk : k.toNat < 2 ^ 31) (hsize : k.toNat * n < 2 ^ 31) (hinv : τ.Inv k n)
    (h : Step sqrt τ τ') : τ'.Inv k n := by
  cases h with
  | @call c due s' hphase hbody =>
    refine ⟨hinv.landed.call hbody, fun tNs hsub => ?_⟩
    rcases due with _ | tNs <;> cases hsub
  | flush hphase hstep =>
    obtain ⟨σ, records, traces⟩ := τ
    have hlanded := hinv.landed
    cases hstep with
    | body => exact absurd rfl hphase
    | @prepare s _ tNs hprepare =>
      obtain ⟨cache, hcache, rfl⟩ := TuningForkImpl.prepareFlush_eq_ok hprepare
      have hcurrent := hlanded.shape s.currentProngCache
      obtain ⟨hprongs, hmax⟩ := ProngCache.withoutKeys_setInstrumentKeys hcache
      have hshape : cache.HasShape k n :=
        ⟨(ProngCache.length_eq_of_withoutKeys hprongs).trans hcurrent.length_eq,
          hmax.trans hcurrent.maxKeys_eq⟩
      refine ⟨hlanded.frame rfl rfl rfl
        (TuningForkImpl.forall_update hlanded.shape hshape), fun _ _ => ?_⟩
      simp only [TuningForkImpl.current, Function.update_self]
      refine ProngCache.keyed_setInstrumentKeys (n := n) ?_ ?_ ?_ hcache
      · rw [hlanded.length_ikeys]
        exact (congrArg Int32.toInt hcurrent.maxKeys_eq).trans (sizeT_toInt32 hk)
      · rw [hlanded.length_ikeys]
        exact hcurrent.length_eq
      · rw [hlanded.length_ikeys]
        exact hsize
    | pending => exact ⟨hlanded.frame rfl rfl rfl hlanded.shape, by simp⟩
    | check => exact ⟨hlanded, by simp⟩
    | setReady => exact ⟨hlanded.frame rfl rfl rfl hlanded.shape, by simp⟩
    | @swap s tNs =>
      have hother := hlanded.shape (!s.currentProngCache)
      refine ⟨hlanded.frame rfl rfl rfl (TuningForkImpl.forall_update hlanded.shape ⟨?_, ?_⟩),
        by simp⟩
      · exact (List.length_map ..).trans hother.length_eq
      · exact hother.maxKeys_eq
    | upload v => exact ⟨hlanded.frame rfl rfl rfl hlanded.shape, hinv.keyed⟩
  | upload v => exact ⟨hinv.landed.frame rfl rfl rfl hinv.landed.shape, hinv.keyed⟩

/-- At first there are no samples and no traces. -/
theorem inv_start {st : Settings} {info : ExtraUploadInfo} {now : TimePoint} {s : TuningForkImpl}
    (hsize : st.maxInstrumentationKeys.toNat * (radices st.annotationEnumSize).prod < 2 ^ 31)
    (hnew : TuningForkImpl.new st info now = .ok s) :
    (start s).Inv st.maxInstrumentationKeys (radices st.annotationEnumSize).prod := by
  have hlength := (Traced.inv_start hnew).tick.length_ikeys
  have hmarked := Marked.start (Q := fun _ _ => True) hnew
  obtain ⟨histograms, keys, ps, -, hps, rfl⟩ := TuningForkImpl.new_eq_ok hnew
  have hlen := (ProngCache.allocate_eq_ok hps).1
  rw [TuningForkImpl.maxNumProngs_eq hsize] at hlen
  exact ⟨.of_marked hmarked hlength fun _ => ⟨hlen, rfl⟩, by simp [start]⟩

/-- Prong `i` carries its key, and its samples were recorded for this key, under the
annotation id of the prong. -/
def HoldsFor (τ : Recorded) (k i : ℕ) (p : Prong) : Prop :=
  τ.system.impl.keys.ikeys[i % k]? = some p.instrumentationKey ∧
    p.histogram.held ≠ [] ∧ ∀ d ∈ p.histogram.held, (∃ r ∈ τ.records, r.sample = d) ∧
      ∀ r ∈ τ.records, r.sample = d → r.origin.Whole k →
        τ.system.impl.keys.keyIndex p.instrumentationKey = some (i % k) ∧
          r.origin.key = p.instrumentationKey ∧ r.origin.annotationId.toNat = i / k * k

/-- Samples for two keys, or under two annotation ids, are not in the same prong. -/
def Apart (τ : Recorded) (k : ℕ) : Prop :=
  ∀ a ∈ τ.system.impl.added, ∀ a' ∈ τ.system.impl.added, ∀ r ∈ τ.records, ∀ r' ∈ τ.records,
    r.sample = a.2 → r'.sample = a'.2 → r.origin.Whole k → r'.origin.Whole k →
      a.1 = a'.1 → r.origin = r'.origin

theorem Inv.apart (hinv : τ.Inv k n) (hacc : τ.system.Accounted) : τ.Apart k.toNat := by
  rintro ⟨i, d⟩ ha ⟨i', d'⟩ ha' r hr r' hr' hd hd' hwhole hwhole' rfl
  rw [← hinv.landed.length_ikeys] at hwhole hwhole'
  have hlands := (hinv.landed.landsIn hacc.serials ha).2 r hr hd
  have hlands' := (hinv.landed.landsIn hacc.serials ha').2 r' hr' hd'
  exact hlands.inj hinv.landed.keys hwhole hlands' hwhole'

theorem Inv.holdsFor (hinv : τ.Inv k n) (hacc : τ.system.Accounted) {tNs : TimePoint}
    (hphase : τ.system.phase = .submitting tNs) {i : ℕ} {p : Prong}
    (hp : τ.system.impl.current.prongs[i]? = some p) (hcount : p.count > 0) :
    τ.HoldsFor k.toNat i p := by
  have hkeys := hinv.landed.keys
  have hkeyed := hinv.keyed tNs hphase i (List.getElem?_eq_some_iff.mp hp).1 p hp
  have hwf : p.histogram.Wf := hacc.wf _ p (List.mem_of_getElem? hp)
  rw [← hinv.landed.length_ikeys]
  refine ⟨hkeyed, fun hnil => ?_, fun d hd => ?_⟩
  · have hzero : p.histogram.count = p.histogram.held.length := hwf.count_eq
    rw [hnil] at hzero
    exact absurd hzero (Nat.ne_of_gt hcount)
  · have hmem : d ∈ τ.system.waitingOf i := by
      refine List.mem_append_left _ (List.mem_flatMap.mpr ⟨τ.system.impl.currentProngCache, ?_, ?_⟩)
      · simp [System.holding, hphase]
      · have hheld : τ.system.impl.current.held i = p.histogram.held := by
          simp [ProngCache.held, hp]
        exact hheld ▸ hd
    obtain ⟨hex, hall⟩ := hinv.landed.landsIn hacc.serials (hacc.mem_added_of_waiting hmem)
    refine ⟨hex, fun r hr hsample hwhole => ?_⟩
    obtain ⟨hindex, hid⟩ := (hall r hr hsample).eq_of_whole hkeys hwhole
    have hget := ((InstrumentKeys.keyIndex_eq_some_iff hkeys).mp hindex).2
    rw [hkeyed] at hget
    have hkey : r.origin.key = p.instrumentationKey := (Option.some.inj hget).symm
    exact ⟨hkey ▸ hindex, hkey, hid⟩

theorem Step.systems {s : TuningForkImpl} (hrun : Relation.ReflTransGen (Step sqrt) (start s) τ) :
    Relation.ReflTransGen (System.Step sqrt) ⟨s, .between⟩ τ.system :=
  hrun.lift Recorded.system fun _ _ => Step.system

/-- **In a cache that is handed over, each prong carries the key of its samples**, and
they were recorded under its annotation id; and no prong has samples for two keys or
annotation ids. -/
theorem submitted_for_key (sqrt : ℚ → ℚ) {st : Settings} {info : ExtraUploadInfo}
    {now : TimePoint} {s : TuningForkImpl}
    (hsize : st.maxInstrumentationKeys.toNat * (radices st.annotationEnumSize).prod < 2 ^ 31)
    (hnew : TuningForkImpl.new st info now = .ok s)
    (hrun : Relation.ReflTransGen (Step sqrt) (start s) τ) :
    (∀ tNs, τ.system.phase = .submitting tNs → ∀ i p, τ.system.impl.current.prongs[i]? = some p →
        p.count > 0 → τ.HoldsFor st.maxInstrumentationKeys.toNat i p) ∧
      τ.Apart st.maxInstrumentationKeys.toNat := by
  have hk : st.maxInstrumentationKeys.toNat < 2 ^ 31 :=
    Nat.lt_of_le_of_lt (Nat.le_mul_of_pos_right _ (TuningForkImpl.prod_radices_pos _)) hsize
  have hacc := TuningForkImpl.accounted_of_run hnew (Step.systems hrun)
  have hinv : τ.Inv st.maxInstrumentationKeys (radices st.annotationEnumSize).prod :=
    Runs.invariant_of_reachable (P := Inv _ _) (fun _ _ => inv_step hk hsize)
      (inv_start hsize hnew) hrun
  exact ⟨fun tNs hphase i p hp hcount => hinv.holdsFor hacc hphase hp hcount, hinv.apart hacc⟩

/-- Calls one after another, as long as none of them flushes. -/
def calls (sqrt : ℚ → ℚ) (τ : Recorded) : List Call → Option Recorded
  | [] => some τ
  | c :: cs =>
    match τ.system.phase, τ.system.impl.callBody sqrt c with
    | .between, .ok (due, s') => (τ.after c due s').calls sqrt cs
    | _, _ => none

theorem reachable_of_calls {cs : List Call} (h : τ.calls sqrt cs = some τ') :
    Relation.ReflTransGen (Step sqrt) τ τ' := by
  induction cs generalizing τ with
  | nil =>
    obtain rfl : τ = τ' := Option.some.inj h
    exact .refl
  | cons c cs ih =>
    rw [calls] at h
    split at h
    · next hphase hbody => exact (ih h).head (.call hphase hbody)
    · cases h

end Recorded

namespace Recorded

/-- A trace is started, the annotation is set, the trace ends, and a frame time is
recorded: prong 0 has the sample of the trace, prong 2 that of the frame. -/
theorem traceRun : ∃ s τ, TuningForkImpl.new twoKeysOneValue noExtraInfo 0 = .ok s ∧
    Relation.ReflTransGen (Step fun x => x) (start s) τ ∧
    τ.system.phase = .submitting 61000000000 ∧
    τ.records = [⟨⟨16, 0⟩, ⟨7, 0⟩, 2⟩, ⟨⟨17, 1⟩, ⟨7, 2⟩, 2⟩] ∧
    τ.system.impl.current.prongs.map (fun p => (p.count, p.histogram.held)) =
      [(1, [⟨16, 0⟩]), (0, []), (1, [⟨17, 1⟩]), (0, [])] := by
  have hok : (TuningForkImpl.new twoKeysOneValue noExtraInfo 0).toOption.bind (fun s =>
      ((start s).calls (fun x => x) [.startTrace 7 0, Call.setCurrentAnnotation [8, 1],
        .endTrace 0 16000000, .frameDeltaTimeNanos 7 17000000 33000000,
        .flush 61000000000]).bind fun τ =>
      τ.system.impl.prepareFlush.toOption.map fun s' =>
        (τ.system.phase, τ.records,
          s'.current.prongs.map fun p => (p.count, p.histogram.held))) =
      some (.flushing 61000000000, [⟨⟨16, 0⟩, ⟨7, 0⟩, 2⟩, ⟨⟨17, 1⟩, ⟨7, 2⟩, 2⟩],
        [(1, [⟨16, 0⟩]), (0, []), (1, [⟨17, 1⟩]), (0, [])]) := by
    decide +kernel
  obtain ⟨s, hs, hok⟩ := Option.bind_eq_some_iff.mp hok
  obtain ⟨⟨⟨s₁, phase⟩, records, traces⟩, hτ, hok⟩ := Option.bind_eq_some_iff.mp hok
  obtain ⟨s', hs', heq⟩ := Option.map_eq_some_iff.mp hok
  simp only [Prod.mk.injEq] at heq
  obtain ⟨rfl, hrecords, hprongs⟩ := heq
  have hflush : System.Step (fun x => x) ⟨s₁, .flushing 61000000000⟩
      ⟨s', .submitting 61000000000⟩ := .prepare (Checked.toOption_eq_some.mp hs')
  refine ⟨s, ⟨⟨s', .submitting 61000000000⟩, records, traces⟩, Checked.toOption_eq_some.mp hs,
    (reachable_of_calls hτ).tail (.flush (by simp) hflush), rfl, hrecords, hprongs⟩

theorem submitted_for_key_trace : ∃ s τ, TuningForkImpl.new twoKeysOneValue noExtraInfo 0 = .ok s ∧
    Relation.ReflTransGen (Step fun x => x) (start s) τ ∧
    (∀ tNs, τ.system.phase = .submitting tNs → ∀ i p, τ.system.impl.current.prongs[i]? = some p →
      p.count > 0 → τ.HoldsFor 2 i p) ∧ τ.Apart 2 := by
  obtain ⟨s, τ, hs, hrun, -⟩ := traceRun
  have hsize : twoKeysOneValue.maxInstrumentationKeys.toNat *
      (radices twoKeysOneValue.annotationEnumSize).prod < 2 ^ 31 := by decide
  exact ⟨s, τ, hs, hrun, submitted_for_key (fun x => x) hsize hs hrun⟩

/-- The sample of the trace is in prong 0, for annotation id 0, and was recorded while
the annotation id was 2. -/
theorem not_currentAnnotationId_trace : ∃ s τ tNs i p r,
    TuningForkImpl.new twoKeysOneValue noExtraInfo 0 = .ok s ∧
    2 * (radices twoKeysOneValue.annotationEnumSize).prod < 2 ^ 31 ∧
    Relation.ReflTransGen (Step fun x => x) (start s) τ ∧
    τ.system.phase = .submitting tNs ∧ τ.system.impl.current.prongs[i]? = some p ∧ p.count > 0 ∧
    r ∈ τ.records ∧ r.sample ∈ p.histogram.held ∧ r.currentAnnotationId.toNat ≠ i / 2 * 2 := by
  obtain ⟨s, τ, hs, hrun, hphase, hrecords, hprongs⟩ := traceRun
  have hget := congrArg (fun l => l[0]?) hprongs
  simp only [List.getElem?_map] at hget
  obtain ⟨p, hp, heq⟩ := Option.map_eq_some_iff.mp hget
  obtain ⟨hcount, hheld⟩ := Prod.mk.inj heq
  refine ⟨s, τ, 61000000000, 0, p, ⟨⟨16, 0⟩, ⟨7, 0⟩, 2⟩, hs, by decide, hrun, hphase, hp, ?_, ?_,
    ?_, by decide⟩
  · exact hcount ▸ Nat.one_pos
  · rw [hrecords]
    exact List.mem_cons_self ..
  · rw [hheld]
    exact List.mem_singleton_self _

end Recorded

end GameSdk
