import GameSdk.Runs
import GameSdk.TuningForkImpl

/-!
# What the operations do

Every call of the game comes down to a few elementary changes of the state
(`Change`), followed by a flush when one is due. Invariants are proved for the
changes and the parts of a flush, and hold for all calls then.

* `getOrCreate_eq_ok`: what becomes of the key table.
* `Change`: what a call may do before its flush.
* `flush_preserves`: the parts of a flush, for any property of the state.

Each call has a lemma that says what may become of the state with it. The lemmas about changes
follow from these, and later modules never unfold a call.
-/

namespace GameSdk

/-! ## The key table

The table is only ever extended. A key that has an index keeps it, and a new one takes the next.
-/

namespace InstrumentKeys

/-- The keys in use are at the front of the table, and differ. -/
structure Wf (t : InstrumentKeys) : Prop where
  nextIkey_le : t.nextIkey ≤ t.ikeys.length
  inj : ∀ i < t.nextIkey, ∀ j < t.nextIkey, t.ikeys[i]? = t.ikeys[j]? → i = j

/-- The table that the constructor starts with. -/
theorem wf_replicate (n : ℕ) : (⟨List.replicate n 0, 0⟩ : InstrumentKeys).Wf :=
  ⟨Nat.zero_le _, fun i hi => absurd hi (Nat.not_lt_zero i)⟩

/-- Where `find` may look without leaving the table it finds the first match. -/
theorem find_eq (key : InstrumentationKey) (ikeys : List InstrumentationKey) {n i : ℕ}
    (h : i + n ≤ ikeys.length) :
    ∃ r, find key ikeys n i = .ok r ∧
      (∀ j, r = some j → j < i + n ∧ ikeys[j]? = some key) ∧
      (r = none → ∀ j, i ≤ j → j < i + n → ikeys[j]? ≠ some key) := by
  induction n generalizing i with
  | zero => exact ⟨none, rfl, fun j hj => (nomatch hj), fun _ j hj hlt => by omega⟩
  | succ n ih =>
    have hlt : i < ikeys.length := by omega
    rw [find, Checked.read_of_lt hlt, Checked.ok_bind]
    by_cases hk : ikeys[i] = key
    · refine ⟨some i, if_pos hk, fun j hj => ?_, fun hj => (nomatch hj)⟩
      obtain rfl : i = j := Option.some.inj hj
      exact ⟨by omega, by rw [List.getElem?_eq_getElem hlt, hk]⟩
    · obtain ⟨r, hr, hsome, hnone⟩ := ih (i := i + 1) (by omega)
      refine ⟨r, by rw [if_neg hk, hr], fun j hj => ?_, fun hj j hij hjn => ?_⟩
      · obtain ⟨hjn, hget⟩ := hsome j hj
        exact ⟨by omega, hget⟩
      · rcases Nat.eq_or_lt_of_le hij with rfl | hij
        · rw [List.getElem?_eq_getElem hlt]
          exact fun h => hk (Option.some.inj h)
        · exact hnone hj j hij (by omega)

/-- On a well-formed table the search for a key, or its creation, always comes to
an end in one of three ways. -/
theorem getOrCreate_cases {t : InstrumentKeys} (hwf : t.Wf) (key : InstrumentationKey) :
    (∃ i < t.nextIkey, t.ikeys[i]? = some key ∧
      t.getOrCreateInstrumentKeyIndex key = .ok (some i, t)) ∨
    ((∀ j < t.nextIkey, t.ikeys[j]? ≠ some key) ∧ t.nextIkey < t.ikeys.length ∧
      t.getOrCreateInstrumentKeyIndex key =
        .ok (some t.nextIkey, ⟨t.ikeys.set t.nextIkey key, t.nextIkey + 1⟩)) ∨
    ((∀ j < t.nextIkey, t.ikeys[j]? ≠ some key) ∧ t.nextIkey = t.ikeys.length ∧
      t.getOrCreateInstrumentKeyIndex key = .ok (none, t)) := by
  have hle := hwf.nextIkey_le
  obtain ⟨r, hr, hsome, hnone⟩ := find_eq key t.ikeys (n := t.nextIkey) (i := 0)
    (by omega)
  rw [getOrCreateInstrumentKeyIndex, hr, Checked.ok_bind]
  rcases r with _ | i
  · have hnew : ∀ j < t.nextIkey, t.ikeys[j]? ≠ some key :=
      fun j hj => hnone rfl j (Nat.zero_le j) (by omega)
    refine Or.inr ?_
    by_cases hlt : t.nextIkey < t.ikeys.length
    · refine Or.inl ⟨hnew, hlt, ?_⟩
      simp only [if_pos hlt, Checked.write_of_lt hlt, Checked.ok_bind]
    · exact Or.inr ⟨hnew, by omega, by simp only [if_neg hlt]⟩
  · obtain ⟨hi, hget⟩ := hsome i rfl
    exact Or.inl ⟨i, by omega, hget, rfl⟩

/-- Looking up a key ends without a fault. -/
theorem exists_getOrCreate {t : InstrumentKeys} (hwf : t.Wf) (key : InstrumentationKey) :
    ∃ r t', t.getOrCreateInstrumentKeyIndex key = .ok (r, t') := by
  rcases getOrCreate_cases hwf key with ⟨_, _, _, heq⟩ | ⟨_, _, heq⟩ | ⟨_, _, heq⟩ <;>
    exact ⟨_, _, heq⟩

/-- `t'` is `t` with keys added: the entries in use stay. -/
structure Extends (t t' : InstrumentKeys) : Prop where
  length_eq : t'.ikeys.length = t.ikeys.length
  nextIkey_le : t.nextIkey ≤ t'.nextIkey
  getElem?_eq : ∀ i < t.nextIkey, t'.ikeys[i]? = t.ikeys[i]?

/-- A table extends itself. -/
theorem Extends.refl (t : InstrumentKeys) : Extends t t := ⟨rfl, Nat.le_refl _, fun _ _ => rfl⟩

/-- Extensions go on. -/
theorem Extends.trans {t t' t'' : InstrumentKeys} (h : Extends t t') (h' : Extends t' t'') :
    Extends t t'' where
  length_eq := h'.length_eq.trans h.length_eq
  nextIkey_le := Nat.le_trans h.nextIkey_le h'.nextIkey_le
  getElem?_eq i hi := by
    rw [h'.getElem?_eq i (Nat.lt_of_lt_of_le hi h.nextIkey_le), h.getElem?_eq i hi]

/-- **A key lookup** extends the table, and the index it gives is that of the key. -/
theorem getOrCreate_eq_ok {t t' : InstrumentKeys} {key : InstrumentationKey} {r : Option ℕ}
    (hwf : t.Wf) (h : t.getOrCreateInstrumentKeyIndex key = .ok (r, t')) :
    t'.Wf ∧ Extends t t' ∧ ∀ i, r = some i → i < t'.nextIkey ∧ t'.ikeys[i]? = some key := by
  rcases getOrCreate_cases hwf key with ⟨i, hi, hget, heq⟩ | ⟨hnew, hlt, heq⟩ | ⟨-, -, heq⟩
  · rw [h] at heq
    cases heq
    refine ⟨hwf, Extends.refl t, fun j hj => ?_⟩
    obtain rfl : i = j := Option.some.inj hj
    exact ⟨hi, hget⟩
  · rw [h] at heq
    cases heq
    have hset : ∀ i < t.nextIkey, (t.ikeys.set t.nextIkey key)[i]? = t.ikeys[i]? := by
      intro i hi
      exact List.getElem?_set_ne (by omega)
    have hkey : (t.ikeys.set t.nextIkey key)[t.nextIkey]? = some key := List.getElem?_set_self hlt
    refine ⟨⟨by rw [List.length_set]; exact hlt, ?_⟩, ⟨List.length_set .., by simp, hset⟩, ?_⟩
    · -- the new key is at no earlier place
      intro i hi j hj hij
      simp only at hi hj hij
      rcases Nat.lt_succ_iff_lt_or_eq.mp hi with hi | rfl <;>
        rcases Nat.lt_succ_iff_lt_or_eq.mp hj with hj | rfl
      · rw [hset i hi, hset j hj] at hij
        exact hwf.inj i hi j hj hij
      · rw [hset i hi, hkey] at hij
        exact absurd hij (hnew i hi)
      · rw [hset j hj, hkey] at hij
        exact absurd hij.symm (hnew j hj)
      · rfl
    · intro i hi
      obtain rfl : t.nextIkey = i := Option.some.inj hi
      exact ⟨Nat.lt_succ_self _, hkey⟩
  · rw [h] at heq
    cases heq
    exact ⟨hwf, Extends.refl t, fun i hi => (nomatch hi)⟩

end InstrumentKeys

/-! ## Calls as changes

One lemma for each call says which changes it comes down to. In a `Quiet` change no prong ticks.
-/

namespace TuningForkImpl

variable {sqrt : ℚ → ℚ}

/-! ### The changes

What a call does to the state before it may flush, in three kinds: a key is added, a prong gets a
sample, a slot of the live traces is written. Ticks and annotations are apart, as some invariants
depend on them.
-/

/-- The samples a tick gives to the histogram: none when there is no tick to
measure from. -/
def tickSamples (p : Prong) (t : TimePoint) (serial : ℕ) : List Sample :=
  if p.lastTimeNs ≠ TimePoint.min then [Prong.sample (t - p.lastTimeNs) serial] else []

/-- The elementary changes of the state that are neither a tick nor a new annotation. -/
inductive Quiet (sqrt : ℚ → ℚ) (s : TuningForkImpl) : TuningForkImpl → Prop
  | keys {key r keys} (h : s.keys.getOrCreateInstrumentKeyIndex key = .ok (r, keys)) :
      Quiet sqrt s { s with keys }
  | trace {id dt p p'} (hp : s.current.prongs[id.toNat]? = some p)
      (h : p.trace sqrt dt s.added.length = .ok p') :
      Quiet sqrt s (s.putProng id p' [Prong.sample dt s.added.length])
  | liveTraces (h : ℕ) (t : TimePoint) :
      Quiet sqrt s { s with liveTraces := s.liveTraces.set h t }

/-- The elementary changes of the state by the game thread. -/
inductive Change (sqrt : ℚ → ℚ) (s : TuningForkImpl) : TuningForkImpl → Prop
  | quiet {s'} (h : Quiet sqrt s s') : Change sqrt s s'
  | tick {id t p p'} (hp : s.current.prongs[id.toNat]? = some p)
      (h : p.tick sqrt t s.added.length = .ok p') :
      Change sqrt s (s.putProng id p' (tickSamples p t s.added.length))
  | annotate (ann : SerializedAnnotation) : Change sqrt s (s.annotated ann)

/-- The current cache after one of its prongs has changed. -/
theorem current_putProng (s : TuningForkImpl) (id : UInt64) (p : Prong) (ds : List Sample) :
    (s.putProng id p ds).current = s.current.put id p := Function.update_self ..

/-- The other cache is not touched. -/
theorem prongCaches_putProng {s : TuningForkImpl} {c : Bool} (hc : c ≠ s.currentProngCache)
    (id : UInt64) (p : Prong) (ds : List Sample) :
    (s.putProng id p ds).prongCaches c = s.prongCaches c := Function.update_of_ne hc ..

/-- Replacing one cache, if the new one is as the others. -/
theorem forall_update {P : ProngCache → Prop} {f : Bool → ProngCache} {c₀ : Bool} {c : ProngCache}
    (hf : ∀ c, P (f c)) (hc : P c) : ∀ c', P (Function.update f c₀ c c') := by
  rw [Function.forall_update_iff f fun _ c => P c]
  exact ⟨hc, fun c' _ => hf c'⟩

/-- The size of a cache is a 32-bit number. -/
theorem maxNumProngs_lt (maxKeys : UInt32) (radixMult : List UInt32) :
    maxNumProngs maxKeys radixMult < 2 ^ 32 := by
  rw [maxNumProngs]
  split
  · exact Nat.two_pow_pos 32
  · exact UInt32.toNat_lt _

/-! ### The parts of a call

What the constructor and the functions that calls share do, when they end without a fault.
-/

/-- What the constructor makes: two equal caches, no samples, no live traces. -/
theorem new_eq_ok {st : Settings} {info : ExtraUploadInfo} {now : TimePoint} {s : TuningForkImpl}
    (h : new st info now = .ok s) :
    ∃ histograms keys ps,
      initHistogramSettings st.maxInstrumentationKeys.toNat 0 st.histograms
        ⟨List.replicate st.maxInstrumentationKeys.toNat 0, 0⟩ = .ok (histograms, keys) ∧
      ProngCache.allocate st.maxInstrumentationKeys.toInt32 histograms
        (fun i => serializeAnnotationId st.maxInstrumentationKeys
          (setUpAnnotationRadixes st.annotationEnumSize) (UInt64.ofNat i))
        (maxNumProngs st.maxInstrumentationKeys (setUpAnnotationRadixes st.annotationEnumSize))
        0 0 = .ok ps ∧
      s = { settings := { st with histograms }
            prongCaches := fun _ => ⟨ps, st.maxInstrumentationKeys.toInt32⟩
            currentProngCache := false
            lastSubmitTimeNs := now
            liveTraces := List.replicate (maxNumProngs st.maxInstrumentationKeys
              (setUpAnnotationRadixes st.annotationEnumSize)) TimePoint.min
            uploadThread := UploadThread.new info
            currentAnnotation := []
            annotationRadixMult := setUpAnnotationRadixes st.annotationEnumSize
            currentAnnotationId := 0
            keys
            added := [] } := by
  obtain ⟨⟨histograms, keys⟩, hinit, h⟩ := Checked.bind_eq_ok.mp h
  obtain ⟨cache, hcache, h⟩ := Checked.bind_eq_ok.mp h
  obtain ⟨ps, hps, hcache⟩ := Checked.bind_eq_ok.mp hcache
  cases hcache
  cases h
  exact ⟨histograms, keys, ps, hinit, hps, rfl⟩

/-- Looking up a prong gives the prong at this index, if there is one. -/
theorem get_eq_ok {c : ProngCache} {id : UInt64} {r : Option Prong} (h : c.get id = .ok r) :
    c.prongs[id.toNat]? = r := by
  rw [ProngCache.get] at h
  split at h
  · next hle =>
    cases h
    exact List.getElem?_eq_none hle
  · obtain ⟨p, hp, h⟩ := Checked.bind_eq_ok.mp h
    cases h
    exact Checked.read_eq_ok_iff.mp hp

/-- What making a compound id does: the key is looked up, and nothing else. -/
theorem makeCompoundId_eq_ok {s s' : TuningForkImpl} {k : InstrumentationKey} {a : AnnotationId}
    {r : Option UInt64} (h : s.makeCompoundId k a = .ok (r, s')) :
    ∃ i keys, s.keys.getOrCreateInstrumentKeyIndex k = .ok (i, keys) ∧ s' = { s with keys } ∧
      r = i.map fun i => UInt64.ofNat i + a := by
  rw [makeCompoundId] at h
  obtain ⟨⟨i, keys⟩, hi, h⟩ := Checked.bind_eq_ok.mp h
  refine ⟨i, keys, hi, ?_⟩
  rcases i with _ | i <;> cases h <;> exact ⟨rfl, rfl⟩

/-- What a tick does: nothing, or one prong ticks. -/
theorem tickNanos_eq_ok {s s' : TuningForkImpl} {id : UInt64} {t : TimePoint} {r : Option Prong}
    (h : s.tickNanos sqrt id t = .ok (r, s')) :
    (s.current.prongs[id.toNat]? = none ∧ r = none ∧ s' = s) ∨
      ∃ p p', s.current.prongs[id.toNat]? = some p ∧ p.tick sqrt t s.added.length = .ok p' ∧
        r = some p' ∧ s' = s.putProng id p' (tickSamples p t s.added.length) := by
  rw [tickNanos] at h
  obtain ⟨p, hp, h⟩ := Checked.bind_eq_ok.mp h
  have hget := get_eq_ok hp
  rcases p with _ | p
  · cases h
    exact Or.inl ⟨hget, rfl, rfl⟩
  · obtain ⟨p', hp', h⟩ := Checked.bind_eq_ok.mp h
    cases h
    exact Or.inr ⟨p, p', hget, hp', rfl, rfl⟩

/-- What a trace does: nothing, or one prong gets a duration. -/
theorem traceNanos_eq_ok {s s' : TuningForkImpl} {id : UInt64} {dt : Duration} {r : Option Prong}
    (h : s.traceNanos sqrt id dt = .ok (r, s')) :
    (s.current.prongs[id.toNat]? = none ∧ r = none ∧ s' = s) ∨
      ∃ p p', s.current.prongs[id.toNat]? = some p ∧ p.trace sqrt dt s.added.length = .ok p' ∧
        r = some p' ∧ s' = s.putProng id p' [Prong.sample dt s.added.length] := by
  rw [traceNanos] at h
  obtain ⟨p, hp, h⟩ := Checked.bind_eq_ok.mp h
  have hget := get_eq_ok hp
  rcases p with _ | p
  · cases h
    exact Or.inl ⟨hget, rfl, rfl⟩
  · obtain ⟨p', hp', h⟩ := Checked.bind_eq_ok.mp h
    cases h
    exact Or.inr ⟨p, p', hget, hp', rfl, rfl⟩

/-- The bytes that are kept play no part in decoding them. -/
theorem setCurrentAnnotation_eq (s : TuningForkImpl) (ann : SerializedAnnotation) :
    s.setCurrentAnnotation ann =
      if s.decodeAnnotationSerialization ann = kAnnotationError then
        (kAnnotationError, { s with currentAnnotation := ann, currentAnnotationId := 0 })
      else (s.decodeAnnotationSerialization ann, { s with
        currentAnnotation := ann
        currentAnnotationId := s.decodeAnnotationSerialization ann }) := rfl

/-- The id that is set is that of the empty annotation if the product is the error value. -/
theorem annotated_eq (s : TuningForkImpl) (ann : SerializedAnnotation) :
    s.annotated ann = { s with
      currentAnnotation := ann
      currentAnnotationId := if s.decodeAnnotationSerialization ann = kAnnotationError then 0
        else s.decodeAnnotationSerialization ann } := by
  rw [annotated, setCurrentAnnotation_eq]
  by_cases h : s.decodeAnnotationSerialization ann = kAnnotationError
  · rw [if_pos h, if_pos h]
  · rw [if_neg h, if_neg h]

/-! ### The calls

`callBody` is a call up to its flush, and returns the time to flush at, if there is one.
-/

/-- A call up to its flush: the time to flush at, if one is due. -/
def callBody (sqrt : ℚ → ℚ) (s : TuningForkImpl) :
    Call → Except (Fault Vec) (Option TimePoint × TuningForkImpl)
  | Call.setCurrentAnnotation ann => .ok (none, s.annotated ann)
  | .frameTick key t => (s.frameTickBody sqrt key t).map fun r => r.2
  | .frameDeltaTimeNanos key dt now => (s.frameDeltaTimeNanosBody sqrt key dt now).map fun r => r.2
  | .startTrace key now => (s.startTrace key now).map fun r => (none, r.2.2)
  | .endTrace h now => (s.endTrace sqrt h now).map fun r => (none, r.2)
  | .flush t => .ok (s.flushTime t, s)

/-- A call is its body and the flush that it asks for. -/
theorem call_eq (s : TuningForkImpl) (c : Call) :
    s.call sqrt c = (do
      let (due, s) ← s.callBody sqrt c
      (s.checkForSubmit due).map fun r => r.2) := by
  cases c with
  | setCurrentAnnotation ann => rfl
  | frameTick key t =>
    rw [call, callBody, frameTick]
    rcases s.frameTickBody sqrt key t with e | ⟨err, due, s'⟩
    · rfl
    · rcases hc : s'.checkForSubmit due with e | r <;> simp [Except.map, hc, bind, Except.bind]
  | frameDeltaTimeNanos key dt now =>
    rw [call, callBody, frameDeltaTimeNanos]
    rcases s.frameDeltaTimeNanosBody sqrt key dt now with e | ⟨err, due, s'⟩
    · rfl
    · rcases hc : s'.checkForSubmit due with e | r <;> simp [Except.map, hc, bind, Except.bind]
  | startTrace key now =>
    rw [call, callBody]
    rcases s.startTrace key now with e | r <;> rfl
  | endTrace h now =>
    rw [call, callBody]
    rcases s.endTrace sqrt h now with e | r <;> rfl
  | flush t =>
    rw [call, callBody, flush]
    rcases s.flushTime t with _ | tNs <;> rfl

/-- A call that returns ran its body, then the flush if one was due. -/
theorem call_eq_ok {s s' : TuningForkImpl} {c : Call} (h : s.call sqrt c = .ok s') :
    ∃ due s₁ err, s.callBody sqrt c = .ok (due, s₁) ∧ s₁.checkForSubmit due = .ok (err, s') := by
  rw [call_eq] at h
  obtain ⟨⟨due, s₁⟩, hbody, h⟩ := Checked.bind_eq_ok.mp h
  obtain ⟨⟨err, s₂⟩, hflush, rfl⟩ := Checked.map_eq_ok.mp h
  exact ⟨due, s₁, err, hbody, hflush⟩

/-- A tick registers its key, and ticks the prong of the compound id if there is one. -/
theorem frameTickBody_eq_ok {s s' : TuningForkImpl} {key : InstrumentationKey} {t : TimePoint}
    {err : TFErrorCode} {due : Option TimePoint}
    (h : s.frameTickBody sqrt key t = .ok (err, due, s')) :
    ∃ r keys, s.keys.getOrCreateInstrumentKeyIndex key = .ok (r, keys) ∧
      ((s' = { s with keys } ∧ ∀ i, r = some i →
        s.current.prongs[(UInt64.ofNat i + s.currentAnnotationId).toNat]? = none) ∨
      ∃ i p p', r = some i ∧
        s.current.prongs[(UInt64.ofNat i + s.currentAnnotationId).toNat]? = some p ∧
        p.tick sqrt t s.added.length = .ok p' ∧
        s' = putProng { s with keys } (UInt64.ofNat i + s.currentAnnotationId) p'
          (tickSamples p t s.added.length)) := by
  rw [frameTickBody] at h
  obtain ⟨⟨id, s₁⟩, hid, h⟩ := Checked.bind_eq_ok.mp h
  obtain ⟨i, keys, hkeys, rfl, rfl⟩ := makeCompoundId_eq_ok hid
  refine ⟨i, keys, hkeys, ?_⟩
  rcases i with _ | i
  · cases h
    exact Or.inl ⟨rfl, fun i hi => (nomatch hi)⟩
  · obtain ⟨⟨p, s₂⟩, hp, h⟩ := Checked.bind_eq_ok.mp h
    cases h
    rcases tickNanos_eq_ok hp with ⟨hget, -, rfl⟩ | ⟨p, p', hget, hp', -, rfl⟩
    · exact Or.inl ⟨rfl, fun j hj => Option.some.inj hj ▸ hget⟩
    · exact Or.inr ⟨i, p, p', rfl, hget, hp', rfl⟩

/-- A frame time registers its key, and goes to the prong of the compound id if there
is one. -/
theorem frameDeltaTimeNanosBody_eq_ok {s s' : TuningForkImpl} {key : InstrumentationKey}
    {dt : Duration} {now : TimePoint} {err : TFErrorCode} {due : Option TimePoint}
    (h : s.frameDeltaTimeNanosBody sqrt key dt now = .ok (err, due, s')) :
    ∃ r keys, s.keys.getOrCreateInstrumentKeyIndex key = .ok (r, keys) ∧
      ((s' = { s with keys } ∧ ∀ i, r = some i →
        s.current.prongs[(UInt64.ofNat i + s.currentAnnotationId).toNat]? = none) ∨
      ∃ i p p', r = some i ∧
        s.current.prongs[(UInt64.ofNat i + s.currentAnnotationId).toNat]? = some p ∧
        p.trace sqrt dt s.added.length = .ok p' ∧
        s' = putProng { s with keys } (UInt64.ofNat i + s.currentAnnotationId) p'
          [Prong.sample dt s.added.length]) := by
  rw [frameDeltaTimeNanosBody] at h
  obtain ⟨⟨id, s₁⟩, hid, h⟩ := Checked.bind_eq_ok.mp h
  obtain ⟨i, keys, hkeys, rfl, rfl⟩ := makeCompoundId_eq_ok hid
  refine ⟨i, keys, hkeys, ?_⟩
  rcases i with _ | i
  · cases h
    exact Or.inl ⟨rfl, fun i hi => (nomatch hi)⟩
  · obtain ⟨⟨p, s₂⟩, hp, h⟩ := Checked.bind_eq_ok.mp h
    cases h
    rcases traceNanos_eq_ok hp with ⟨hget, -, rfl⟩ | ⟨p, p', hget, hp', -, rfl⟩
    · exact Or.inl ⟨rfl, fun j hj => Option.some.inj hj ▸ hget⟩
    · exact Or.inr ⟨i, p, p', rfl, hget, hp', rfl⟩

/-- No prong ticks in a call of `FrameDeltaTimeNanos`. -/
theorem frameDeltaTimeNanosBody_quiet {s s' : TuningForkImpl} {key : InstrumentationKey}
    {dt : Duration} {now : TimePoint} {err : TFErrorCode} {due : Option TimePoint}
    (h : s.frameDeltaTimeNanosBody sqrt key dt now = .ok (err, due, s')) :
    Relation.ReflTransGen (Quiet sqrt) s s' := by
  obtain ⟨r, keys, hkeys, ⟨rfl, -⟩ | ⟨i, p, p', -, hget, hp', rfl⟩⟩ :=
    frameDeltaTimeNanosBody_eq_ok h
  · exact .single (.keys hkeys)
  · exact (Relation.ReflTransGen.single (.keys hkeys)).tail (.trace hget hp')

/-- The handle of a trace is the compound id of its key. -/
theorem startTrace_eq_ok {s s' : TuningForkImpl} {key : InstrumentationKey} {now : TimePoint}
    {err : TFErrorCode} {handle : Option TraceHandle}
    (h : s.startTrace key now = .ok (err, handle, s')) :
    ∃ r keys, s.keys.getOrCreateInstrumentKeyIndex key = .ok (r, keys) ∧
      handle = (r.map fun i => UInt64.ofNat i + s.currentAnnotationId) ∧
      ((handle = none ∧ s' = { s with keys }) ∨ ∃ id, handle = some id ∧
        s' = { s with keys, liveTraces := s.liveTraces.set id.toNat now }) := by
  rw [startTrace] at h
  obtain ⟨⟨id, s₁⟩, hid, h⟩ := Checked.bind_eq_ok.mp h
  obtain ⟨i, keys, hkeys, rfl, rfl⟩ := makeCompoundId_eq_ok hid
  rcases i with _ | i
  · cases h
    exact ⟨none, keys, hkeys, rfl, Or.inl ⟨rfl, rfl⟩⟩
  · obtain ⟨liveTraces, hlive, h⟩ := Checked.bind_eq_ok.mp h
    cases h
    obtain ⟨-, rfl⟩ := Checked.write_eq_ok hlive
    exact ⟨some i, keys, hkeys, rfl, Or.inr ⟨_, rfl, rfl⟩⟩

/-- No prong ticks when a trace starts. -/
theorem startTrace_quiet {s s' : TuningForkImpl} {key : InstrumentationKey} {now : TimePoint}
    {err : TFErrorCode} {handle : Option TraceHandle}
    (h : s.startTrace key now = .ok (err, handle, s')) :
    Relation.ReflTransGen (Quiet sqrt) s s' := by
  obtain ⟨r, keys, hkeys, -, ⟨-, rfl⟩ | ⟨id, -, rfl⟩⟩ := startTrace_eq_ok h
  · exact .single (.keys hkeys)
  · exact (Relation.ReflTransGen.single (.keys hkeys)).tail (.liveTraces _ _)

/-- A trace that ends has been live; its prong gets the sample, if there is one. Without a live
trace nothing changes. -/
theorem endTrace_eq_ok {s s' : TuningForkImpl} {handle : TraceHandle} {now : TimePoint}
    {err : TFErrorCode} (h : s.endTrace sqrt handle now = .ok (err, s')) :
    (s' = s ∧ ∀ t, s.liveTraces[handle.toNat]? = some t → t = TimePoint.min) ∨
      ∃ t s₁, s.liveTraces[handle.toNat]? = some t ∧ t ≠ TimePoint.min ∧
        s' = { s₁ with liveTraces := s.liveTraces.set handle.toNat TimePoint.min } ∧
        ((s₁ = s ∧ s.current.prongs[handle.toNat]? = none) ∨
          ∃ p p', s.current.prongs[handle.toNat]? = some p ∧
            p.trace sqrt (now - t) s.added.length = .ok p' ∧
            s₁ = s.putProng handle p' [Prong.sample (now - t) s.added.length]) := by
  rw [endTrace] at h
  split at h
  · next hle =>
    cases h
    refine Or.inl ⟨rfl, fun t ht => ?_⟩
    rw [List.getElem?_eq_none hle] at ht
    cases ht
  obtain ⟨t, ht, h⟩ := Checked.bind_eq_ok.mp h
  have hlive := Checked.read_eq_ok_iff.mp ht
  split at h
  · next hmin =>
    obtain ⟨⟨p, s₁⟩, hp, h⟩ := Checked.bind_eq_ok.mp h
    obtain ⟨liveTraces, hwrite, h⟩ := Checked.bind_eq_ok.mp h
    cases h
    obtain ⟨-, rfl⟩ := Checked.write_eq_ok hwrite
    refine Or.inr ⟨t, s₁, hlive, hmin, ?_⟩
    rcases traceNanos_eq_ok hp with ⟨hget, -, rfl⟩ | ⟨p, p', hget, hp', -, rfl⟩
    · exact ⟨rfl, Or.inl ⟨rfl, hget⟩⟩
    · exact ⟨rfl, Or.inr ⟨p, p', hget, hp', rfl⟩⟩
  · next hmin =>
    cases h
    refine Or.inl ⟨rfl, fun t' ht' => ?_⟩
    obtain rfl : t = t' := Option.some.inj (hlive.symm.trans ht')
    exact not_not.mp hmin

/-- No prong ticks when a trace ends. -/
theorem endTrace_quiet {s s' : TuningForkImpl} {handle : TraceHandle} {now : TimePoint}
    {err : TFErrorCode} (h : s.endTrace sqrt handle now = .ok (err, s')) :
    Relation.ReflTransGen (Quiet sqrt) s s' := by
  rcases endTrace_eq_ok h with
    ⟨rfl, -⟩ | ⟨t, s₁, -, -, rfl, ⟨rfl, -⟩ | ⟨p, p', hget, hp', rfl⟩⟩
  · exact .refl
  · exact .single (.liveTraces _ _)
  · exact (Relation.ReflTransGen.single (.trace hget hp')).tail (.liveTraces _ _)

/-- What the body of a call does, by the kind of call. -/
theorem callBody_cases {s s' : TuningForkImpl} {c : Call} {due : Option TimePoint}
    (h : s.callBody sqrt c = .ok (due, s')) :
    (∃ ann, c = Call.setCurrentAnnotation ann ∧ s' = s.annotated ann) ∨
      (∃ key t err, c = .frameTick key t ∧ s.frameTickBody sqrt key t = .ok (err, due, s')) ∨
      ((∀ key t, c ≠ .frameTick key t) ∧ Relation.ReflTransGen (Quiet sqrt) s s') := by
  cases c with
  | setCurrentAnnotation ann =>
    cases h
    exact Or.inl ⟨ann, rfl, rfl⟩
  | frameTick key t =>
    obtain ⟨⟨err, r⟩, hbody, rfl⟩ := Checked.map_eq_ok.mp h
    exact Or.inr (Or.inl ⟨key, t, err, rfl, hbody⟩)
  | frameDeltaTimeNanos key dt now =>
    obtain ⟨⟨err, r⟩, hbody, rfl⟩ := Checked.map_eq_ok.mp h
    exact Or.inr (Or.inr ⟨fun _ _ h => (nomatch h), frameDeltaTimeNanosBody_quiet hbody⟩)
  | startTrace key now =>
    obtain ⟨⟨err, handle, s₁⟩, hbody, heq⟩ := Checked.map_eq_ok.mp h
    obtain ⟨-, rfl⟩ := Prod.mk.inj heq
    exact Or.inr (Or.inr ⟨fun _ _ h => (nomatch h), startTrace_quiet hbody⟩)
  | endTrace handle now =>
    obtain ⟨⟨err, s₁⟩, hbody, heq⟩ := Checked.map_eq_ok.mp h
    obtain ⟨-, rfl⟩ := Prod.mk.inj heq
    exact Or.inr (Or.inr ⟨fun _ _ h => (nomatch h), endTrace_quiet hbody⟩)
  | flush t =>
    cases h
    exact Or.inr (Or.inr ⟨fun _ _ h => (nomatch h), .refl⟩)

/-- **The body of a call is a sequence of elementary changes.** -/
theorem callBody_changes {s s' : TuningForkImpl} {c : Call} {due : Option TimePoint}
    (h : s.callBody sqrt c = .ok (due, s')) : Relation.ReflTransGen (Change sqrt) s s' := by
  rcases callBody_cases h with ⟨ann, -, rfl⟩ | ⟨key, t, err, -, hbody⟩ | ⟨-, hquiet⟩
  · exact .single (.annotate ann)
  · obtain ⟨r, keys, hkeys, ⟨rfl, -⟩ | ⟨i, p, p', -, hget, htick, rfl⟩⟩ := frameTickBody_eq_ok hbody
    · exact .single (.quiet (.keys hkeys))
    · exact (Relation.ReflTransGen.single (.quiet (.keys hkeys))).tail (.tick hget htick)
  · exact Relation.ReflTransGen.mono (fun _ _ => Change.quiet) _ _ hquiet

/-- What a call leaves: the settings and the indices of the keys; also the annotation id, unless
it sets one. -/
theorem follows_of_callBody {s s' : TuningForkImpl} {c : Call}
    {due : Option TimePoint} (hwf : s.keys.Wf) (h : s.callBody sqrt c = .ok (due, s')) :
    s'.settings = s.settings ∧ s'.keys.Wf ∧ s.keys.Extends s'.keys ∧
      ((∀ ann, c ≠ Call.setCurrentAnnotation ann) →
        s'.currentAnnotationId = s.currentAnnotationId) := by
  rcases callBody_cases h with ⟨ann, rfl, rfl⟩ | ⟨key, t, err, rfl, htick⟩ | ⟨-, hquiet⟩
  · rw [annotated_eq]
    exact ⟨rfl, hwf, .refl _, fun hne => absurd rfl (hne ann)⟩
  · obtain ⟨r, keys, hkeys, ⟨rfl, -⟩ | ⟨i, p, p', -, -, -, rfl⟩⟩ := frameTickBody_eq_ok htick
    · obtain ⟨hwf', hext, -⟩ := InstrumentKeys.getOrCreate_eq_ok hwf hkeys
      exact ⟨rfl, hwf', hext, fun _ => rfl⟩
    · obtain ⟨hwf', hext, -⟩ := InstrumentKeys.getOrCreate_eq_ok hwf hkeys
      exact ⟨rfl, hwf', hext, fun _ => rfl⟩
  · suffices hsame : s'.settings = s.settings ∧ s'.keys.Wf ∧ s.keys.Extends s'.keys ∧
        s'.currentAnnotationId = s.currentAnnotationId from
      ⟨hsame.1, hsame.2.1, hsame.2.2.1, fun _ => hsame.2.2.2⟩
    refine Runs.invariant_of_reachable (P := fun t => t.settings = s.settings ∧ t.keys.Wf ∧
      s.keys.Extends t.keys ∧ t.currentAnnotationId = s.currentAnnotationId) ?_
      ⟨rfl, hwf, .refl _, rfl⟩ hquiet
    rintro t t' ⟨hsettings, hwf, hext, hid⟩ hquiet
    cases hquiet with
    | keys hkeys =>
      obtain ⟨hwf', hext', -⟩ := InstrumentKeys.getOrCreate_eq_ok hwf hkeys
      exact ⟨hsettings, hwf', hext.trans hext', hid⟩
    | trace => exact ⟨hsettings, hwf, hext, hid⟩
    | liveTraces => exact ⟨hsettings, hwf, hext, hid⟩

/-! ## Flushing

A flush either hands the cache on and swaps, or is refused. Both set the time of the last
submission.
-/

/-- `ready_ = prongs`, for the current cache. -/
def setReady (s : TuningForkImpl) : TuningForkImpl :=
  { s with uploadThread := { s.uploadThread with ready := some s.currentProngCache } }

/-- The end of a flush whose submit was refused. -/
def refuseSubmit (s : TuningForkImpl) (tNs : TimePoint) : TuningForkImpl :=
  { s with lastSubmitTimeNs := tNs }

/-- What is written before the cache is handed on: keys. -/
theorem prepareFlush_eq_ok {s s' : TuningForkImpl} (h : s.prepareFlush = .ok s') :
    ∃ cache, s.current.setInstrumentKeys s.keys.ikeys = .ok cache ∧
      s' = { s with prongCaches := Function.update s.prongCaches s.currentProngCache cache } := by
  rw [prepareFlush] at h
  obtain ⟨cache, hcache, h⟩ := Checked.bind_eq_ok.mp h
  cases h
  exact ⟨cache, hcache, rfl⟩

/-- A flush goes through when `ready_` is null and is refused when it is not. -/
theorem flushAt_eq (s : TuningForkImpl) (tNs : TimePoint) :
    s.flushAt tNs = (do
      let s ← s.prepareFlush
      if s.uploadThread.ready = none then .ok (.ok, s.setReady.swapCaches tNs)
      else .ok (.previousUploadPending, s.refuseSubmit tNs)) := by
  rw [flushAt]
  rcases s.prepareFlush with e | s
  · rfl
  · rw [Checked.ok_bind, Checked.ok_bind]
    by_cases hready : s.uploadThread.ready = none
    · simp only [UploadThread.submit, if_pos hready, if_true]
      rfl
    · simp only [UploadThread.submit, if_neg hready]
      rfl

/-- The upload thread was woken up for nothing. -/
theorem upload_of_none {s : TuningForkImpl} (hready : s.uploadThread.ready = none) (v : UInt32) :
    s.upload v = s := by
  simp only [upload, UploadThread.run, hready]

/-- The upload thread makes an event of the ready cache. -/
theorem uploadThread_upload {s : TuningForkImpl} {c : Bool}
    (hready : s.uploadThread.ready = some c) (v : UInt32) :
    (s.upload v).uploadThread = { s.uploadThread with
      ready := none
      extraInfo := { s.uploadThread.extraInfo with glEsVersion := v }
      processed := s.uploadThread.processed ++ [ClearcutSerializer.serializeEvent
        (s.prongCaches c) s.uploadThread.currentFidelityParams
        { s.uploadThread.extraInfo with glEsVersion := v }] } := by
  simp only [upload, UploadThread.run, hready]

section Preservation

variable {P : TuningForkImpl → Prop}

/-! ### Preservation

A property that the changes keep is kept by calls, and one that the parts of a flush keep is kept by
flushes. Together they are a step lemma for any invariant.
-/

/-- What the assignments keep that the body of a call is made of, the body keeps. -/
theorem callBody_preserves
    (hkeys : ∀ s key r keys, P s → s.keys.getOrCreateInstrumentKeyIndex key = .ok (r, keys) →
      P { s with keys })
    (hprong : ∀ s id p ds, P s → P (s.putProng id p ds))
    (htraces : ∀ s liveTraces, P s → P { s with liveTraces })
    (hann : ∀ s currentAnnotation currentAnnotationId, P s →
      P { s with currentAnnotation, currentAnnotationId })
    {s s' : TuningForkImpl} {c : Call} {due : Option TimePoint} (hs : P s)
    (h : s.callBody sqrt c = .ok (due, s')) : P s' := by
  refine Runs.invariant_of_reachable (fun t t' ht hchange => ?_) hs (callBody_changes h)
  cases hchange with
  | quiet hquiet =>
    cases hquiet with
    | keys hget => exact hkeys _ _ _ _ ht hget
    | trace => exact hprong _ _ _ _ ht
    | liveTraces => exact htraces _ _ ht
  | tick => exact hprong _ _ _ _ ht
  | annotate ann =>
    rw [annotated_eq]
    exact hann _ _ _ ht

/-- A property that the parts of a flush keep is kept by flushes. -/
theorem flush_preserves (hprepare : ∀ s s', P s → s.prepareFlush = .ok s' → P s')
    (hswap : ∀ s tNs, P s → s.uploadThread.ready = none → P (s.setReady.swapCaches tNs))
    (hrefuse : ∀ s tNs, P s → s.uploadThread.ready ≠ none → P (s.refuseSubmit tNs))
    {s s' : TuningForkImpl} {due : Option TimePoint} {err : TFErrorCode} (hs : P s)
    (h : s.checkForSubmit due = .ok (err, s')) : P s' := by
  rcases due with _ | tNs
  · cases h
    exact hs
  · rw [checkForSubmit, flushAt_eq] at h
    obtain ⟨s₁, hs₁, h⟩ := Checked.bind_eq_ok.mp h
    split at h
    · cases h
      exact hswap _ _ (hprepare _ _ hs hs₁) (by assumption)
    · cases h
      exact hrefuse _ _ (hprepare _ _ hs hs₁) (by assumption)

/-- **Invariants.** What the elementary changes and the parts of a flush keep, every
step keeps. -/
theorem step_preserves (hchange : ∀ s s', P s → Change sqrt s s' → P s')
    (hprepare : ∀ s s', P s → s.prepareFlush = .ok s' → P s')
    (hswap : ∀ s tNs, P s → s.uploadThread.ready = none → P (s.setReady.swapCaches tNs))
    (hrefuse : ∀ s tNs, P s → s.uploadThread.ready ≠ none → P (s.refuseSubmit tNs))
    (hupload : ∀ s v, P s → P (s.upload v)) {s s' : TuningForkImpl} {e : Event} (hs : P s)
    (h : s.step sqrt e = .ok s') : P s' := by
  cases e with
  | call c =>
    obtain ⟨due, s₁, err, hbody, hflush⟩ := call_eq_ok h
    have hs₁ : P s₁ := Runs.invariant_of_reachable hchange hs (callBody_changes hbody)
    exact flush_preserves hprepare hswap hrefuse hs₁ hflush
  | upload v =>
    cases h
    exact hupload s v hs

end Preservation

end TuningForkImpl

end GameSdk
