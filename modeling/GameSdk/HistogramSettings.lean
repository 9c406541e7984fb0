import GameSdk.SampleKeys

/-!
# Which histogram a key gets

The prongs are built from the histogram settings by their positions, while the keys of these
settings get their indices in the order in which they turn up, without repetitions. The two
go together for a key if the settings before the first ones for it are all for different
keys; a key without settings of its own has to come after all that have some.

`KeyOk` is the condition on a key, in terms of the settings and the key table. Where it holds the
prongs of the key are built from the first settings for it, or from the default if there are none.

The settings are looked up by position in one place and by key in another. Both are described by a
list, `entries` and its keys, and the index of a key is its position in the list without
repetitions.
-/

namespace GameSdk

/-! ## A list without its repetitions

Where an element is in a list, and where in the list without repetitions.
-/

section EraseDups

variable {α : Type} [BEq α] [LawfulBEq α]

theorem eraseDups_concat (l : List α) (a : α) :
    (l ++ [a]).eraseDups = if a ∈ l then l.eraseDups else l.eraseDups ++ [a] := by
  rw [List.eraseDups_append, List.removeAll]
  by_cases ha : a ∈ l
  · simp [ha]
  · simp [ha, List.eraseDups_cons]

theorem length_eraseDups_le (l : List α) : l.eraseDups.length ≤ l.length := by
  induction l using List.reverseRecOn with
  | nil => exact Nat.le_refl _
  | append_singleton l a ih =>
    rw [eraseDups_concat, List.length_append, List.length_singleton]
    split
    · exact Nat.le_succ_of_le ih
    · rw [List.length_append]
      exact Nat.succ_le_succ ih

theorem nodup_of_length_eraseDups {l : List α} (h : l.length ≤ l.eraseDups.length) :
    l.Nodup := by
  induction l using List.reverseRecOn with
  | nil => exact List.nodup_nil
  | append_singleton l a ih =>
    rw [eraseDups_concat, List.length_append, List.length_singleton] at h
    split at h
    · have hle := length_eraseDups_le l
      omega
    · next ha =>
      rw [List.length_append, List.length_singleton] at h
      rw [← List.concat_eq_append]
      exact (ih (Nat.le_of_succ_le_succ h)).concat ha

theorem eraseDups_of_nodup {l : List α} (h : l.Nodup) : l.eraseDups = l := by
  induction l using List.reverseRecOn with
  | nil => rfl
  | append_singleton l a ih =>
    obtain ⟨hl, -, hdisjoint⟩ := List.nodup_append.mp h
    have ha : a ∉ l := fun ha => hdisjoint a ha a (List.mem_singleton_self a) rfl
    rw [eraseDups_concat, if_neg ha, ih hl]

/-- A member is after those that come before it for the first time. -/
theorem eraseDups_getElem? {l : List α} {a : α} (ha : a ∈ l) :
    l.eraseDups[(l.take (l.idxOf a)).eraseDups.length]? = some a := by
  obtain ⟨before, after, rfl, hbefore⟩ := List.eq_append_cons_of_mem ha
  have hidx : (before ++ a :: after).idxOf a = before.length := by
    rw [List.idxOf_append_of_notMem hbefore, List.idxOf_cons_self, Nat.add_zero]
  rw [hidx, List.take_left, List.eraseDups_append, List.removeAll]
  simp [hbefore, List.eraseDups_cons]

end EraseDups

/-! ## The settings

The settings by position, with what is filled up.
-/

/-- The key that the settings are for, narrowed as keys are. -/
def TFHistogram.key (h : TFHistogram) : InstrumentationKey := h.instrumentKey.toUInt32.toUInt16

namespace Settings

variable (st : Settings)

/-- The settings that there are prongs for. -/
def entries : List TFHistogram := st.histograms.take st.maxInstrumentationKeys.toNat

/-- The keys of the settings, with repetitions. -/
def entryKeys : List InstrumentationKey := st.entries.map TFHistogram.key

/-- **What the samples of a key are to be counted in**: a histogram with the first settings
for the key, or with the default settings. -/
def histogramFor (key : InstrumentationKey) : TFHistogram :=
  (st.entries.find? fun h => h.key == key).getD TuningForkImpl.defaultHistogram

/-- As `InitHistogramSettings` fills them up. -/
def filled : List TFHistogram :=
  st.histograms ++
    List.replicate (st.maxInstrumentationKeys.toNat - st.histograms.length)
      TuningForkImpl.defaultHistogram

/-- The condition on a key with the table as it is: the settings before its own are for
different keys. Without settings of its own, it has, or gets, an index after all that have. -/
def KeyOk (t : InstrumentKeys) (key : InstrumentationKey) : Prop :=
  (key ∈ st.entryKeys → (st.entryKeys.take (st.entryKeys.idxOf key)).Nodup) ∧
    (key ∉ st.entryKeys → st.entries.length ≤ (t.keyIndex key).getD t.nextIkey)

instance (t : InstrumentKeys) (key : InstrumentationKey) : Decidable (st.KeyOk t key) :=
  inferInstanceAs (Decidable (_ ∧ _))

end Settings

namespace Settings

variable {st : Settings}

/-- The first settings for the key are at the place of the key. -/
theorem filled_idxOf {key : InstrumentationKey} (hkey : key ∈ st.entryKeys) :
    st.filled[st.entryKeys.idxOf key]? = some (st.histogramFor key) := by
  have hidx : st.entryKeys.idxOf key = st.entries.findIdx fun h => h.key == key := by
    rw [entryKeys, List.idxOf, List.findIdx_map]
    rfl
  obtain ⟨h, hh, hhkey⟩ := List.mem_map.mp hkey
  have hlt : (st.entries.findIdx fun h => h.key == key) < st.entries.length :=
    List.findIdx_lt_length_of_exists ⟨h, hh, by simp [hhkey]⟩
  have hlen : st.entries.length ≤ st.maxInstrumentationKeys.toNat := List.length_take_le ..
  have hlen' : st.entries.length ≤ st.histograms.length := List.length_take_le' ..
  have htake := List.getElem?_take_of_lt (l := st.histograms) (Nat.lt_of_lt_of_le hlt hlen)
  rw [histogramFor, List.find?_eq_getElem?_findIdx, hidx, List.getElem?_eq_getElem hlt,
    Option.getD_some, ← List.getElem?_eq_getElem hlt, filled,
    List.getElem?_append_left (Nat.lt_of_lt_of_le hlt hlen')]
  exact htake.symm

/-- After all settings there are those that were filled up. -/
theorem filled_of_le {key : InstrumentationKey} (hkey : key ∉ st.entryKeys) {j : ℕ}
    (hle : st.entries.length ≤ j) (hlt : j < st.maxInstrumentationKeys.toNat) :
    st.filled[j]? = some (st.histogramFor key) := by
  have hnone : (st.entries.find? fun h => h.key == key) = none := by
    rw [List.find?_eq_none]
    intro h hh hhkey
    exact hkey (List.mem_map.mpr ⟨h, hh, eq_of_beq hhkey⟩)
  rw [entries, List.length_take] at hle
  have hge : st.histograms.length ≤ j := by omega
  rw [histogramFor, hnone, Option.getD_none, filled, List.getElem?_append_right hge,
    List.getElem?_replicate_of_lt (by omega)]

theorem le_length_filled : st.maxInstrumentationKeys.toNat ≤ st.filled.length := by
  rw [filled, List.length_append, List.length_replicate]
  omega

end Settings

/-! ## The keys of the settings

The constructor adds the keys of the settings in order, each once.
-/

namespace InstrumentKeys

/-- The keys that have an index, in the order of their indices. -/
def used (t : InstrumentKeys) : List InstrumentationKey := t.ikeys.take t.nextIkey

variable {t t' : InstrumentKeys} {ks : List InstrumentationKey} {key : InstrumentationKey}

theorem length_used (hwf : t.Wf) : t.used.length = t.nextIkey :=
  List.length_take_of_le hwf.nextIkey_le

/-- Adding a key to a table that has room for it. -/
theorem used_getOrCreate (hwf : t.Wf) (hused : t.used = ks.eraseDups)
    (hroom : ks.length < t.ikeys.length) {r : Option ℕ}
    (h : t.getOrCreateInstrumentKeyIndex key = .ok (r, t')) :
    t'.used = (ks ++ [key]).eraseDups := by
  have hnew (hnew : ∀ j < t.nextIkey, t.ikeys[j]? ≠ some key) : key ∉ ks := by
    intro hmem
    rw [← List.mem_eraseDups, ← hused, used, List.mem_take_iff_getElem] at hmem
    obtain ⟨j, hj, heq⟩ := hmem
    rw [Nat.lt_min] at hj
    exact hnew j hj.1 (List.getElem?_eq_some_iff.mpr ⟨hj.2, heq⟩)
  rw [eraseDups_concat, ← hused]
  rcases getOrCreate_cases hwf key with ⟨i, hi, hget, heq⟩ | ⟨hfresh, hlt, heq⟩ | ⟨-, hfull, -⟩
  · cases h.symm.trans heq
    have hmem : key ∈ t.used := by
      rw [used, List.mem_take_iff_getElem]
      obtain ⟨hlen, hkey⟩ := List.getElem?_eq_some_iff.mp hget
      exact ⟨i, Nat.lt_min.mpr ⟨hi, hlen⟩, hkey⟩
    rw [hused, List.mem_eraseDups] at hmem
    rw [if_pos hmem]
  · cases h.symm.trans heq
    rw [if_neg (hnew hfresh), used, used, List.take_add_one, List.getElem?_set_self hlt,
      List.take_set_of_le (Nat.le_refl _)]
    rfl
  · -- there are no more keys than were added
    have hle := length_eraseDups_le ks
    rw [← hused, length_used hwf] at hle
    omega

/-- The index of a key among those that were added. -/
theorem keyIndex_of_used (hwf : t.Wf) (hused : t.used = ks.eraseDups) (hkey : key ∈ ks) :
    t.keyIndex key = some (ks.take (ks.idxOf key)).eraseDups.length := by
  have hget := eraseDups_getElem? hkey
  rw [← hused] at hget
  have hlt := (List.getElem?_eq_some_iff.mp hget).1
  rw [length_used hwf] at hlt
  rw [used, List.getElem?_take_of_lt hlt] at hget
  exact (keyIndex_eq_some_iff hwf).mpr ⟨hlt, hget⟩

end InstrumentKeys

namespace TuningForkImpl

open InstrumentKeys

/-- Filling the settings up adds no keys. -/
theorem keys_of_initHistogramSettings {n : ℕ} {hs hs' : List TFHistogram}
    {keys keys' : InstrumentKeys}
    (h : initHistogramSettings n hs.length hs keys = .ok (hs', keys')) : keys' = keys := by
  induction n generalizing hs with
  | zero =>
    cases h
    rfl
  | succ n ih =>
    rw [initHistogramSettings, List.getElem?_eq_none (Nat.le_refl _)] at h
    have hlen : (hs ++ [defaultHistogram]).length = hs.length + 1 := List.length_append
    rw [← hlen] at h
    exact ih h

/-- The loop adds the keys of the settings, one after another. -/
theorem used_initHistogramSettings {n i : ℕ} {hs hs' : List TFHistogram}
    {keys keys' : InstrumentKeys} (hwf : keys.Wf) (hi : i ≤ hs.length)
    (hroom : i + n ≤ keys.ikeys.length)
    (hused : keys.used = ((hs.take i).map TFHistogram.key).eraseDups)
    (h : initHistogramSettings n i hs keys = .ok (hs', keys')) :
    keys'.used = ((hs.take (i + n)).map TFHistogram.key).eraseDups := by
  induction n generalizing i keys with
  | zero =>
    cases h
    exact hused
  | succ n ih =>
    rcases Nat.eq_or_lt_of_le hi with rfl | hlt
    · rw [keys_of_initHistogramSettings h, hused, List.take_of_length_le (Nat.le_refl _),
        List.take_of_length_le (Nat.le_add_right _ _)]
    · rw [initHistogramSettings, List.getElem?_eq_getElem hlt] at h
      obtain ⟨⟨r, keys₁⟩, hkeys₁, h⟩ := Checked.bind_eq_ok.mp h
      obtain ⟨hwf₁, hext, -⟩ := getOrCreate_eq_ok hwf hkeys₁
      have hlen : ((hs.take i).map TFHistogram.key).length < keys.ikeys.length := by
        rw [List.length_map, List.length_take]
        omega
      have hused₁ := used_getOrCreate hwf hused hlen hkeys₁
      have hconcat : (hs.take i).map TFHistogram.key ++ [hs[i].instrumentKey.toUInt32.toUInt16] =
          (hs.take (i + 1)).map TFHistogram.key := by
        rw [List.take_add_one, List.getElem?_eq_getElem hlt, List.map_append]
        rfl
      rw [hconcat] at hused₁
      have hrest := ih hwf₁ hlt (by rw [hext.length_eq]; omega) hused₁ h
      rwa [Nat.succ_add_eq_add_succ] at hrest

/-- What the constructor makes of the settings. -/
theorem settings_new {st : Settings} {info : ExtraUploadInfo} {now : TimePoint}
    {s : TuningForkImpl} (hnew : new st info now = .ok s) :
    s.settings = { st with histograms := st.filled } ∧ s.keys.Wf ∧
      s.keys.ikeys.length = st.maxInstrumentationKeys.toNat ∧
      s.keys.used = st.entryKeys.eraseDups := by
  obtain ⟨histograms, keys, ps, hinit, -, rfl⟩ := new_eq_ok hnew
  obtain ⟨keys', hinit', hwf, hlen⟩ := initHistogramSettings_spec
    (n := st.maxInstrumentationKeys.toNat) (i := 0) (Nat.zero_le st.histograms.length)
    (wf_replicate _)
  rw [List.length_replicate] at hlen
  cases hinit.symm.trans hinit'
  refine ⟨?_, hwf, hlen, ?_⟩
  · rw [Settings.filled, Nat.zero_add]
  · have hused := used_initHistogramSettings (wf_replicate _) (Nat.zero_le _)
      (by rw [List.length_replicate, Nat.zero_add]) rfl hinit
    rwa [Nat.zero_add] at hused

/-- A repetition before the first settings for a key gives it a smaller index than theirs. -/
theorem keyIndex_lt_of_repetition {st : Settings} {info : ExtraUploadInfo} {now : TimePoint}
    {s : TuningForkImpl} (hnew : new st info now = .ok s) {key : InstrumentationKey}
    (hkey : key ∈ st.entryKeys)
    (hrepeated : ¬ (st.entryKeys.take (st.entryKeys.idxOf key)).Nodup) :
    ∃ j < st.entryKeys.idxOf key, s.keys.keyIndex key = some j := by
  obtain ⟨-, hwf, -, hused⟩ := settings_new hnew
  refine ⟨_, ?_, keyIndex_of_used hwf hused hkey⟩
  by_contra hge
  rw [not_lt] at hge
  apply hrepeated
  apply nodup_of_length_eraseDups
  rwa [List.length_take_of_le List.idxOf_le_length]

end TuningForkImpl

/-! ## The prongs

Which settings a prong is built from follows from its position in the cache, which is not that of
its key in the list.
-/

/-- Prong `i + m` is built from the settings for its index. -/
theorem ProngCache.getElem?_allocate {k : UInt32} {settings : List TFHistogram}
    {serializeId : ℕ → Except (Fault Vec) SerializedAnnotation} (hpos : 0 < k.toNat)
    (hk : k.toNat < 2 ^ 16) (hlen : k.toNat ≤ settings.length) {n i : ℕ}
    {ikey : InstrumentationKey} {ps : List Prong} (hikey : ikey.toNat = i % k.toNat)
    (h : allocate k.toInt32 settings serializeId n i ikey = .ok ps) :
    ∀ m p, ps[m]? = some p →
      ∃ hs, settings[(i + m) % k.toNat]? = some hs ∧ Histogram.ofSettings hs = .ok p.histogram := by
  have hlt : i % k.toNat < k.toNat := Nat.mod_lt i hpos
  induction n generalizing i ikey ps with
  | zero =>
    cases h
    intro m p hp
    exact (nomatch hp)
  | succ n ih =>
    obtain ⟨ann, -, h⟩ := Checked.bind_eq_ok.mp h
    obtain ⟨hs, hhs, h⟩ := Checked.bind_eq_ok.mp h
    obtain ⟨histogram, hhistogram, h⟩ := Checked.bind_eq_ok.mp h
    obtain ⟨qs, hqs, h⟩ := Checked.bind_eq_ok.mp h
    cases h
    rw [if_pos (by omega), hikey] at hhs
    have hmax : k.toInt32.toInt = k.toNat := sizeT_toInt32 (by omega)
    have hsucc : (ikey + 1).toNat = i % k.toNat + 1 := by
      rw [UInt16.toNat_add, hikey, UInt16.toNat_one]
      exact Nat.mod_eq_of_lt (by omega)
    have hnext : (if k.toInt32.toInt ≤ (ikey + 1).toNat then 0 else ikey + 1).toNat =
        (i + 1) % k.toNat := by
      rw [← Nat.mod_add_mod, hmax, hsucc]
      by_cases hle : k.toNat ≤ i % k.toNat + 1
      · have heq : i % k.toNat + 1 = k.toNat := by omega
        rw [if_pos (Int.ofNat_le.mpr hle), heq, Nat.mod_self]
        rfl
      · rw [if_neg fun h => hle (Int.ofNat_le.mp h), hsucc]
        exact (Nat.mod_eq_of_lt (not_le.mp hle)).symm
    rintro (_ | m) p hp
    · obtain rfl := Option.some.inj hp
      exact ⟨hs, Checked.read_eq_ok_iff.mp hhs, hhistogram⟩
    · have hrest := ih hnext hqs (Nat.mod_lt _ hpos) m p hp
      rwa [Nat.succ_add_eq_add_succ] at hrest

/-- A prong of the constructor is built from the settings at its place. -/
theorem TuningForkImpl.prong_new {st : Settings} {info : ExtraUploadInfo} {now : TimePoint}
    {s : TuningForkImpl} (hpos : 1 ≤ st.maxInstrumentationKeys.toNat)
    (hk : st.maxInstrumentationKeys.toNat ≤ 256) (hnew : new st info now = .ok s) (c : Bool)
    {i : ℕ} {p : Prong} (hp : (s.prongCaches c).prongs[i]? = some p) :
    i < 2 ^ 32 ∧ ∃ hs, st.filled[i % st.maxInstrumentationKeys.toNat]? = some hs ∧
      Histogram.ofSettings hs = .ok p.histogram := by
  have hsettings := (settings_new hnew).1
  obtain ⟨histograms, keys, ps, -, hps, rfl⟩ := new_eq_ok hnew
  obtain rfl : histograms = st.filled := congrArg Settings.histograms hsettings
  have hlt : i < ps.length := (List.getElem?_eq_some_iff.mp hp).1
  rw [(ProngCache.allocate_eq_ok hps).1] at hlt
  refine ⟨Nat.lt_trans hlt (maxNumProngs_lt _ _), ?_⟩
  · have hzero : (0 : InstrumentationKey).toNat = 0 % st.maxInstrumentationKeys.toNat :=
      (Nat.zero_mod _).symm
    have hget := ProngCache.getElem?_allocate hpos (by omega) Settings.le_length_filled
      hzero hps i p hp
    rwa [Nat.zero_add] at hget

/-! ## Every run

Keys that turn up later come after all keys of the settings. What is recorded for a key is recorded
in a suitable prong.
-/

namespace InstrumentKeys

/-- A key without an index gets the next one. -/
theorem index_getOrCreate {t t' : InstrumentKeys} (hwf : t.Wf) {key : InstrumentationKey} {i : ℕ}
    (h : t.getOrCreateInstrumentKeyIndex key = .ok (some i, t')) :
    i = (t.keyIndex key).getD t.nextIkey := by
  rcases getOrCreate_cases hwf key with ⟨j, hj, hget, heq⟩ | ⟨hnew, -, heq⟩ | ⟨-, -, heq⟩
  · cases h.symm.trans heq
    rw [(keyIndex_eq_some_iff hwf).mpr ⟨hj, hget⟩, Option.getD_some]
  · cases h.symm.trans heq
    rw [keyIndex_eq_none_iff.mpr hnew, Option.getD_none]
  · cases h.symm.trans heq

end InstrumentKeys

namespace Settings

variable {st : Settings}

/-! ### Suitable settings

A key is in good hands if the settings at its index are those for it. This stays so when the key
table grows, so it can be followed through a run.
-/

/-- The settings at the index of the key are those for the key. -/
def Suited (st : Settings) : Origin.Property := fun t o =>
  GoodId st.maxInstrumentationKeys.toNat o.annotationId ∧
    ∃ j, t.keyIndex o.key = some j ∧ st.filled[j]? = some (st.histogramFor o.key)

theorem suited_stable : st.Suited.Stable := by
  rintro t t' o hwf hwf' hext - ⟨hid, j, hj, hget⟩
  exact ⟨hid, j, hext.keyIndex hwf hwf' hj, hget⟩

/-- A key that meets the condition gets a suitable index. -/
theorem filled_of_keyOk {t₀ t t' : InstrumentKeys} (hwf₀ : t₀.Wf)
    (hused : t₀.used = st.entryKeys.eraseDups) (hext : t₀.Extends t) (hwf : t.Wf)
    (hlen : t.ikeys.length = st.maxInstrumentationKeys.toNat) {key : InstrumentationKey} {i : ℕ}
    (hok : st.KeyOk t key) (h : t.getOrCreateInstrumentKeyIndex key = .ok (some i, t')) :
    t'.keyIndex key = some i ∧ st.filled[i]? = some (st.histogramFor key) := by
  obtain ⟨hwf', hext', -⟩ := InstrumentKeys.getOrCreate_eq_ok hwf h
  have hindex := (InstrumentKeys.keyIndex_getOrCreate hwf h).1
  refine ⟨hindex, ?_⟩
  by_cases hkey : key ∈ st.entryKeys
  · -- its index is from the start, and as many keys come before it as settings
    have hstart := (hext.trans hext').keyIndex hwf₀ hwf'
      (InstrumentKeys.keyIndex_of_used hwf₀ hused hkey)
    rw [eraseDups_of_nodup (hok.1 hkey), List.length_take_of_le List.idxOf_le_length, hindex]
      at hstart
    rw [Option.some.inj hstart]
    exact filled_idxOf hkey
  · have hle := hok.2 hkey
    rw [← InstrumentKeys.index_getOrCreate hwf h] at hle
    have hlt := ((InstrumentKeys.keyIndex_eq_some_iff hwf').mp hindex).1
    have hnext := hwf'.nextIkey_le
    rw [hext'.length_eq, hlen] at hnext
    exact filled_of_le hkey hle (Nat.lt_of_lt_of_le hlt hnext)

end Settings

/-- The condition on a call: the key it is for meets the one on keys, or the annotation id it
sets does not wrap, unless it is refused. -/
def Settings.CallOk (st : Settings) (s : TuningForkImpl) : Call → Prop
  | Call.setCurrentAnnotation ann =>
    let id := decodeAnnotationSerialization ann s.annotationRadixMult
    id = kAnnotationError ∨ (id.toNat + 1) * st.maxInstrumentationKeys.toNat ≤ 2 ^ 64
  | c => ∀ key, c.key = some key → st.KeyOk s.keys key

namespace Recorded

variable {st : Settings} {s₀ : TuningForkImpl} {sqrt : ℚ → ℚ} {τ τ' : Recorded}

/-! ### Steps that meet the condition

A step of the threads in which the call meets the condition, and what it keeps.
-/

/-- The steps of the two threads, with calls that meet the condition. -/
inductive StepOk (st : Settings) (sqrt : ℚ → ℚ) (τ : Recorded) : Recorded → Prop
  | call {c due s'} (hphase : τ.system.phase = .between) (hok : st.CallOk τ.system.impl c)
      (h : τ.system.impl.callBody sqrt c = .ok (due, s')) : StepOk st sqrt τ (τ.after c due s')
  | flush {σ'} (hphase : τ.system.phase ≠ .between) (h : System.Step sqrt τ.system σ') :
      StepOk st sqrt τ { τ with system := σ' }
  | upload (glEsVersion : UInt32) : StepOk st sqrt τ { τ with
      system := ⟨τ.system.impl.upload glEsVersion, τ.system.phase⟩ }

/-- The prongs with samples for a key were built from the settings for that key. -/
def Built (st : Settings) (s₀ : TuningForkImpl) (τ : Recorded) : Prop :=
  ∀ a ∈ τ.system.impl.added, (∃ r ∈ τ.records, r.sample = a.2) ∧
    ∀ r ∈ τ.records, r.sample = a.2 → ∀ c p, (s₀.prongCaches c).prongs[a.1]? = some p →
      Histogram.ofSettings (st.histogramFor r.origin.key) = .ok p.histogram

/-- What was recorded, and the traces, are for keys with a suitable index. -/
structure Suits (st : Settings) (s₀ : TuningForkImpl) (τ : Recorded) : Prop where
  marked : Marked st.Suited τ.system.impl τ.records τ.traces
  settings : τ.system.impl.settings = { st with histograms := st.filled }
  keys : s₀.keys.Extends τ.system.impl.keys
  goodId : GoodId st.maxInstrumentationKeys.toNat τ.system.impl.currentAnnotationId

theorem StepOk.step (h : StepOk st sqrt τ τ') : Step sqrt τ τ' := by
  cases h with
  | call hphase hok h => exact .call hphase h
  | flush hphase h => exact .flush hphase h
  | upload v => exact .upload v

theorem suits_call {info : ExtraUploadInfo} {now : TimePoint}
    (hnew : TuningForkImpl.new st info now = .ok s₀) (hτ : τ.Suits st s₀) {c : Call}
    {due : Option TimePoint} {s' : TuningForkImpl} (hok : st.CallOk τ.system.impl c)
    (hbody : τ.system.impl.callBody sqrt c = .ok (due, s')) : (τ.after c due s').Suits st s₀ := by
  obtain ⟨-, hwf₀, hlen₀, hused⟩ := TuningForkImpl.settings_new hnew
  have hwf := hτ.marked.keys
  obtain ⟨hsettings, -, hext, -⟩ := TuningForkImpl.follows_of_callBody hwf hbody
  refine ⟨hτ.marked.call Settings.suited_stable (fun key i keys hkey hkeys => ?_) hbody,
    hsettings.trans hτ.settings, hτ.keys.trans hext, ?_⟩
  · have hkeyOk : st.KeyOk τ.system.impl.keys key := by
      cases c with
      | frameTick _ _ => exact hok key hkey
      | frameDeltaTimeNanos _ _ _ => exact hok key hkey
      | startTrace _ _ => exact hok key hkey
      | _ => cases hkey
    exact ⟨hτ.goodId, i, Settings.filled_of_keyOk hwf₀ hused hτ.keys hwf
      (hτ.keys.length_eq.trans hlen₀) hkeyOk hkeys⟩
  · have hk : τ.system.impl.settings.maxInstrumentationKeys = st.maxInstrumentationKeys := by
      rw [hτ.settings]
    refine goodId_of_callBody hwf hk hτ.goodId (fun ann hann => ?_) hbody
    subst hann
    exact hok

theorem suits_step {info : ExtraUploadInfo} {now : TimePoint}
    (hnew : TuningForkImpl.new st info now = .ok s₀) (hτ : τ.Suits st s₀)
    (h : StepOk st sqrt τ τ') : τ'.Suits st s₀ := by
  cases h with
  | call hphase hok h => exact suits_call hnew hτ hok h
  | flush hphase h =>
    obtain ⟨hsettings, hkeys, hid, hadded, hlive⟩ := System.frame_of_flush hphase h
    exact ⟨hτ.marked.frame hkeys hadded hlive, hsettings.trans hτ.settings, hkeys ▸ hτ.keys,
      hid ▸ hτ.goodId⟩
  | upload v => exact ⟨hτ.marked.frame rfl rfl rfl, hτ.settings, hτ.keys, hτ.goodId⟩

/-- A suitable index and a good annotation id make the number of a suitable prong. -/
theorem Suits.ofSettings {info : ExtraUploadInfo} {now : TimePoint}
    (hpos : 1 ≤ st.maxInstrumentationKeys.toNat) (hk : st.maxInstrumentationKeys.toNat ≤ 256)
    (hnew : TuningForkImpl.new st info now = .ok s₀) (hτ : τ.Suits st s₀) {i : ℕ} {o : Origin}
    (hlands : o.LandsIn τ.system.impl.keys i) (hsuited : st.Suited τ.system.impl.keys o) {c : Bool}
    {p : Prong} (hp : (s₀.prongCaches c).prongs[i]? = some p) :
    Histogram.ofSettings (st.histogramFor o.key) = .ok p.histogram := by
  obtain ⟨hlt, hs, hget, hhistogram⟩ := TuningForkImpl.prong_new hpos hk hnew c hp
  obtain ⟨j, hj, hi⟩ := hlands
  obtain ⟨hid, j', hj', hfilled⟩ := hsuited
  obtain rfl : j = j' := Option.some.inj (hj.symm.trans hj')
  have hlen := hτ.keys.length_eq.trans (TuningForkImpl.settings_new hnew).2.2.1
  have hnext := hτ.marked.keys.nextIkey_le
  have hjlt := ((InstrumentKeys.keyIndex_eq_some_iff hτ.marked.keys).mp hj).1
  have hjk : j < st.maxInstrumentationKeys.toNat := by omega
  obtain ⟨m, hm, hroom⟩ | hbig := hid
  · have hmod : i % st.maxInstrumentationKeys.toNat = j := by
      rw [Nat.mul_succ] at hroom
      rw [UInt64.toNat_add, UInt64.toNat_ofNat_of_lt' (by simp only [UInt64.size]; omega), hm,
        Nat.mod_eq_of_lt (by omega)] at hi
      rw [← hi, Nat.add_mul_mod_self_left, Nat.mod_eq_of_lt hjk]
    rw [hmod, hfilled] at hget
    obtain rfl := Option.some.inj hget
    exact hhistogram
  · -- there is no such prong
    have hge := hbig j hjk
    omega

/-- **Each prong with samples for a key was built from the settings for the key**, in the runs
whose calls meet the condition. -/
theorem built_of_run (sqrt : ℚ → ℚ) {info : ExtraUploadInfo} {now : TimePoint}
    (hpos : 1 ≤ st.maxInstrumentationKeys.toNat) (hk : st.maxInstrumentationKeys.toNat ≤ 256)
    (hnew : TuningForkImpl.new st info now = .ok s₀)
    (hrun : Relation.ReflTransGen (StepOk st sqrt) (start s₀) τ) : τ.Built st s₀ := by
  have hstart : (start s₀).Suits st s₀ := by
    refine ⟨.start hnew, (TuningForkImpl.settings_new hnew).1, .refl _, ?_⟩
    obtain ⟨_, _, _, -, -, rfl⟩ := TuningForkImpl.new_eq_ok hnew
    exact goodId_zero _
  have hτ : τ.Suits st s₀ :=
    Runs.invariant_of_reachable (P := Suits st s₀) (fun _ _ => suits_step hnew) hstart hrun
  have hsteps : Relation.ReflTransGen (Step sqrt) (start s₀) τ :=
    Relation.ReflTransGen.mono (fun _ _ => StepOk.step) _ _ hrun
  have hacc := TuningForkImpl.accounted_of_run hnew (Step.systems hsteps)
  rintro ⟨i, d⟩ ha
  obtain ⟨hex, hall⟩ := hτ.marked.landsIn hacc.serials ha
  refine ⟨hex, fun r hr hsample c p hp => ?_⟩
  obtain ⟨hlands, hsuited⟩ := hall r hr hsample
  exact hτ.ofSettings hpos hk hnew hlands hsuited hp

end Recorded

/-- Settings for two keys, and room for a third. -/
def threeKeys : Settings :=
  { twoKeys with
    maxInstrumentationKeys := 3
    histograms := [⟨1, 10, 40, 30⟩, ⟨2, 10, 40, 20⟩] }

/-- There are two for key 1. -/
def repeatedKey : Settings :=
  { threeKeys with histograms := [⟨1, 10, 40, 30⟩, ⟨1, 10, 40, 10⟩, ⟨2, 10, 40, 20⟩] }

namespace Recorded

/-- A frame time for key 2. -/
theorem built_of_run_threeKeys : ∃ s₀ τ, TuningForkImpl.new threeKeys noExtraInfo 0 = .ok s₀ ∧
    Relation.ReflTransGen (StepOk threeKeys fun x => x) (start s₀) τ ∧
    τ.system.impl.added = [(1, ⟨17, 0⟩)] ∧ τ.Built threeKeys s₀ := by
  have hok : (TuningForkImpl.new threeKeys noExtraInfo 0 >>= fun s =>
      (s.callBody (fun x => x) (.frameDeltaTimeNanos 2 17000000 33000000)).map fun r =>
        (r.2.added, decide (threeKeys.KeyOk s.keys 2))) = .ok ([(1, ⟨17, 0⟩)], true) := by
    decide +kernel
  obtain ⟨s₀, hnew, hok⟩ := Checked.bind_eq_ok.mp hok
  obtain ⟨⟨due, s'⟩, hbody, heq⟩ := Checked.map_eq_ok.mp hok
  obtain ⟨hadded, hkey⟩ := Prod.mk.inj heq
  have hcall : threeKeys.CallOk s₀ (.frameDeltaTimeNanos 2 17000000 33000000) := by
    rintro key ⟨⟩
    exact of_decide_eq_true hkey
  have hrun := Relation.ReflTransGen.single (StepOk.call (τ := start s₀) rfl hcall hbody)
  exact ⟨s₀, _, hnew, hrun, hadded, built_of_run _ (by decide) (by decide) hnew hrun⟩

/-- Key 2 has the second index, and its prong was built from the second settings for key 1. -/
theorem not_built_repeatedKey : ∃ s₀ τ, TuningForkImpl.new repeatedKey noExtraInfo 0 = .ok s₀ ∧
    Relation.ReflTransGen (Step fun x => x) (start s₀) τ ∧ ¬ τ.Built repeatedKey s₀ := by
  have hok : (TuningForkImpl.new repeatedKey noExtraInfo 0).toOption.bind (fun s =>
      ((start s).calls (fun x => x) [.frameDeltaTimeNanos 2 17000000 33000000]).map fun τ =>
        (τ.system.impl.added, τ.records,
          (s.prongCaches false).prongs.map fun p => p.histogram.numBuckets)) =
      some ([(1, ⟨17, 0⟩)], [⟨⟨17, 0⟩, ⟨2, 0⟩, 0⟩], [32, 12, 22]) := by
    decide +kernel
  obtain ⟨s₀, hnew, hok⟩ := Option.bind_eq_some_iff.mp hok
  obtain ⟨τ, hτ, heq⟩ := Option.map_eq_some_iff.mp hok
  simp only [Prod.mk.injEq] at heq
  obtain ⟨hadded, hrecords, hprongs⟩ := heq
  refine ⟨s₀, τ, Checked.toOption_eq_some.mp hnew, reachable_of_calls hτ, fun hbuilt => ?_⟩
  have hget := congrArg (fun l => l[1]?) hprongs
  simp only [List.getElem?_map] at hget
  obtain ⟨p, hp, hbuckets⟩ := Option.map_eq_some_iff.mp hget
  have hall := (hbuilt (1, ⟨17, 0⟩) (by rw [hadded]; exact List.mem_singleton_self _)).2
    ⟨⟨17, 0⟩, ⟨2, 0⟩, 0⟩ (by rw [hrecords]; exact List.mem_singleton_self _) rfl false p hp
  have htwo : (Histogram.ofSettings (repeatedKey.histogramFor 2)).map (fun h => h.numBuckets) =
      .ok 22 := by
    decide +kernel
  rw [hall] at htwo
  cases hbuckets.symm.trans (Except.ok.inj htwo)

end Recorded

end GameSdk
