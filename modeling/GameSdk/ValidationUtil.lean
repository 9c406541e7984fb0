import GameSdk.AnnotationCodec
import GameSdk.DigitSets
import Mathlib.Algebra.BigOperators.Group.List.Lemmas
import Mathlib.Data.List.Sort

/-!
# The annotation validator (`ValidationUtil.java`)

Before an app ships, a tool looks at its `Annotation` message and returns the
enum sizes that go into the settings. It counts: the sizes are the numbers of
values of the fields' enums, in the order of declaration. At run time the decoder
does not see declarations, it sees field numbers and the numbers of enum values.
`Fits` and `Separated` say when the two ways of looking at a message agree.

`Sound` is what the app relies on: the decoder accepts every message, and different messages have
different ids. Whether it does is a matter of the descriptor alone, and can be computed from it.

* `decode_eq`: a message that fits is decoded to the numeral of its values.
* `accepted_iff_fits`: the decoder accepts every message exactly if the descriptor fits the sizes.
* `exists_digits`: every choice of digits is that of a message, which is why the condition is exact.

The condition compares sets of digits, as `DigitSets.lean` does for any radices. For enums whose
values count on from one, and fields whose numbers do, it always holds.
-/

namespace GameSdk

open MixedRadix

/-- `FieldDescriptor.Type`. -/
inductive FieldType where
  | double | float | int64 | uint64 | int32 | fixed64 | fixed32 | bool | string | group
  | message | bytes | uint32 | enum | sfixed32 | sfixed64 | sint32 | sint64
  deriving DecidableEq

/-- What `%s` prints of a type. -/
def FieldType.toString : FieldType → String
  | double => "DOUBLE"
  | float => "FLOAT"
  | int64 => "INT64"
  | uint64 => "UINT64"
  | int32 => "INT32"
  | fixed64 => "FIXED64"
  | fixed32 => "FIXED32"
  | bool => "BOOL"
  | string => "STRING"
  | group => "GROUP"
  | message => "MESSAGE"
  | bytes => "BYTES"
  | uint32 => "UINT32"
  | enum => "ENUM"
  | sfixed32 => "SFIXED32"
  | sfixed64 => "SFIXED64"
  | sint32 => "SINT32"
  | sint64 => "SINT64"

/-- A singular field of a message type, with what the compiler of protocol buffers
promises of it. -/
structure FieldDescriptor where
  name : String
  number : ℕ
  type : FieldType
  /-- the numbers of the values of its enum type, in the order of declaration -/
  enumType : List ℤ
  /-- a message can tell zero from unset: every field of proto2, none of proto3 -/
  hasPresence : Bool
  number_pos : 1 ≤ number
  int32 : ∀ v ∈ enumType, -2 ^ 31 ≤ v ∧ v < 2 ^ 31

/-- What the compiled message says about its fields. -/
structure Descriptor where
  fields : List FieldDescriptor
  oneofs : List String
  nestedTypes : List String
  extensions : List String
  nodup : (fields.map FieldDescriptor.number).Nodup

/-- The types of error the check of an annotation can add. -/
inductive ErrorType where
  | annotationEmpty
  | annotationComplex
  | annotationType
  deriving DecidableEq

/-- The errors so far, in the order they were added. -/
abbrev ErrorCollector : Type := List (ErrorType × String)

/-- Errors are collected, in their order. -/
def ErrorCollector.addError (errors : ErrorCollector) (errorType : ErrorType)
    (message : String) : ErrorCollector := errors ++ [(errorType, message)]

/-- The loop of `validateAnnotationAndGetEnumSizes` over the rest of the fields. -/
def enumSizesLoop (errors : ErrorCollector) (sizes : List ℕ) :
    List FieldDescriptor → Option (List ℕ) × ErrorCollector
  | [] => (some sizes, errors)
  | field :: fields =>
    if field.type ≠ .enum then
      (none, errors.addError .annotationType ("Annotation can only contains enums, but contains " ++
        field.name ++ " field with type " ++ field.type.toString))
    else enumSizesLoop errors (sizes ++ [field.enumType.length]) fields

/-- The checks of the annotation message, and its enum sizes. -/
def validateAnnotationAndGetEnumSizes (annotationDesc : Option Descriptor)
    (errors : ErrorCollector) : Option (List ℕ) × ErrorCollector :=
  match annotationDesc with
  | none => (none, errors.addError .annotationEmpty "Annotation descriptor is not exist")
  | some annotationDesc =>
    if annotationDesc.oneofs ≠ [] then
      (none, errors.addError .annotationComplex "Annotation too complex - has oneofs")
    else if annotationDesc.nestedTypes ≠ [] then
      (none, errors.addError .annotationComplex "Annotation too complex - has nested types")
    else if annotationDesc.extensions ≠ [] then
      (none, errors.addError .annotationComplex "Annotation too complex - hes extension")
    else enumSizesLoop errors [] annotationDesc.fields

/-- If all fields are enums there is a size for each. -/
theorem length_of_enumSizesLoop {errors errors' : ErrorCollector} {sizes sizes' : List ℕ}
    {fields : List FieldDescriptor}
    (h : enumSizesLoop errors sizes fields = (some sizes', errors')) :
    sizes' = sizes ++ fields.map fun field => field.enumType.length := by
  induction fields generalizing sizes with
  | nil =>
    simp only [enumSizesLoop, Prod.mk.injEq, Option.some.injEq] at h
    simp [h.1]
  | cons field fields ih =>
    rw [enumSizesLoop] at h
    split at h
    · cases h
    · rw [ih h, List.map_cons, List.append_assoc, List.singleton_append]

/-- What the validator returns are counts. -/
theorem eq_map_of_validate {d : Descriptor} {errors errors' : ErrorCollector} {sizes : List ℕ}
    (h : validateAnnotationAndGetEnumSizes (some d) errors = (some sizes, errors')) :
    sizes = d.fields.map fun field => field.enumType.length := by
  simp only [validateAnnotationAndGetEnumSizes] at h
  split at h
  · cases h
  split at h
  · cases h
  split at h
  · cases h
  simpa using length_of_enumSizesLoop h

/-! ## Messages

The message a game may send: a value for each field, or none. It is written field by field, in the
order of the field numbers.
-/

/-! ### What the tool guarantees

The definitions below do not come from the source: what a message can hold, how protobuf writes it,
and what the app relies on.
-/

/-- What a field can be set to. Zero in a field without presence leaves it unset. -/
def FieldDescriptor.settable (f : FieldDescriptor) : List ℤ :=
  f.enumType.filter fun v => f.hasPresence || v ≠ 0

/-- The numbers the set fields of a message hold, by field number. -/
structure Message (d : Descriptor) where
  value : ℕ → Option ℤ
  valid : ∀ n, ∀ v ∈ value n, ∃ f ∈ d.fields, f.number = n ∧ v ∈ f.settable

/-- Fields are written in ascending order of their numbers. -/
def Descriptor.numbers (d : Descriptor) : List ℕ :=
  (d.fields.map FieldDescriptor.number).insertionSort (· ≤ ·)

/-- An enum value is written as an `int64`. -/
def wireValue (v : ℤ) : ℕ := (v % 2 ^ 64).toNat

/-- The protobuf bytes: for each set field its tag (the field number, wire type
varint) and its value. -/
def Message.serialize {d : Descriptor} (m : Message d) : SerializedAnnotation :=
  d.numbers.flatMap fun n =>
    match m.value n with
    | none => []
    | some v => Varint.encode (n * 8) ++ Varint.encode (wireValue v)

/-- The table the settings make of the sizes. -/
def radixesOf (sizes : List ℕ) : List UInt32 :=
  setUpAnnotationRadixes (sizes.map UInt32.ofNat)

/-- What the app relies on when it ships with these sizes. -/
structure Descriptor.Sound (d : Descriptor) (sizes : List ℕ) : Prop where
  accepted : ∀ m : Message d,
    decodeAnnotationSerialization m.serialize (radixesOf sizes) ≠ kAnnotationError
  injective : ∀ m m' : Message d, m.value ≠ m'.value →
    decodeAnnotationSerialization m.serialize (radixesOf sizes) ≠
      decodeAnnotationSerialization m'.serialize (radixesOf sizes)

/-- The values of the field with a number. -/
def Descriptor.valuesAt (d : Descriptor) (n : ℕ) : List ℤ :=
  ((d.fields.find? fun f => f.number = n).map FieldDescriptor.settable).getD []

/-- A field number is a place in the table, and every value is positive, at most 255
and below the entry at that place, the product of the sizes up to there. -/
def Descriptor.Fits (d : Descriptor) (sizes : List ℕ) : Prop :=
  ∀ f ∈ d.fields, ∀ v ∈ f.settable, f.number ≤ sizes.length ∧ 1 ≤ v ∧ v ≤ 255 ∧
    v < (((sizes.map (· + 1)).take f.number).prod : ℕ)

instance (d : Descriptor) (sizes : List ℕ) : Decidable (d.Fits sizes) :=
  inferInstanceAs (Decidable (∀ f ∈ d.fields, ∀ v ∈ f.settable, _ ∧ _))

/-- What each place of an id can hold: the values of the field with its number, and
zero when that field is unset. -/
def Descriptor.digitSets (d : Descriptor) (n : ℕ) : List (List ℕ) :=
  (List.range n).map fun k => 0 :: (d.valuesAt (k + 1)).map Int.toNat

/-- No field has two values that many radices of its place apart that the fields
numbered higher can make up for. -/
def Descriptor.Separated (d : Descriptor) (sizes : List ℕ) : Prop :=
  MixedRadix.Separated (sizes.map (· + 1)) (d.digitSets sizes.length)

instance (d : Descriptor) (sizes : List ℕ) : Decidable (d.Separated sizes) :=
  inferInstanceAs (Decidable (MixedRadix.Separated _ _))

/-- The values of a field number are those of the field with this number. -/
theorem Descriptor.mem_valuesAt {d : Descriptor} {n : ℕ} {v : ℤ} :
    v ∈ d.valuesAt n ↔ ∃ f ∈ d.fields, f.number = n ∧ v ∈ f.settable := by
  rw [Descriptor.valuesAt]
  constructor
  · intro h
    rcases hfind : d.fields.find? fun f => f.number = n with _ | f
    · rw [hfind] at h
      cases h
    · rw [hfind] at h
      exact ⟨f, List.mem_of_find?_eq_some hfind, by simpa using List.find?_some hfind, h⟩
  · rintro ⟨f, hf, rfl, hv⟩
    rcases hfind : d.fields.find? fun g => g.number = f.number with _ | g
    · have := List.find?_eq_none.mp hfind f hf
      simp at this
    · have hnumber : g.number = f.number := by simpa using List.find?_some hfind
      obtain rfl := List.inj_on_of_nodup_map d.nodup (List.mem_of_find?_eq_some hfind) hf hnumber
      rw [hfind]
      exact hv

/-- The field numbers, in another order. -/
theorem Descriptor.perm_numbers (d : Descriptor) :
    d.numbers.Perm (d.fields.map FieldDescriptor.number) :=
  List.perm_insertionSort _ _

/-- A number is that of a field. -/
theorem Descriptor.mem_numbers {d : Descriptor} {n : ℕ} :
    n ∈ d.numbers ↔ ∃ f ∈ d.fields, f.number = n := by
  rw [d.perm_numbers.mem_iff, List.mem_map]

/-- No two fields have the same number. -/
theorem Descriptor.nodup_numbers (d : Descriptor) : d.numbers.Nodup :=
  d.perm_numbers.nodup_iff.mpr d.nodup

/-! ## What the decoder makes of a message

The decoder takes field numbers for places and values for digits. So a message is a numeral whose
sets of digits the descriptor gives.
-/

/-- Sizes with one added are not zero. -/
theorem pos_of_mem_map_succ (sizes : List ℕ) : ∀ r ∈ sizes.map (· + 1), 0 < r := by
  intro r hr
  obtain ⟨e, -, rfl⟩ := List.mem_map.mp hr
  exact Nat.succ_pos e

/-- The radices of the sizes that the tool returns. -/
theorem radices_ofNat {sizes : List ℕ} (hprod : (sizes.map (· + 1)).prod < 2 ^ 31) :
    radices (sizes.map UInt32.ofNat) = sizes.map (· + 1) := by
  rw [radices, List.map_map]
  refine List.map_congr_left fun e he => ?_
  have hle : e + 1 ≤ (sizes.map (· + 1)).prod :=
    Nat.le_of_dvd (List.prod_pos (pos_of_mem_map_succ sizes))
      (List.dvd_prod (List.mem_map_of_mem he))
  have he' : (UInt32.ofNat e).toNat = e :=
    UInt32.toNat_ofNat_of_lt' (by simp only [UInt32.size]; omega)
  simp only [Function.comp_apply, he']

/-- The table of these sizes. -/
theorem map_toNat_radixesOf {sizes : List ℕ} (hne : sizes ≠ [])
    (hprod : (sizes.map (· + 1)).prod < 2 ^ 31) :
    (radixesOf sizes).map UInt32.toNat = cumulative 1 (sizes.map (· + 1)) := by
  have hradices := radices_ofNat hprod
  rw [radixesOf, map_toNat_setUpAnnotationRadixes (by simpa using hne) (by rw [hradices]; omega),
    hradices]

/-- One entry of the table; there is none for a field without enum size. -/
theorem toNat_getD_radixesOf {sizes : List ℕ} (hne : sizes ≠ [])
    (hprod : (sizes.map (· + 1)).prod < 2 ^ 31) (k : ℕ) :
    ((radixesOf sizes).getD k 0).toNat =
      if k < sizes.length then ((sizes.map (· + 1)).take (k + 1)).prod else 0 := by
  have hget := congrArg (fun l => l[k]?) (map_toNat_radixesOf hne hprod)
  simp only [List.getElem?_map, getElem?_cumulative, List.length_map, Nat.one_mul] at hget
  rw [List.getD_eq_getElem?_getD]
  split_ifs at hget ⊢ with hk
  · obtain ⟨r, hr, hprod'⟩ := Option.map_eq_some_iff.mp hget
    rw [hr, Option.getD_some, hprod']
  · rw [Option.map_eq_none_iff.mp hget]
    rfl

/-- A value that is not negative is written as it is. -/
theorem wireValue_of_nonneg {v : ℤ} (h : 0 ≤ v) (h31 : v < 2 ^ 31) : wireValue v = v.toNat := by
  rw [wireValue, Int.emod_eq_of_lt h (by omega)]

/-- A negative number takes ten bytes. -/
theorem le_wireValue_of_neg {v : ℤ} (h : v < 0) (h31 : -2 ^ 31 ≤ v) : 128 ^ 9 ≤ wireValue v := by
  rw [wireValue]
  omega

namespace Message

variable {d : Descriptor} {sizes : List ℕ}

/-- The set fields as the decoder counts them, from place zero. -/
def wireFields (m : Message d) : List (ℕ × ℕ) :=
  d.numbers.filterMap fun n => (m.value n).map fun v => (n - 1, wireValue v)

/-- Field numbers begin at one. -/
theorem number_pos (m : Message d) {n : ℕ} {v : ℤ} (h : m.value n = some v) : 1 ≤ n := by
  obtain ⟨f, -, rfl, -⟩ := m.valid n v h
  exact f.number_pos

/-- Only fields that are declared are set. -/
theorem mem_numbers (m : Message d) {n : ℕ} {v : ℤ} (h : m.value n = some v) : n ∈ d.numbers := by
  obtain ⟨f, hf, hn, -⟩ := m.valid n v h
  exact Descriptor.mem_numbers.mpr ⟨f, hf, hn⟩

/-- Enum values are `int32`s. -/
theorem int32 (m : Message d) {n : ℕ} {v : ℤ} (h : m.value n = some v) :
    -2 ^ 31 ≤ v ∧ v < 2 ^ 31 := by
  obtain ⟨f, -, -, hv⟩ := m.valid n v h
  exact f.int32 v (List.mem_of_mem_filter hv)

/-- The fields that are written are those that are set. -/
theorem mem_wireFields (m : Message d) {f : ℕ × ℕ} :
    f ∈ m.wireFields ↔ ∃ v, m.value (f.1 + 1) = some v ∧ f.2 = wireValue v := by
  simp only [wireFields, List.mem_filterMap, Option.map_eq_some_iff]
  constructor
  · rintro ⟨n, -, v, hv, rfl⟩
    have hn := m.number_pos hv
    refine ⟨v, ?_, rfl⟩
    rw [Nat.sub_add_cancel hn]
    exact hv
  · rintro ⟨v, hv, hf⟩
    refine ⟨f.1 + 1, m.mem_numbers hv, v, hv, ?_⟩
    rw [Nat.add_sub_cancel, ← hf]

/-- No field is written twice. -/
theorem nodup_wireFields (m : Message d) : m.wireFields.Nodup := by
  apply d.nodup_numbers.filterMap
  intro n n' f hn hn'
  simp only [Option.mem_def, Option.map_eq_some_iff] at hn hn'
  obtain ⟨v, hv, rfl⟩ := hn
  obtain ⟨v', hv', heq⟩ := hn'
  have := m.number_pos hv
  have := m.number_pos hv'
  have := (Prod.mk.inj heq).1
  omega

/-- The bytes are those of the fields, if a tag is one byte. -/
theorem serialize_eq (m : Message d) (h15 : ∀ f ∈ d.fields, f.number ≤ 15) :
    m.serialize = encodeFields m.wireFields := by
  have hnumbers : ∀ n ∈ d.numbers, n ≤ 15 := by
    intro n hn
    obtain ⟨f, hf, rfl⟩ := Descriptor.mem_numbers.mp hn
    exact h15 f hf
  rw [serialize, wireFields]
  generalize d.numbers = numbers at hnumbers ⊢
  induction numbers with
  | nil => rfl
  | cons n numbers ih =>
    obtain ⟨hn, htail⟩ := List.forall_mem_cons.mp hnumbers
    rw [List.flatMap_cons, ih htail]
    rcases hv : m.value n with _ | v
    · rw [List.filterMap_cons_none (by simp [hv]), List.nil_append]
    · have := m.number_pos hv
      rw [List.filterMap_cons_some (by rw [hv]; rfl), encodeFields,
        Varint.encode_of_lt (by omega), List.append_assoc, List.singleton_append,
        Nat.sub_add_cancel this]

/-- The decoder's check of a field, in the words of the settings. -/
theorem fieldOk_iff (m : Message d) (hsizes : sizes ≠ [])
    (hprod : (sizes.map (· + 1)).prod < 2 ^ 31) {n : ℕ} {v : ℤ} (hv : m.value n = some v) :
    FieldOk (radixesOf sizes) (n - 1, wireValue v) ↔
      n ≤ sizes.length ∧ 1 ≤ v ∧ v ≤ 255 ∧ v < (((sizes.map (· + 1)).take n).prod : ℕ) := by
  have hn := m.number_pos hv
  obtain ⟨hle, hlt⟩ := m.int32 hv
  simp only [FieldOk, toNat_getD_radixesOf hsizes hprod, Nat.sub_add_cancel hn]
  by_cases hneg : v < 0
  · have := le_wireValue_of_neg hneg hle
    omega
  · rw [wireValue_of_nonneg (by omega) hlt]
    split_ifs <;> omega

/-- **The decoder adds up the weights of the set fields**, if each of them passes its
check. -/
theorem decode_serialize (m : Message d) (h15 : ∀ f ∈ d.fields, f.number ≤ 15)
    (radixMult : List UInt32) :
    decodeAnnotationSerialization m.serialize radixMult =
      if ∀ f ∈ m.wireFields, FieldOk radixMult f then
        UInt64.ofNat (fieldsValue radixMult m.wireFields)
      else kAnnotationError := by
  rw [m.serialize_eq h15, decodeAnnotationSerialization_encodeFields]
  intro f hf
  obtain ⟨v, hv, -⟩ := m.mem_wireFields.mp hf
  obtain ⟨g, hg, hn, -⟩ := m.valid _ v hv
  have := h15 g hg
  omega

/-- The id's digits: the value of each field, in the order of field numbers. -/
def digits (m : Message d) (n : ℕ) : List ℕ :=
  (List.range n).map fun k => ((m.value (k + 1)).getD 0).toNat

/-- One digit of a message. -/
theorem getElem?_digits (m : Message d) (n k : ℕ) :
    (m.digits n)[k]? = if k < n then some ((m.value (k + 1)).getD 0).toNat else none := by
  rw [digits, List.getElem?_map]
  split_ifs with hk
  · rw [List.getElem?_range hk, Option.map_some]
  · rw [List.getElem?_eq_none (by rw [List.length_range]; omega), Option.map_none]

/-- Each digit is in the set of its place. -/
theorem isNumeral_digits (m : Message d) (n : ℕ) : IsNumeral (d.digitSets n) (m.digits n) := by
  rw [IsNumeral, Descriptor.digitSets, digits, List.forall₂_map_left_iff,
    List.forall₂_map_right_iff, List.forall₂_same]
  intro k _
  rcases hv : m.value (k + 1) with _ | v
  · simp
  · refine List.mem_cons_of_mem _ (List.mem_map_of_mem ?_)
    exact Descriptor.mem_valuesAt.mpr (m.valid _ v hv)

end Message

namespace Descriptor.Fits

variable {d : Descriptor} {sizes : List ℕ}

/-- A value that fits is a byte, and not zero. -/
theorem bounds (h : d.Fits sizes) {m : Message d} {n : ℕ} {v : ℤ} (hv : m.value n = some v) :
    n ≤ sizes.length ∧ 1 ≤ v ∧ v ≤ 255 := by
  obtain ⟨f, hf, rfl, hmem⟩ := m.valid n v hv
  obtain ⟨hn, hv1, hv255, -⟩ := h f hf v hmem
  exact ⟨hn, hv1, hv255⟩

/-- The fields on the wire are those of the digits. -/
theorem perm_wireFields (h : d.Fits sizes) (m : Message d) :
    m.wireFields.Perm (fieldsOf 0 (m.digits sizes.length)) := by
  rw [List.perm_ext_iff_of_nodup m.nodup_wireFields (nodup_fieldsOf _ _)]
  intro f
  rw [m.mem_wireFields]
  constructor
  · rintro ⟨v, hv, hf⟩
    obtain ⟨hn, hv1, hv255⟩ := h.bounds hv
    have hdigit : (m.digits sizes.length)[f.1]? = some f.2 := by
      rw [m.getElem?_digits, if_pos (by omega), hv, hf,
        wireValue_of_nonneg (by omega) (m.int32 hv).2, Option.getD_some]
    have hne : f.2 ≠ 0 := by
      rw [hf, wireValue_of_nonneg (by omega) (m.int32 hv).2]
      omega
    have := fieldsOf_mem (k := 0) hdigit hne
    rwa [Nat.zero_add] at this
  · intro hf
    obtain ⟨i, hi, hdigit, hne⟩ := mem_fieldsOf hf
    rw [Nat.zero_add] at hi
    rw [← hi, m.getElem?_digits] at hdigit
    split_ifs at hdigit with hlt
    rcases hv : m.value (f.1 + 1) with _ | v
    · rw [hv] at hdigit
      exact absurd (Option.some.inj hdigit).symm hne
    · obtain ⟨-, hv1, hv255⟩ := h.bounds hv
      refine ⟨v, rfl, ?_⟩
      rw [wireValue_of_nonneg (by omega) (m.int32 hv).2]
      rw [hv] at hdigit
      exact (Option.some.inj hdigit).symm

/-- The value of a field, from the digits. -/
theorem value_eq_of_digits (h : d.Fits sizes) (m : Message d) (n : ℕ) :
    m.value n = if n = 0 ∨ (m.digits sizes.length).getD (n - 1) 0 = 0 then none
      else some ((m.digits sizes.length).getD (n - 1) 0 : ℤ) := by
  rcases hv : m.value n with _ | v
  · rcases n with _ | k
    · simp
    · rw [if_pos]
      rw [Nat.add_sub_cancel, List.getD_eq_getElem?_getD, m.getElem?_digits, hv]
      split <;> simp
  · obtain ⟨hn, hv1, -⟩ := h.bounds hv
    have hpos := m.number_pos hv
    have hdigit : (m.digits sizes.length).getD (n - 1) 0 = v.toNat := by
      rw [List.getD_eq_getElem?_getD, m.getElem?_digits, if_pos (by omega),
        Nat.sub_add_cancel hpos, hv]
      rfl
    rw [hdigit, if_neg (by omega), Int.toNat_of_nonneg (by omega)]

/-- The digits determine the message. -/
theorem value_injective (h : d.Fits sizes) {m m' : Message d}
    (heq : m.digits sizes.length = m'.digits sizes.length) : m.value = m'.value := by
  funext n
  rw [h.value_eq_of_digits m, h.value_eq_of_digits m', heq]

/-- Every choice of a digit at every place is a message. -/
theorem exists_digits (h : d.Fits sizes) {ds : List ℕ}
    (hds : IsNumeral (d.digitSets sizes.length) ds) :
    ∃ m : Message d, m.digits sizes.length = ds := by
  have hlen : sizes.length = ds.length := by
    rw [← hds.length_eq, Descriptor.digitSets, List.length_map, List.length_range]
  have hmem (k v : ℕ) (hv : ds.getD k 0 = v) (hne : v ≠ 0) : (v : ℤ) ∈ d.valuesAt (k + 1) := by
    have hk : k < ds.length := by
      by_contra hk
      rw [List.getD_eq_default _ _ (by omega)] at hv
      exact hne hv.symm
    rw [List.getD_eq_getElem _ _ hk] at hv
    have hdigit := List.Forall₂.get hds (by rw [hds.length_eq]; exact hk) hk
    simp only [Descriptor.digitSets, List.get_eq_getElem, List.getElem_map, List.getElem_range,
      hv, List.mem_cons, List.mem_map] at hdigit
    obtain hzero | ⟨w, hw, rfl⟩ := hdigit
    · exact absurd hzero hne
    · obtain ⟨f, hf, hnum, hsettable⟩ := Descriptor.mem_valuesAt.mp hw
      obtain ⟨-, hpos, -⟩ := h f hf w hsettable
      rwa [Int.toNat_of_nonneg (by omega)]
  -- the message with these digits for values
  let value (n : ℕ) : Option ℤ :=
    if n = 0 ∨ ds.getD (n - 1) 0 = 0 then none else some (ds.getD (n - 1) 0 : ℤ)
  have valid : ∀ n, ∀ v ∈ value n, ∃ f ∈ d.fields, f.number = n ∧ v ∈ f.settable := by
    intro n v hv
    simp only [value, Option.mem_def, Option.ite_none_left_eq_some, Option.some.injEq] at hv
    obtain ⟨hn, rfl⟩ := hv
    have hmem' := hmem (n - 1) _ rfl (by omega)
    rw [Nat.sub_add_cancel (by omega)] at hmem'
    exact Descriptor.mem_valuesAt.mp hmem'
  refine ⟨⟨value, valid⟩, ?_⟩
  apply List.ext_getElem?
  intro k
  rw [Message.getElem?_digits]
  split_ifs with hk
  · rw [List.getElem?_eq_getElem (by omega)]
    have hget : ds.getD k 0 = ds[k] := List.getD_eq_getElem _ _ (by omega)
    simp only [value, Nat.add_sub_cancel, hget, Nat.add_eq_zero_iff, one_ne_zero, and_false,
      false_or]
    split_ifs with hzero
    · rw [hzero]
      rfl
    · rfl
  · rw [List.getElem?_eq_none (by omega)]

/-- Each field of a message passes its check. -/
theorem fieldOk (h : d.Fits sizes) (hprod : (sizes.map (· + 1)).prod < 2 ^ 31) (m : Message d) :
    ∀ f ∈ m.wireFields, FieldOk (radixesOf sizes) f := by
  intro f hf
  obtain ⟨v, hv, hvalue⟩ := m.mem_wireFields.mp hf
  obtain ⟨g, hg, hn, hmem⟩ := m.valid _ v hv
  have hfit := h g hg v hmem
  rw [hn] at hfit
  have hne : sizes ≠ [] := List.ne_nil_of_length_pos (by omega)
  have := (m.fieldOk_iff hne hprod hv).mpr hfit
  rwa [Nat.add_sub_cancel, ← hvalue] at this

/-- The fields of a message count for its numeral. -/
theorem fieldsValue_eq (h : d.Fits sizes) (hprod : (sizes.map (· + 1)).prod < 2 ^ 31)
    (m : Message d) :
    fieldsValue (radixesOf sizes) m.wireFields =
      value (sizes.map (· + 1)) (m.digits sizes.length) := by
  have hperm : fieldsValue (radixesOf sizes) m.wireFields =
      fieldsValue (radixesOf sizes) (fieldsOf 0 (m.digits sizes.length)) :=
    ((h.perm_wireFields m).map _).sum_eq
  rw [hperm]
  by_cases hne : sizes = []
  · subst hne
    rfl
  · apply fieldsValue_eq_value (map_toNat_radixesOf hne hprod)
    rw [Message.digits, List.length_map, List.length_map, List.length_range]

/-- The id of a message is the number its fields are the digits of. -/
theorem decode_eq (h : d.Fits sizes) (h15 : ∀ f ∈ d.fields, f.number ≤ 15)
    (hprod : (sizes.map (· + 1)).prod < 2 ^ 31) (m : Message d) :
    decodeAnnotationSerialization m.serialize (radixesOf sizes) =
      UInt64.ofNat (value (sizes.map (· + 1)) (m.digits sizes.length)) := by
  rw [m.decode_serialize h15, if_pos (h.fieldOk hprod m), h.fieldsValue_eq hprod]

/-- The numeral has 63 bits. -/
theorem value_lt (h : d.Fits sizes) (hlen : sizes.length ≤ 15)
    (hprod : (sizes.map (· + 1)).prod < 2 ^ 31) (m : Message d) :
    value (sizes.map (· + 1)) (m.digits sizes.length) < 2 ^ 63 := by
  have hdigits : ∀ d ∈ m.digits sizes.length, d ≤ 255 := by
    intro d hd
    obtain ⟨k, hk⟩ := List.mem_iff_getElem?.mp hd
    rw [m.getElem?_digits] at hk
    split_ifs at hk
    rcases hv : m.value (k + 1) with _ | v
    · rw [hv] at hk
      have := Option.some.inj hk
      simp only [Option.getD_none, Int.toNat_zero] at this
      omega
    · obtain ⟨-, -, hv255⟩ := h.bounds hv
      rw [hv] at hk
      have := Option.some.inj hk
      simp only [Option.getD_some] at this
      omega
  have hle := value_le_of_le (pos_of_mem_map_succ sizes) hdigits
  rw [List.length_map] at hle
  calc value (sizes.map (· + 1)) (m.digits sizes.length)
      ≤ 255 * sizes.length * (sizes.map (· + 1)).prod := hle
    _ ≤ 255 * 15 * 2 ^ 31 := Nat.mul_le_mul (Nat.mul_le_mul_left 255 hlen) hprod.le
    _ < 2 ^ 63 := by norm_num

end Descriptor.Fits

/-- Numbers up to 15 are those of 15 fields at most. -/
theorem Descriptor.length_fields_le {d : Descriptor} (h15 : ∀ f ∈ d.fields, f.number ≤ 15) :
    d.fields.length ≤ 15 := by
  have hsub : d.fields.map FieldDescriptor.number ⊆ List.range' 1 15 := by
    intro n hn
    obtain ⟨f, hf, rfl⟩ := List.mem_map.mp hn
    have := f.number_pos
    have := h15 f hf
    rw [List.mem_range'_1]
    omega
  have := (List.subperm_of_subset d.nodup hsub).length_le
  rwa [List.length_map, List.length_range'] at this

/-! ### The condition is exact

Every message passes the decoder if the descriptor fits. For the other direction a message with a
single value is refused, or two messages with the same id are put together from the two choices of
digits.
-/

/-- Every message is accepted exactly when the declared values fit the table. -/
theorem accepted_iff_fits {d : Descriptor} {sizes : List ℕ}
    (h15 : ∀ f ∈ d.fields, f.number ≤ 15) (hlen : sizes.length = d.fields.length)
    (hprod : (sizes.map (· + 1)).prod < 2 ^ 31) :
    (∀ m : Message d,
      decodeAnnotationSerialization m.serialize (radixesOf sizes) ≠ kAnnotationError) ↔
      d.Fits sizes := by
  constructor
  · intro hall f hf v hv
    -- the message that sets this field to this value and no other
    let m : Message d :=
      { value := fun n => if n = f.number then some v else none
        valid := by
          intro n w hw
          simp only [Option.mem_def, Option.ite_none_right_eq_some, Option.some.injEq] at hw
          obtain ⟨rfl, rfl⟩ := hw
          exact ⟨f, hf, rfl, hv⟩ }
    have hvalue : m.value f.number = some v := if_pos rfl
    have hmem : (f.number - 1, wireValue v) ∈ m.wireFields := by
      rw [m.mem_wireFields, Nat.sub_add_cancel f.number_pos]
      exact ⟨v, hvalue, rfl⟩
    have hne : sizes ≠ [] := by
      rw [← List.length_pos_iff, hlen]
      exact List.length_pos_of_mem hf
    have haccept := hall m
    rw [m.decode_serialize h15] at haccept
    have hok := (ite_ne_right_iff.mp haccept).1 _ hmem
    exact (m.fieldOk_iff hne hprod hvalue).mp hok
  · intro h m
    have hlt := h.value_lt (hlen ▸ Descriptor.length_fields_le h15) hprod m
    rw [h.decode_eq h15 hprod, ne_eq, ← UInt64.toNat_inj,
      UInt64.toNat_ofNat_of_lt' (by simp only [UInt64.size]; omega)]
    change ¬ _ = 2 ^ 64 - 1
    omega

/-- **A message type is sound exactly when every declared value fits the table and no
field has two values apart by a carry that the fields above can undo.** -/
theorem Descriptor.sound_iff {d : Descriptor} {sizes : List ℕ}
    (h15 : ∀ f ∈ d.fields, f.number ≤ 15) (hlen : sizes.length = d.fields.length)
    (hprod : (sizes.map (· + 1)).prod < 2 ^ 31) :
    d.Sound sizes ↔ d.Fits sizes ∧ d.Separated sizes := by
  have hdigitSets : (sizes.map (· + 1)).length = (d.digitSets sizes.length).length := by
    rw [Descriptor.digitSets, List.length_map, List.length_map, List.length_range]
  have hne : ∀ s ∈ d.digitSets sizes.length, s ≠ [] := by
    intro s hs
    obtain ⟨k, -, rfl⟩ := List.mem_map.mp hs
    exact List.cons_ne_nil _ _
  rw [Descriptor.Separated,
    ← MixedRadix.value_injective_iff hdigitSets (pos_of_mem_map_succ sizes) hne]
  constructor
  · -- two numerals with one value are two messages with one id
    intro hsound
    have h := (accepted_iff_fits h15 hlen hprod).mp hsound.accepted
    refine ⟨h, ?_⟩
    intro ds ds' hds hds' heq
    obtain ⟨m, rfl⟩ := h.exists_digits hds
    obtain ⟨m', rfl⟩ := h.exists_digits hds'
    by_contra hdigits
    have hvalue : m.value ≠ m'.value := by
      intro hvalue
      rw [Message.digits, Message.digits, hvalue] at hdigits
      exact hdigits rfl
    apply hsound.injective m m' hvalue
    rw [h.decode_eq h15 hprod, h.decode_eq h15 hprod, heq]
  · rintro ⟨h, hinj⟩
    refine ⟨(accepted_iff_fits h15 hlen hprod).mpr h, ?_⟩
    intro m m' hvalue hdecode
    have hlt := h.value_lt (hlen ▸ Descriptor.length_fields_le h15) hprod
    have hm := hlt m
    have hm' := hlt m'
    rw [h.decode_eq h15 hprod, h.decode_eq h15 hprod, ← UInt64.toNat_inj,
      UInt64.toNat_ofNat_of_lt' (by simp only [UInt64.size]; omega),
      UInt64.toNat_ofNat_of_lt' (by simp only [UInt64.size]; omega)] at hdecode
    exact hvalue (h.value_injective
      (hinj _ _ (m.isNumeral_digits _) (m'.isNumeral_digits _) hdecode))

/-- **What the validator lets through is sound exactly when the values fit and are
separated**, neither of which it checks. -/
theorem validateAnnotationAndGetEnumSizes_sound_iff {d : Descriptor} {errors : ErrorCollector}
    {sizes : List ℕ}
    (hvalidate : validateAnnotationAndGetEnumSizes (some d) errors = (some sizes, errors))
    (h15 : ∀ f ∈ d.fields, f.number ≤ 15) (hprod : (sizes.map (· + 1)).prod < 2 ^ 31) :
    d.Sound sizes ↔ d.Fits sizes ∧ d.Separated sizes := by
  have hlen : sizes.length = d.fields.length := by
    rw [eq_map_of_validate hvalidate, List.length_map]
  exact Descriptor.sound_iff h15 hlen hprod

/-! ### Enums of an app

Two messages as an app may have them, with values that begin at zero. In proto3 a zero is not
written. In proto2 it is, and the decoder refuses it.
-/

/-- The first message of the tool's documentation (proto3): a state with the values 0 to
2 and a level with the values 0 to 3. -/
def stateAndLevel : Descriptor where
  fields :=
    [⟨"loading_state", 1, .enum, [0, 1, 2], false, by decide, by decide⟩,
      ⟨"level", 2, .enum, [0, 1, 2, 3], false, by decide, by decide⟩]
  oneofs := []
  nestedTypes := []
  extensions := []
  nodup := by decide

/-- Its zeros are never written, and the values that are begin at one. -/
theorem sound_stateAndLevel : stateAndLevel.Sound [3, 4] :=
  (@validateAnnotationAndGetEnumSizes_sound_iff stateAndLevel [] [3, 4] rfl (by decide)
    (by decide)).mpr (by decide)

/-- The annotation of the run-time tests (proto2): two levels with the values 0 to 3. -/
def twoLevels : Descriptor where
  fields :=
    [⟨"level", 1, .enum, [0, 1, 2, 3], true, by decide, by decide⟩,
      ⟨"level2", 2, .enum, [0, 1, 2, 3], true, by decide, by decide⟩]
  oneofs := []
  nestedTypes := []
  extensions := []
  nodup := by decide

/-- The message that sets the first level to its value zero, `LEVEL_INVALID`. -/
def levelInvalid : Message twoLevels where
  value n := if n = 1 then some 0 else none
  valid := by
    intro n v hv
    simp only [Option.mem_def, Option.ite_none_right_eq_some, Option.some.injEq] at hv
    obtain ⟨rfl, rfl⟩ := hv
    exact ⟨_, List.mem_cons_self .., rfl, by decide⟩

/-- The validator has nothing to say, and the decoder refuses the message. -/
theorem not_sound_twoLevels :
    validateAnnotationAndGetEnumSizes (some twoLevels) [] = (some [4, 4], []) ∧
      (∀ f ∈ twoLevels.fields, f.number ≤ 15) ∧ (([4, 4] : List ℕ).map (· + 1)).prod < 2 ^ 31 ∧
      decodeAnnotationSerialization levelInvalid.serialize (radixesOf [4, 4]) =
        kAnnotationError ∧
      ¬ twoLevels.Sound [4, 4] := by
  have hdecode : decodeAnnotationSerialization levelInvalid.serialize (radixesOf [4, 4]) =
      kAnnotationError := by decide +kernel
  refine ⟨rfl, by decide, by decide, hdecode, ?_⟩
  intro hsound
  exact hsound.accepted levelInvalid hdecode

/-- Values that count from one, fields declared in the order of their numbers: the
message types the scheme was made for. -/
theorem Descriptor.sound_of_consecutive {d : Descriptor} {sizes : List ℕ}
    (hsizes : sizes = d.fields.map fun field => field.enumType.length)
    (h15 : ∀ f ∈ d.fields, f.number ≤ 15) (hprod : (sizes.map (· + 1)).prod < 2 ^ 31)
    (horder : ∀ i (hi : i < d.fields.length), d.fields[i].number = i + 1)
    (hvalues : ∀ f ∈ d.fields, ∀ v ∈ f.settable, 1 ≤ v ∧ v ≤ 255 ∧ v ≤ f.enumType.length) :
    d.Sound sizes := by
  have hlen : sizes.length = d.fields.length := by rw [hsizes, List.length_map]
  have hsize (i : ℕ) (hi : i < d.fields.length) :
      (sizes.map (· + 1))[i]? = some (d.fields[i].enumType.length + 1) := by
    rw [hsizes, List.map_map, List.getElem?_map, List.getElem?_eq_getElem hi]
    rfl
  have hlt {i : ℕ} {f : FieldDescriptor} (hf : f ∈ d.fields) (hi : f.number = i + 1) {v : ℤ}
      (hv : v ∈ f.settable) :
      ∃ r : ℕ, (sizes.map (· + 1))[i]? = some r ∧ v < r := by
    obtain ⟨j, hj, rfl⟩ := List.mem_iff_getElem.mp hf
    obtain rfl : i = j := by have := horder j hj; omega
    have := hvalues _ hf v hv
    exact ⟨_, hsize i hj, by omega⟩
  rw [Descriptor.sound_iff h15 hlen hprod]
  constructor
  · intro f hf v hv
    obtain ⟨r, hr, hvr⟩ := hlt hf (Nat.sub_add_cancel f.number_pos).symm hv
    obtain ⟨hpos, h255, -⟩ := hvalues f hf v hv
    have hnumber : f.number - 1 < sizes.length := by
      have := (List.getElem?_eq_some_iff.mp hr).1
      rwa [List.length_map] at this
    have hmem : r ∈ (sizes.map (· + 1)).take f.number := by
      rw [List.mem_iff_getElem?]
      refine ⟨f.number - 1, ?_⟩
      rw [List.getElem?_take_of_lt (by have := f.number_pos; omega), hr]
    have hle : r ≤ ((sizes.map (· + 1)).take f.number).prod :=
      Nat.le_of_dvd
        (List.prod_pos fun r' hr' => pos_of_mem_map_succ sizes r' (List.mem_of_mem_take hr'))
        (List.dvd_prod hmem)
    exact ⟨by omega, hpos, h255, by omega⟩
  · -- digits below their radices are separated
    apply separated_of_lt
    rw [List.forall₂_iff_get]
    refine ⟨by simp [Descriptor.digitSets], ?_⟩
    intro i hi hi'
    simp only [Descriptor.digitSets, List.get_eq_getElem, List.getElem_map, List.getElem_range]
    refine ⟨List.cons_ne_nil _ _, ?_⟩
    intro e he
    rcases List.mem_cons.mp he with rfl | he
    · exact Nat.succ_pos _
    · obtain ⟨v, hv, rfl⟩ := List.mem_map.mp he
      obtain ⟨f, hf, hnum, hmem⟩ := Descriptor.mem_valuesAt.mp hv
      obtain ⟨r, hr, hvr⟩ := hlt hf hnum hmem
      have hr' := (List.getElem?_eq_some_iff.mp hr).2
      rw [List.getElem_map] at hr'
      have := (hvalues f hf v hmem).1
      omega

end GameSdk
