import GameSdk.AnnotationRoundTrip
import Mathlib.Data.Set.Function

/-!
# Annotation ids of any bytes

A serialized annotation splits into fields, each a tag byte and a number of up to nine
bytes. The decoder depends on the fields only, and not on their order: if each of them
passes its check, the id is the sum of what they count for. Valid annotations are counted
off by their ids, without gaps. The check of a field, however, is against the table of
running products, and there is none of a field that comes twice.

* `decodeAnnotationLoop_of_splits`: the id depends on the fields alone.
* `annotationNumber_injective` and `exists_annotationNumber_eq`: annotations are counted off without
  gaps.
* `exists_splits_of_ne_error`: only bytes that split into fields have an id.

`Splits` is a relation and not a function, as bytes may be no message at all; it is shown to be
single-valued. A `MessageField` is what the decoder sees of a field, its number and its value, and
says nothing of how many bytes the two took.
-/

namespace GameSdk

open MixedRadix

/-! ### Fields

A field has a number and a value. Its place is its index among the enums, which is one less than its
number.
-/

/-- A field of a message, with its number, which counts from 1. -/
structure MessageField where
  number : ℕ
  value : ℕ
  deriving DecidableEq, Repr

namespace MessageField

/-- The place of the field, counted from zero, and its value. -/
def place (f : MessageField) : ℕ × ℕ := (f.number - 1, f.value)

/-- What the decoder checks. -/
def Accepted (radixMult : List UInt32) (f : MessageField) : Prop :=
  1 ≤ f.number ∧ FieldOk radixMult f.place

instance (radixMult : List UInt32) (f : MessageField) : Decidable (f.Accepted radixMult) :=
  inferInstanceAs (Decidable (_ ∧ _))

/-- The number of values of the enum of the field. -/
def enumSize (enumSizes : List UInt32) (f : MessageField) : ℕ :=
  (enumSizes.getD (f.number - 1) 0).toNat

end MessageField

/-- The bytes are those of the fields, one after the other. The low three bits of a tag are
the wire type, which is 0 for numbers. -/
inductive Splits : SerializedAnnotation → List MessageField → Prop where
  | nil : Splits [] []
  | cons {tag : UInt8} {bytes rest : SerializedAnnotation} {value : ℕ}
      {fields : List MessageField} : tag.toNat % 8 = 0 →
      Varint.decode 9 bytes = some (value, rest) → Splits rest fields →
      Splits (tag :: bytes) (⟨tag.toNat / 8, value⟩ :: fields)

/-- The sum over the fields of the value, times the number of values, "missing" included, of
each field before. -/
def annotationNumber (enumSizes : List UInt32) (fields : List MessageField) : ℕ :=
  (fields.map fun f => f.value * ((radices enumSizes).take (f.number - 1)).prod).sum

/-! ## The fields decide

`Splits` relates bytes to the fields in them, and there is at most one way to split. The decoder
follows it field by field.
-/

/-- Bytes split into fields in one way at most. -/
theorem Splits.unique {ser : SerializedAnnotation} {fields fields' : List MessageField}
    (h : Splits ser fields) (h' : Splits ser fields') : fields = fields' := by
  induction h generalizing fields' with
  | nil =>
    cases h'
    rfl
  | cons _ hread _ ih =>
    cases h' with
    | cons _ hread' hrest' =>
      obtain ⟨rfl, rfl⟩ : _ = _ ∧ _ = _ := by simpa using hread.symm.trans hread'
      rw [ih hrest']

section

variable {ser bytes : SerializedAnnotation} {radixMult : List UInt32}
  (hsize : radixMult.length < 2 ^ 64)
include hsize

/-- **The fields decide.** If each of them is accepted the id is the sum of what they count for. -/
theorem decodeAnnotationLoop_of_splits {fields : List MessageField} (h : Splits bytes fields)
    {i : ℕ} (hdrop : ser.drop i = bytes) (result : AnnotationId) :
    decodeAnnotationLoop ser radixMult i result =
      if ∀ f ∈ fields, f.Accepted radixMult then
        result + UInt64.ofNat (fieldsValue radixMult (fields.map MessageField.place))
      else kAnnotationError := by
  induction h generalizing i result with
  | nil =>
    have hlen : ser.length ≤ i := List.drop_eq_nil_iff.mp hdrop
    rw [decodeAnnotationLoop, dif_neg (by omega), if_pos (by simp)]
    simp [fieldsValue]
  | @cons tag bytes rest value fields htype hread _ ih =>
    have htag : getKeyIndex tag = (tag.toNat / 8 : ℕ) := by rw [getKeyIndex_eq, if_pos htype]
    rcases hnumber : tag.toNat / 8 with _ | k
    · -- field number 0 is not a field
      have hbad : ¬ MessageField.Accepted radixMult ⟨0, value⟩ := fun h => absurd h.1 (by simp)
      rw [hnumber] at htag
      rw [decodeAnnotationLoop_of_zero hsize htag hdrop,
        if_neg fun h => hbad (h _ (List.mem_cons_self ..))]
    · have hsuffix : rest <:+ ser := by
        obtain ⟨hrest, -⟩ := Varint.suffix_of_decode hread
        have htail : bytes <:+ ser.drop i := hdrop ▸ List.suffix_cons tag bytes
        exact hrest.trans (htail.trans (List.drop_suffix ..))
      rw [hnumber] at htag
      rw [decodeAnnotationLoop_tag htag hread hdrop,
        ih (List.suffix_iff_eq_drop.mp hsuffix).symm]
      have hfirst : MessageField.Accepted radixMult ⟨k + 1, value⟩ ↔
          FieldOk radixMult (k, value) := and_iff_right (Nat.succ_pos k)
      simp only [List.forall_mem_cons, hfirst, List.map_cons, fieldsValue_cons, UInt64.ofNat_add,
        UInt64.add_assoc, ← ite_and]
      rfl

/-- Bytes that do not split are refused. -/
theorem decodeAnnotationLoop_of_not_splits (h : ∀ fields, ¬ Splits bytes fields)
    {i : ℕ} (hdrop : ser.drop i = bytes) (result : AnnotationId) :
    decodeAnnotationLoop ser radixMult i result = kAnnotationError := by
  -- on the number of bytes left: a round of the decoder takes at least two
  induction hlen : bytes.length using Nat.strongRecOn generalizing bytes i result with
  | ind n ih =>
    rcases bytes with _ | ⟨tag, bytes⟩
    · exact absurd Splits.nil (h [])
    by_cases htype : tag.toNat % 8 = 0
    · have htag : getKeyIndex tag = (tag.toNat / 8 : ℕ) := by rw [getKeyIndex_eq, if_pos htype]
      rcases hread : Varint.decode 9 bytes with _ | ⟨value, rest⟩
      · exact decodeAnnotationLoop_of_none hread hdrop result
      rcases hnumber : tag.toNat / 8 with _ | k
      · rw [hnumber] at htag
        exact decodeAnnotationLoop_of_zero hsize htag hdrop result
      · obtain ⟨hrest, hlt⟩ := Varint.suffix_of_decode hread
        have hsuffix : rest <:+ ser := by
          have htail : bytes <:+ ser.drop i := hdrop ▸ List.suffix_cons tag bytes
          exact hrest.trans (htail.trans (List.drop_suffix ..))
        rw [hnumber] at htag
        rw [List.length_cons] at hlen
        rw [decodeAnnotationLoop_tag htag hread hdrop]
        split
        · exact ih rest.length (by omega) (fun fields hfields => h _ (.cons htype hread hfields))
            (List.suffix_iff_eq_drop.mp hsuffix).symm _ rfl
        · rfl
    · exact decodeAnnotationLoop_of_keyError (by rw [getKeyIndex_eq, if_neg htype]) hdrop result

/-- **What the decoder computes**: the fields' share of the id, if they all pass its check. -/
theorem decodeAnnotationSerialization_of_splits {fields : List MessageField}
    (h : Splits ser fields) :
    decodeAnnotationSerialization ser radixMult =
      if ∀ f ∈ fields, f.Accepted radixMult then
        UInt64.ofNat (fieldsValue radixMult (fields.map MessageField.place))
      else kAnnotationError := by
  rw [decodeAnnotationSerialization,
    decodeAnnotationLoop_of_splits hsize h (List.drop_zero (l := ser)), UInt64.zero_add]

/-- Bytes with an id split into fields. -/
theorem exists_splits_of_ne_error (h : decodeAnnotationSerialization ser radixMult ≠
    kAnnotationError) : ∃ fields, Splits ser fields := by
  by_contra hnone
  exact h (decodeAnnotationLoop_of_not_splits hsize (not_exists.mp hnone)
    (List.drop_zero (l := ser)) 0)

end

namespace MessageField.Accepted

variable {radixMult : List UInt32} {f : MessageField}

/-- An accepted field is of one of the enums. -/
theorem number_le (h : f.Accepted radixMult) : f.number ≤ radixMult.length := by
  by_contra hlt
  have hdefault : radixMult.getD f.place.1 0 = 0 :=
    List.getD_eq_default _ _ (by simp only [place]; omega)
  have hrange := h.2.2.1
  rw [hdefault] at hrange
  exact Nat.not_lt_zero _ hrange

/-- An accepted value is not zero. -/
theorem one_le_value (h : f.Accepted radixMult) : 1 ≤ f.value := Nat.one_le_iff_ne_zero.mpr h.2.1

end MessageField.Accepted

/-- With the table of running products, fields count for what they should. -/
theorem fieldsValue_place {enumSizes : List UInt32} (hne : enumSizes ≠ [])
    (hprod : (radices enumSizes).prod < 2 ^ 32) {fields : List MessageField}
    (hfields : ∀ f ∈ fields, 1 ≤ f.number ∧ f.number ≤ enumSizes.length) :
    fieldsValue (setUpAnnotationRadixes enumSizes) (fields.map MessageField.place) =
      annotationNumber enumSizes fields := by
  have htable := map_toNat_setUpAnnotationRadixes hne hprod
  rw [fieldsValue, List.map_map, annotationNumber]
  refine congrArg List.sum (List.map_congr_left fun f hf => ?_)
  have hlt : f.number - 1 < (radices enumSizes).length := by
    have := hfields f hf
    rw [radices, List.length_map]
    omega
  rw [Function.comp_apply, MessageField.place, weight_eq htable hlt, Nat.mul_comm]

/-- The table has an entry for each enum. -/
theorem length_setUpAnnotationRadixes {enumSizes : List UInt32} (hne : enumSizes ≠ [])
    (hprod : (radices enumSizes).prod < 2 ^ 32) :
    (setUpAnnotationRadixes enumSizes).length = enumSizes.length := by
  have hlen := congrArg List.length (map_toNat_setUpAnnotationRadixes hne hprod)
  rwa [List.length_map, length_cumulative, radices, List.length_map] at hlen

/-! ## The ids of annotations

The digits of an annotation are a numeral in the radices of its enums, and every numeral is an
annotation. So their numbers are those below the product.
-/

/-! ### The message of an annotation

The fields that are set, in the order of the enums, and their bytes.
-/

/-- The set fields in ascending order, numbered from `n` on. -/
def setFieldsFrom : ℕ → List (Option ℕ) → List MessageField
  | _, [] => []
  | n, none :: fields => setFieldsFrom (n + 1) fields
  | n, some v :: fields => ⟨n, v⟩ :: setFieldsFrom (n + 1) fields

/-- Fields as protobuf writes them. -/
def messageBytes (fields : List MessageField) : SerializedAnnotation :=
  fields.flatMap fun f => Varint.encode (f.number * 8) ++ Varint.encode f.value

/-- The bytes of an annotation are those of its fields that are set. -/
theorem bytesFrom_eq_messageBytes (n : ℕ) (fields : List (Option ℕ)) :
    Annotation.bytesFrom n fields = messageBytes (setFieldsFrom n fields) := by
  induction fields generalizing n with
  | nil => rfl
  | cons field fields ih =>
    cases field with
    | none => exact ih (n + 1)
    | some v => exact congrArg (Varint.encode (n * 8) ++ Varint.encode v ++ ·) (ih (n + 1))

/-- A message of short enough fields splits into these. -/
theorem splits_messageBytes {fields : List MessageField}
    (h : ∀ f ∈ fields, f.number ≤ 15 ∧ f.value < 128 ^ 9) :
    Splits (messageBytes fields) fields := by
  induction fields with
  | nil => exact .nil
  | cons f fields ih =>
    obtain ⟨⟨hnumber, hvalue⟩, htail⟩ := List.forall_mem_cons.mp h
    have htag : (UInt8.ofNat (f.number * 8)).toNat = f.number * 8 :=
      Varint.toNat_ofNat_of_lt (by omega)
    have hsplits : Splits (UInt8.ofNat (f.number * 8) :: (Varint.encode f.value ++
        messageBytes fields)) (⟨(UInt8.ofNat (f.number * 8)).toNat / 8, f.value⟩ :: fields) :=
      .cons (by rw [htag]; exact Nat.mul_mod_left _ _) (Varint.decode_encode hvalue _) (ih htail)
    rw [htag, Nat.mul_div_cancel _ (by decide)] at hsplits
    rw [messageBytes, List.flatMap_cons, Varint.encode_of_lt (by omega), List.append_assoc]
    exact hsplits

/-- The fields that are set stand at the places of the digits other than zero. -/
theorem map_place_setFieldsFrom {k : ℕ} {fields : List (Option ℕ)}
    (hpos : ∀ field ∈ fields, ∀ v ∈ field, 1 ≤ v) :
    (setFieldsFrom (k + 1) fields).map MessageField.place =
      fieldsOf k (fields.map fun field => field.getD 0) := by
  induction fields generalizing k with
  | nil => rfl
  | cons field fields ih =>
    obtain ⟨hfield, htail⟩ := List.forall_mem_cons.mp hpos
    cases field with
    | none =>
      rw [List.map_cons, Option.getD_none, fieldsOf_cons_zero]
      exact ih htail
    | some v =>
      have hv : v ≠ 0 := Nat.one_le_iff_ne_zero.mp (hfield v rfl)
      rw [List.map_cons, Option.getD_some, fieldsOf_cons_of_ne hv, ← ih htail]
      rfl

/-- The numbers of the fields count on from the first. -/
theorem number_of_mem_setFieldsFrom {n : ℕ} {fields : List (Option ℕ)} {f : MessageField}
    (h : f ∈ setFieldsFrom n fields) : n ≤ f.number ∧ f.number < n + fields.length := by
  induction fields generalizing n with
  | nil => cases h
  | cons field fields ih =>
    rw [List.length_cons]
    have htail (h : f ∈ setFieldsFrom (n + 1) fields) :
        n ≤ f.number ∧ f.number < n + (fields.length + 1) := by
      have := ih h
      omega
    cases field with
    | none => exact htail h
    | some v =>
      rcases List.mem_cons.mp h with rfl | h
      · exact ⟨le_refl n, by simp only; omega⟩
      · exact htail h

namespace Annotation

variable {enumSizes : List UInt32} (a : Annotation enumSizes)

/-- The set fields in ascending order. -/
def setFields : List MessageField := setFieldsFrom 1 a.fields

/-- An annotation is the message of its fields. -/
theorem bytes_eq_messageBytes : a.bytes = messageBytes a.setFields :=
  bytesFrom_eq_messageBytes 1 a.fields

/-- The places of the fields of an annotation. -/
theorem map_place_setFields : a.setFields.map MessageField.place = fieldsOf 0 a.digits :=
  map_place_setFieldsFrom a.pos_of_mem

/-- Field numbers begin at one, as in a protobuf file. -/
theorem number_of_mem_setFields {f : MessageField} (h : f ∈ a.setFields) :
    1 ≤ f.number ∧ f.number ≤ enumSizes.length := by
  have := number_of_mem_setFieldsFrom h
  have := a.valid.length_eq
  omega

variable {a}

/-- The decoder accepts each field of an annotation. -/
theorem accepted_of_mem_setFields (h : EnumSizesOk enumSizes) (hne : enumSizes ≠ [])
    {f : MessageField} (hf : f ∈ a.setFields) : f.Accepted (setUpAnnotationRadixes enumSizes) := by
  have hplace : f.place ∈ fieldsOf 0 a.digits := by
    rw [← a.map_place_setFields]
    exact List.mem_map_of_mem hf
  exact ⟨(a.number_of_mem_setFields hf).1,
    (h.fieldOk_iff hne (a.isDigits.cumulative Nat.one_pos)).mpr (a.digits_le h) _ hplace⟩

/-- The sum is the numeral that the fields are the digits of. -/
theorem annotationNumber_setFields (h : EnumSizesOk enumSizes) (hne : enumSizes ≠ []) :
    annotationNumber enumSizes a.setFields = value (radices enumSizes) a.digits := by
  have hprod : (radices enumSizes).prod < 2 ^ 32 := h.prod_lt.trans (by decide)
  rw [← fieldsValue_place hne hprod fun f => a.number_of_mem_setFields, a.map_place_setFields,
    fieldsValue_eq_value (h.table_eq hne) a.isDigits.length_eq]

/-- The number of an annotation is below the product of the radices. -/
theorem annotationNumber_lt (h : EnumSizesOk enumSizes) (hne : enumSizes ≠ []) :
    annotationNumber enumSizes a.setFields < (radices enumSizes).prod := by
  rw [annotationNumber_setFields h hne]
  exact value_lt a.isDigits

/-- The order of the fields does not matter. -/
theorem decode_messageBytes (h : EnumSizesOk enumSizes) (hne : enumSizes ≠ [])
    (h15 : enumSizes.length ≤ 15) {fields : List MessageField} (hperm : fields.Perm a.setFields) :
    (decodeAnnotationSerialization (messageBytes fields)
        (setUpAnnotationRadixes enumSizes)).toNat = annotationNumber enumSizes a.setFields := by
  have hprod : (radices enumSizes).prod < 2 ^ 32 := h.prod_lt.trans (by decide)
  have haccepted : ∀ f ∈ fields, f.Accepted (setUpAnnotationRadixes enumSizes) :=
    fun f hf => accepted_of_mem_setFields h hne (hperm.mem_iff.mp hf)
  have hnumber : ∀ f ∈ fields, 1 ≤ f.number ∧ f.number ≤ enumSizes.length :=
    fun f hf => a.number_of_mem_setFields (hperm.mem_iff.mp hf)
  have hsplits : Splits (messageBytes fields) fields := by
    refine splits_messageBytes fun f hf => ⟨(hnumber f hf).2.trans h15, ?_⟩
    exact lt_of_le_of_lt (haccepted f hf).2.2.2 (by decide)
  have hsize : (setUpAnnotationRadixes enumSizes).length < 2 ^ 64 := by
    rw [length_setUpAnnotationRadixes hne hprod]
    omega
  have hsum : annotationNumber enumSizes fields = annotationNumber enumSizes a.setFields :=
    (hperm.map _).sum_eq
  have hlt := annotationNumber_lt (a := a) h hne
  rw [decodeAnnotationSerialization_of_splits hsize hsplits, if_pos haccepted,
    fieldsValue_place hne hprod hnumber, hsum]
  exact UInt64.toNat_ofNat_of_lt' (by simp only [UInt64.size]; omega)

/-! ### Digits and annotations

A digit is a value, or zero where the field is missing, so digits and annotations are the same
thing.
-/

/-- The field whose digit is given. -/
def fieldOfDigit (d : ℕ) : Option ℕ := if d = 0 then none else some d

/-- The digit of the field of a digit. -/
theorem getD_fieldOfDigit (d : ℕ) : (fieldOfDigit d).getD 0 = d := by
  rw [fieldOfDigit]
  split
  · next h => exact h.symm
  · rfl

/-- The field of the digit of a field. -/
theorem fieldOfDigit_getD {field : Option ℕ} (h : ∀ v ∈ field, 1 ≤ v) :
    fieldOfDigit (field.getD 0) = field := by
  cases field with
  | none => rfl
  | some v => exact if_neg (Nat.one_le_iff_ne_zero.mp (h v rfl))

variable (a) in
/-- The digits determine the fields. -/
theorem map_fieldOfDigit_digits : a.digits.map fieldOfDigit = a.fields := by
  have hfield : ∀ field ∈ a.fields, fieldOfDigit (field.getD 0) = field :=
    fun field hfield => fieldOfDigit_getD (a.pos_of_mem field hfield)
  rw [digits, List.map_map]
  exact (List.map_congr_left hfield).trans (List.map_id _)

/-- The annotation with these digits. -/
def ofDigits {ds : List ℕ} (h : IsDigits (radices enumSizes) ds) : Annotation enumSizes where
  fields := ds.map fieldOfDigit
  valid := by
    rw [List.forall₂_map_right_iff]
    rw [radices, IsDigits, List.forall₂_map_left_iff] at h
    refine h.imp fun size d hd v hv => ?_
    rw [fieldOfDigit] at hv
    split at hv
    · cases hv
    · next hne =>
      obtain rfl := Option.some.inj hv
      exact ⟨Nat.one_le_iff_ne_zero.mpr hne, Nat.le_of_lt_succ hd⟩

/-- Its digits are those it was made of. -/
theorem digits_ofDigits {ds : List ℕ} (h : IsDigits (radices enumSizes) ds) :
    (ofDigits h).digits = ds := by
  rw [digits, ofDigits, List.map_map]
  exact (List.map_congr_left fun d _ => getD_fieldOfDigit d).trans (List.map_id _)

/-- Two annotations with the same digits are the same. -/
theorem digits_injective : Function.Injective (digits : Annotation enumSizes → List ℕ) := by
  intro a b hab
  have hfields : a.fields = b.fields := by
    rw [← a.map_fieldOfDigit_digits, ← b.map_fieldOfDigit_digits, hab]
  cases a
  cases b
  congr

/-- **No id twice.** Different annotations have different numbers. -/
theorem annotationNumber_injective (h : EnumSizesOk enumSizes) (hne : enumSizes ≠ [])
    {a b : Annotation enumSizes}
    (hab : annotationNumber enumSizes a.setFields = annotationNumber enumSizes b.setFields) :
    a = b := by
  rw [annotationNumber_setFields h hne, annotationNumber_setFields h hne] at hab
  refine digits_injective ?_
  rw [← digits_value a.isDigits, ← digits_value b.isDigits, hab]

/-- **No gaps.** Every number below the product is that of an annotation. -/
theorem exists_annotationNumber_eq (h : EnumSizesOk enumSizes) (hne : enumSizes ≠ []) {x : ℕ}
    (hx : x < (radices enumSizes).prod) :
    ∃ a : Annotation enumSizes, annotationNumber enumSizes a.setFields = x := by
  refine ⟨ofDigits (isDigits_digits h.pos x), ?_⟩
  rw [annotationNumber_setFields h hne, digits_ofDigits, value_digits hx]

end Annotation

/-- **The ids of valid annotations.** In whatever order the fields come, the id is the
mixed-radix number of their values, and the ids of the annotations are those below the last
entry of the table, each of them once. -/
theorem decode_annotations {enumSizes : List UInt32} (hne : enumSizes ≠ [])
    (h15 : enumSizes.length ≤ 15) (h : EnumSizesOk enumSizes) :
    (∀ (a : Annotation enumSizes) (fields : List MessageField), fields.Perm a.setFields →
      (decodeAnnotationSerialization (messageBytes fields)
        (setUpAnnotationRadixes enumSizes)).toNat = annotationNumber enumSizes a.setFields) ∧
    Set.BijOn (fun a : Annotation enumSizes =>
        decodeAnnotationSerialization (messageBytes a.setFields)
          (setUpAnnotationRadixes enumSizes)) Set.univ
      {id | id.toNat < ((setUpAnnotationRadixes enumSizes).getLastD 0).toNat} := by
  have hprod : (radices enumSizes).prod < 2 ^ 32 := h.prod_lt.trans (by decide)
  have hdecode (a : Annotation enumSizes) : (decodeAnnotationSerialization
      (messageBytes a.setFields) (setUpAnnotationRadixes enumSizes)).toNat =
        annotationNumber enumSizes a.setFields := Annotation.decode_messageBytes h hne h15 (.refl _)
  refine ⟨fun a fields => Annotation.decode_messageBytes h hne h15, ?_, ?_, ?_⟩
  · intro a _
    rw [Set.mem_ofPred_eq, hdecode, getLastD_setUpAnnotationRadixes hprod]
    exact Annotation.annotationNumber_lt h hne
  · intro a _ b _ hab
    apply Annotation.annotationNumber_injective h hne
    rw [← hdecode a, ← hdecode b]
    exact congrArg UInt64.toNat hab
  · intro id hid
    rw [Set.mem_ofPred_eq, getLastD_setUpAnnotationRadixes hprod] at hid
    obtain ⟨a, ha⟩ := Annotation.exists_annotationNumber_eq h hne hid
    exact ⟨a, Set.mem_univ a, UInt64.toNat_inj.mp ((hdecode a).trans ha)⟩

/-- Three fields, the last of them first. -/
theorem decode_annotations_two_three_four :
    (decodeAnnotationSerialization (messageBytes [⟨3, 4⟩, ⟨1, 2⟩, ⟨2, 3⟩])
      (setUpAnnotationRadixes [2, 3, 4])).toNat = 59 :=
  (decode_annotations (by decide) (by decide) enumSizesOk_two_three_four).1
    (annotationOf [some 2, some 3, some 4]) [⟨3, 4⟩, ⟨1, 2⟩, ⟨2, 3⟩] (by decide)

/-! ## What the decoder lets through

A field passes if its value is below the entry of the *table* for its enum. This is the value's own
bound for the first enum only, and each occurrence of a field is looked at by itself.
-/

/-- What is not refused splits into fields with a number and a value that the enums have, and
the id is below the last entry of the table. -/
def RejectsOutOfRange (enumSizes : List UInt32) (ser : SerializedAnnotation) : Prop :=
  decodeAnnotationSerialization ser (setUpAnnotationRadixes enumSizes) ≠ kAnnotationError →
    ∃ fields, Splits ser fields ∧
      (∀ f ∈ fields, (1 ≤ f.number ∧ f.number ≤ enumSizes.length) ∧
        1 ≤ f.value ∧ f.value ≤ f.enumSize enumSizes) ∧
      (decodeAnnotationSerialization ser (setUpAnnotationRadixes enumSizes)).toNat <
        ((setUpAnnotationRadixes enumSizes).getLastD 0).toNat

namespace MessageField

/-- The checks of the decoder that work: it refuses a field whose number is not that of an enum, and
a value that is zero, does not fit in a byte, or is not below the product of the numbers of values,
"missing" included, up to this field. -/
def Refused (enumSizes : List UInt32) (f : MessageField) : Prop :=
  f.number = 0 ∨ enumSizes.length < f.number ∨ f.value = 0 ∨ 255 < f.value ∨
    ((radices enumSizes).take f.number).prod ≤ f.value

instance (enumSizes : List UInt32) (f : MessageField) : Decidable (f.Refused enumSizes) :=
  inferInstanceAs (Decidable (_ ∨ _))

end MessageField

/-! ### Where nothing slips through

If the fields are those of some annotation, the sum of what they count for is its number. Otherwise
one of them has to be refused.
-/

/-- No field number comes twice in the bytes. -/
def NoneRepeated (ser : SerializedAnnotation) : Prop :=
  ∀ fields, Splits ser fields → (fields.map MessageField.number).Nodup

/-- The bytes do not split into fields, or one of the fields is refused by a check that works, or no
field number comes twice and no value is above the size of its own enum. -/
def FieldsPlain (enumSizes : List UInt32) (ser : SerializedAnnotation) : Prop :=
  ∀ fields, Splits ser fields → (∃ f ∈ fields, f.Refused enumSizes) ∨
    (fields.map MessageField.number).Nodup ∧ ∀ f ∈ fields, f.value ≤ f.enumSize enumSizes

section

variable {enumSizes : List UInt32} {fields : List MessageField}

/-- The table of running products refuses what is said of the enum sizes, and nothing else. -/
theorem MessageField.accepted_iff (hne : enumSizes ≠ [])
    (hprod : (radices enumSizes).prod < 2 ^ 32) (f : MessageField) :
    f.Accepted (setUpAnnotationRadixes enumSizes) ↔ ¬ f.Refused enumSizes := by
  have hlen := length_setUpAnnotationRadixes hne hprod
  constructor
  · intro haccepted
    have hnumber := haccepted.number_le
    obtain ⟨hpos, hvalue, hbelow, hbyte⟩ := haccepted
    rw [hlen] at hnumber
    have htable : f.number - 1 < (radices enumSizes).length := by
      rw [radices, List.length_map]
      omega
    rw [place, toNat_getD_table (map_toNat_setUpAnnotationRadixes hne hprod) htable,
      Nat.sub_add_cancel hpos] at hbelow
    rintro (hzero | hlarge | hzero | hlarge | hlarge)
    · exact absurd hpos (by simp [hzero])
    · exact absurd hnumber (Nat.not_le_of_lt hlarge)
    · exact hvalue hzero
    · exact absurd hbyte (Nat.not_le_of_lt hlarge)
    · exact absurd hbelow (Nat.not_lt_of_le hlarge)
  · intro hnot
    simp only [Refused, not_or, Nat.not_lt, Nat.not_le] at hnot
    obtain ⟨hpos, hnumber, hvalue, hbyte, hbelow⟩ := hnot
    have hpos : 1 ≤ f.number := Nat.one_le_iff_ne_zero.mpr hpos
    have htable : f.number - 1 < (radices enumSizes).length := by
      rw [radices, List.length_map]
      omega
    refine ⟨hpos, hvalue, ?_, hbyte⟩
    rw [place, toNat_getD_table (map_toNat_setUpAnnotationRadixes hne hprod) htable,
      Nat.sub_add_cancel hpos]
    exact hbelow

/-- Fields that come once each, with values that their own enums have, are the digits of a number
below the number of annotations. -/
theorem annotationNumber_lt_of_nodup
    (hnumber : ∀ f ∈ fields, 1 ≤ f.number ∧ f.number ≤ enumSizes.length)
    (hnodup : (fields.map MessageField.number).Nodup)
    (hvalues : ∀ f ∈ fields, f.value ≤ f.enumSize enumSizes) :
    annotationNumber enumSizes fields < (radices enumSizes).prod := by
  have hplaces : ((fields.map MessageField.place).map Prod.fst).Nodup := by
    have hpos : ∀ n ∈ fields.map MessageField.number, 1 ≤ n :=
      List.forall_mem_map.mpr fun f hf => (hnumber f hf).1
    have hpred : ((fields.map MessageField.number).map fun n => n - 1).Nodup := by
      refine hnodup.map_on fun n hn m hm hnm => ?_
      have := hpos n hn
      have := hpos m hm
      omega
    rwa [List.map_map] at hpred ⊢
  have hdigits : ∀ p ∈ fields.map MessageField.place,
      ∃ r, (radices enumSizes)[p.1]? = some r ∧ p.2 < r := by
    refine List.forall_mem_map.mpr fun f hf => ?_
    have hlt : f.number - 1 < enumSizes.length := by
      have := hnumber f hf
      omega
    have hvalue := hvalues f hf
    rw [MessageField.enumSize, List.getD_eq_getElem _ _ hlt] at hvalue
    refine ⟨enumSizes[f.number - 1].toNat + 1, ?_, Nat.lt_succ_of_le hvalue⟩
    rw [radices, List.getElem?_map, MessageField.place, List.getElem?_eq_getElem hlt]
    rfl
  have hsum := sum_mul_prod_take_lt (radices_pos enumSizes) hplaces hdigits
  rwa [List.map_map] at hsum

/-- A tag byte holds a field number of five bits. -/
theorem Splits.number_lt {ser : SerializedAnnotation} (h : Splits ser fields) :
    ∀ f ∈ fields, f.number < 32 := by
  induction h with
  | nil => exact fun _ hf => absurd hf List.not_mem_nil
  | @cons tag bytes rest value fields _ _ _ ih =>
    refine List.forall_mem_cons.mpr ⟨?_, ih⟩
    have := tag.toNat_lt
    simp only
    omega

/-- So few fields with such small values do not come to the number of the error. -/
theorem annotationNumber_lt_error {ser : SerializedAnnotation} (h : Splits ser fields)
    (hprod : (radices enumSizes).prod < 2 ^ 31)
    (hnodup : (fields.map MessageField.number).Nodup) (hbyte : ∀ f ∈ fields, f.value ≤ 255) :
    annotationNumber enumSizes fields < 2 ^ 64 - 1 := by
  have hfew : fields.length ≤ 32 := by
    have hsub : fields.map MessageField.number ⊆ List.range 32 := by
      intro n hn
      obtain ⟨f, hf, rfl⟩ := List.mem_map.mp hn
      exact List.mem_range.mpr (h.number_lt f hf)
    simpa using (List.subperm_of_subset hnodup hsub).length_le
  have hterm : ∀ n ∈ fields.map fun f =>
      f.value * ((radices enumSizes).take (f.number - 1)).prod, n ≤ 255 * 2 ^ 31 := by
    refine List.forall_mem_map.mpr fun f hf => Nat.mul_le_mul (hbyte f hf) ?_
    have hpos : 0 < (radices enumSizes).prod := List.prod_pos (radices_pos enumSizes)
    have hdvd : ((radices enumSizes).take (f.number - 1)).prod ∣ (radices enumSizes).prod :=
      Dvd.intro _ (List.prod_take_mul_prod_drop ..)
    exact (Nat.le_of_dvd hpos hdvd).trans hprod.le
  have hsum := List.sum_le_card_nsmul _ _ hterm
  rw [List.length_map] at hsum
  change _ ≤ fields.length * (255 * 2 ^ 31) at hsum
  have hle : fields.length * (255 * 2 ^ 31) ≤ 32 * (255 * 2 ^ 31) :=
    Nat.mul_le_mul_right _ hfew
  rw [annotationNumber]
  omega

/-- **Out of range.** The decoder rejects what it should if the bytes do not split into fields, or a
check that works refuses a field, or no field comes twice and no value is above the size of its own
enum. Of bytes in which no field comes twice it does so only then. The length of a vector is a
`size_t`. -/
theorem rejectsOutOfRange_of_fieldsPlain (hne : enumSizes ≠ [])
    (hsize : enumSizes.length < 2 ^ 64) (hprod : (radices enumSizes).prod < 2 ^ 31)
    (ser : SerializedAnnotation) :
    (FieldsPlain enumSizes ser → RejectsOutOfRange enumSizes ser) ∧
      (NoneRepeated ser → RejectsOutOfRange enumSizes ser → FieldsPlain enumSizes ser) := by
  have hprod' : (radices enumSizes).prod < 2 ^ 32 := hprod.trans (by decide)
  have hlen := length_setUpAnnotationRadixes hne hprod'
  rw [← hlen] at hsize
  -- what the decoder computes of fields that pass its checks
  have hdecode : ∀ fields, Splits ser fields → (∀ f ∈ fields, ¬ f.Refused enumSizes) →
      (∀ f ∈ fields, f.Accepted (setUpAnnotationRadixes enumSizes)) ∧
        (∀ f ∈ fields, 1 ≤ f.number ∧ f.number ≤ enumSizes.length) ∧
        decodeAnnotationSerialization ser (setUpAnnotationRadixes enumSizes) =
          UInt64.ofNat (annotationNumber enumSizes fields) := by
    intro fields hfields hpass
    have haccepted : ∀ f ∈ fields, f.Accepted (setUpAnnotationRadixes enumSizes) :=
      fun f hf => (f.accepted_iff hne hprod').mpr (hpass f hf)
    have hnumber : ∀ f ∈ fields, 1 ≤ f.number ∧ f.number ≤ enumSizes.length :=
      fun f hf => ⟨(haccepted f hf).1, hlen ▸ (haccepted f hf).number_le⟩
    refine ⟨haccepted, hnumber, ?_⟩
    rw [decodeAnnotationSerialization_of_splits hsize hfields, if_pos haccepted,
      fieldsValue_place hne hprod' hnumber]
  constructor
  · intro hplain herror
    obtain ⟨fields, hfields⟩ := exists_splits_of_ne_error hsize herror
    have hpass : ∀ f ∈ fields, ¬ f.Refused enumSizes := by
      intro f hf hrefused
      refine herror ?_
      rw [decodeAnnotationSerialization_of_splits hsize hfields, if_neg]
      exact fun hall => (f.accepted_iff hne hprod').mp (hall f hf) hrefused
    obtain ⟨haccepted, hnumber, heq⟩ := hdecode fields hfields hpass
    rcases hplain fields hfields with ⟨f, hf, hrefused⟩ | ⟨hnodup, hvalues⟩
    · exact absurd hrefused (hpass f hf)
    · have hlt := annotationNumber_lt_of_nodup hnumber hnodup hvalues
      refine ⟨fields, hfields,
        fun f hf => ⟨hnumber f hf, (haccepted f hf).one_le_value, hvalues f hf⟩, ?_⟩
      rw [heq, getLastD_setUpAnnotationRadixes hprod', UInt64.toNat_ofNat']
      exact (Nat.mod_le ..).trans_lt hlt
  · intro hnone hrejects fields hfields
    by_cases hpass : ∀ f ∈ fields, ¬ f.Refused enumSizes
    · obtain ⟨haccepted, -, heq⟩ := hdecode fields hfields hpass
      have hlt := annotationNumber_lt_error hfields hprod (hnone fields hfields)
        fun f hf => (haccepted f hf).2.2.2
      have herror : decodeAnnotationSerialization ser (setUpAnnotationRadixes enumSizes) ≠
          kAnnotationError := by
        rw [heq, ne_eq, ← UInt64.toNat_inj, UInt64.toNat_ofNat_of_lt' (by
          simp only [UInt64.size]
          omega)]
        exact hlt.ne
      obtain ⟨fields', hfields', hrange, -⟩ := hrejects herror
      obtain rfl := hfields.unique hfields'
      exact .inr ⟨hnone fields hfields, fun f hf => (hrange f hf).2.2⟩
    · simp only [not_forall, not_not] at hpass
      obtain ⟨f, hf, hrefused⟩ := hpass
      exact .inl ⟨f, hf, hrefused⟩

end

/-- Three fields out of order, each with the largest value of its enum. -/
theorem rejectsOutOfRange_largest : RejectsOutOfRange [2, 3, 4] [24, 4, 8, 2, 16, 3] := by
  refine (rejectsOutOfRange_of_fieldsPlain (by decide) (by decide) (by decide) _).1 ?_
  intro fields hfields
  have hsplits : Splits [24, 4, 8, 2, 16, 3] [⟨3, 4⟩, ⟨1, 2⟩, ⟨2, 3⟩] :=
    .cons (by decide) rfl (.cons (by decide) rfl (.cons (by decide) rfl .nil))
  obtain rfl := hfields.unique hsplits
  right
  decide

/-- The second of the fields, an enum of three values, is given the value 4. -/
theorem not_rejectsOutOfRange_second_four : ¬ RejectsOutOfRange [2, 3, 4] [16, 4] := by
  intro h
  obtain ⟨fields, hfields, hrange, -⟩ := h (by decide +kernel)
  have hsplits : Splits [16, 4] [⟨2, 4⟩] := .cons (by decide) (by decide) .nil
  obtain rfl := hfields.unique hsplits
  exact absurd (hrange _ (List.mem_cons_self ..)).2.2 (by decide)

end GameSdk
