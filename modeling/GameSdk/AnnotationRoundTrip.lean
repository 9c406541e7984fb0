import GameSdk.AnnotationCodec

/-!
# Round trips of annotations

Encoder and decoder walk the same table of running products. The decoder uses it
for weights, so the id of an annotation is the numeral whose digits are the field
values. The encoder divides by it, as if it held the radices, and gives the digits
back only while the numeral has no third one.

`EnumSizesOk` is what both directions need of the settings, and an `Annotation` carries the proof
that its values are within the sizes. The round trips that work are stated with the exact condition
under which they do.

The codec is taken as one of fields, by `AnnotationCodec.lean`, and the numerals are those of
`MixedRadix.lean`, with the table of products in place of the radices where the encoder is
concerned.
-/

namespace GameSdk

open MixedRadix

/-! ## Enum sizes

An enum has a value at least and 255 at most, and the product of all radices is a 32-bit `int`. Then
the table is right, and digits over it are small enough to be written.
-/

/-- The enum sizes the annotation scheme supports. -/
structure EnumSizesOk (enumSizes : List UInt32) : Prop where
  size_pos : ∀ e ∈ enumSizes, 1 ≤ e.toNat
  size_le : ∀ e ∈ enumSizes, e.toNat ≤ 255
  prod_lt : (radices enumSizes).prod < 2 ^ 31

namespace EnumSizesOk

variable {enumSizes : List UInt32}

/-- Each radix is at least two: a value, or none. -/
theorem two_le (h : EnumSizesOk enumSizes) : ∀ r ∈ radices enumSizes, 2 ≤ r := by
  intro r hr
  obtain ⟨e, he, rfl⟩ := List.mem_map.mp hr
  have := h.size_pos e he
  omega

/-- No radix is zero. -/
theorem pos (_ : EnumSizesOk enumSizes) : ∀ r ∈ radices enumSizes, 0 < r :=
  radices_pos enumSizes

/-- A size is a byte at most, so that a value is written in two bytes at most. -/
theorem le_256 (h : EnumSizesOk enumSizes) : ∀ r ∈ radices enumSizes, r ≤ 256 := by
  intro r hr
  obtain ⟨e, he, rfl⟩ := List.mem_map.mp hr
  have := h.size_le e he
  omega

/-- Every field at least doubles the product, so a tag fits in a byte. -/
theorem length_le (h : EnumSizesOk enumSizes) : enumSizes.length ≤ 30 := by
  have hpow := two_pow_length_le_prod h.two_le
  have hlt : 2 ^ enumSizes.length < 2 ^ 31 := by
    rw [radices, List.length_map] at hpow
    exact lt_of_le_of_lt hpow h.prod_lt
  have := (Nat.pow_lt_pow_iff_right (a := 2) (by decide)).mp hlt
  omega

/-- The table of valid settings holds the partial products. -/
theorem table_eq (h : EnumSizesOk enumSizes) (hne : enumSizes ≠ []) :
    (setUpAnnotationRadixes enumSizes).map UInt32.toNat = cumulative 1 (radices enumSizes) :=
  map_toNat_setUpAnnotationRadixes hne (by have := h.prod_lt; omega)

/-- The encoder writes the digits of an id over the table. -/
theorem serializeAnnotationId_eq (h : EnumSizesOk enumSizes) (hne : enumSizes ≠ []) {ν : Type}
    {x : ℕ} (hx : x < 2 ^ 63) :
    (serializeAnnotationId (UInt64.ofNat x) [] (setUpAnnotationRadixes enumSizes) :
        Except (Fault ν) _) =
      .ok (encodeFields (fieldsOf 0 (digits (cumulative 1 (radices enumSizes)) x))) := by
  rw [serializeAnnotationId,
    serializeAnnotationLoop_eq (setUpAnnotationRadixes_bounds h.prod_lt) 0 hx, h.table_eq hne,
    List.nil_append]

/-- Fields made of digits over the table have a tag and a value the byte codec
takes. -/
theorem fieldsOf_small (h : EnumSizesOk enumSizes) {ds : List ℕ}
    (hds : IsDigits (cumulative 1 (radices enumSizes)) ds) :
    ∀ f ∈ fieldsOf 0 ds, f.1 ≤ 30 ∧ f.2 < 128 ^ 9 := by
  intro f hf
  obtain ⟨i, hi, hget, -⟩ := mem_fieldsOf hf
  obtain ⟨hlt, hd⟩ := List.getElem?_eq_some_iff.mp hget
  have hlen := hds.length_eq
  have hdigit := List.Forall₂.get hds (by omega) hlt
  have hle := cumulative_le h.pos _ (List.get_mem (cumulative 1 (radices enumSizes)) ⟨i, by omega⟩)
  have := h.prod_lt
  have := h.length_le
  rw [length_cumulative, radices, List.length_map] at hlen
  simp only [List.get_eq_getElem] at hdigit hle
  omega

/-- A field made of a digit over the table passes the decoder's check when the
digit is at most 255. -/
theorem fieldOk_iff (h : EnumSizesOk enumSizes) (hne : enumSizes ≠ []) {ds : List ℕ}
    (hds : IsDigits (cumulative 1 (radices enumSizes)) ds) :
    (∀ f ∈ fieldsOf 0 ds, FieldOk (setUpAnnotationRadixes enumSizes) f) ↔ ∀ d ∈ ds, d ≤ 255 := by
  constructor
  · intro hall d hd
    by_cases hzero : d = 0
    · omega
    · obtain ⟨i, hi⟩ := List.mem_iff_getElem?.mp hd
      exact (hall _ (fieldsOf_mem hi hzero)).2.2
  · intro hall f hf
    obtain ⟨i, hi, hget, hne0⟩ := mem_fieldsOf hf
    obtain ⟨hlt, hd⟩ := List.getElem?_eq_some_iff.mp hget
    obtain rfl : f.1 = i := by omega
    have hlen := hds.length_eq
    have hdigit := List.Forall₂.get hds (by omega) hlt
    simp only [List.get_eq_getElem, ← h.table_eq hne, List.getElem_map] at hdigit
    refine ⟨hne0, ?_, hall f.2 (hd ▸ List.getElem_mem hlt)⟩
    rw [List.getD_eq_getElem _ _ (by rw [← h.table_eq hne, List.length_map] at hlen; omega)]
    omega

/-- The decoder reads back the number its digits stand for. -/
theorem decodeAnnotationSerialization_eq (h : EnumSizesOk enumSizes) (hne : enumSizes ≠ [])
    {ds : List ℕ} (hds : IsDigits (cumulative 1 (radices enumSizes)) ds) :
    decodeAnnotationSerialization (encodeFields (fieldsOf 0 ds))
        (setUpAnnotationRadixes enumSizes) =
      if ∀ d ∈ ds, d ≤ 255 then UInt64.ofNat (value (radices enumSizes) ds)
      else kAnnotationError := by
  rw [decodeAnnotationSerialization_encodeFields fun f hf => (h.fieldsOf_small hds f hf).1,
    fieldsValue_eq_value (h.table_eq hne) (by rw [← hds.length_eq, length_cumulative])]
  simp only [h.fieldOk_iff hne hds]

end EnumSizesOk

/-! ## From annotation to bytes and back

The decoder makes a number of the annotation, and the encoder divides this number by the entries of
the table. The first division is by a radix, the second by the product of two; it gives the second
digit all the same if there is nothing above it.
-/

/-- A message of the app: every field of the schema is unset or holds one of its
enum's values, which count from 1. -/
structure Annotation (enumSizes : List UInt32) where
  /-- the fields in the order of their numbers -/
  fields : List (Option ℕ)
  valid : List.Forall₂ (fun (size : UInt32) field => ∀ v ∈ field, 1 ≤ v ∧ v ≤ size.toNat)
    enumSizes fields

namespace Annotation

variable {enumSizes : List UInt32}

/-- The protobuf bytes of fields numbered from `n` on: for each set field its tag
(the field number, wire type varint) and its value. -/
def bytesFrom : ℕ → List (Option ℕ) → SerializedAnnotation
  | _, [] => []
  | n, none :: fields => bytesFrom (n + 1) fields
  | n, some v :: fields => Varint.encode (n * 8) ++ Varint.encode v ++ bytesFrom (n + 1) fields

/-- The canonical bytes: set fields in ascending order, counting from 1. -/
def bytes (a : Annotation enumSizes) : SerializedAnnotation := bytesFrom 1 a.fields

/-- An unset field is the digit zero. -/
def digits (a : Annotation enumSizes) : List ℕ := a.fields.map fun field => field.getD 0

/-- Message bytes are those of the fields that are set, counted from zero. -/
theorem bytesFrom_eq {k : ℕ} {fields : List (Option ℕ)} (hk : k + fields.length ≤ 15)
    (hpos : ∀ field ∈ fields, ∀ v ∈ field, 1 ≤ v) :
    bytesFrom (k + 1) fields =
      encodeFields (fieldsOf k (fields.map fun field => field.getD 0)) := by
  induction fields generalizing k with
  | nil => rfl
  | cons field fields ih =>
    obtain ⟨hfield, htail⟩ := List.forall_mem_cons.mp hpos
    rw [List.length_cons] at hk
    rw [List.map_cons]
    rcases field with _ | v
    · rw [bytesFrom, Option.getD_none, fieldsOf_cons_zero, ih (by omega) htail]
    · have hv : v ≠ 0 := by have := hfield v rfl; omega
      rw [bytesFrom, Option.getD_some, fieldsOf_cons_of_ne hv, encodeFields,
        Varint.encode_of_lt (by omega), ih (by omega) htail, List.append_assoc,
        List.singleton_append]

/-- The values of an annotation are digits for the radices. -/
theorem isDigits (a : Annotation enumSizes) : IsDigits (radices enumSizes) a.digits := by
  rw [IsDigits, radices, digits, List.forall₂_map_left_iff, List.forall₂_map_right_iff]
  refine a.valid.imp fun size field h => ?_
  rcases field with _ | v
  · exact Nat.succ_pos _
  · have := h v rfl
    simp only [Option.getD_some]
    omega

/-- A value that is set is not zero. -/
theorem pos_of_mem (a : Annotation enumSizes) : ∀ field ∈ a.fields, ∀ v ∈ field, 1 ≤ v := by
  intro field hfield v hv
  obtain ⟨i, hi, rfl⟩ := List.mem_iff_getElem.mp hfield
  have := List.Forall₂.get a.valid (by have := a.valid.length_eq; omega) hi
  exact (this v hv).1

/-- The message of an annotation has the bytes of its digits. -/
theorem bytes_eq (a : Annotation enumSizes) (h15 : enumSizes.length ≤ 15) :
    a.bytes = encodeFields (fieldsOf 0 a.digits) :=
  bytesFrom_eq (k := 0) (by rw [Nat.zero_add, ← a.valid.length_eq]; exact h15) a.pos_of_mem

/-- The digits from `n` on are zero exactly if these fields are missing. -/
theorem drop_digits_eq_zero_iff (a : Annotation enumSizes) (n : ℕ) :
    (∀ d ∈ a.digits.drop n, d = 0) ↔ ∀ field ∈ a.fields.drop n, field = none := by
  rw [digits, ← List.map_drop, List.forall_mem_map]
  refine forall₂_congr fun field hfield => ?_
  rcases field with _ | v
  · simp
  · have := a.pos_of_mem (some v) (List.mem_of_mem_drop hfield) v rfl
    simp only [Option.getD_some, reduceCtorEq, iff_false]
    omega

/-- A digit is a byte. -/
theorem digits_le (a : Annotation enumSizes) (h : EnumSizesOk enumSizes) :
    ∀ d ∈ a.digits, d ≤ 255 := by
  intro d hd
  obtain ⟨i, hi, rfl⟩ := List.mem_iff_getElem.mp hd
  have hlen := a.isDigits.length_eq
  have hlt := List.Forall₂.get a.isDigits (by omega) hi
  have := h.le_256 _ (List.get_mem (radices enumSizes) ⟨i, by omega⟩)
  simp only [List.get_eq_getElem] at hlt this
  omega

/-- The id of an annotation is the number its fields are the digits of. -/
theorem decode_bytes (a : Annotation enumSizes) (h : EnumSizesOk enumSizes)
    (hne : enumSizes ≠ []) (h15 : enumSizes.length ≤ 15) :
    decodeAnnotationSerialization a.bytes (setUpAnnotationRadixes enumSizes) =
      UInt64.ofNat (value (radices enumSizes) a.digits) := by
  rw [a.bytes_eq h15, h.decodeAnnotationSerialization_eq hne (a.isDigits.cumulative Nat.one_pos),
    if_pos (a.digits_le h)]

end Annotation

/-- Without enums the only annotation is empty, and comes back. -/
theorem serializeAnnotationId_decode_nil {ν : Type} :
    (serializeAnnotationId (decodeAnnotationSerialization [] (setUpAnnotationRadixes [])) []
        (setUpAnnotationRadixes []) : Except (Fault ν) _) = .ok [] := by
  have hdecode : decodeAnnotationSerialization [] (setUpAnnotationRadixes []) = UInt64.ofNat 0 := by
    rw [decodeAnnotationSerialization, decodeAnnotationLoop, dif_neg (by simp)]
    rfl
  rw [hdecode, serializeAnnotationId, setUpAnnotationRadixes, if_pos rfl,
    serializeAnnotationLoop_eq (by simp) 0 (Nat.two_pow_pos 63)]
  rfl

/-- **What is uploaded is what the app set exactly when no field numbered three or
higher is set.** -/
theorem serializeAnnotationId_decode_eq_iff {ν : Type} {enumSizes : List UInt32}
    (h : EnumSizesOk enumSizes) (h15 : enumSizes.length ≤ 15) (a : Annotation enumSizes) :
    (serializeAnnotationId
        (decodeAnnotationSerialization a.bytes (setUpAnnotationRadixes enumSizes)) []
        (setUpAnnotationRadixes enumSizes) : Except (Fault ν) _) = .ok a.bytes ↔
      ∀ field ∈ a.fields.drop 2, field = none := by
  by_cases hne : enumSizes = []
  · -- without fields the table is `[1]`, and both directions give nothing
    subst hne
    have hfields : a.fields = [] := List.eq_nil_of_length_eq_zero a.valid.length_eq.symm
    have hbytes : a.bytes = [] := by
      unfold Annotation.bytes
      rw [hfields, Annotation.bytesFrom]
    rw [hbytes, hfields, serializeAnnotationId_decode_nil]
    simp
  · have hvalue : value (radices enumSizes) a.digits < 2 ^ 63 := by
      have := value_lt a.isDigits
      have := h.prod_lt
      omega
    have hdigits := isDigits_digits (cumulative_pos Nat.one_pos h.pos)
      (value (radices enumSizes) a.digits)
    rw [a.decode_bytes h hne h15, h.serializeAnnotationId_eq hne hvalue, a.bytes_eq h15,
      Except.ok.injEq, ← a.drop_digits_eq_zero_iff,
      ← digits_cumulative_value_eq_iff h.two_le a.isDigits]
    constructor
    · intro hbytes
      refine fieldsOf_inj (k := 0) ?_ (encodeFields_inj (h.fieldsOf_small hdigits)
        (h.fieldsOf_small (a.isDigits.cumulative Nat.one_pos)) hbytes)
      rw [length_digits, length_cumulative, a.isDigits.length_eq]
    · intro heq
      rw [heq]

/-- Three small enums, as the samples below use them. -/
theorem enumSizesOk_two_three_four : EnumSizesOk [2, 3, 4] :=
  ⟨by simp, by simp, by simp [radices]⟩

/-- A message with the given fields over enums of 2, 3 and 4 values. -/
def annotationOf (fields : List (Option ℕ))
    (valid : List.Forall₂ (fun (size : UInt32) field => ∀ v ∈ field, 1 ≤ v ∧ v ≤ size.toNat)
      [2, 3, 4] fields := by simp) : Annotation [2, 3, 4] :=
  ⟨fields, valid⟩

/-- An annotation without its third field comes back. -/
theorem serializeAnnotationId_decode_first_two :
    (serializeAnnotationId
        (decodeAnnotationSerialization (annotationOf [some 2, some 3, none]).bytes
          (setUpAnnotationRadixes [2, 3, 4])) [] (setUpAnnotationRadixes [2, 3, 4]) :
        Except (Fault Empty) _) = .ok (annotationOf [some 2, some 3, none]).bytes :=
  (serializeAnnotationId_decode_eq_iff enumSizesOk_two_three_four (by decide)
    (annotationOf [some 2, some 3, none])).mpr (by decide)

/-- The app sets all three fields, to 2, 3 and 4, and the upload says 2, 7 and 1. -/
theorem serializeAnnotationId_decode_ne :
    EnumSizesOk [2, 3, 4] ∧ ([2, 3, 4] : List UInt32).length ≤ 15 ∧
      (serializeAnnotationId
          (decodeAnnotationSerialization (annotationOf [some 2, some 3, some 4]).bytes
            (setUpAnnotationRadixes [2, 3, 4])) [] (setUpAnnotationRadixes [2, 3, 4]) :
          Except (Fault Empty) _) = .ok [8, 2, 16, 7, 24, 1] ∧
      (annotationOf [some 2, some 3, some 4]).bytes = [8, 2, 16, 3, 24, 4] ∧
      (serializeAnnotationId
          (decodeAnnotationSerialization (annotationOf [some 2, some 3, some 4]).bytes
            (setUpAnnotationRadixes [2, 3, 4])) [] (setUpAnnotationRadixes [2, 3, 4]) :
          Except (Fault Empty) _) ≠ .ok (annotationOf [some 2, some 3, some 4]).bytes :=
  ⟨enumSizesOk_two_three_four, by decide, by decide +kernel, by decide +kernel,
    by decide +kernel⟩

/-! ## From id to bytes and back

The other way round the encoder starts, with digits over the table. The decoder gives each of them
the weight it has over the radices, and refuses a digit that is more than a byte.
-/

/-- Without a third digit the digits of a number over the table fit in a byte when
the second one does. -/
theorem EnumSizesOk.digits_le_iff {enumSizes : List UInt32} (h : EnumSizesOk enumSizes)
    (hne : enumSizes ≠ []) {x : ℕ} (hx : x < (radices enumSizes).prod)
    (hx2 : x < ((cumulative 1 (radices enumSizes)).take 2).prod) :
    (∀ d ∈ digits (cumulative 1 (radices enumSizes)) x, d ≤ 255) ↔
      x / (cumulative 1 (radices enumSizes)).headD 1 ≤ 255 := by
  have hpos := h.pos
  have h256 := h.le_256
  have hzero := drop_digits_eq_zero_iff (cumulative_pos Nat.one_pos hpos)
    (lt_of_lt_of_le hx (prod_le_prod_cumulative Nat.one_pos hpos)) 2
  rcases hrs : radices enumSizes with _ | ⟨r, rs⟩
  · exact absurd (List.map_eq_nil_iff.mp hrs) hne
  rw [hrs] at hx hx2 hpos h256 hzero
  have hr : 0 < r := hpos r (List.mem_cons_self ..)
  have hr256 : r ≤ 256 := h256 r (List.mem_cons_self ..)
  have hfirst : x % r ≤ 255 := by have := Nat.mod_lt x hr; omega
  rcases rs with _ | ⟨r', rs⟩
  · have hdiv : x / r = 0 := Nat.div_eq_of_lt (by simpa using hx)
    simp [hdiv, hfirst, cumulative]
  · have hdrop := hzero.mpr hx2
    have hsecond : x / r % (r * r') = x / r := by
      refine Nat.mod_eq_of_lt (Nat.div_lt_of_lt_mul ?_)
      simpa using hx2
    simp only [cumulative_cons, digits_cons, Nat.one_mul, List.drop_succ_cons, List.drop_zero,
      hsecond] at hdrop ⊢
    rw [List.forall_mem_cons, List.forall_mem_cons, List.headD_cons]
    constructor
    · rintro ⟨-, hd, -⟩
      exact hd
    · intro hd
      refine ⟨hfirst, hd, fun d hmem => ?_⟩
      rw [hdrop d hmem]
      exact Nat.zero_le 255

/-- **An id survives the round trip exactly when it is below the product of the
first two entries of the table and its second digit fits in a byte.** -/
theorem decode_serializeAnnotationId_eq_iff {ν : Type} {enumSizes : List UInt32}
    (h : EnumSizesOk enumSizes) (hne : enumSizes ≠ []) {id : AnnotationId} {back : UInt32}
    (hback : (setUpAnnotationRadixes enumSizes).getLast? = some back)
    (hid : id.toNat < back.toNat) :
    (∃ ser, (serializeAnnotationId id [] (setUpAnnotationRadixes enumSizes) :
        Except (Fault ν) _) = .ok ser ∧
      decodeAnnotationSerialization ser (setUpAnnotationRadixes enumSizes) = id) ↔
      id.toNat < (((setUpAnnotationRadixes enumSizes).map UInt32.toNat).take 2).prod ∧
        id.toNat / ((setUpAnnotationRadixes enumSizes).headD 1).toNat ≤ 255 := by
  have htable := h.table_eq hne
  have hprod := h.prod_lt
  have hback' : back.toNat = (radices enumSizes).prod := by
    have hlast := congrArg List.getLast? htable
    rw [List.getLast?_map, hback, getLast?_cumulative 1 (by simpa [radices] using hne),
      Nat.one_mul] at hlast
    exact Option.some.inj hlast
  have hhead : ((setUpAnnotationRadixes enumSizes).headD 1).toNat =
      (cumulative 1 (radices enumSizes)).headD 1 := by
    rw [← htable]
    cases setUpAnnotationRadixes enumSizes <;> rfl
  obtain ⟨x, hx, rfl⟩ : ∃ x < (radices enumSizes).prod, id = UInt64.ofNat x :=
    ⟨id.toNat, by omega, UInt64.ofNat_toNat.symm⟩
  have htoNat : (UInt64.ofNat x).toNat = x :=
    UInt64.toNat_ofNat_of_lt' (by simp only [UInt64.size]; omega)
  have hxT := lt_of_lt_of_le hx (prod_le_prod_cumulative Nat.one_pos h.pos)
  have hposT := cumulative_pos Nat.one_pos h.pos
  rw [htoNat, hhead, htable, ← drop_digits_eq_zero_iff hposT hxT 2,
    h.serializeAnnotationId_eq hne (by omega)]
  simp only [Except.ok.injEq, exists_eq_left']
  have hsecond := h.digits_le_iff hne hx
  rw [← drop_digits_eq_zero_iff hposT hxT 2] at hsecond
  have hds := isDigits_digits hposT x
  have hvalue := value_digits hxT
  generalize digits (cumulative 1 (radices enumSizes)) x = ds at hds hvalue hsecond ⊢
  have hnumeral := value_cumulative_eq_iff h.two_le (by rw [← hds.length_eq, length_cumulative])
  have hle := value_le_value_cumulative Nat.one_pos h.pos ds
  rw [hvalue] at hnumeral hle
  rw [h.decodeAnnotationSerialization_eq hne hds, ← hnumeral]
  rw [← hnumeral] at hsecond
  by_cases hsmall : ∀ d ∈ ds, d ≤ 255
  · have hinj : UInt64.ofNat (value (radices enumSizes) ds) = UInt64.ofNat x ↔
        x = value (radices enumSizes) ds := by
      rw [← UInt64.toNat_inj, htoNat,
        UInt64.toNat_ofNat_of_lt' (by simp only [UInt64.size]; omega), eq_comm]
    rw [if_pos hsmall, hinj]
    exact ⟨fun heq => ⟨heq, (hsecond heq).mp hsmall⟩, fun heq => heq.1⟩
  · -- a digit over 255 is refused by the decoder
    rw [if_neg hsmall]
    constructor
    · intro herr
      have := congrArg UInt64.toNat herr
      rw [htoNat] at this
      change 2 ^ 64 - 1 = x at this
      omega
    · rintro ⟨heq, hdigit⟩
      exact absurd ((hsecond heq).mpr hdigit) hsmall

/-- An id below the last entry of the table, there and back. -/
theorem decode_serializeAnnotationId_thirty_five :
    ∃ ser, (serializeAnnotationId 35 [] (setUpAnnotationRadixes [2, 3, 4]) :
        Except (Fault Empty) _) = .ok ser ∧
      decodeAnnotationSerialization ser (setUpAnnotationRadixes [2, 3, 4]) = 35 :=
  (decode_serializeAnnotationId_eq_iff enumSizesOk_two_three_four (by decide)
    (show (setUpAnnotationRadixes [2, 3, 4]).getLast? = some 60 by decide) (by decide)).mpr
    (by decide)

/-- The last id of the same schema comes back as 35. -/
theorem decode_serializeAnnotationId_ne :
    EnumSizesOk [2, 3, 4] ∧ (setUpAnnotationRadixes [2, 3, 4]).getLast? = some 60 ∧
      (serializeAnnotationId 59 [] (setUpAnnotationRadixes [2, 3, 4]) : Except (Fault Empty) _) =
        .ok [8, 2, 16, 7, 24, 1] ∧
      decodeAnnotationSerialization [8, 2, 16, 7, 24, 1] (setUpAnnotationRadixes [2, 3, 4]) = 35 ∧
      ¬ ∃ ser, (serializeAnnotationId 59 [] (setUpAnnotationRadixes [2, 3, 4]) :
          Except (Fault Empty) _) = .ok ser ∧
        decodeAnnotationSerialization ser (setUpAnnotationRadixes [2, 3, 4]) = 59 := by
  have hser : (serializeAnnotationId 59 [] (setUpAnnotationRadixes [2, 3, 4]) :
      Except (Fault Empty) _) = .ok [8, 2, 16, 7, 24, 1] := by decide +kernel
  have hdecode : decodeAnnotationSerialization [8, 2, 16, 7, 24, 1]
      (setUpAnnotationRadixes [2, 3, 4]) = 35 := by decide +kernel
  refine ⟨enumSizesOk_two_three_four, by decide, hser, hdecode, ?_⟩
  rintro ⟨ser, heq, hid⟩
  obtain rfl := Except.ok.inj (hser.symm.trans heq)
  rw [hdecode] at hid
  exact absurd hid (by decide)

end GameSdk
