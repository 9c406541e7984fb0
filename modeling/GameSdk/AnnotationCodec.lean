import GameSdk.AnnotationUtil
import GameSdk.MixedRadix
import GameSdk.Varint
import Mathlib.Data.Nat.Bitwise

/-!
# What the annotation encoder and decoder compute

The byte loops of `annotation_util.cpp` in terms of the two libraries: the
varint loops read and write `Varint`s, the encoder writes the fields of
`MixedRadix.digits` — taken with the *table* for radices — and the decoder adds up
the weights of the fields it reads.

* `decodeAnnotationLoop_encodeFields`: on the bytes of a list of fields the decoder returns the sum
  of their weights, or the error if one of them fails its check.
* `serializeAnnotationLoop_eq`: the encoder appends the fields whose values are the digits of the
  id.

What the two have to do with each other is in `AnnotationRoundTrip.lean`.
-/

namespace GameSdk

open MixedRadix

/-! ## Bytes

Facts about single bytes, as the source masks and shifts them, and then the loop that reads an
integer. It is the decoder of `Varint` with a bound on the bytes it takes.
-/

/-- The low seven bits of a byte are its remainder. -/
theorem and_127_toNat (b : UInt8) : (b.toUInt64 &&& 0x7f).toNat = b.toNat % 128 := by
  rw [UInt64.toNat_and, UInt8.toNat_toUInt64]
  exact Nat.and_two_pow_sub_one_eq_mod b.toNat 7

/-- The high bit of a byte says that another one follows. -/
theorem and_128_ne_zero_iff (b : UInt8) : b &&& 0x80 ≠ 0 ↔ 128 ≤ b.toNat := by
  have hlt := b.toNat_lt
  have h128 : (b &&& 0x80).toNat = (b.toNat.testBit 7).toNat * 2 ^ 7 := by
    rw [UInt8.toNat_and]
    exact Nat.and_two_pow b.toNat 7
  rw [ne_eq, ← UInt8.toNat_inj, h128, Nat.testBit_eq_decide_div_mod_eq]
  by_cases h : 128 ≤ b.toNat
  · have hbit : b.toNat / 128 % 2 = 1 := by omega
    simp [hbit, h]
  · have hbit : b.toNat / 128 % 2 = 0 := by omega
    simp [hbit, h]

/-- One round of the reading loop: seven more bits on top of the `m` read. -/
theorem toNat_or_shiftLeft (r : UInt64) (b : UInt8) {m : ℕ} (hm : m ≤ 57)
    (hr : r.toNat < 2 ^ m) :
    (r ||| ((b.toUInt64 &&& 0x7f) <<< UInt64.ofNat m)).toNat =
      r.toNat + 2 ^ m * (b.toNat % 128) := by
  have hm64 : (UInt64.ofNat m).toNat % 64 = m := by
    rw [UInt64.toNat_ofNat_of_lt' (by simp only [UInt64.size]; omega)]
    omega
  have hfit : b.toNat % 128 * 2 ^ m < 2 ^ 64 := by
    calc b.toNat % 128 * 2 ^ m < 128 * 2 ^ 57 :=
          Nat.mul_lt_mul_of_lt_of_le (Nat.mod_lt _ (by decide))
            (Nat.pow_le_pow_right (by decide) hm) (Nat.two_pow_pos 57)
      _ = 2 ^ 64 := by norm_num
  rw [UInt64.toNat_or, UInt64.toNat_shiftLeft, and_127_toNat, hm64, Nat.shiftLeft_eq,
    Nat.mod_eq_of_lt hfit, Nat.or_comm, ← Nat.shiftLeft_eq, ← Nat.shiftLeft_add_eq_or_of_lt hr,
    Nat.shiftLeft_eq, Nat.add_comm, Nat.mul_comm (2 ^ m)]

/-- Seven more bits: the number read so far stays below its power of two. -/
theorem toNat_or_shiftLeft_lt (r : UInt64) (b : UInt8) {m : ℕ} (hm : m ≤ 57)
    (hr : r.toNat < 2 ^ m) :
    (r ||| ((b.toUInt64 &&& 0x7f) <<< UInt64.ofNat m)).toNat < 2 ^ (m + 7) := by
  have hlow : b.toNat % 128 ≤ 127 := Nat.le_of_lt_succ (Nat.mod_lt _ (by decide))
  rw [toNat_or_shiftLeft r b hm hr, Nat.pow_add]
  calc r.toNat + 2 ^ m * (b.toNat % 128) < 2 ^ m + 2 ^ m * 127 :=
        Nat.add_lt_add_of_lt_of_le hr (Nat.mul_le_mul_left _ hlow)
    _ = 2 ^ m * 2 ^ 7 := by ring

/-- The list is as long as what was dropped and what is left. -/
theorem length_of_drop {α : Type} {xs bs : List α} {b : α} {i : ℕ} (h : xs.drop i = b :: bs) :
    xs.length = i + bs.length + 1 := by
  have := congrArg List.length h
  rw [List.length_drop, List.length_cons] at this
  omega

/-- What is left after `i` elements begins with the element at `i`. -/
theorem getElem_of_drop {α : Type} {xs bs : List α} {b : α} {i : ℕ} (h : xs.drop i = b :: bs) :
    ∃ hi : i < xs.length, xs[i] = b ∧ xs.drop (i + 1) = bs := by
  have hi : i < xs.length := by have := length_of_drop h; omega
  rw [List.drop_eq_getElem_cons hi, List.cons.injEq] at h
  exact ⟨hi, h⟩

/-- Nine bytes at most, `m` bits of them read already. -/
theorem getBase128Loop_of_decode {bytes rest : List UInt8} {g v : ℕ} :
    ∀ {index m : ℕ} {r : UInt64}, 7 * g + m = 63 → r.toNat < 2 ^ m →
      Varint.decode g (bytes.drop index) = some (v, rest) →
      getBase128Loop bytes index m r =
        (UInt64.ofNat (r.toNat + 2 ^ m * v), bytes.length - rest.length - 1) := by
  induction g generalizing v with
  | zero =>
    intro index m r _ _ hd
    rw [Varint.decode_zero] at hd
    cases hd
  | succ g ih =>
    intro index m r hm hr hd
    rcases hdrop : bytes.drop index with _ | ⟨b, bs⟩
    · rw [hdrop, Varint.decode_nil] at hd
      cases hd
    have hlen := length_of_drop hdrop
    obtain ⟨hlt, hget, hdrop'⟩ := getElem_of_drop hdrop
    have hstep := toNat_or_shiftLeft r b (m := m) (by omega) hr
    rw [getBase128Loop, dif_pos ⟨hlt, by omega⟩]
    simp only [hget, and_128_ne_zero_iff]
    rw [hdrop, Varint.decode_cons] at hd
    by_cases hb : b.toNat < 128
    · -- the last byte
      rw [if_pos hb] at hd
      simp only [Option.some.injEq, Prod.mk.injEq] at hd
      obtain ⟨rfl, rfl⟩ := hd
      rw [if_neg (by omega)]
      have hmod : b.toNat % 128 = b.toNat := Nat.mod_eq_of_lt hb
      rw [hmod] at hstep
      have hindex : index = bytes.length - bs.length - 1 := by omega
      generalize (r ||| ((b.toUInt64 &&& 0x7f) <<< UInt64.ofNat m)) = w at hstep ⊢
      rw [← hstep, UInt64.ofNat_toNat, Prod.mk.injEq]
      exact ⟨rfl, hindex⟩
    · -- seven bits more, and the rest of the bytes
      rw [if_neg hb, Option.map_eq_some_iff] at hd
      obtain ⟨⟨w, rest'⟩, hw, heq⟩ := hd
      simp only [Prod.mk.injEq] at heq
      obtain ⟨rfl, rfl⟩ := heq
      have hmod : b.toNat % 128 = b.toNat - 128 := by have := b.toNat_lt; omega
      have hr' := toNat_or_shiftLeft_lt r b (by omega) hr
      have hvalue : r.toNat + 2 ^ m * (b.toNat - 128) + 2 ^ (m + 7) * w =
          r.toNat + 2 ^ m * (b.toNat - 128 + 128 * w) := by
        rw [Nat.pow_add]
        ring
      have hw' : Varint.decode g (bytes.drop (index + 1)) = some (w, rest') := by
        rw [hdrop']
        exact hw
      have hih := ih (by omega) hr' hw'
      rw [hstep, hmod, hvalue] at hih
      rw [if_pos (by omega)]
      exact hih

/-- On bytes that are not an integer the reader returns its error. -/
theorem getBase128Loop_of_none {bytes : List UInt8} {g : ℕ} :
    ∀ {index m : ℕ} {r : UInt64}, 7 * g + m = 63 →
      Varint.decode g (bytes.drop index) = none →
      (getBase128Loop bytes index m r).1 = kStreamError := by
  induction g with
  | zero =>
    intro index m r hm _
    rw [getBase128Loop, dif_neg (by omega)]
  | succ g ih =>
    intro index m r hm hd
    rw [getBase128Loop]
    split
    · next h =>
      obtain ⟨hlt, -⟩ := h
      rw [List.drop_eq_getElem_cons hlt, Varint.decode_cons] at hd
      simp only [and_128_ne_zero_iff]
      by_cases hb : bytes[index].toNat < 128
      · rw [if_pos hb] at hd
        cases hd
      · rw [if_neg hb, Option.map_eq_none_iff] at hd
        rw [if_pos (by omega)]
        exact ih (by omega) hd
    · rfl

/-- The reader is `Varint.decode` with room for nine bytes. -/
theorem getBase128_of_decode {bytes rest : List UInt8} {index v : ℕ}
    (h : Varint.decode 9 (bytes.drop index) = some (v, rest)) :
    getBase128IntegerFromByteStream bytes index =
      (UInt64.ofNat v, bytes.length - rest.length - 1) := by
  have := getBase128Loop_of_decode (m := 0) (r := 0) (by norm_num) (by decide) h
  simpa [getBase128IntegerFromByteStream] using this

/-- Where `Varint.decode` fails the reader returns the error value. -/
theorem getBase128_of_none {bytes : List UInt8} {index : ℕ}
    (h : Varint.decode 9 (bytes.drop index) = none) :
    (getBase128IntegerFromByteStream bytes index).1 = kStreamError :=
  getBase128Loop_of_none (by norm_num) h

/-- Clearing the low seven bits. -/
theorem and_not_127 {x : ℕ} (hx : x < 2 ^ 64) : x &&& 0xffffffffffffff80 = 128 * (x / 128) := by
  have hdiv : (x &&& 0xffffffffffffff80) / 2 ^ 7 = x / 128 := by
    rw [Nat.and_div_two_pow]
    have := Nat.and_two_pow_sub_one_eq_mod (x / 2 ^ 7) 57
    norm_num at this ⊢
    omega
  have hmod : (x &&& 0xffffffffffffff80) % 2 ^ 7 = 0 := by
    rw [Nat.and_mod_two_pow]
    exact Nat.and_zero _
  omega

/-- The conversion to a signed word keeps zero apart. -/
theorem toInt32_eq_zero_iff (w : UInt32) : w.toInt32 = 0 ↔ w = 0 := by
  constructor
  · intro h
    have := congrArg Int32.toUInt32 h
    rwa [UInt32.toUInt32_toInt32] at this
  · rintro rfl
    rfl

/-- Below `2^31` the `int` sees all the bits. -/
theorem toInt32_and_not_127_ne_zero_iff {n : ℕ} (h : n < 2 ^ 31) :
    (UInt64.ofNat n &&& 0xffffffffffffff80).toUInt32.toInt32 ≠ 0 ↔ 128 ≤ n := by
  have hn : (UInt64.ofNat n).toNat = n :=
    UInt64.toNat_ofNat_of_lt' (by simp only [UInt64.size]; omega)
  have h32 : (UInt64.ofNat n &&& 0xffffffffffffff80).toUInt32.toNat = 128 * (n / 128) := by
    rw [UInt64.toNat_toUInt32, UInt64.toNat_and, hn]
    have := and_not_127 (x := n) (by omega)
    change (n &&& 0xffffffffffffff80) % 2 ^ 32 = _
    rw [this]
    omega
  rw [ne_eq, toInt32_eq_zero_iff, ← UInt32.toNat_inj, h32]
  change ¬ 128 * (n / 128) = 0 ↔ _
  omega

/-- The byte the writer makes of the low seven bits. -/
theorem toUInt8_and_127 {n : ℕ} (h : n < 2 ^ 64) :
    (UInt64.ofNat n &&& 0x7f).toUInt8 = UInt8.ofNat (n % 128) := by
  rw [← UInt8.toNat_inj, Varint.toNat_ofNat_of_lt (by omega), UInt64.toNat_toUInt8,
    UInt64.toNat_and, UInt64.toNat_ofNat_of_lt' h]
  have := Nat.and_two_pow_sub_one_eq_mod n 7
  change (n &&& 0x7f) % 2 ^ 8 = _
  norm_num at this
  omega

/-- The bit that says that more is to come. -/
theorem ofNat_or_128 {a : ℕ} (h : a < 128) : UInt8.ofNat a ||| 0x80 = UInt8.ofNat (a + 128) := by
  rw [← UInt8.toNat_inj, UInt8.toNat_or, Varint.toNat_ofNat_of_lt (by omega),
    Varint.toNat_ofNat_of_lt (by omega), Nat.or_comm]
  have := Nat.two_pow_add_eq_or_of_lt (i := 7) (b := a) (by omega) 1
  norm_num at this
  change 128 ||| a = _
  omega

/-- The writer is `Varint.encode`, for an `int` that is not negative. -/
theorem writeBase128_eq (n : ℕ) (h : n < 2 ^ 31) (bytes : List UInt8) :
    writeBase128IntToStream (UInt64.ofNat n) bytes = bytes ++ Varint.encode n := by
  induction n using Nat.strongRecOn generalizing bytes with
  | ind n ih =>
    have htest := toInt32_and_not_127_ne_zero_iff h
    have hshift : UInt64.ofNat n >>> 7 = UInt64.ofNat (n / 128) := by
      rw [← UInt64.toNat_inj, toNat_shiftRight_seven,
        UInt64.toNat_ofNat_of_lt' (by simp only [UInt64.size]; omega),
        UInt64.toNat_ofNat_of_lt' (by simp only [UInt64.size]; omega)]
    rw [writeBase128IntToStream, toUInt8_and_127 (n := n) (by omega)]
    by_cases hlt : n < 128
    · rw [if_neg (by rw [htest]; omega), Varint.encode_of_lt hlt, Nat.mod_eq_of_lt hlt]
    · have hne : UInt64.ofNat n >>> 7 ≠ 0 := by
        rw [hshift, ne_eq, ← UInt64.toNat_inj,
          UInt64.toNat_ofNat_of_lt' (by simp only [UInt64.size]; omega)]
        change ¬ n / 128 = 0
        omega
      have htail := ih (n / 128) (by omega) (by omega) (bytes ++ [UInt8.ofNat (n % 128 + 128)])
      rw [if_pos (by rw [htest]; omega), if_pos hne, hshift,
        ofNat_or_128 (Nat.mod_lt _ (by decide)), htail,
        Varint.encode_of_ge (n := n) (by omega), List.append_assoc, List.singleton_append]

/-! ## Fields

A set enum field is the number `k` of its place, counted from zero, with a
non-zero value. On the wire it is one tag byte — field number `k + 1`, wire type
varint — and the value.
-/

/-- The fields of a digit list whose first digit is at place `k`. -/
def fieldsOf : ℕ → List ℕ → List (ℕ × ℕ)
  | _, [] => []
  | k, d :: ds => if d = 0 then fieldsOf (k + 1) ds else (k, d) :: fieldsOf (k + 1) ds

/-- The bytes of fields, each with the index of its enum and its value. -/
def encodeFields : List (ℕ × ℕ) → SerializedAnnotation
  | [] => []
  | f :: fs => UInt8.ofNat ((f.1 + 1) * 8) :: (Varint.encode f.2 ++ encodeFields fs)

/-- What the value of field `k` counts for in an annotation id. -/
def weight (radixMult : List UInt32) : ℕ → ℕ
  | 0 => 1
  | k + 1 => (radixMult.getD k 0).toNat

/-- What the decoder checks of a field. -/
def FieldOk (radixMult : List UInt32) (f : ℕ × ℕ) : Prop :=
  f.2 ≠ 0 ∧ f.2 < (radixMult.getD f.1 0).toNat ∧ f.2 ≤ 0xff

instance (radixMult : List UInt32) (f : ℕ × ℕ) : Decidable (FieldOk radixMult f) :=
  inferInstanceAs (Decidable (_ ∧ _ ∧ _))

/-- The number a field list stands for. -/
def fieldsValue (radixMult : List UInt32) (fs : List (ℕ × ℕ)) : ℕ :=
  (fs.map fun f => weight radixMult f.1 * f.2).sum

/-- A missing field has no bytes. -/
theorem fieldsOf_cons_zero (k : ℕ) (ds : List ℕ) :
    fieldsOf k (0 :: ds) = fieldsOf (k + 1) ds := if_pos rfl

/-- A digit other than zero is a field. -/
theorem fieldsOf_cons_of_ne {d : ℕ} (hd : d ≠ 0) (k : ℕ) (ds : List ℕ) :
    fieldsOf k (d :: ds) = (k, d) :: fieldsOf (k + 1) ds := if_neg hd

/-- A field list tells for each of its fields the digit it came from. -/
theorem mem_fieldsOf {f : ℕ × ℕ} {k : ℕ} {ds : List ℕ} (h : f ∈ fieldsOf k ds) :
    ∃ i, f.1 = k + i ∧ ds[i]? = some f.2 ∧ f.2 ≠ 0 := by
  induction ds generalizing k with
  | nil => cases h
  | cons d ds ih =>
    have htail (h : f ∈ fieldsOf (k + 1) ds) :
        ∃ i, f.1 = k + i ∧ (d :: ds)[i]? = some f.2 ∧ f.2 ≠ 0 := by
      obtain ⟨i, hi, hget, hne⟩ := ih h
      exact ⟨i + 1, by omega, by rwa [List.getElem?_cons_succ], hne⟩
    by_cases hd : d = 0
    · rw [hd, fieldsOf_cons_zero] at h
      exact htail h
    · rw [fieldsOf_cons_of_ne hd] at h
      rcases List.mem_cons.mp h with rfl | h
      · exact ⟨0, rfl, rfl, hd⟩
      · exact htail h

/-- Each digit other than zero is among the fields. -/
theorem fieldsOf_mem {d i k : ℕ} {ds : List ℕ} (h : ds[i]? = some d) (hd : d ≠ 0) :
    (k + i, d) ∈ fieldsOf k ds := by
  induction ds generalizing k i with
  | nil => cases h
  | cons d' ds ih =>
    rcases i with _ | i
    · obtain rfl : d' = d := by simpa using h
      rw [fieldsOf_cons_of_ne hd]
      exact List.mem_cons_self ..
    · have htail : (k + (i + 1), d) ∈ fieldsOf (k + 1) ds := by
        rw [show k + (i + 1) = k + 1 + i by omega]
        exact ih (by simpa using h)
      by_cases hd' : d' = 0
      · rwa [hd', fieldsOf_cons_zero]
      · rw [fieldsOf_cons_of_ne hd']
        exact List.mem_cons_of_mem _ htail

/-- No field comes twice, since each has its own enum. -/
theorem nodup_fieldsOf (k : ℕ) (ds : List ℕ) : (fieldsOf k ds).Nodup := by
  induction ds generalizing k with
  | nil => exact List.nodup_nil
  | cons d ds ih =>
    by_cases hd : d = 0
    · rw [hd, fieldsOf_cons_zero]
      exact ih (k + 1)
    · rw [fieldsOf_cons_of_ne hd, List.nodup_cons]
      refine ⟨?_, ih (k + 1)⟩
      intro hmem
      obtain ⟨i, hi, -, -⟩ := mem_fieldsOf hmem
      simp only at hi
      omega

/-- The fields determine the digits. -/
theorem fieldsOf_inj {k : ℕ} {ds ds' : List ℕ} (hlen : ds.length = ds'.length)
    (h : fieldsOf k ds = fieldsOf k ds') : ds = ds' := by
  -- a digit of one list is a field of it, hence of the other, hence a digit there
  have hget {es es' : List ℕ} (hlen : es.length = es'.length)
      (h : fieldsOf k es = fieldsOf k es') (i d : ℕ) (hd : d ≠ 0) (hi : es[i]? = some d) :
      es'[i]? = some d := by
    have hmem := fieldsOf_mem (k := k) hi hd
    rw [h] at hmem
    obtain ⟨j, hj, hget, -⟩ := mem_fieldsOf hmem
    obtain rfl : i = j := by simpa using hj
    exact hget
  refine List.ext_getElem hlen fun i hi hi' => ?_
  by_cases hd : ds[i] = 0
  · by_cases hd' : ds'[i] = 0
    · rw [hd, hd']
    · have := hget hlen.symm h.symm i ds'[i] hd' (List.getElem?_eq_getElem hi')
      exact (Option.some.inj ((List.getElem?_eq_getElem hi).symm.trans this))
  · have := hget hlen h i ds[i] hd (List.getElem?_eq_getElem hi)
    exact (Option.some.inj ((List.getElem?_eq_getElem hi').symm.trans this)).symm

/-! ## The encoder

`SerializeAnnotationId` divides by one entry of the table after the other, and appends a field for
each remainder that is not zero.
-/

/-- Below `2 ^ 31` the sign of the converted number tells only whether it is zero. -/
theorem zero_lt_toInt32_ofNat {n : ℕ} (h : n < 2 ^ 31) :
    0 < (Int64.ofNat n).toInt32 ↔ n ≠ 0 := by
  rw [Int64.toInt32_ofNat']
  have := Int32.ofNat_lt_iff_lt (a := 0) (b := n) (by norm_num) h
  rw [show (0 : Int32) = Int32.ofNat 0 from rfl, this]
  omega

/-- Below `2 ^ 31` the conversions back and forth change nothing. -/
theorem toUInt64_toInt64_toInt32 {n : ℕ} (h : n < 2 ^ 31) :
    (Int64.ofNat n).toInt32.toInt64.toUInt64 = UInt64.ofNat n := by
  have hmax : (n : ℤ) ≤ Int32.maxValue.toInt := by
    change (n : ℤ) ≤ 2 ^ 31 - 1
    omega
  rw [Int64.toInt32_ofNat', Int32.toInt64_ofNat' hmax, Int64.toUInt64_ofNat']

/-- **The encoder writes the digits of the id**, the table taken for radices. -/
theorem serializeAnnotationLoop_eq {ν : Type} {radixMult : List UInt32}
    (hrm : ∀ r ∈ radixMult, 0 < r.toNat ∧ r.toNat ≤ 2 ^ 31) (i : ℕ) {x : ℕ} (hx : x < 2 ^ 63)
    (ser : SerializedAnnotation) :
    (serializeAnnotationLoop i (UInt64.ofNat x) ser radixMult : Except (Fault ν) _) =
      .ok (ser ++ encodeFields (fieldsOf i (digits (radixMult.map UInt32.toNat) x))) := by
  induction radixMult generalizing i x ser with
  | nil => simp [serializeAnnotationLoop, fieldsOf, encodeFields]
  | cons r radixMult ih =>
    obtain ⟨hr, hr31⟩ := hrm r (List.mem_cons_self ..)
    have hquot : x / r.toNat < 2 ^ 63 := lt_of_le_of_lt (Nat.div_le_self ..) hx
    have hmod : x % r.toNat < 2 ^ 31 := lt_of_lt_of_le (Nat.mod_lt x hr) hr31
    have hradix : r.toUInt64.toInt64 = Int64.ofNat r.toNat := by
      rw [← UInt32.ofNat_toNat (x := r), UInt32.toUInt64_ofNat' r.toNat_lt, UInt64.toInt64_ofNat',
        UInt32.ofNat_toNat]
    have hne : Int64.ofNat r.toNat ≠ 0 := by
      rw [ne_eq, ← Int64.toInt_inj, Int64.toInt_ofNat_of_lt (by omega)]
      change ¬ (r.toNat : ℤ) = 0
      omega
    rw [serializeAnnotationLoop, UInt64.toInt64_ofNat', hradix, lldiv, if_neg hne]
    rw [Checked.ok_bind, ← Int64.ofNat_div hx (by omega), ← Int64.ofNat_mod hx (by omega)]
    simp only [zero_lt_toInt32_ofNat hmod, toUInt64_toInt64_toInt32 hmod, Int64.toUInt64_ofNat']
    rw [ih (fun r' hr' => hrm r' (List.mem_cons_of_mem _ hr')) (i + 1) hquot, List.map_cons,
      digits_cons]
    by_cases hd : x % r.toNat = 0
    · rw [if_neg (by simpa using hd), hd, fieldsOf_cons_zero]
    · rw [if_pos hd, fieldsOf_cons_of_ne hd, writeBase128_eq _ hmod, encodeFields,
        Nat.shiftLeft_eq]
      simp only [List.append_assoc, List.cons_append]
      rfl

/-! ## The decoder

Each round reads a tag byte and an integer, checks both, and adds the integer times the weight of
its enum. The induction is on the fields that are still unread.
-/

/-- The place the tag byte names. -/
theorem getKeyIndex_tag {k : ℕ} (hk : k ≤ 30) :
    getKeyIndex (UInt8.ofNat ((k + 1) * 8)) = k + 1 := by
  have : ∀ k ≤ 30, getKeyIndex (UInt8.ofNat ((k + 1) * 8)) = k + 1 := by decide
  exact this k hk

/-- A tag is a byte: the number of the field, over three bits for the wire type, which is 0
for a number. -/
theorem getKeyIndex_eq (tag : UInt8) :
    getKeyIndex tag = if tag.toNat % 8 = 0 then ((tag.toNat / 8 : ℕ) : ℤ) else kKeyError := by
  have htype : tag &&& 0x7 ≠ 0 ↔ ¬ tag.toNat % 8 = 0 := by
    rw [ne_eq, ← UInt8.toNat_inj, UInt8.toNat_and]
    exact not_congr (Eq.congr_left (Nat.and_two_pow_sub_one_eq_mod tag.toNat 3))
  have hnumber : (tag >>> 3).toNat = tag.toNat / 8 := by
    rw [UInt8.toNat_shiftRight]
    exact Nat.shiftRight_eq_div_pow tag.toNat 3
  simp only [getKeyIndex, htype, ite_not, hnumber]

/-- The tests of the decoder, on a number of 64 bits. -/
theorem fieldOk_iff_tests {radixMult : List UInt32} {k v : ℕ} (hk : k < radixMult.length)
    (hv : v < 2 ^ 64) : FieldOk radixMult (k, v) ↔
      ¬ (UInt64.ofNat v = 0 ∨ radixMult[k].toUInt64 ≤ UInt64.ofNat v) ∧
        ¬ 0xff < UInt64.ofNat v := by
  have hv64 : (UInt64.ofNat v).toNat = v := UInt64.toNat_ofNat_of_lt' hv
  have hzero : UInt64.ofNat v = 0 ↔ v = 0 := by
    rw [← UInt64.toNat_inj, hv64]
    rfl
  have hrange : radixMult[k].toUInt64 ≤ UInt64.ofNat v ↔ radixMult[k].toNat ≤ v := by
    rw [UInt64.le_iff_toNat_le, hv64, UInt32.toNat_toUInt64]
  have hff : 0xff < UInt64.ofNat v ↔ 0xff < v := by
    rw [UInt64.lt_iff_toNat_lt, hv64]
    rfl
  rw [FieldOk, List.getD_eq_getElem _ _ hk, hzero, hrange, hff]
  simp only [not_or, not_le, not_lt, and_assoc, ne_eq]

/-- One round of the decoder, at a tag and a number that can be read. -/
theorem decodeAnnotationLoop_tag {ser bytes rest : SerializedAnnotation} {radixMult : List UInt32}
    {i k v : ℕ} {tag : UInt8} (htag : getKeyIndex tag = k + 1)
    (hread : Varint.decode 9 bytes = some (v, rest)) (hdrop : ser.drop i = tag :: bytes)
    (result : AnnotationId) :
    decodeAnnotationLoop ser radixMult i result =
      if FieldOk radixMult (k, v) then
        decodeAnnotationLoop ser radixMult (ser.length - rest.length)
          (result + UInt64.ofNat (weight radixMult k * v))
      else kAnnotationError := by
  have hlen := length_of_drop hdrop
  obtain ⟨hi, hget, hdrop'⟩ := getElem_of_drop hdrop
  obtain ⟨-, hrest⟩ := Varint.suffix_of_decode hread
  have hv : v < 128 ^ 9 := Varint.decode_lt hread
  have hk : k < 2 ^ 64 := by
    have hlt := tag.toNat_lt
    rw [getKeyIndex_eq, kKeyError] at htag
    omega
  have hread := getBase128_of_decode (by rw [hdrop']; exact hread)
  have hlast : ser.length - rest.length - 1 + 1 = ser.length - rest.length := by omega
  have hkey : sizeT (getKeyIndex tag - 1) = k := by
    rw [htag, Int.add_sub_cancel, sizeT_of_lt hk]
  have hkeyError : getKeyIndex tag ≠ kKeyError := by
    rw [htag, kKeyError]
    omega
  rw [decodeAnnotationLoop, dif_pos hi]
  simp only [hget, hkey, hread, hlast]
  rw [if_neg hkeyError]
  by_cases hlt : radixMult.length ≤ k
  · -- there is no such field
    have hbad : ¬ FieldOk radixMult (k, v) := by
      rw [FieldOk, List.getD_eq_default _ _ hlt]
      exact fun h => absurd h.2.1 (Nat.not_lt_zero v)
    rw [dif_pos hlt, if_neg hbad]
  have hk' : k < radixMult.length := not_le.mp hlt
  -- nine bytes are 63 bits, so the number is not the error value
  have hstream : UInt64.ofNat v ≠ kStreamError := by
    rw [ne_eq, ← UInt64.toNat_inj, UInt64.toNat_ofNat_of_lt' (by simp only [UInt64.size]; omega)]
    change ¬ v = 2 ^ 64 - 1
    omega
  have hok := fieldOk_iff_tests hk' (v := v) (by omega)
  rw [dif_neg hlt, if_neg (by omega), if_neg hstream]
  by_cases hrange : UInt64.ofNat v = 0 ∨ radixMult[k].toUInt64 ≤ UInt64.ofNat v
  · rw [if_pos hrange, if_neg fun h => (hok.mp h).1 hrange]
  by_cases hbig : 0xff < UInt64.ofNat v
  · rw [if_neg hrange, if_pos hbig, if_neg fun h => (hok.mp h).2 hbig]
  rw [if_neg hrange, if_neg hbig, if_pos (hok.mpr ⟨hrange, hbig⟩)]
  cases k with
  | zero => rw [if_neg (Nat.lt_irrefl 0), weight, Nat.one_mul]
  | succ k =>
    rw [if_pos (Nat.succ_pos k), weight, List.getD_eq_getElem _ _ (by omega), UInt64.ofNat_mul]
    simp

/-- A byte that is not a tag of wire type varint. -/
theorem decodeAnnotationLoop_of_keyError {ser bytes : SerializedAnnotation}
    {radixMult : List UInt32} {i : ℕ} {tag : UInt8} (htag : getKeyIndex tag = kKeyError)
    (hdrop : ser.drop i = tag :: bytes) (result : AnnotationId) :
    decodeAnnotationLoop ser radixMult i result = kAnnotationError := by
  obtain ⟨hi, hget, -⟩ := getElem_of_drop hdrop
  rw [decodeAnnotationLoop, dif_pos hi, if_pos (by rw [hget, htag])]

/-- There is no field number 0: it is looked up past the end of the table. -/
theorem decodeAnnotationLoop_of_zero {ser bytes : SerializedAnnotation}
    {radixMult : List UInt32} (hsize : radixMult.length < 2 ^ 64) {i : ℕ} {tag : UInt8}
    (htag : getKeyIndex tag = 0) (hdrop : ser.drop i = tag :: bytes) (result : AnnotationId) :
    decodeAnnotationLoop ser radixMult i result = kAnnotationError := by
  obtain ⟨hi, hget, -⟩ := getElem_of_drop hdrop
  have hkey : sizeT (getKeyIndex ser[i] - 1) = 2 ^ 64 - 1 := by
    rw [hget, htag]
    rfl
  rw [decodeAnnotationLoop, dif_pos hi, if_neg (by rw [hget, htag]; decide)]
  simp only
  rw [dif_pos (by rw [hkey]; omega)]

/-- A number that cannot be read, or has more than nine bytes, is a stream error. -/
theorem decodeAnnotationLoop_of_none {ser bytes : SerializedAnnotation}
    {radixMult : List UInt32} {i : ℕ} {tag : UInt8} (hread : Varint.decode 9 bytes = none)
    (hdrop : ser.drop i = tag :: bytes) (result : AnnotationId) :
    decodeAnnotationLoop ser radixMult i result = kAnnotationError := by
  obtain ⟨hi, hget, hdrop'⟩ := getElem_of_drop hdrop
  have hread : (getBase128IntegerFromByteStream ser (i + 1)).1 = kStreamError := by
    apply getBase128_of_none
    rwa [hdrop']
  rw [decodeAnnotationLoop, dif_pos hi]
  simp only [hget, hread]
  split
  · rfl
  split
  · rfl
  split
  · rfl
  rfl

/-- One round of the decoder, at the first byte of an encoded field. -/
theorem decodeAnnotationLoop_field {ser rest : SerializedAnnotation} {radixMult : List UInt32}
    {i k v : ℕ} (hk : k ≤ 30) (hv : v < 128 ^ 9)
    (hdrop : ser.drop i = UInt8.ofNat ((k + 1) * 8) :: (Varint.encode v ++ rest))
    (result : AnnotationId) :
    decodeAnnotationLoop ser radixMult i result =
      if FieldOk radixMult (k, v) then
        decodeAnnotationLoop ser radixMult (ser.length - rest.length)
          (result + UInt64.ofNat (weight radixMult k * v))
      else kAnnotationError :=
  decodeAnnotationLoop_tag (getKeyIndex_tag hk) (Varint.decode_encode hv rest) hdrop result

/-- The weights add up. -/
theorem fieldsValue_cons (radixMult : List UInt32) (f : ℕ × ℕ) (fs : List (ℕ × ℕ)) :
    fieldsValue radixMult (f :: fs) = weight radixMult f.1 * f.2 + fieldsValue radixMult fs := by
  rw [fieldsValue, List.map_cons, List.sum_cons, fieldsValue]

/-- **The decoder.** From the bytes of fields it computes the sum of their weights, unless a field
fails its check. -/
theorem decodeAnnotationLoop_encodeFields {ser : SerializedAnnotation} {radixMult : List UInt32}
    {fs : List (ℕ × ℕ)} (hfs : ∀ f ∈ fs, f.1 ≤ 30) {i : ℕ}
    (hdrop : ser.drop i = encodeFields fs) (result : AnnotationId) :
    decodeAnnotationLoop ser radixMult i result =
      if ∀ f ∈ fs, FieldOk radixMult f then result + UInt64.ofNat (fieldsValue radixMult fs)
      else kAnnotationError := by
  induction fs generalizing i result with
  | nil =>
    have hlen : ser.length ≤ i := List.drop_eq_nil_iff.mp hdrop
    rw [decodeAnnotationLoop, dif_neg (by omega), if_pos (fun f hf => (nomatch hf))]
    simp [fieldsValue]
  | cons f fs ih =>
    have hk := hfs f (List.mem_cons_self ..)
    by_cases hv : f.2 < 128 ^ 9
    swap
    · have hf : ¬ FieldOk radixMult f := fun h => absurd h.2.2 (by omega)
      rw [decodeAnnotationLoop_of_none (Varint.decode_encode_of_ge (not_lt.mp hv) _) hdrop,
        if_neg fun h => hf (h f (List.mem_cons_self ..))]
    have hsuffix : encodeFields fs <:+ ser := by
      have : encodeFields fs <:+ ser.drop i := by
        rw [hdrop, encodeFields]
        exact (List.suffix_append ..).trans (List.suffix_cons ..)
      exact this.trans (List.drop_suffix ..)
    rw [decodeAnnotationLoop_field hk hv hdrop,
      ih (fun f' hf' => hfs f' (List.mem_cons_of_mem _ hf'))
        (List.suffix_iff_eq_drop.mp hsuffix).symm]
    by_cases hf : FieldOk radixMult f
    · have hall : (∀ f' ∈ f :: fs, FieldOk radixMult f') ↔ ∀ f' ∈ fs, FieldOk radixMult f' := by
        rw [List.forall_mem_cons]
        exact and_iff_right hf
      rw [if_pos hf]
      simp only [hall, fieldsValue_cons, UInt64.ofNat_add, UInt64.add_assoc]
    · rw [if_neg hf, if_neg fun h => hf (h f (List.mem_cons_self ..))]

/-- **The decoder adds up the weights of the fields**, if each of them passes its check. -/
theorem decodeAnnotationSerialization_encodeFields {radixMult : List UInt32}
    {fs : List (ℕ × ℕ)} (hfs : ∀ f ∈ fs, f.1 ≤ 30) :
    decodeAnnotationSerialization (encodeFields fs) radixMult =
      if ∀ f ∈ fs, FieldOk radixMult f then UInt64.ofNat (fieldsValue radixMult fs)
      else kAnnotationError := by
  rw [decodeAnnotationSerialization,
    decodeAnnotationLoop_encodeFields hfs (List.drop_zero (l := encodeFields fs)), UInt64.zero_add]

/-- The bytes of two field lists differ when the fields do. -/
theorem encodeFields_inj {fs fs' : List (ℕ × ℕ)} (hfs : ∀ f ∈ fs, f.1 ≤ 30 ∧ f.2 < 128 ^ 9)
    (hfs' : ∀ f ∈ fs', f.1 ≤ 30 ∧ f.2 < 128 ^ 9) (h : encodeFields fs = encodeFields fs') :
    fs = fs' := by
  induction fs generalizing fs' with
  | nil =>
    rcases fs' with _ | ⟨f', fs'⟩
    · rfl
    · cases h
  | cons f fs ih =>
    rcases fs' with _ | ⟨f', fs'⟩
    · cases h
    · obtain ⟨⟨hk, hv⟩, htail⟩ := List.forall_mem_cons.mp hfs
      obtain ⟨⟨hk', hv'⟩, htail'⟩ := List.forall_mem_cons.mp hfs'
      rw [encodeFields, encodeFields, List.cons.injEq] at h
      obtain ⟨htag, hbytes⟩ := h
      have hplace : f.1 = f'.1 := by
        have := congrArg getKeyIndex htag
        rw [getKeyIndex_tag hk, getKeyIndex_tag hk'] at this
        omega
      have hread := Varint.decode_encode hv (encodeFields fs)
      rw [hbytes, Varint.decode_encode hv', Option.some.injEq, Prod.mk.injEq] at hread
      rw [ih htail htail' hread.2.symm, Prod.ext hplace hread.1.symm]

/-! ## The table

`SetUpAnnotationRadixes` multiplies as it goes. As long as the product of the radices fits 32 bits,
the table is the list of partial products.
-/

/-- The number of values of each field, "missing" included. -/
def radices (enumSizes : List UInt32) : List ℕ := enumSizes.map fun e => e.toNat + 1

/-- No radix is zero, since each counts a missing field too. -/
theorem radices_pos (enumSizes : List UInt32) : ∀ r ∈ radices enumSizes, 0 < r := by
  intro r hr
  obtain ⟨e, -, rfl⟩ := List.mem_map.mp hr
  exact Nat.succ_pos _

/-- The table holds the running products of the enum sizes, each plus one, as
long as the last of them fits in 32 bits. -/
theorem map_toNat_annotationRadixLoop {r : UInt32} {enumSizes : List UInt32} (hr : 0 < r.toNat)
    (h : r.toNat * (radices enumSizes).prod < 2 ^ 32) :
    (annotationRadixLoop r enumSizes).map UInt32.toNat =
      cumulative r.toNat (radices enumSizes) := by
  induction enumSizes generalizing r with
  | nil => rfl
  | cons e enumSizes ih =>
    rw [radices, List.map_cons, List.prod_cons, ← Nat.mul_assoc, ← radices] at h
    have hprod : 0 < (radices enumSizes).prod := List.prod_pos (radices_pos enumSizes)
    have hmul : r.toNat * (e.toNat + 1) < 2 ^ 32 :=
      lt_of_le_of_lt (Nat.le_mul_of_pos_right _ hprod) h
    have hsucc : (e + 1).toNat = e.toNat + 1 := by
      have : e.toNat + 1 < 2 ^ 32 := lt_of_le_of_lt (Nat.le_mul_of_pos_left _ hr) hmul
      rw [UInt32.toNat_add]
      exact Nat.mod_eq_of_lt this
    have hnext : (r * (e + 1)).toNat = r.toNat * (e.toNat + 1) := by
      rw [UInt32.toNat_mul, hsucc, Nat.mod_eq_of_lt hmul]
    rw [annotationRadixLoop, List.map_cons, ih (by rw [hnext]; exact Nat.mul_pos hr (by omega))
      (by rw [hnext]; exact h), hnext]
    rfl

/-- **The table.** Its entries are the partial products of the radices. -/
theorem map_toNat_setUpAnnotationRadixes {enumSizes : List UInt32} (hne : enumSizes ≠ [])
    (h : (radices enumSizes).prod < 2 ^ 32) :
    (setUpAnnotationRadixes enumSizes).map UInt32.toNat = cumulative 1 (radices enumSizes) := by
  rw [setUpAnnotationRadixes, if_neg hne]
  exact map_toNat_annotationRadixLoop (r := 1) (by decide) (by rw [UInt32.toNat_one]; omega)

/-- The entries of the table can be divided by, and are `int`s. -/
theorem setUpAnnotationRadixes_bounds {enumSizes : List UInt32}
    (h : (radices enumSizes).prod < 2 ^ 31) :
    ∀ r ∈ setUpAnnotationRadixes enumSizes, 0 < r.toNat ∧ r.toNat ≤ 2 ^ 31 := by
  intro r hr
  by_cases hne : enumSizes = []
  · rw [setUpAnnotationRadixes, if_pos hne] at hr
    obtain rfl := List.mem_singleton.mp hr
    decide
  · have hmem : r.toNat ∈ cumulative 1 (radices enumSizes) := by
      rw [← map_toNat_setUpAnnotationRadixes hne (by omega)]
      exact List.mem_map_of_mem hr
    have hpos := radices_pos enumSizes
    have hle := cumulative_le hpos _ hmem
    exact ⟨cumulative_pos Nat.one_pos hpos _ hmem, by omega⟩

/-- The last entry is the number of annotations. -/
theorem getLastD_setUpAnnotationRadixes {enumSizes : List UInt32}
    (h : (radices enumSizes).prod < 2 ^ 32) :
    ((setUpAnnotationRadixes enumSizes).getLastD 0).toNat = (radices enumSizes).prod := by
  by_cases hne : enumSizes = []
  · rw [setUpAnnotationRadixes, if_pos hne, hne]
    rfl
  · have hlast := congrArg List.getLast? (map_toNat_setUpAnnotationRadixes hne h)
    rw [List.getLast?_map, getLast?_cumulative 1 (by simpa [radices] using hne), Nat.one_mul,
      Option.map_eq_some_iff] at hlast
    obtain ⟨back, hback, hprod⟩ := hlast
    rw [List.getLastD_eq_getLast?, hback, Option.getD_some, hprod]

/-- One entry of the table. -/
theorem toNat_getD_table {radixMult : List UInt32} {rs : List ℕ}
    (htable : radixMult.map UInt32.toNat = cumulative 1 rs) {k : ℕ} (hk : k < rs.length) :
    (radixMult.getD k 0).toNat = (rs.take (k + 1)).prod := by
  have hget := congrArg (fun l => l[k]?) htable
  simp only [List.getElem?_map, getElem?_cumulative] at hget
  rw [if_pos hk, Nat.one_mul, Option.map_eq_some_iff] at hget
  obtain ⟨r, hr, hprod⟩ := hget
  rw [List.getD_eq_getElem?_getD, hr, Option.getD_some, hprod]

/-- A place weighs as much as the entry before it. -/
theorem weight_eq {radixMult : List UInt32} {rs : List ℕ}
    (htable : radixMult.map UInt32.toNat = cumulative 1 rs) {k : ℕ} (hk : k < rs.length) :
    weight radixMult k = (rs.take k).prod := by
  rcases k with _ | k
  · rfl
  · exact toNat_getD_table htable (Nat.lt_of_succ_lt hk)

/-- **The weights** of the fields of a numeral add up to its value. -/
theorem fieldsValue_fieldsOf {radixMult : List UInt32} {rs ds : List ℕ} {a k : ℕ}
    (hlen : rs.length = ds.length)
    (hw : ∀ j < rs.length, weight radixMult (k + j) = a * (rs.take j).prod) :
    fieldsValue radixMult (fieldsOf k ds) = a * value rs ds := by
  induction ds generalizing rs a k with
  | nil => simp [fieldsOf, fieldsValue]
  | cons d ds ih =>
    rcases rs with _ | ⟨r, rs⟩
    · cases hlen
    · have hhead : weight radixMult k = a := by
        simpa using hw 0 (Nat.succ_pos _)
      have hw' : ∀ j < rs.length, weight radixMult (k + 1 + j) = a * r * (rs.take j).prod := by
        intro j hj
        rw [show k + 1 + j = k + (j + 1) by omega, hw (j + 1) (Nat.succ_lt_succ hj),
          List.take_succ_cons, List.prod_cons, Nat.mul_assoc]
      have htail := ih (Nat.succ.inj hlen) hw'
      rw [value_cons, Nat.mul_add, ← Nat.mul_assoc, ← htail]
      by_cases hd : d = 0
      · rw [hd, fieldsOf_cons_zero, Nat.mul_zero, Nat.zero_add]
      · rw [fieldsOf_cons_of_ne hd, fieldsValue_cons, hhead]

/-- With the running products for weights the fields of a digit list stand for
the number the digits do. -/
theorem fieldsValue_eq_value {radixMult : List UInt32} {rs ds : List ℕ}
    (htable : radixMult.map UInt32.toNat = cumulative 1 rs) (hlen : rs.length = ds.length) :
    fieldsValue radixMult (fieldsOf 0 ds) = value rs ds := by
  rw [fieldsValue_fieldsOf (a := 1) hlen fun j hj => by
    rw [Nat.zero_add, weight_eq htable hj, Nat.one_mul], Nat.one_mul]

end GameSdk
