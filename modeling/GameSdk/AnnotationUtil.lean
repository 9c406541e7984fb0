import GameSdk.Checked
import Mathlib.Algebra.Ring.Int.Defs
import Mathlib.Algebra.Ring.Nat
import Mathlib.Order.Basic

/-!
# Annotation ids (`annotation_util.cpp`)

An annotation is a serialized protobuf message of enum fields. The functions
here turn it into an integer, the annotation id, and back. `SetUpAnnotationRadixes`
builds the table both directions walk: the running products of the enum sizes,
each plus one for "field missing". `uint32_t` and `uint64_t` are Lean's, so the
arithmetic wraps as in C++; a vector of bytes is a list (shorter than `2^31`, the
range of the `int` the loops index it with).

The decoder runs over the indices of its bytes, as the loop of the source does, and ends because
the reader never goes back. The encoder and the table run over lists. Where the source indexes the
table, the bound is the one it has just checked.
-/

namespace GameSdk

/-- An annotation as a number: the position of its combination of values in the table. -/
abbrev AnnotationId : Type := UInt64

/-- An annotation as the game passes it: the bytes of a protobuf message. -/
abbrev SerializedAnnotation : Type := List UInt8

/-- What `GetKeyIndex` returns for a byte that is not a tag of wire type 0. -/
def kKeyError : ℤ := -1

/-- The id of what is not an annotation. -/
def kAnnotationError : AnnotationId := 0xffffffffffffffff

/-- What the reader returns for an integer that does not end. -/
def kStreamError : UInt64 := 0xffffffffffffffff

/-- An `int` compared with a `size_t` is converted to it first. -/
def sizeT (i : ℤ) : ℕ := (i % 2 ^ 64).toNat

/-- A `size_t` holds what is below `2 ^ 64`. -/
theorem sizeT_of_lt {n : ℕ} (h : n < 2 ^ 64) : sizeT n = n := by
  rw [sizeT]
  omega

/-- This is a protobuf 1-based index. -/
def getKeyIndex (b : UInt8) : ℤ :=
  let type := b &&& 0x7
  if type ≠ 0 then kKeyError else ((b >>> 3).toNat : ℤ)

/-- The loop of `GetBase128IntegerFromByteStream`, with its locals `m` and `r`. -/
def getBase128Loop (bytes : List UInt8) (index m : ℕ) (r : UInt64) : UInt64 × ℕ :=
  if h : index < bytes.length ∧ m ≤ 64 - 7 then
    let b := bytes[index]
    let r := r ||| ((b.toUInt64 &&& 0x7f) <<< UInt64.ofNat m)
    if b &&& 0x80 ≠ 0 then getBase128Loop bytes (index + 1) (m + 7) r
    else (r, index)
  else (kStreamError, index)
termination_by bytes.length - index

/-- The integer that starts at `index`, and the index of its last byte. -/
def getBase128IntegerFromByteStream (bytes : List UInt8) (index : ℕ) : UInt64 × ℕ :=
  getBase128Loop bytes index 0 0

/-- The reader never goes back, which is why the decoder ends. -/
theorem le_getBase128Loop (bytes : List UInt8) (index m : ℕ) (r : UInt64) :
    index ≤ (getBase128Loop bytes index m r).2 := by
  induction index, m, r using getBase128Loop.induct bytes with
  | case1 index m r h b r' hb ih =>
    rw [getBase128Loop, dif_pos h]
    simp only [b] at hb
    rw [if_pos hb]
    exact Nat.le_trans (Nat.le_succ index) ih
  | case2 index m r h b hb =>
    simp only [b] at hb
    have heq : (getBase128Loop bytes index m r).2 = index := by
      rw [getBase128Loop, dif_pos h, if_neg hb]
    exact Nat.le_of_eq heq.symm
  | case3 index m r h =>
    have heq : (getBase128Loop bytes index m r).2 = index := by
      rw [getBase128Loop, dif_neg h]
    exact Nat.le_of_eq heq.symm

/-- A shift by seven bits divides by 128. -/
theorem toNat_shiftRight_seven (x : UInt64) : (x >>> 7).toNat = x.toNat / 128 := by
  rw [UInt64.toNat_shiftRight]
  exact Nat.shiftRight_eq_div_pow x.toNat 7

/-- Whether a byte is left over decides on `int b`, the low 32 bits of `x` with
the last seven cleared. -/
def writeBase128IntToStream (x : UInt64) (bytes : List UInt8) : List UInt8 :=
  let a := (x &&& 0x7f).toUInt8
  let b : Int32 := (x &&& 0xffffffffffffff80).toUInt32.toInt32
  if b ≠ 0 then
    let bytes := bytes ++ [a ||| 0x80]
    if x >>> 7 ≠ 0 then writeBase128IntToStream (x >>> 7) bytes else bytes
  else bytes ++ [a]
termination_by x.toNat
decreasing_by
  have hx : x.toNat ≠ 0 := fun h0 => by
    obtain rfl : x = 0 := UInt64.toNat_inj.mp h0
    exact absurd rfl ‹_ ≠ (0 : Int32)›
  rw [toNat_shiftRight_seven]
  omega

/-- The loop of `DecodeAnnotationSerialization`, from byte `i` on. -/
def decodeAnnotationLoop (ser : SerializedAnnotation) (radixMult : List UInt32) (i : ℕ)
    (result : AnnotationId) : AnnotationId :=
  if h : i < ser.length then
    if getKeyIndex ser[i] = kKeyError then kAnnotationError
    else
      -- convert to 0-based index; the comparison with `size()` is unsigned
      let key := sizeT (getKeyIndex ser[i] - 1)
      if hkey : radixMult.length ≤ key then kAnnotationError
      else if ser.length ≤ i + 1 then kAnnotationError
      else
        let value := (getBase128IntegerFromByteStream ser (i + 1)).1
        let last := (getBase128IntegerFromByteStream ser (i + 1)).2
        if value = kStreamError then kAnnotationError
        -- check the range of the value
        else if value = 0 ∨ radixMult[key].toUInt64 ≤ value then kAnnotationError
        -- we don't allow enums with more than 255 values
        else if 0xff < value then kAnnotationError
        else if 0 < key then
          decodeAnnotationLoop ser radixMult (last + 1)
            (result + radixMult[key - 1].toUInt64 * value)
        else decodeAnnotationLoop ser radixMult (last + 1) (result + value)
  else result
termination_by ser.length - i
decreasing_by
  all_goals
    have := le_getBase128Loop ser (i + 1) 0 0
    simp only [getBase128IntegerFromByteStream] at *
    omega

/-- The id of an annotation: its fields are read from the first byte on. -/
def decodeAnnotationSerialization (ser : SerializedAnnotation) (radixMult : List UInt32) :
    AnnotationId :=
  decodeAnnotationLoop ser radixMult 0 0

/-- `::lldiv`: quotient and remainder of `long long`s, rounding toward zero. -/
def lldiv {ν : Type} (numer denom : Int64) : Except (Fault ν) (Int64 × Int64) :=
  if denom = 0 then .error .zeroDivisor else .ok (numer / denom, numer % denom)

/-- The loop of `SerializeAnnotationId` over the rest of the table, from entry `i`
on, with `x` what is left of the id. -/
def serializeAnnotationLoop {ν : Type} (i : ℕ) (x : UInt64) (ser : SerializedAnnotation) :
    List UInt32 → Except (Fault ν) SerializedAnnotation
  | [] => .ok ser
  | radix :: radixMult => do
    let (quot, rem) ← lldiv x.toInt64 radix.toUInt64.toInt64
    let value : Int32 := rem.toInt32
    let key : ℕ := (i + 1) <<< 3
    let ser := if 0 < value then
        writeBase128IntToStream value.toInt64.toUInt64 (ser ++ [UInt8.ofNat key])
      else ser
    serializeAnnotationLoop (i + 1) quot.toUInt64 ser radixMult

/-- The error code is always `NO_ERROR`; the serialization is appended to `ser`. -/
def serializeAnnotationId {ν : Type} (id : AnnotationId) (ser : SerializedAnnotation)
    (radixMult : List UInt32) : Except (Fault ν) SerializedAnnotation :=
  serializeAnnotationLoop 0 id ser radixMult

/-- The loop of `SetUpAnnotationRadixes`: `r` is the product so far. -/
def annotationRadixLoop (r : UInt32) : List UInt32 → List UInt32
  | [] => []
  | e :: enumSizes => r * (e + 1) :: annotationRadixLoop (r * (e + 1)) enumSizes

/-- With no annotations, we just have 1 possible prong per key. -/
def setUpAnnotationRadixes (enumSizes : List UInt32) : List UInt32 :=
  if enumSizes = [] then [1] else annotationRadixLoop 1 enumSizes

example : setUpAnnotationRadixes [2, 1, 1] = [3, 6, 12] := by decide
example : decodeAnnotationSerialization [8, 2, 16, 3, 24, 4] [3, 12, 60] = 59 := by
  decide +kernel

end GameSdk
