import GameSdk.ClearcutLog

/-!
# Writing with nanopb

The library that writes the messages is not part of the repository. What the serializer
calls is a parameter, `Library`; `Library.Lawful` is what it relies on: the functions
follow the wire format, and write to a stream that only counts as to any other.

`Writes e bytes` says that the encoder `e` succeeds on every stream and writes `bytes`.
It goes through an encoder call by call.

Two encoders do the same if they write the same bytes to any stream. So a proof about the serializer
goes by its structure, with one lemma for each way to put encoders together. That the assumptions
can be met is shown by a small library at the end.
-/

namespace GameSdk

namespace Nano

/-! ## Streams

A stream takes bytes, or only counts them. nanopb writes a message in a field to a counting stream
first.
-/

/-- `VectorStream::Write`. -/
def VectorStream.write (vec buf : List UInt8) : Bool × List UInt8 :=
  if buf.length = 0 then (true, vec) else (true, vec ++ buf)

/-- A stream into a vector takes all bytes it is given. -/
theorem VectorStream.write_eq (vec buf : List UInt8) :
    VectorStream.write vec buf = (true, vec ++ buf) := by
  rw [write]
  split
  · next hnil => rw [List.length_eq_zero_iff.mp hnil, List.append_nil]
  · rfl

/-- A `pb_ostream_t`. -/
structure OStream where
  /-- the vector that is written to; a stream that only counts has none -/
  vec : Option (List UInt8)
  bytesWritten : ℕ
  deriving DecidableEq, Repr

namespace OStream

/-- `PB_OSTREAM_SIZING` -/
def sizing : OStream := ⟨none, 0⟩

/-- Bytes go to the callback of the stream, if it has one, and are counted. -/
def push (s : OStream) (bytes : List UInt8) : OStream :=
  ⟨s.vec.map fun vec => (VectorStream.write vec bytes).2, s.bytesWritten + bytes.length⟩

/-- Writing nothing. -/
@[simp] theorem push_nil (s : OStream) : s.push [] = s := by
  rcases s with ⟨_ | vec, n⟩ <;> simp [push, VectorStream.write_eq]

/-- Writing twice is writing once. -/
@[simp] theorem push_push (s : OStream) (as bs : List UInt8) :
    (s.push as).push bs = s.push (as ++ bs) := by
  rcases s with ⟨_ | vec, n⟩ <;> simp [push, VectorStream.write_eq, Nat.add_assoc]

end OStream

/-! ## The library

The functions of `pb_encode.h` that the serializer calls, and what it expects of them.
-/

/-- The types of the fields of the log messages. -/
inductive PbType where
  | int32 | int64 | string | bytes | message
  deriving DecidableEq, Repr

/-- The wire type of a field type. -/
def PbType.wireType : PbType → ℕ
  | .int32 | .int64 => 0
  | .string | .bytes | .message => 2

/-- `PB_WT_STRING` -/
def wtString : ℕ := 2

/-- A `pb_field_t`. -/
structure Field where
  tag : ℕ
  type : PbType
  deriving DecidableEq, Repr

/-- What writes to a stream, and returns whether it could. -/
abbrev Encoder : Type := OStream → Bool × OStream

/-- A field with the member of the generated structure for it: an optional integer, a
callback, or an optional message. -/
inductive Member where
  | int32 (field : Field) (has : Bool) (value : Int32)
  | int64 (field : Field) (has : Bool) (value : Int64)
  | callback (field : Field) (encode : Field → Encoder)
  | message (field : Field) (has : Bool) (members : List Member)

/-- The functions that the serializer calls, without the `pb_`. A `size_t` or a
`uint64_t` is a natural number. -/
structure Library where
  encodeVarint : ℕ → Encoder
  encodeTag : (wireType fieldNumber : ℕ) → Encoder
  encodeTagForField : Field → Encoder
  encodeString : List UInt8 → Encoder
  /-- the members in the order of their tags -/
  encode : List Member → Encoder

/-- On every stream, the encoder succeeds and writes these bytes. -/
def Writes (e : Encoder) (bytes : List UInt8) : Prop := ∀ s, e s = (true, s.push bytes)

/-- The bytes that open a field. -/
def Field.tagBytes (f : Field) : List UInt8 := Wire.tag f.tag f.type.wireType

/-- The bytes of a member. -/
def Library.WritesMember (lib : Library) : Member → List UInt8 → Prop
  | .int32 field has value, bytes =>
    bytes = if has then field.tagBytes ++ Varint.encode (ClearcutLog.ofInt32 value) else []
  | .int64 field has value, bytes =>
    bytes = if has then field.tagBytes ++ Varint.encode (ClearcutLog.ofInt64 value) else []
  | .callback field encode, bytes => Writes (encode field) bytes
  | .message field has members, bytes =>
    if has then ∃ body, Writes (lib.encode members) body ∧
      bytes = field.tagBytes ++ Wire.delimited body
    else bytes = []

/-- What the library promises. -/
structure Library.Lawful (lib : Library) : Prop where
  encodeVarint : ∀ n, Writes (lib.encodeVarint n) (Varint.encode n)
  encodeTag : ∀ wireType fieldNumber,
    Writes (lib.encodeTag wireType fieldNumber) (Wire.tag fieldNumber wireType)
  encodeTagForField : ∀ field, Writes (lib.encodeTagForField field) field.tagBytes
  encodeString : ∀ bytes, Writes (lib.encodeString bytes) (Wire.delimited bytes)
  encode : ∀ members bytess, List.Forall₂ lib.WritesMember members bytess →
    Writes (lib.encode members) bytess.flatten

/-! ## Encoders

Encoders one after the other, and what they write.
-/

namespace Encoder

/-- Nothing is left to write. -/
def done : Encoder := fun s => (true, s)

/-- `if (!e) return false;` and on with `next`. -/
def andThen (e next : Encoder) : Encoder := fun s =>
  match e s with
  | (true, s) => next s
  | (false, s) => (false, s)

/-- `e;` and on with `next`, whatever `e` returns. -/
def followedBy (e next : Encoder) : Encoder := fun s => next (e s).2

/-- `bytes_written` of a sizing stream after `e`. -/
def size (e : Encoder) : ℕ := (e OStream.sizing).2.bytesWritten

end Encoder

namespace Writes

variable {e e' : Encoder} {as bs : List UInt8}

/-- The bytes may be given in another form. -/
theorem of_eq (h : Writes e as) (heq : as = bs) : Writes e bs := heq ▸ h

/-- Writing nothing succeeds. -/
theorem done : Writes Encoder.done [] := fun s => by rw [OStream.push_nil, Encoder.done]

/-- Two encoders write their bytes one after the other. -/
theorem andThen (h : Writes e as) (h' : Writes e' bs) : Writes (e.andThen e') (as ++ bs) := by
  intro s
  rw [Encoder.andThen, h s]
  exact (h' _).trans (by rw [OStream.push_push])

/-- So they do where the source does not look at what the first one returns. -/
theorem followedBy (h : Writes e as) (h' : Writes e' bs) :
    Writes (e.followedBy e') (as ++ bs) := by
  intro s
  rw [Encoder.followedBy, h s]
  exact (h' _).trans (by rw [OStream.push_push])

/-- The sizing pass counts what the writing pass writes. -/
theorem size (h : Writes e as) : e.size = as.length := by
  rw [Encoder.size, h, OStream.push, OStream.sizing, Nat.zero_add]

end Writes

/-! ## A library like this

A library that follows the wire format, written down here, has all the properties.
-/

/-- Write these bytes. -/
def write (bytes : List UInt8) : Encoder := fun s => (true, s.push bytes)

/-- Plain bytes are written as they are. -/
theorem writes_write (bytes : List UInt8) : Writes (write bytes) bytes := fun _ => rfl

mutual

/-- A message is written with its length in front, which a first pass finds out. -/
def encodeMember : Member → Encoder
  | .int32 field has value =>
    if has then (write field.tagBytes).andThen (write (Varint.encode (ClearcutLog.ofInt32 value)))
    else .done
  | .int64 field has value =>
    if has then (write field.tagBytes).andThen (write (Varint.encode (ClearcutLog.ofInt64 value)))
    else .done
  | .callback field encode => encode field
  | .message field has members =>
    if has then (write field.tagBytes).andThen
      ((write (Varint.encode (encodeMembers members).size)).andThen (encodeMembers members))
    else .done

/-- The fields of a message in their order. -/
def encodeMembers : List Member → Encoder
  | [] => .done
  | m :: ms => (encodeMember m).andThen (encodeMembers ms)

end

/-- The wire format, function by function. -/
def wireLibrary : Library where
  encodeVarint n := write (Varint.encode n)
  encodeTag wireType fieldNumber := write (Wire.tag fieldNumber wireType)
  encodeTagForField field := write field.tagBytes
  encodeString bytes := write (Wire.delimited bytes)
  encode := encodeMembers

/-- A field of a message writes its record. -/
theorem writes_encodeMember {m : Member} {bytes : List UInt8}
    (h : wireLibrary.WritesMember m bytes) : Writes (encodeMember m) bytes := by
  rcases m with ⟨field, _ | _, value⟩ | ⟨field, _ | _, value⟩ | ⟨field, encode⟩ |
    ⟨field, _ | _, members⟩
  · obtain rfl : bytes = [] := h
    exact .done
  · obtain rfl : bytes = field.tagBytes ++ Varint.encode (ClearcutLog.ofInt32 value) := h
    exact (writes_write _).andThen (writes_write _)
  · obtain rfl : bytes = [] := h
    exact .done
  · obtain rfl : bytes = field.tagBytes ++ Varint.encode (ClearcutLog.ofInt64 value) := h
    exact (writes_write _).andThen (writes_write _)
  · exact h
  · obtain rfl : bytes = [] := h
    exact .done
  · obtain ⟨body, hbody, rfl⟩ := h
    have hbody : Writes (encodeMembers members) body := hbody
    rw [encodeMember, if_pos rfl, hbody.size]
    exact (writes_write _).andThen ((writes_write _).andThen hbody)

/-- **The assumptions hold** of this library. -/
theorem lawful_wireLibrary : wireLibrary.Lawful where
  encodeVarint _ := writes_write _
  encodeTag _ _ := writes_write _
  encodeTagForField _ := writes_write _
  encodeString _ := writes_write _
  encode members bytess h := by
    change Writes (encodeMembers members) bytess.flatten
    induction h with
    | nil => exact .done
    | cons hm _ ih => exact (writes_encodeMember hm).andThen ih

end Nano

end GameSdk
