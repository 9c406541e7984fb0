import GameSdk.Varint
import Mathlib.Algebra.Order.Ring.Nat

/-!
# The wire format of protocol buffers

A message is a sequence of records, each a field number with a number or with a string
of bytes. `encode` writes records and `parse` reads them back; what they mean is up to
the type of the message, which `decode` is given as a function that takes in one record
after the other. Fields of a fixed width and groups are left out.

The round trip is in two parts. `readRecord_encode` is about one record, which has to fit: its field
number below `2^29`, its length and its number below `2^64`. `decode_encode` is about a message of
any type, whatever its function does with the records; it says that it gets them all, in order.
-/

namespace Wire

/-- What a record carries. -/
inductive Payload where
  | varint (n : ℕ)
  | delimited (bytes : List UInt8)
  deriving DecidableEq, Repr

/-- A field of a message, with what it holds. -/
structure Record where
  number : ℕ
  payload : Payload
  deriving DecidableEq, Repr

/-! ## Writing

A record begins with a tag, the field number times eight plus the wire type. Strings of bytes come
with their length in front.
-/

/-- A field number with a wire type. -/
def tag (number wireType : ℕ) : List UInt8 := Varint.encode (number * 8 + wireType)

/-- Bytes with their length in front. -/
def delimited (bytes : List UInt8) : List UInt8 := Varint.encode bytes.length ++ bytes

/-- Numbers one after the other. -/
def packed (ns : List ℕ) : List UInt8 := ns.flatMap Varint.encode

/-- The tag of the record, and what it holds. -/
def Record.encode : Record → List UInt8
  | ⟨number, .varint n⟩ => tag number 0 ++ Varint.encode n
  | ⟨number, .delimited bytes⟩ => tag number 2 ++ delimited bytes

/-- The records of a message, one after the other. -/
def encode (rs : List Record) : List UInt8 := rs.flatMap Record.encode

/-- A message without records. -/
@[simp] theorem encode_nil : encode [] = [] := rfl

/-- A message is its first record and the others. -/
@[simp] theorem encode_cons (r : Record) (rs : List Record) :
    encode (r :: rs) = r.encode ++ encode rs := List.flatMap_cons

/-- Two messages in sequence are one message. -/
@[simp] theorem encode_append (rs rs' : List Record) :
    encode (rs ++ rs') = encode rs ++ encode rs' := List.flatMap_append

/-! ## Reading

A reader takes records off the front until nothing is left. It fails on bytes that are no record,
and on wire types that are not known here.
-/

/-- Numbers have at most ten bytes. Not so a length: it is bounded by the bytes that
follow. -/
def readRecord (bytes : List UInt8) : Option (Record × List UInt8) := do
  let (key, rest) ← Varint.decode 10 bytes
  match key % 8 with
  | 0 => do
    let (n, rest) ← Varint.decode 10 rest
    some (⟨key / 8, .varint n⟩, rest)
  | 2 => do
    let (length, rest) ← Varint.decode rest.length rest
    if length ≤ rest.length then
      some (⟨key / 8, .delimited (rest.take length)⟩, rest.drop length)
    else none
  | _ => none

/-- Read items off the front until nothing is left. There are no more of them than
`fuel`. -/
def readAll {α : Type} (read : List UInt8 → Option (α × List UInt8)) :
    ℕ → List UInt8 → Option (List α)
  | _, [] => some []
  | 0, _ :: _ => none
  | fuel + 1, b :: bytes => do
    let (a, rest) ← read (b :: bytes)
    let as ← readAll read fuel rest
    some (a :: as)

/-- The records of a message. A record has at least one byte, so the length is fuel enough. -/
def parse (bytes : List UInt8) : Option (List Record) := readAll readRecord bytes.length bytes

/-- The numbers of a packed field. -/
def parsePacked (bytes : List UInt8) : Option (List ℕ) :=
  readAll (Varint.decode 10) bytes.length bytes

/-- The value that the records of a message build up. -/
def decode {μ : Type} (step : μ → Record → Option μ) (init : μ) (bytes : List UInt8) :
    Option μ := do
  let rs ← parse bytes
  rs.foldlM step init

/-! ## Round trips

Each of the lemmas takes its part off the front of the bytes and leaves the rest, so they compose
along the message.
-/

/-- The numbers of a record fit in ten bytes. -/
def Record.Fits : Record → Prop
  | ⟨number, .varint n⟩ => number < 2 ^ 29 ∧ n < 2 ^ 64
  | ⟨number, .delimited _⟩ => number < 2 ^ 29

/-- What is written item by item is read item by item. -/
theorem readAll_flatMap {α : Type} {read : List UInt8 → Option (α × List UInt8)}
    {write : α → List UInt8} {as : List α} (hne : ∀ a ∈ as, write a ≠ [])
    (hread : ∀ a ∈ as, ∀ rest, read (write a ++ rest) = some (a, rest)) {fuel : ℕ}
    (hfuel : (as.flatMap write).length ≤ fuel) :
    readAll read fuel (as.flatMap write) = some as := by
  induction as generalizing fuel with
  | nil => rw [List.flatMap_nil, readAll]
  | cons a as ih =>
    obtain ⟨hnea, hne⟩ := List.forall_mem_cons.mp hne
    obtain ⟨hreada, hread⟩ := List.forall_mem_cons.mp hread
    rw [List.flatMap_cons] at hfuel ⊢
    have hrest := hreada (as.flatMap write)
    rcases hw : write a with _ | ⟨b, bs⟩
    · exact absurd hw hnea
    · rw [hw] at hfuel hrest
      rw [List.length_append, List.length_cons] at hfuel
      rcases fuel with _ | fuel
      · omega
      · rw [List.cons_append] at hrest ⊢
        have htail : readAll read fuel (as.flatMap write) = some as :=
          ih hne hread (by omega)
        simp [readAll, hrest, htail]

/-- A tag is read back as a number. -/
theorem decode_tag {number wireType : ℕ} (hnumber : number < 2 ^ 29) (htype : wireType < 8)
    (rest : List UInt8) :
    Varint.decode 10 (tag number wireType ++ rest) = some (number * 8 + wireType, rest) :=
  Varint.decode_encode (by omega) rest

/-- The tag tells the field number and the wire type. -/
theorem tag_div (number : ℕ) {wireType : ℕ} (h : wireType < 8) :
    (number * 8 + wireType) / 8 = number ∧ (number * 8 + wireType) % 8 = wireType := by
  omega

/-- A length takes fewer bytes than there are. -/
theorem decode_length (bytes rest : List UInt8) :
    Varint.decode (delimited bytes ++ rest).length (delimited bytes ++ rest) =
      some (bytes.length, bytes ++ rest) := by
  have hpos := List.length_pos_iff.mpr (Varint.encode_ne_nil bytes.length)
  obtain ⟨g, hg⟩ : ∃ g, (delimited bytes ++ rest).length = g + 1 :=
    Nat.exists_eq_add_one_of_ne_zero (by rw [delimited]; simp only [List.length_append]; omega)
  have hle : bytes.length ≤ g := by
    simp only [delimited, List.length_append] at hg
    omega
  have hlt : bytes.length < 128 ^ (g + 1) := by
    calc bytes.length < g + 1 := by omega
      _ < 128 ^ (g + 1) := Nat.lt_pow_self (by decide)
  rw [hg, delimited, List.append_assoc]
  exact Varint.decode_encode hlt _

/-- **A record is read back**, whatever comes after it. -/
theorem readRecord_encode {r : Record} (h : r.Fits) (rest : List UInt8) :
    readRecord (r.encode ++ rest) = some (r, rest) := by
  rcases r with ⟨number, n | bytes⟩
  · obtain ⟨hnumber, hn⟩ := h
    obtain ⟨hdiv, hmod⟩ := tag_div number (by decide : 0 < 8)
    simp only [readRecord, Record.encode, List.append_assoc, decode_tag hnumber (by decide : 0 < 8),
      Option.bind_eq_bind, Option.bind_some, hmod, hdiv,
      Varint.decode_encode (g := 9) (by omega : n < 128 ^ (9 + 1))]
  · obtain ⟨hdiv, hmod⟩ := tag_div number (by decide : 2 < 8)
    simp only [readRecord, Record.encode, List.append_assoc, decode_tag h (by decide : 2 < 8),
      Option.bind_eq_bind, Option.bind_some, hmod, hdiv, decode_length]
    simp

/-- A record is not empty. -/
theorem Record.encode_ne_nil (r : Record) : r.encode ≠ [] := by
  rcases r with ⟨number, n | bytes⟩ <;>
    simp [Record.encode, tag, Varint.encode_ne_nil]

/-- **Round trip** of a message. -/
theorem parse_encode {rs : List Record} (h : ∀ r ∈ rs, r.Fits) : parse (encode rs) = some rs :=
  readAll_flatMap (fun r _ => r.encode_ne_nil) (fun r hr => readRecord_encode (h r hr))
    (Nat.le_refl _)

/-- **Round trip** of a packed field. -/
theorem parsePacked_packed {ns : List ℕ} (h : ∀ n ∈ ns, n < 2 ^ 64) :
    parsePacked (packed ns) = some ns := by
  refine readAll_flatMap (fun n _ => Varint.encode_ne_nil n) (fun n hn rest => ?_) (Nat.le_refl _)
  have := h n hn
  exact Varint.decode_encode (g := 9) (by omega) rest

/-- **A message is read back**: its records reach the function of its type, in order. -/
theorem decode_encode {μ : Type} (step : μ → Record → Option μ) (init : μ) {rs : List Record}
    (h : ∀ r ∈ rs, r.Fits) : decode step init (encode rs) = rs.foldlM step init := by
  rw [decode, parse_encode h]
  rfl

end Wire
