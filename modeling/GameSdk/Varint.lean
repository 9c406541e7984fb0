import Mathlib.Data.List.Basic
import Mathlib.Tactic.Ring

/-!
# Base-128 integers

The byte encoding of numbers used by protocol buffers: seven bits to a byte,
lowest first, with the top bit set on every byte but the last. `encode` writes
the shortest form; `decode g` reads a number of at most `g` bytes off the front
of a byte list and returns what is left.

`decode_encode` is the round trip. A decoder need not insist on the shortest form, so different
bytes may stand for one number; `IsVarint` is the form that all of them have.
-/

namespace Varint

/-- The shortest encoding of a number. -/
def encode (n : ℕ) : List UInt8 :=
  if n < 128 then [UInt8.ofNat n]
  else UInt8.ofNat (n % 128 + 128) :: encode (n / 128)

/-- The number at the front of a byte list, when it ends within `g` bytes. -/
def decode : ℕ → List UInt8 → Option (ℕ × List UInt8)
  | 0, _ => none
  | _ + 1, [] => none
  | g + 1, b :: bs =>
    if b.toNat < 128 then some (b.toNat, bs)
    else (decode g bs).map fun p => (b.toNat - 128 + 128 * p.1, p.2)

/-- A number has at least one byte. -/
@[simp] theorem decode_zero (bs : List UInt8) : decode 0 bs = none := by
  cases bs <;> rfl

/-- Where there is no byte there is no number. -/
@[simp] theorem decode_nil (g : ℕ) : decode g [] = none := by
  cases g <;> rfl

/-- A byte below 128 ends the number, another one is its lowest seven bits. -/
theorem decode_cons (g : ℕ) (b : UInt8) (bs : List UInt8) :
    decode (g + 1) (b :: bs) = if b.toNat < 128 then some (b.toNat, bs)
      else (decode g bs).map fun p => (b.toNat - 128 + 128 * p.1, p.2) := rfl

/-- A number below 256 is kept by a byte. -/
theorem toNat_ofNat_of_lt {n : ℕ} (h : n < 256) : (UInt8.ofNat n).toNat = n :=
  UInt8.toNat_ofNat_of_lt' h

/-- A number of seven bits is one byte. -/
theorem encode_of_lt {n : ℕ} (h : n < 128) : encode n = [UInt8.ofNat n] := by
  rw [encode, if_pos h]

/-- The lowest seven bits go first, with the top bit set. -/
theorem encode_of_ge {n : ℕ} (h : 128 ≤ n) :
    encode n = UInt8.ofNat (n % 128 + 128) :: encode (n / 128) := by
  rw [encode, if_neg (by omega)]

/-- Every number has a first byte. -/
theorem encode_ne_nil (n : ℕ) : encode n ≠ [] := by
  rw [encode]
  split <;> simp

/-- A number of at most `g` bytes has `7 * g` bits. -/
theorem decode_lt {g n : ℕ} {bs rest : List UInt8} (h : decode g bs = some (n, rest)) :
    n < 128 ^ g := by
  induction g generalizing n bs with
  | zero =>
    rw [decode_zero] at h
    cases h
  | succ g ih =>
    rcases bs with _ | ⟨b, bs⟩
    · rw [decode_nil] at h
      cases h
    rw [decode_cons] at h
    have hpos : 0 < 128 ^ g := Nat.pow_pos (by decide)
    rw [Nat.pow_succ']
    split at h
    · obtain ⟨rfl, rfl⟩ : b.toNat = n ∧ bs = rest := by simpa using h
      omega
    · obtain ⟨⟨n', rest'⟩, hd, heq⟩ := Option.map_eq_some_iff.mp h
      obtain ⟨rfl, rfl⟩ : b.toNat - 128 + 128 * n' = n ∧ rest' = rest := by simpa using heq
      have := ih hd
      have := b.toNat_lt
      omega

/-- What is left is the end of the bytes, and at least one byte shorter. -/
theorem suffix_of_decode {g n : ℕ} {bs rest : List UInt8} (h : decode g bs = some (n, rest)) :
    rest <:+ bs ∧ rest.length < bs.length := by
  induction g generalizing n bs with
  | zero =>
    rw [decode_zero] at h
    cases h
  | succ g ih =>
    rcases bs with _ | ⟨b, bs⟩
    · rw [decode_nil] at h
      cases h
    rw [decode_cons] at h
    split at h
    · obtain ⟨-, rfl⟩ : b.toNat = n ∧ bs = rest := by simpa using h
      exact ⟨List.suffix_cons b bs, Nat.lt_succ_self _⟩
    · obtain ⟨⟨n', rest'⟩, hd, heq⟩ := Option.map_eq_some_iff.mp h
      obtain ⟨-, rfl⟩ : b.toNat - 128 + 128 * n' = n ∧ rest' = rest := by simpa using heq
      obtain ⟨hsuffix, hlt⟩ := ih hd
      exact ⟨hsuffix.trans (List.suffix_cons b bs), Nat.lt_succ_of_lt hlt⟩

/-- **Round trip**: what was encoded is read back, and the bytes after it are
left alone. -/
theorem decode_encode {g n : ℕ} (h : n < 128 ^ (g + 1)) (bs : List UInt8) :
    decode (g + 1) (encode n ++ bs) = some (n, bs) := by
  induction g generalizing n with
  | zero =>
    have hn : n < 128 := by simpa using h
    rw [encode_of_lt hn, List.singleton_append, decode_cons, toNat_ofNat_of_lt (by omega),
      if_pos hn]
  | succ g ih =>
    by_cases hn : n < 128
    · rw [encode_of_lt hn, List.singleton_append, decode_cons, toNat_ofNat_of_lt (by omega),
        if_pos hn]
    · have hlt : n / 128 < 128 ^ (g + 1) :=
        Nat.div_lt_of_lt_mul (by rwa [Nat.pow_succ'] at h)
      rw [encode_of_ge (by omega), List.cons_append, decode_cons, toNat_ofNat_of_lt (by omega),
        if_neg (by omega), ih hlt]
      simp only [Option.map_some, Option.some.injEq, Prod.mk.injEq, and_true]
      omega

/-- A longer number is not read. -/
theorem decode_encode_of_ge {g n : ℕ} (h : 128 ^ g ≤ n) (bs : List UInt8) :
    decode g (encode n ++ bs) = none := by
  induction g generalizing n with
  | zero => simp
  | succ g ih =>
    have hpos : 0 < 128 ^ g := Nat.pow_pos (by decide)
    rw [Nat.pow_succ'] at h
    have hn : 128 ≤ n := by omega
    rw [encode_of_ge hn, List.cons_append, decode_cons, toNat_ofNat_of_lt (by omega),
      if_neg (by omega), ih ((Nat.le_div_iff_mul_le (by decide)).mpr (by omega)),
      Option.map_none]

/-! ## The form of the bytes

All bytes but the last are at least 128, and the last one is below. A reader can tell where a number
ends, and a number is never the beginning of another one.
-/

/-- The top bit is set on every byte but the last. -/
inductive IsVarint : List UInt8 → Prop
  | last (b : UInt8) (hb : b.toNat < 128) : IsVarint [b]
  | more (b : UInt8) (bs : List UInt8) (hb : 128 ≤ b.toNat) (h : IsVarint bs) : IsVarint (b :: bs)

/-- The bytes of a long number go on. -/
theorem encode_eq_append {g n : ℕ} (h : 128 ^ g ≤ n) :
    ∃ bs : List UInt8, bs.length = g ∧ (∀ b ∈ bs, 128 ≤ b.toNat) ∧
      encode n = bs ++ encode (n / 128 ^ g) := by
  induction g generalizing n with
  | zero => exact ⟨[], rfl, fun b hb => absurd hb List.not_mem_nil, by simp⟩
  | succ g ih =>
    have hpos : 0 < 128 ^ g := Nat.pow_pos (by decide)
    rw [Nat.pow_succ'] at h
    have hn : 128 ≤ n := by omega
    obtain ⟨bs, hlength, hbs, heq⟩ :=
      ih ((Nat.le_div_iff_mul_le (by decide)).mpr (by rwa [Nat.mul_comm]) : 128 ^ g ≤ n / 128)
    refine ⟨UInt8.ofNat (n % 128 + 128) :: bs, by rw [List.length_cons, hlength], ?_, ?_⟩
    · refine List.forall_mem_cons.mpr ⟨?_, hbs⟩
      rw [toNat_ofNat_of_lt (by omega)]
      omega
    · rw [encode_of_ge hn, heq, Nat.div_div_eq_div_mul, Nat.pow_succ', List.cons_append]

end Varint
