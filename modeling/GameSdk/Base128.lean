import GameSdk.AnnotationCodec
import Mathlib.Tactic.IntervalCases

/-!
# Base-128 integers of 64 bits

The writer asks in every round whether anything is left above the lowest seven bits, but
asks it of an `int`, so that it only looks at the low 32 bits. The reader takes nine bytes
at most, which is 63 bits. Ids of annotations are below both limits; here is what becomes
of any other number.

`writtenBytes` says what the writer writes, for all 64 bits. `LeftIsSeen` is the condition under
which it does not stop early, and `ReadsBack` that the number is read where it was written.
-/

namespace GameSdk

/-- Reading back what was written gives the number, and the index of its last byte. -/
def ReadsBack (x : UInt64) (before after : List UInt8) : Prop :=
  ∃ varint, Varint.IsVarint varint ∧ writeBase128IntToStream x before = before ++ varint ∧
    getBase128IntegerFromByteStream (writeBase128IntToStream x before ++ after) before.length =
      (x, before.length + varint.length - 1)

/-- In every round that is not the last one, the `int` sees that something is left. -/
def LeftIsSeen (n : ℕ) : Prop := ∀ k, 128 ≤ n / 128 ^ k → n / 128 ^ k % 2 ^ 32 / 128 ≠ 0

/-- The bytes that are written. -/
def writtenBytes (n : ℕ) : List UInt8 :=
  if n % 2 ^ 32 / 128 = 0 then [UInt8.ofNat (n % 128)]
  else UInt8.ofNat (n % 128 + 128) :: writtenBytes (n / 128)

/-- The last byte, when nothing is seen above it. -/
theorem writtenBytes_of_unseen {n : ℕ} (h : n % 2 ^ 32 / 128 = 0) :
    writtenBytes n = [UInt8.ofNat (n % 128)] := by
  rw [writtenBytes, if_pos h]

/-- A byte that another one follows. -/
theorem writtenBytes_of_seen {n : ℕ} (h : n % 2 ^ 32 / 128 ≠ 0) :
    writtenBytes n = UInt8.ofNat (n % 128 + 128) :: writtenBytes (n / 128) := by
  rw [writtenBytes, if_neg h]

/-! ## The writer

Induction on the number: one round takes the low seven bits away. It is the last one when the `int`
the rest is converted to is zero, though the rest may not be.
-/

/-- The writer's test in terms of numbers: the low 32 bits have nothing above the seventh. -/
theorem toInt32_and_not_127_eq_zero_iff (x : UInt64) :
    (x &&& 0xffffffffffffff80).toUInt32.toInt32 = 0 ↔ x.toNat % 2 ^ 32 / 128 = 0 := by
  have h32 : (x &&& 0xffffffffffffff80).toUInt32.toNat = 128 * (x.toNat / 128) % 2 ^ 32 := by
    rw [UInt64.toNat_toUInt32, UInt64.toNat_and]
    exact congrArg (· % 2 ^ 32) (and_not_127 x.toNat_lt)
  rw [toInt32_eq_zero_iff, ← UInt32.toNat_inj, h32]
  change 128 * (x.toNat / 128) % 2 ^ 32 = 0 ↔ _
  omega

/-- The writer appends, and what it appends depends on the number only. -/
theorem writeBase128_eq_append (x : UInt64) (bytes : List UInt8) :
    writeBase128IntToStream x bytes = bytes ++ writtenBytes x.toNat := by
  have hlow := toUInt8_and_127 x.toNat_lt
  rw [UInt64.ofNat_toNat] at hlow
  induction hn : x.toNat using Nat.strongRecOn generalizing x bytes with
  | ind n ih =>
    subst hn
    rw [writeBase128IntToStream, hlow]
    by_cases hseen : x.toNat % 2 ^ 32 / 128 = 0
    · have hb := (toInt32_and_not_127_eq_zero_iff x).mpr hseen
      rw [if_neg (not_not.mpr hb), writtenBytes_of_unseen hseen]
    · have hb := (toInt32_and_not_127_eq_zero_iff x).not.mpr hseen
      have hshift := toNat_shiftRight_seven x
      have hne : x >>> 7 ≠ 0 := by
        intro h
        rw [h] at hshift
        change 0 = _ at hshift
        omega
      have hlow' := toUInt8_and_127 (x >>> 7).toNat_lt
      rw [UInt64.ofNat_toNat] at hlow'
      have htop := ofNat_or_128 (Nat.mod_lt x.toNat (by decide : 0 < 128))
      rw [if_pos hb, if_pos hne, writtenBytes_of_seen hseen, htop,
        ih _ (by omega) (x >>> 7) _ hlow' rfl, hshift, List.append_assoc, List.singleton_append]

/-- What the writer appends is always an integer. -/
theorem isVarint_writtenBytes (n : ℕ) : Varint.IsVarint (writtenBytes n) := by
  induction n using writtenBytes.induct with
  | case1 n h =>
    rw [writtenBytes_of_unseen h]
    exact .last _ (by rw [Varint.toNat_ofNat_of_lt] <;> omega)
  | case2 n h ih =>
    rw [writtenBytes_of_seen h]
    exact .more _ _ (by rw [Varint.toNat_ofNat_of_lt] <;> omega) ih

/-- The condition passes on to the rest of the number. -/
theorem LeftIsSeen.div {n : ℕ} (h : LeftIsSeen n) : LeftIsSeen (n / 128) := by
  intro k
  have := h (k + 1)
  rwa [Nat.pow_succ', ← Nat.div_div_eq_div_mul] at this

/-- What is seen is written in full. -/
theorem writtenBytes_eq_encode {n : ℕ} (h : LeftIsSeen n) : writtenBytes n = Varint.encode n := by
  induction n using writtenBytes.induct with
  | case1 n hunseen =>
    have hlt : n < 128 := by
      by_contra hge
      exact h 0 (by simpa using hge) (by simpa using hunseen)
    rw [writtenBytes_of_unseen hunseen, Varint.encode_of_lt hlt, Nat.mod_eq_of_lt hlt]
  | case2 n hseen ih =>
    rw [writtenBytes_of_seen hseen, Varint.encode_of_ge (by omega), ih h.div]

/-- What is not seen is lost: a smaller number is written, and in no more than `g + 1` bytes where
the number has `32 + 7 * g` bits and more. -/
theorem decode_of_not_leftIsSeen {n : ℕ} (h : ¬ LeftIsSeen n) :
    ∃ g v, 2 ^ 32 * 128 ^ g ≤ n ∧ v < n ∧ ∀ k bs,
      Varint.decode (g + 1 + k) (writtenBytes n ++ bs) = some (v, bs) := by
  induction n using writtenBytes.induct with
  | case1 n hunseen =>
    have hge : 128 ≤ n := by
      by_contra hlt
      refine h fun k hk => absurd hk (not_le.mpr ?_)
      exact (Nat.div_le_self n _).trans_lt (by omega)
    refine ⟨0, n % 128, by omega, by omega, fun k bs => ?_⟩
    rw [writtenBytes_of_unseen hunseen, List.singleton_append, Nat.add_comm (0 + 1),
      Nat.zero_add, Varint.decode_cons, Varint.toNat_ofNat_of_lt (by omega), if_pos (by omega)]
  | case2 n hseen ih =>
    have hleft : ¬ LeftIsSeen (n / 128) := by
      intro hdiv
      refine h fun k hk => ?_
      rcases k with _ | k
      · simpa using hseen
      · have := hdiv k
        rw [Nat.div_div_eq_div_mul, ← Nat.pow_succ'] at this
        exact this hk
    obtain ⟨g, v, hle, hlt, hdecode⟩ := ih hleft
    refine ⟨g + 1, n % 128 + 128 * v, ?_, by omega, fun k bs => ?_⟩
    · have : 2 ^ 32 * 128 ^ (g + 1) = 128 * (2 ^ 32 * 128 ^ g) := by ring
      omega
    · have hfuel : g + 1 + 1 + k = g + 1 + k + 1 := by omega
      rw [writtenBytes_of_seen hseen, List.cons_append, hfuel, Varint.decode_cons,
        Varint.toNat_ofNat_of_lt (by omega), if_neg (by omega), hdecode, Option.map_some]
      have hbyte : n % 128 + 128 - 128 = n % 128 := Nat.add_sub_cancel ..
      rw [hbyte]

/-! ## The reader

The bytes written are always an integer of `Varint`. The reader gets it back if it has at most nine
bytes.
-/

/-- Reading back, with the bytes spelled out. -/
theorem readsBack_iff (x : UInt64) (before after : List UInt8) :
    ReadsBack x before after ↔
      getBase128IntegerFromByteStream (before ++ (writtenBytes x.toNat ++ after)) before.length =
        (x, before.length + (writtenBytes x.toNat).length - 1) := by
  rw [ReadsBack, writeBase128_eq_append, List.append_assoc]
  constructor
  · rintro ⟨varint, -, heq, hread⟩
    rwa [← List.append_cancel_left heq] at hread
  · intro hread
    exact ⟨writtenBytes x.toNat, isVarint_writtenBytes _, rfl, hread⟩

/-- A number that ends within nine bytes is read. -/
theorem getBase128_append {before bytes after : List UInt8} {v : ℕ}
    (h : Varint.decode 9 (bytes ++ after) = some (v, after)) :
    getBase128IntegerFromByteStream (before ++ (bytes ++ after)) before.length =
      (UInt64.ofNat v, before.length + bytes.length - 1) := by
  have hdrop : (before ++ (bytes ++ after)).drop before.length = bytes ++ after :=
    List.drop_left ..
  rw [getBase128_of_decode (by rw [hdrop]; exact h), List.length_append, List.length_append]
  congr 1
  omega

/-- Nine bytes that go on are too many: the reader stops behind them. -/
theorem getBase128Loop_of_continued {bytes more after : List UInt8} {m : ℕ} {r : UInt64}
    (hm : 7 * more.length + m = 63) (hmore : ∀ b ∈ more, 128 ≤ b.toNat) {index : ℕ}
    (hdrop : bytes.drop index = more ++ after) :
    getBase128Loop bytes index m r = (kStreamError, index + more.length) := by
  induction more generalizing index m r with
  | nil =>
    rw [List.length_nil] at hm ⊢
    rw [getBase128Loop, dif_neg (by omega)]
    rfl
  | cons b more ih =>
    rw [List.length_cons] at hm ⊢
    obtain ⟨hlt, hget, hrest⟩ := getElem_of_drop hdrop
    have hb : b &&& 0x80 ≠ 0 := (and_128_ne_zero_iff b).mpr (hmore b (List.mem_cons_self ..))
    rw [getBase128Loop, dif_pos ⟨hlt, by omega⟩]
    simp only [hget]
    rw [if_pos hb, ih (by omega) (fun b' hb' => hmore b' (List.mem_cons_of_mem _ hb')) hrest]
    congr 1
    omega

/-- From `2^63` on the reader returns the error value, at the tenth byte. -/
theorem getBase128_of_ge {n : ℕ} (h : 2 ^ 63 ≤ n) (before after : List UInt8) :
    getBase128IntegerFromByteStream (before ++ (Varint.encode n ++ after)) before.length =
      (kStreamError, before.length + 9) := by
  obtain ⟨more, hlength, hmore, heq⟩ := Varint.encode_eq_append (g := 9) (n := n) (by omega)
  have hdrop : (before ++ (Varint.encode n ++ after)).drop before.length =
      more ++ (Varint.encode (n / 128 ^ 9) ++ after) := by
    rw [List.drop_left, heq, List.append_assoc]
  rw [getBase128IntegerFromByteStream, getBase128Loop_of_continued (by omega) hmore hdrop, hlength]

/-! ## Both

A number is read back exactly if the writer saw all of it and the reader takes all of it. The second
follows from being below `2 ^ 63`.
-/

/-- The largest number is seen to its end. -/
theorem leftIsSeen_max : LeftIsSeen (2 ^ 64 - 1) := by
  intro k hk
  have hlt : k < 9 := by
    by_contra hge
    have hpow : 128 ^ 9 ≤ 128 ^ k := Nat.pow_le_pow_right (by decide) (not_lt.mp hge)
    have := Nat.div_le_div_left (a := 2 ^ 64 - 1) hpow (by decide)
    omega
  interval_cases k <;> decide

/-- Below `2 ^ 63` what the writer sees the reader reads. -/
theorem readsBack_of_lt {x : UInt64} (hlt : x.toNat < 2 ^ 63) (hseen : LeftIsSeen x.toNat)
    (before after : List UInt8) : ReadsBack x before after := by
  have hdecode := Varint.decode_encode (g := 8) (n := x.toNat) (by omega) after
  rw [readsBack_iff, writtenBytes_eq_encode hseen, getBase128_append hdecode, UInt64.ofNat_toNat]

/-- The largest number is the error value. -/
theorem readsBack_max (before after : List UInt8) : ReadsBack kStreamError before after := by
  have hmax : kStreamError.toNat = 2 ^ 64 - 1 := rfl
  have hlength : (Varint.encode (2 ^ 64 - 1)).length = 10 := by
    obtain ⟨more, hmore, -, heq⟩ := Varint.encode_eq_append (g := 9) (n := 2 ^ 64 - 1) (by decide)
    rw [heq, List.length_append, hmore, Varint.encode_of_lt (by decide)]
    rfl
  rw [readsBack_iff, hmax, writtenBytes_eq_encode leftIsSeen_max, getBase128_of_ge (by decide),
    hlength]
  rfl

/-- **A number is read back** when it has at most 63 bits and the writer sees all of it;
and the largest number is, by accident. -/
theorem readsBack_iff_leftIsSeen (x : UInt64) (before after : List UInt8) :
    ReadsBack x before after ↔
      x.toNat < 2 ^ 63 ∧ LeftIsSeen x.toNat ∨ x = 0xffffffffffffffff := by
  constructor
  · intro h
    rw [readsBack_iff] at h
    by_cases hseen : LeftIsSeen x.toNat
    · rcases Nat.lt_or_ge x.toNat (2 ^ 63) with hlt | hge
      · exact Or.inl ⟨hlt, hseen⟩
      · rw [writtenBytes_eq_encode hseen, getBase128_of_ge hge, Prod.mk.injEq] at h
        exact Or.inr h.1.symm
    · -- a smaller number comes back
      obtain ⟨g, v, hle, hlt, hdecode⟩ := decode_of_not_leftIsSeen hseen
      have hg : g ≤ 4 := by
        by_contra hgt
        have : 128 ^ 5 ≤ 128 ^ g := Nat.pow_le_pow_right (by decide) (not_le.mp hgt)
        have := x.toNat_lt
        omega
      have hnine : g + 1 + (8 - g) = 9 := by omega
      have hread := hdecode (8 - g) after
      rw [hnine] at hread
      rw [getBase128_append hread, Prod.mk.injEq] at h
      have hv := congrArg UInt64.toNat h.1
      rw [UInt64.toNat_ofNat_of_lt' (hlt.trans x.toNat_lt)] at hv
      omega
  · rintro (⟨hlt, hseen⟩ | rfl)
    · exact readsBack_of_lt hlt hseen before after
    · exact readsBack_max before after

/-- `2^32` is written as a zero. -/
theorem not_readsBack_pow :
    writeBase128IntToStream 0x100000000 [] = [0] ∧ ¬ ReadsBack 0x100000000 [] [] := by
  have hbytes : writtenBytes (0x100000000 : UInt64).toNat = [0] :=
    writtenBytes_of_unseen (by decide)
  refine ⟨by rw [writeBase128_eq_append, hbytes, List.nil_append], fun h => ?_⟩
  have hread := @getBase128_append [] [0] [] 0 (by decide)
  rw [readsBack_iff, hbytes, hread, Prod.mk.injEq] at h
  exact absurd h.1 (by decide)

end GameSdk
