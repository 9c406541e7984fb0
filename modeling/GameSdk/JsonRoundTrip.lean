import GameSdk.JsonGrammar
import Mathlib.Tactic.IntervalCases

/-!
# JSON there and back

What `dump` writes is a text of the grammar. The value it has there is the one that was dumped, but
for its numbers: an `int` of ten characters or more is read as a `double`, a `double` that is
printed as a short integer as an `int`, and a `double` that is not finite is written as `null`.

Numbers are compared as `double`, so that a value without the last kind is equal to what is read.
It has to be nested in at most 200 levels, or it is not read at all.

`reread` is the value that is read from the text of a value. `Doubles.Lawful` is what is asked of
the functions of the C library, and `AllFinite` the condition on the value.
-/

namespace GameSdk

namespace Json11

/-- What the C library does with finite numbers of the type `double`. -/
structure Doubles.Lawful {δ : Type} (D : Doubles δ) : Prop where
  /-- with 17 digits there is the text of a number -/
  print_text : ∀ d, D.isFinite d = true → NumberText (D.print d)
  /-- and the number can be read from them -/
  strtod_print : ∀ d, D.isFinite d = true → D.eq (D.strtod (D.print d)) d = true
  /-- a `double` has enough bits for the numbers of the type `int` -/
  strtod_decimal : ∀ n, -2 ^ 31 ≤ n → n < 2 ^ 31 → D.eq (D.strtod (decimal n)) (D.ofInt n) = true
  strtod_atoi : ∀ t, NumberText t → isInt t = true → D.eq (D.ofInt (atoi t)) (D.strtod t) = true
  eq_symm : ∀ d d', D.eq d d' = true → D.eq d' d = true
  eq_trans : ∀ d d' d'', D.eq d d' = true → D.eq d' d'' = true → D.eq d d'' = true

section

variable {δ : Type} (D : Doubles δ)

/-! ### What becomes of a value

Numbers may change their type on the way, and one that is not finite is lost.
-/

mutual

/-- What is read where the value was written. -/
def reread : Json δ → Json δ
  | .int n => numberValue D (decimal n)
  | .double d => if D.isFinite d then numberValue D (D.print d) else .null
  | .array vs => .array (rereadValues vs)
  | .object kvs => .object (rereadEntries kvs)
  | v => v

/-- The values of an array. -/
def rereadValues : List (Json δ) → List (Json δ)
  | [] => []
  | v :: vs => reread v :: rereadValues vs

/-- The entries of an object. -/
def rereadEntries : List (ByteString × Json δ) → List (ByteString × Json δ)
  | [] => []
  | (key, v) :: kvs => (key, reread v) :: rereadEntries kvs

end

/-- Every `double` in the value is finite. -/
inductive AllFinite : Json δ → Prop
  | null : AllFinite .null
  | int (n) : AllFinite (.int n)
  | double {d} : D.isFinite d = true → AllFinite (.double d)
  | bool (b) : AllFinite (.bool b)
  | string (s) : AllFinite (.string s)
  | array {vs} : (∀ v ∈ vs, AllFinite v) → AllFinite (.array vs)
  | object {kvs} : (∀ kv ∈ kvs, AllFinite kv.2) → AllFinite (.object kvs)

theorem rereadValues_eq_map (vs : List (Json δ)) : rereadValues D vs = vs.map (reread D) := by
  induction vs with
  | nil => rfl
  | cons v vs ih => rw [rereadValues, ih, List.map_cons]

theorem rereadEntries_eq_map (kvs : List (ByteString × Json δ)) :
    rereadEntries D kvs = kvs.map fun kv => (kv.1, reread D kv.2) := by
  induction kvs with
  | nil => rfl
  | cons kv kvs ih => rw [rereadEntries, ih, List.map_cons]

theorem sorted_rereadEntries {kvs : List (ByteString × Json δ)} (h : Sorted kvs) :
    Sorted (rereadEntries D kvs) := by
  rw [rereadEntries_eq_map]
  exact List.pairwise_map.mpr h

theorem nesting_reread (v : Json δ) : nesting (reread D v) = nesting v := by
  induction v using Json.induction with
  | null => rfl
  | int n => exact nesting_numberValue D _
  | double d =>
    rw [reread]
    split_ifs
    · exact nesting_numberValue D _
    · rfl
  | bool b => rfl
  | string s => rfl
  | array vs ih =>
    refine Nat.le_antisymm ?_ ?_
    · rw [reread, rereadValues_eq_map, nesting_array_le, List.forall_mem_map]
      intro v hv
      rw [ih v hv]
      exact nesting_array_le.mp le_rfl v hv
    · rw [nesting_array_le]
      intro v hv
      rw [← ih v hv]
      refine nesting_array_le.mp le_rfl _ ?_
      rw [rereadValues_eq_map]
      exact List.mem_map_of_mem hv
  | object kvs ih =>
    refine Nat.le_antisymm ?_ ?_
    · rw [reread, rereadEntries_eq_map, nesting_object_le, List.forall_mem_map]
      intro kv hkv
      rw [ih kv hkv]
      exact nesting_object_le.mp le_rfl kv hkv
    · rw [nesting_object_le]
      intro kv hkv
      rw [← ih kv hkv]
      refine nesting_object_le.mp le_rfl (kv.1, reread D kv.2) ?_
      rw [rereadEntries_eq_map]
      exact List.mem_map_of_mem hkv

end

/-! ## Strings

What is escaped is a text with these code units, and they are the bytes of the string again.
-/

theorem decode_code {pt : ℕ} (h : isLeadSurrogate pt = false) (us : List CodeUnit) :
    decode (.code pt :: us) = encodeUtf8 (some pt) ++ decode us := by
  rcases us with _ | ⟨ch | trail, us⟩
  · rfl
  · rfl
  · rw [decode, h, if_neg (by simp)]

/-- A character that is escaped, or not, is read as it is. -/
theorem escape_text (ch : UInt8) :
    ∃ u, CodeUnitText (escape ch) u ∧ ∀ us, decode (u :: us) = ch :: decode us := by
  have hletter {l : UInt8} (h : unescape l = some ch) :
      ∃ u, CodeUnitText [backslash, l] u ∧ ∀ us, decode (u :: us) = ch :: decode us :=
    ⟨.byte ch, .letter h, fun _ => rfl⟩
  rw [escape]
  split_ifs with hbackslash hquote hb hf hn hr ht hcontrol
  · subst hbackslash
    exact hletter (by decide)
  · subst hquote
    exact hletter (by decide)
  · subst hb
    exact hletter (l := 98) (by decide)
  · subst hf
    exact hletter (l := 102) (by decide)
  · subst hn
    exact hletter (l := 110) (by decide)
  · subst hr
    exact hletter (l := 114) (by decide)
  · subst ht
    exact hletter (l := 116) (by decide)
  · -- a control character has four hexadecimal digits
    have hlt : ch.toNat < 32 := by
      rw [UInt8.le_iff_toNat_le] at hcontrol
      exact Nat.lt_succ_of_le hcontrol
    refine ⟨.code ch.toNat, ?_, fun us => ?_⟩
    · have hhex : strtol16 (hexDigit (ch.toNat / 4096 % 16)) (hexDigit (ch.toNat / 256 % 16))
          (hexDigit (ch.toNat / 16 % 16)) (hexDigit (ch.toNat % 16)) = some ch.toNat := by
        generalize ch.toNat = n at hlt
        interval_cases n <;> rfl
      exact .unicode hhex
    · have hlead : isLeadSurrogate ch.toNat = false := by
        simp only [isLeadSurrogate, Bool.and_eq_false_iff, decide_eq_false_iff_not]
        left
        omega
      rw [decode_code hlead, encodeUtf8, if_pos (by omega)]
      simp
  · exact ⟨.byte ch, .plain hquote hcontrol hbackslash, fun _ => rfl⟩

theorem escapes_text (s : ByteString) : ∃ us, CharsText (escapes s) us ∧ decode us = s := by
  have hseparator (d : UInt8) (pt : ℕ) {s : ByteString} {us : List CodeUnit}
      (hpt : strtol16 50 48 50 d = some pt) (hlead : isLeadSurrogate pt = false)
      (hus : CharsText (escapes s) us) :
      CharsText ([backslash, 117, 50, 48, 50, d] ++ escapes s) (.code pt :: us) ∧
        decode (.code pt :: us) = encodeUtf8 (some pt) ++ decode us :=
    ⟨.cons (.unicode hpt) hus, decode_code hlead us⟩
  induction s using escapes.induct with
  | case1 s ih =>
    obtain ⟨us, hus, hs⟩ := ih
    obtain ⟨ht, hd⟩ := hseparator 56 0x2028 rfl rfl hus
    rw [escapes]
    exact ⟨_, ht, by rw [hd, hs]; rfl⟩
  | case2 s ih =>
    obtain ⟨us, hus, hs⟩ := ih
    obtain ⟨ht, hd⟩ := hseparator 57 0x2029 rfl rfl hus
    rw [escapes]
    exact ⟨_, ht, by rw [hd, hs]; rfl⟩
  | case3 ch s hne hne' ih =>
    obtain ⟨us, hus, hs⟩ := ih
    obtain ⟨u, hu, hdecode⟩ := escape_text ch
    rw [escapes]
    · exact ⟨u :: us, .cons hu hus, by rw [hdecode, hs]⟩
    · exact hne
    · exact hne'
  | case4 => exact ⟨[], .nil, rfl⟩

/-- **A string is read as it was**, with any bytes in it. -/
theorem stringText_escapes (s : ByteString) : StringText (escapes s ++ [quote]) s := by
  obtain ⟨us, hus, hs⟩ := escapes_text s
  exact ⟨escapes s, us, hus, hs, rfl⟩

/-! ## Integers

The digits of an integer are a number that has its value.
-/

theorem digit_eq {k : ℕ} (hk : k < 10) : k.digitChar.toNat.toUInt8 = (48 + k).toUInt8 := by
  rw [Nat.toNat_digitChar_of_lt_ten hk]

theorem decimalNat_of_lt {n : ℕ} (hn : n < 10) : decimalNat n = [(48 + n).toUInt8] := by
  rw [decimalNat, Nat.toDigits_of_lt_base hn, List.map_singleton, digit_eq hn]

theorem decimalNat_append {n k : ℕ} (hn : 0 < n) (hk : k < 10) :
    decimalNat (10 * n + k) = decimalNat n ++ [(48 + k).toUInt8] := by
  rw [decimalNat, ← Nat.toDigits_append_toDigits (by decide) hn hk, List.map_append,
    Nat.toDigits_of_lt_base hk, List.map_singleton, digit_eq hk]
  rfl

theorem isDigit_toUInt8 {k : ℕ} (hk : k < 10) : isDigit (48 + k).toUInt8 = true := by
  interval_cases k <;> rfl

theorem toNat_digit {k : ℕ} (hk : k < 10) : (48 + k).toUInt8.toNat - 48 = k := by
  interval_cases k <;> rfl

theorem digits_decimalNat (n : ℕ) : Digits (decimalNat n) := by
  induction n using Nat.base_induction 10 (by decide) with
  | single n hn =>
    intro ch hch
    rw [decimalNat_of_lt hn] at hch
    obtain rfl := List.mem_singleton.mp hch
    exact isDigit_toUInt8 hn
  | digit n k hk hn ih =>
    intro ch hch
    rw [decimalNat_append hn hk] at hch
    rcases List.mem_append.mp hch with hch | hch
    · exact ih ch hch
    · obtain rfl := List.mem_singleton.mp hch
      exact isDigit_toUInt8 hk

/-- There is no leading zero, but in the text of zero. -/
theorem headD_decimalNat {n : ℕ} (hn : 0 < n) : (decimalNat n).headD 0 ≠ zero := by
  induction n using Nat.base_induction 10 (by decide) with
  | single n hlt =>
    rw [decimalNat_of_lt hlt]
    interval_cases n <;> decide
  | digit n k hk hpos ih =>
    have hne : decimalNat n ≠ [] := by
      rw [decimalNat]
      simp
    obtain ⟨d, ds, hds⟩ := List.exists_cons_of_ne_nil hne
    have hhead := ih hpos
    rw [hds] at hhead
    rwa [decimalNat_append hpos hk, hds]

theorem integerText_decimalNat (n : ℕ) : IntegerText (decimalNat n) := by
  rcases Nat.eq_zero_or_pos n with rfl | hn
  · exact .zero
  · have hds := digits_decimalNat n
    have hhead := headD_decimalNat hn
    rcases h : decimalNat n with _ | ⟨d, ds⟩
    · rw [decimalNat] at h
      simp at h
    · rw [h] at hds hhead
      exact .digits hhead hds

theorem foldl_decimalNat (n : ℕ) :
    (decimalNat n).foldl (fun n ch => 10 * n + (ch.toNat - 48)) 0 = n := by
  induction n using Nat.base_induction 10 (by decide) with
  | single n hn =>
    rw [decimalNat_of_lt hn, List.foldl_cons, List.foldl_nil, toNat_digit hn, Nat.mul_zero,
      Nat.zero_add]
  | digit n k hk hn ih =>
    rw [decimalNat_append hn hk, List.foldl_append, ih, List.foldl_cons, List.foldl_nil,
      toNat_digit hk]

theorem digitsValue_decimalNat (n : ℕ) : digitsValue (decimalNat n) = n := by
  rw [digitsValue, List.takeWhile_eq_self_iff.mpr (digits_decimalNat n), foldl_decimalNat]

theorem numberText_decimal (n : ℤ) : NumberText (decimal n) := by
  have hi := integerText_decimalNat n.natAbs
  rw [decimal]
  split_ifs
  · exact ⟨[minus], _, [], [], .minus, hi, .none, .none, by simp⟩
  · exact ⟨[], _, [], [], .none, hi, .none, .none, by simp⟩

theorem atoi_decimal (n : ℤ) : atoi (decimal n) = n := by
  rw [decimal]
  split_ifs with hn
  · rw [atoi, if_pos rfl, digitsValue_decimalNat]
    omega
  · obtain ⟨d, ds, hds, hd⟩ := (integerText_decimalNat n.natAbs).exists_cons
    have hne : d ≠ minus := by
      rintro rfl
      exact absurd hd (by decide)
    have hvalue := digitsValue_decimalNat n.natAbs
    rw [hds] at hvalue ⊢
    rw [atoi, if_neg hne, hvalue]
    omega

/-! ## What is written is a text

Induction on the value, with the text of each type.
-/

section

variable {δ : Type} {D : Doubles δ}

/-! ### Items

The loops of `dump` write items with commas between them, which the grammar reads as items.
-/

/-- The texts of a list of values, with commas. -/
def joined {α : Type} (f : α → ByteString) (first : Bool) : List α → ByteString
  | [] => []
  | a :: as => (if first then [] else Json11.text ", ") ++ f a ++ joined f false as

theorem dumpValues_eq_joined (first : Bool) (vs : List (Json δ)) :
    dumpValues D first vs = joined (dump D) first vs := by
  induction vs generalizing first with
  | nil => rfl
  | cons v vs ih => rw [dumpValues, joined, ih]

theorem dumpEntries_eq_joined (first : Bool) (kvs : List (ByteString × Json δ)) :
    dumpEntries D first kvs =
      joined (fun kv => dumpString kv.1 ++ text ": " ++ dump D kv.2) first kvs := by
  induction kvs generalizing first with
  | nil => rfl
  | cons kv kvs ih => rw [dumpEntries, joined, ih]

/-- **Texts with commas are items**, if white space may come before each of them. -/
theorem itemsText_joined {α β : Type} {P : ByteString → β → Prop} {close : UInt8}
    (hspace : ∀ {t b}, P t b → P (space :: t) b) {f : α → ByteString} {g : α → β} {as : List α}
    (h : ∀ a ∈ as, P (f a) (g a)) :
    ItemsText P close (joined f true as ++ [close]) (as.map g) := by
  have hrest : ∀ (as : List α) {t : ByteString} {b : β}, P t b → (∀ a ∈ as, P (f a) (g a)) →
      Scanner.Separated P (DelimiterText close) (t ++ (joined f false as ++ [close]))
        (b :: as.map g) := by
    intro as
    induction as with
    | nil =>
      intro t b ht _
      exact .last ht ⟨[], .nil, rfl⟩
    | cons a as ih =>
      intro t b ht has
      obtain ⟨ha, has⟩ := List.forall_mem_cons.mp has
      have hsplit : t ++ (joined f false (a :: as) ++ [close]) =
          t ++ [comma] ++ ((space :: f a) ++ (joined f false as ++ [close])) := by
        rw [joined, if_neg Bool.false_ne_true]
        change t ++ (([comma, space] ++ f a ++ joined f false as) ++ [close]) = _
        simp
      rw [hsplit]
      exact .cons ht ⟨[], .nil, rfl⟩ (ih (hspace ha) has)
  cases as with
  | nil => exact .empty .nil
  | cons a as =>
    obtain ⟨ha, has⟩ := List.forall_mem_cons.mp h
    have hsplit : joined f true (a :: as) ++ [close] = f a ++ (joined f false as ++ [close]) := by
      rw [joined, if_pos rfl, List.nil_append, List.append_assoc]
    rw [hsplit]
    exact .items (hrest as ha has)

theorem EntryText.space {P : ByteString → Json δ → Prop} {t : ByteString}
    {kv : ByteString × Json δ} (h : EntryText P t kv) : EntryText P (space :: t) kv := by
  obtain ⟨w, k, w', v, hw, hk, hw', hv, rfl⟩ := h
  exact ⟨Json11.space :: w, k, w', v, whitespace_space.append hw, hk, hw', hv, rfl⟩

/-- **What `dump` writes is a text** of the value that is read, with as many levels as it has. -/
theorem text_dump (hD : D.Lawful) {n : ℕ} {v : Json δ} (hv : Wf v) (hn : nesting v < n) :
    Text D n (dump D v) (reread D v) := by
  induction v using Json.induction generalizing n with
  | null =>
    obtain ⟨n, rfl⟩ := Nat.exists_eq_add_of_le' (Nat.one_le_of_lt hn)
    exact ValueText.null .nil
  | int m =>
    obtain ⟨n, rfl⟩ := Nat.exists_eq_add_of_le' (Nat.one_le_of_lt hn)
    exact ValueText.number .nil (numberText_decimal m)
  | double d =>
    obtain ⟨n, rfl⟩ := Nat.exists_eq_add_of_le' (Nat.one_le_of_lt hn)
    rw [dump, reread, dumpDouble]
    split_ifs with hd
    · exact ValueText.number .nil (hD.print_text d hd)
    · exact ValueText.null .nil
  | bool b =>
    obtain ⟨n, rfl⟩ := Nat.exists_eq_add_of_le' (Nat.one_le_of_lt hn)
    cases b with
    | false => exact ValueText.false .nil
    | true => exact ValueText.true .nil
  | string s =>
    obtain ⟨n, rfl⟩ := Nat.exists_eq_add_of_le' (Nat.one_le_of_lt hn)
    exact ValueText.string (w := []) .nil (stringText_escapes s)
  | array vs ih =>
    obtain ⟨n, rfl⟩ := Nat.exists_eq_add_of_le' (Nat.one_le_of_lt hn)
    have hvs := nesting_array_le.mp (Nat.lt_succ_iff.mp hn)
    cases hv with
    | array hwf =>
      rw [dump, reread, dumpValues_eq_joined, rereadValues_eq_map]
      refine ValueText.array .nil
        (itemsText_joined (fun h => Text.whitespace whitespace_space h) ?_)
      intro v hv
      exact ih v hv (hwf v hv) (hvs v hv)
  | object kvs ih =>
    obtain ⟨n, rfl⟩ := Nat.exists_eq_add_of_le' (Nat.one_le_of_lt hn)
    have hkvs := nesting_object_le.mp (Nat.lt_succ_iff.mp hn)
    cases hv with
    | object hwf hsorted =>
      rw [dump, reread, dumpEntries_eq_joined,
        ← ofEntries_of_sorted (sorted_rereadEntries D hsorted), rereadEntries_eq_map]
      refine ValueText.object .nil (itemsText_joined EntryText.space ?_)
      intro kv hkv
      exact ⟨[], _, [], _, .nil, stringText_escapes kv.1, .nil,
        Text.whitespace whitespace_space (ih kv hkv (hwf kv hkv) (hkvs kv hkv)), by
          simp [dumpString, text]⟩

/-! ## What is read

The text has one value, which is `reread`; when it equals the value that was written.
-/

/-- The text of a value is not the text of another one, whatever follows it is. -/
theorem Text.unique {n m : ℕ} {t w : ByteString} {v v' : Json δ} (h : Text D n t v)
    (h' : Text D m (t ++ w) v') (hw : Whitespace w) : v = v' := by
  have hrun := (parseJson_exact (D := D) (max n m)).complete (h.mono (le_max_left n m)) hw.ends
  have hrun' := (parseJson_exact (D := D) (max n m)).complete (h'.mono (le_max_right n m))
    Whitespace.nil.ends
  rw [List.append_nil, hrun] at hrun'
  exact congrArg Prod.fst (Except.ok.inj hrun')

/-- **What is dumped is read** if its nesting is not too deep. -/
theorem parse_dump (hD : D.Lawful) {v v' : Json δ} (hv : Wf v) :
    parse D (dump D v) = .ok v' ↔ reread D v = v' ∧ nesting v ≤ maxDepth := by
  rw [parse_eq_ok_iff]
  constructor
  · rintro ⟨t, w, ht, hw, hdump⟩
    have htext := text_dump hD hv (Nat.lt_succ_self (nesting v))
    rw [← hdump] at htext
    obtain rfl := ht.unique htext hw
    have hlt := ht.wf.2
    rw [nesting_reread] at hlt
    exact ⟨rfl, Nat.le_of_lt_succ hlt⟩
  · rintro ⟨rfl, hle⟩
    exact ⟨dump D v, [], text_dump hD hv (Nat.lt_succ_of_le hle), .nil, List.append_nil _⟩

theorem eq_numberValue (hD : D.Lawful) {t : ByteString} {d : δ} (ht : NumberText t)
    (hd : D.eq (D.strtod t) d = true) :
    match numberValue D t with
    | .int n => D.eq (D.ofInt n) d = true
    | .double d' => D.eq d' d = true
    | _ => False := by
  rw [numberValue]
  split_ifs with hint
  · exact hD.eq_trans _ _ _ (hD.strtod_atoi t ht hint) hd
  · exact hd

theorem equalValues_map_iff {f : Json δ → Json δ} {vs : List (Json δ)} :
    equalValues D (vs.map f) vs = true ↔ ∀ v ∈ vs, equals D (f v) v = true := by
  induction vs with
  | nil => simp [equalValues]
  | cons v vs ih => rw [List.map_cons, equalValues, Bool.and_eq_true, ih, List.forall_mem_cons]

theorem equalEntries_map_iff {f : Json δ → Json δ} {kvs : List (ByteString × Json δ)} :
    equalEntries D (kvs.map fun kv => (kv.1, f kv.2)) kvs = true ↔
      ∀ kv ∈ kvs, equals D (f kv.2) kv.2 = true := by
  induction kvs with
  | nil => simp [equalEntries]
  | cons kv kvs ih =>
    rw [List.map_cons, equalEntries, Bool.and_eq_true, ih, List.forall_mem_cons, beq_self_eq_true,
      Bool.true_and]

/-! ### When nothing is lost

The value read equals the one written if and only if all numbers in it are finite.
-/

/-- **It is equal to what was dumped** just when every `double` in that is finite. -/
theorem equals_reread_iff (hD : D.Lawful) {v : Json δ} (hv : Wf v) :
    equals D (reread D v) v = true ↔ AllFinite D v := by
  induction v using Json.induction with
  | null => exact iff_of_true (by rw [reread, equals]; all_goals simp) .null
  | int n =>
    cases hv with
    | int hlo hhi =>
      refine iff_of_true ?_ (.int n)
      have h := eq_numberValue hD (numberText_decimal n) (hD.strtod_decimal n hlo hhi)
      rw [reread]
      split at h
      · next heq => rw [heq, equals]; exact h
      · next heq => rw [heq, equals]; exact h
      · exact h.elim
  | double d =>
    rw [reread]
    split_ifs with hd
    · refine iff_of_true ?_ (.double hd)
      have h := eq_numberValue hD (hD.print_text d hd) (hD.strtod_print d hd)
      split at h
      · next heq => rw [heq, equals]; exact h
      · next heq => rw [heq, equals]; exact h
      · exact h.elim
    · refine iff_of_false ?_ ?_
      · simp [equals]
      · rintro ⟨⟩
        contradiction
  | bool b => exact iff_of_true (by rw [reread, equals]; all_goals simp) (.bool b)
  | string s => exact iff_of_true (by rw [reread, equals]; all_goals simp) (.string s)
  | array vs ih =>
    cases hv with
    | array hwf =>
      rw [reread, equals, rereadValues_eq_map, equalValues_map_iff]
      constructor
      · intro h
        exact .array fun v hv => (ih v hv (hwf v hv)).mp (h v hv)
      · rintro ⟨⟩ v hv
        rename_i h
        exact (ih v hv (hwf v hv)).mpr (h v hv)
  | object kvs ih =>
    cases hv with
    | object hwf _ =>
      rw [reread, equals, rereadEntries_eq_map, equalEntries_map_iff]
      constructor
      · intro h
        exact .object fun kv hkv => (ih kv hkv (hwf kv hkv)).mp (h kv hkv)
      · rintro ⟨⟩ kv hkv
        rename_i h
        exact (ih kv hkv (hwf kv hkv)).mpr (h kv hkv)

/-- **`Json::parse` undoes `dump`**, up to equality, for just those values whose numbers are finite
and whose nesting is not too deep. -/
theorem parse_dump_iff (hD : D.Lawful) {v : Json δ} (hv : Wf v) :
    (∃ v', parse D (dump D v) = .ok v' ∧ equals D v' v = true) ↔
      AllFinite D v ∧ nesting v ≤ maxDepth := by
  simp only [parse_dump hD hv]
  constructor
  · rintro ⟨v', ⟨rfl, hnesting⟩, heq⟩
    exact ⟨(equals_reread_iff hD hv).mp heq, hnesting⟩
  · rintro ⟨hfinite, hnesting⟩
    exact ⟨_, ⟨rfl, hnesting⟩, (equals_reread_iff hD hv).mpr hfinite⟩

end

/-! ### A sample

A number type with the properties that are asked for, and a value to be written and read.
-/

/-- The numbers of the type `double` that are integers with few digits. -/
def intDoubles : Doubles ℤ where
  isFinite _ := true
  print := decimal
  strtod := atoi
  ofInt := id
  eq d d' := d == d'

theorem lawful_intDoubles : intDoubles.Lawful where
  print_text d _ := numberText_decimal d
  strtod_print d _ := beq_iff_eq.mpr (atoi_decimal d)
  strtod_decimal n _ _ := beq_iff_eq.mpr (atoi_decimal n)
  strtod_atoi t _ _ := beq_self_eq_true (atoi t)
  eq_symm _ _ h := beq_iff_eq.mpr (beq_iff_eq.mp h).symm
  eq_trans _ _ _ h h' := beq_iff_eq.mpr ((beq_iff_eq.mp h).trans (beq_iff_eq.mp h'))

/-- An `int` that is read as a `double`, a `double` that is read as an `int`, and what is
escaped. -/
def sample : Json ℤ :=
  .object (ofEntries [(text "b", .array [.int 2147483647, .double 7]),
    (text "a", .string [0xe2, 0x80, 0xa8, newline, 1, 0xff])])

theorem wf_sample : Wf sample := by
  refine .object ?_ (sorted_ofEntries _)
  intro kv hkv
  have hkv := mem_ofEntries hkv
  simp only [List.mem_cons, List.not_mem_nil, or_false] at hkv
  rcases hkv with rfl | rfl
  · refine .array ?_
    simp only [List.forall_mem_cons]
    exact ⟨.int (by decide) (by decide), .double 7, by simp⟩
  · exact .string _

theorem parse_dump_sample :
    (∃ v', parse intDoubles (dump intDoubles sample) = .ok v' ∧
        equals intDoubles v' sample = true) ∧
      dump intDoubles sample =
        text "\x7b\"a\": \"\\u2028\\n\\u0001" ++ [0xff] ++ text "\", \"b\": [2147483647, 7]\x7d" :=
  ⟨(parse_dump_iff lawful_intDoubles wf_sample).mpr
    ⟨.object (by
      change ∀ kv ∈ [(text "a", Json.string [0xe2, 0x80, 0xa8, newline, 1, 0xff]),
        (text "b", Json.array [Json.int 2147483647, Json.double 7])], AllFinite intDoubles kv.2
      simp only [List.forall_mem_cons]
      refine ⟨.string _, .array ?_, by simp⟩
      simp only [List.forall_mem_cons]
      exact ⟨.int _, .double rfl, by simp⟩), by decide +kernel⟩,
    by decide +kernel⟩

end Json11

end GameSdk
