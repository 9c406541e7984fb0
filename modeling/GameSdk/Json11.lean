import GameSdk.UploadThread
import Mathlib.Data.Nat.Digits.Defs

/-!
# JSON values and their texts (`json11.cpp`)

The body of the request for fidelity parameters is written by `json11`, and the response is read
by it. A value is a tree; the number type `double` and the two functions of the C library that
print and read it are parameters.

`dump` writes strings byte by byte. It escapes what JSON does not allow in a string, and the two
line separators of JavaScript.

`equals` is the comparison of the source, which compares numbers as `double`s. `Wf` says which trees
are values at all: an `int` has 32 bits, and the keys of an object are in order.
-/

namespace GameSdk

namespace Json11

/-! ## Characters

The characters that mean something in a JSON text, and the formats of `snprintf` for integers.
-/

abbrev backspace : UInt8 := 8
abbrev tab : UInt8 := 9
abbrev newline : UInt8 := 10
abbrev formFeed : UInt8 := 12
abbrev carriageReturn : UInt8 := 13
abbrev space : UInt8 := 32
abbrev quote : UInt8 := 34
abbrev plus : UInt8 := 43
abbrev comma : UInt8 := 44
abbrev minus : UInt8 := 45
abbrev dot : UInt8 := 46
abbrev slash : UInt8 := 47
abbrev zero : UInt8 := 48
abbrev colon : UInt8 := 58
abbrev openBracket : UInt8 := 91
abbrev backslash : UInt8 := 92
abbrev closeBracket : UInt8 := 93
abbrev openBrace : UInt8 := 123
abbrev closeBrace : UInt8 := 125

/-- The bytes of a text. -/
def text (s : String) : ByteString := s.toList.map fun c => c.toNat.toUInt8

/-- `%d` of a number that is not negative -/
def decimalNat (n : ℕ) : ByteString := (Nat.toDigits 10 n).map fun c => c.toNat.toUInt8

/-- `%d` -/
def decimal (n : ℤ) : ByteString :=
  if n < 0 then minus :: decimalNat n.natAbs else decimalNat n.natAbs

/-- `%x` of a digit -/
def hexDigit (n : ℕ) : UInt8 := if n < 10 then (48 + n).toUInt8 else (87 + n).toUInt8

/-- `%04x` -/
def hex4 (n : ℕ) : ByteString :=
  [hexDigit (n / 4096 % 16), hexDigit (n / 256 % 16), hexDigit (n / 16 % 16), hexDigit (n % 16)]

/-! ## Values

A value, and induction on it with hypotheses for the values in an array or object.
-/

/-- The type `double` of the platform, as far as `json11` uses it. -/
structure Doubles (δ : Type) where
  /-- `std::isfinite` -/
  isFinite : δ → Bool
  /-- `snprintf` with `%.17g` -/
  print : δ → ByteString
  /-- `std::strtod`, of the text of a number -/
  strtod : ByteString → δ
  /-- the conversion from an integer type -/
  ofInt : ℤ → δ
  /-- `==` -/
  eq : δ → δ → Bool

/-- A `Json`. Both `int` and `double` have the type `NUMBER`. A map is the list of its entries,
by key. -/
inductive Json (δ : Type) where
  | null
  | int (value : ℤ)
  | double (value : δ)
  | bool (value : Bool)
  | string (value : ByteString)
  | array (values : List (Json δ))
  | object (values : List (ByteString × Json δ))

/-- `data[key] = value` -/
def insert {α : Type} (data : List (ByteString × α)) (kv : ByteString × α) :
    List (ByteString × α) :=
  match data with
  | [] => [kv]
  | kv' :: data =>
    if kv.1 < kv'.1 then kv :: kv' :: data
    else if kv'.1 < kv.1 then kv' :: insert data kv
    else kv :: data

/-- A `std::map` of these entries; the last one with a key counts. -/
def ofEntries {α : Type} (entries : List (ByteString × α)) : List (ByteString × α) :=
  entries.foldl insert []

/-- The keys are in order, and different. -/
def Sorted {α : Type} (data : List (ByteString × α)) : Prop :=
  data.Pairwise fun kv kv' => kv.1 < kv'.1

/-- A value that can be built: an `int` has 32 bits, and every map is sorted by key. -/
inductive Wf {δ : Type} : Json δ → Prop
  | null : Wf .null
  | int {n} : -2 ^ 31 ≤ n → n < 2 ^ 31 → Wf (.int n)
  | double (d) : Wf (.double d)
  | bool (b) : Wf (.bool b)
  | string (s) : Wf (.string s)
  | array {vs} : (∀ v ∈ vs, Wf v) → Wf (.array vs)
  | object {kvs} : (∀ kv ∈ kvs, Wf kv.2) → Sorted kvs → Wf (.object kvs)

/-- Induction on a value, with the hypothesis for the values that are in it. -/
@[elab_as_elim]
theorem Json.induction {δ : Type} {motive : Json δ → Prop} (null : motive .null)
    (int : ∀ n, motive (.int n)) (double : ∀ d, motive (.double d)) (bool : ∀ b, motive (.bool b))
    (string : ∀ s, motive (.string s)) (array : ∀ vs, (∀ v ∈ vs, motive v) → motive (.array vs))
    (object : ∀ kvs, (∀ kv ∈ kvs, motive kv.2) → motive (.object kvs)) (v : Json δ) : motive v := by
  refine @Json.rec δ motive (fun vs => ∀ v ∈ vs, motive v) (fun kvs => ∀ kv ∈ kvs, motive kv.2)
    (fun kv => motive kv.2) null int double bool string array object ?_ ?_ ?_ ?_ ?_ v
  · simp
  · intro v vs hv hvs
    simpa using ⟨hv, hvs⟩
  · simp
  · intro kv kvs hkv hkvs
    simp only [List.mem_cons, forall_eq_or_imp]
    exact ⟨hkv, hkvs⟩
  · intro key v hv
    exact hv

mutual

/-- How deep the arrays and objects with something in them are. -/
def nesting {δ : Type} : Json δ → ℕ
  | .array vs => nestingValues vs
  | .object kvs => nestingEntries kvs
  | _ => 0

/-- The same of some values, one level further down. -/
def nestingValues {δ : Type} : List (Json δ) → ℕ
  | [] => 0
  | v :: vs => max (nesting v + 1) (nestingValues vs)

/-- The same of the entries of an object. -/
def nestingEntries {δ : Type} : List (ByteString × Json δ) → ℕ
  | [] => 0
  | (_, v) :: kvs => max (nesting v + 1) (nestingEntries kvs)

end

/-- An array is nested deeper than each of its values. -/
theorem nesting_array_le {δ : Type} {vs : List (Json δ)} {n : ℕ} :
    nesting (.array vs) ≤ n ↔ ∀ v ∈ vs, nesting v < n := by
  rw [nesting]
  induction vs with
  | nil => simp [nestingValues]
  | cons v vs ih => rw [nestingValues, max_le_iff, ih, List.forall_mem_cons, Nat.succ_le_iff]

/-- So is an object. -/
theorem nesting_object_le {δ : Type} {kvs : List (ByteString × Json δ)} {n : ℕ} :
    nesting (.object kvs) ≤ n ↔ ∀ kv ∈ kvs, nesting kv.2 < n := by
  rw [nesting]
  induction kvs with
  | nil => simp [nestingEntries]
  | cons kv kvs ih => rw [nestingEntries, max_le_iff, ih, List.forall_mem_cons, Nat.succ_le_iff]

/-! ## Maps

A `std::map` as the list of its entries. What is inserted is found again.
-/

section

variable {α : Type}

theorem mem_insert {data : List (ByteString × α)} {kv kv' : ByteString × α}
    (h : kv' ∈ insert data kv) : kv' = kv ∨ kv' ∈ data := by
  induction data with
  | nil => exact .inl (List.mem_singleton.mp h)
  | cons kv₁ data ih =>
    rw [insert] at h
    split_ifs at h with hlt hgt
    · exact List.mem_cons.mp h
    · rcases List.mem_cons.mp h with rfl | h
      · exact .inr List.mem_cons_self
      · exact (ih h).imp_right (List.mem_cons_of_mem _)
    · exact (List.mem_cons.mp h).imp_right (List.mem_cons_of_mem _)

theorem sorted_insert {data : List (ByteString × α)} (h : Sorted data) (kv : ByteString × α) :
    Sorted (insert data kv) := by
  induction data with
  | nil => exact List.pairwise_singleton _ _
  | cons kv₁ data ih =>
    obtain ⟨hfirst, htail⟩ := List.pairwise_cons.mp h
    rw [insert]
    split_ifs with hlt hgt
    · refine List.pairwise_cons.mpr ⟨?_, h⟩
      intro kv' hkv'
      rcases List.mem_cons.mp hkv' with rfl | hkv'
      · exact hlt
      · exact List.lt_trans hlt (hfirst kv' hkv')
    · refine List.pairwise_cons.mpr ⟨?_, ih htail⟩
      intro kv' hkv'
      rcases mem_insert hkv' with rfl | hkv'
      · exact hgt
      · exact hfirst kv' hkv'
    · -- the key is the same
      have hkey : kv.1 = kv₁.1 := List.le_antisymm hgt hlt
      refine List.pairwise_cons.mpr ⟨?_, htail⟩
      intro kv' hkv'
      rw [hkey]
      exact hfirst kv' hkv'

theorem sorted_foldl_insert {data : List (ByteString × α)} (h : Sorted data)
    (kvs : List (ByteString × α)) : Sorted (kvs.foldl insert data) := by
  induction kvs generalizing data with
  | nil => exact h
  | cons kv kvs ih => exact ih (sorted_insert h kv)

theorem sorted_ofEntries (kvs : List (ByteString × α)) : Sorted (ofEntries kvs) :=
  sorted_foldl_insert List.Pairwise.nil kvs

theorem mem_foldl_insert {kvs data : List (ByteString × α)} {kv : ByteString × α}
    (h : kv ∈ kvs.foldl insert data) : kv ∈ kvs ∨ kv ∈ data := by
  induction kvs generalizing data with
  | nil => exact .inr h
  | cons kv' kvs ih =>
    rcases ih h with h | h
    · exact .inl (List.mem_cons_of_mem _ h)
    · rcases mem_insert h with rfl | h
      · exact .inl List.mem_cons_self
      · exact .inr h

theorem mem_ofEntries {kvs : List (ByteString × α)} {kv : ByteString × α}
    (h : kv ∈ ofEntries kvs) : kv ∈ kvs :=
  (mem_foldl_insert h).resolve_right List.not_mem_nil

/-- A key that comes after the others is put at the end. -/
theorem insert_eq_append {data : List (ByteString × α)} {kv : ByteString × α}
    (h : ∀ kv' ∈ data, kv'.1 < kv.1) : insert data kv = data ++ [kv] := by
  induction data with
  | nil => rfl
  | cons kv₁ data ih =>
    obtain ⟨hlt, htail⟩ := List.forall_mem_cons.mp h
    rw [insert, if_neg (fun hgt => List.lt_irrefl _ (List.lt_trans hgt hlt)), if_pos hlt, ih htail,
      List.cons_append]

theorem foldl_insert_of_sorted (data : List (ByteString × α)) {kvs : List (ByteString × α)}
    (h : Sorted (data ++ kvs)) : kvs.foldl insert data = data ++ kvs := by
  induction kvs generalizing data with
  | nil => exact (List.append_nil data).symm
  | cons kv kvs ih =>
    have hlt : ∀ kv' ∈ data, kv'.1 < kv.1 := fun kv' hkv' =>
      (List.pairwise_append.mp h).2.2 kv' hkv' kv List.mem_cons_self
    rw [List.foldl_cons, insert_eq_append hlt, ih _ (by rwa [List.append_assoc]), List.append_assoc,
      List.singleton_append]

theorem ofEntries_of_sorted {kvs : List (ByteString × α)} (h : Sorted kvs) : ofEntries kvs = kvs :=
  foldl_insert_of_sorted [] h

end

/-! ## Serialization

`dump` as the source has it: one function for each type, and for the loops of an array and of an
object.
-/

/-- One character of a string. -/
def escape (ch : UInt8) : ByteString :=
  if ch = backslash then [backslash, backslash]
  else if ch = quote then [backslash, quote]
  else if ch = backspace then text "\\b"
  else if ch = formFeed then text "\\f"
  else if ch = newline then text "\\n"
  else if ch = carriageReturn then text "\\r"
  else if ch = tab then text "\\t"
  else if ch ≤ 0x1f then text "\\u" ++ hex4 ch.toNat
  else [ch]

/-- The characters of a string. U+2028 and U+2029, three bytes each, are escaped as well. -/
def escapes : ByteString → ByteString
  | 0xe2 :: 0x80 :: 0xa8 :: s => text "\\u2028" ++ escapes s
  | 0xe2 :: 0x80 :: 0xa9 :: s => text "\\u2029" ++ escapes s
  | ch :: s => escape ch ++ escapes s
  | [] => []

/-- A string with its quotes. -/
def dumpString (value : ByteString) : ByteString := quote :: escapes value ++ [quote]

section

variable {δ : Type} (D : Doubles δ)

/-- A number that is not finite is written as `null`. -/
def dumpDouble (value : δ) : ByteString :=
  if D.isFinite value then D.print value else text "null"

mutual

/-- `Json::dump`, which appends to the output. -/
def dump : Json δ → ByteString
  | .null => text "null"
  | .int value => decimal value
  | .double value => dumpDouble D value
  | .bool value => if value then text "true" else text "false"
  | .string value => dumpString value
  | .array values => openBracket :: dumpValues true values ++ [closeBracket]
  | .object values => openBrace :: dumpEntries true values ++ [closeBrace]

/-- The loop over the values of an array. -/
def dumpValues (first : Bool) : List (Json δ) → ByteString
  | [] => []
  | value :: values => (if first then [] else text ", ") ++ dump value ++ dumpValues false values

/-- The loop over the entries of an object. -/
def dumpEntries (first : Bool) : List (ByteString × Json δ) → ByteString
  | [] => []
  | (key, value) :: values =>
    (if first then [] else text ", ") ++ (dumpString key ++ text ": " ++ dump value) ++
      dumpEntries false values

end

/-! ## Accessors

They return a default for a value of another type, and never fail.
-/

/-- `number_value` -/
def numberValueOf : Json δ → δ
  | .int n => D.ofInt n
  | .double d => d
  | _ => D.ofInt 0

/-- `string_value` -/
def stringValue : Json δ → ByteString
  | .string s => s
  | _ => []

/-- `array_items` -/
def arrayItems : Json δ → List (Json δ)
  | .array vs => vs
  | _ => []

/-- `operator[]` of a key -/
def item (v : Json δ) (key : ByteString) : Json δ :=
  match v with
  | .object kvs => (kvs.lookup key).getD .null
  | _ => .null

/-! ## Comparison

`operator==`. Numbers are compared by value, whatever their type.
-/

mutual

/-- `==`, of two values that are not the same object. Numbers are compared as `double`. -/
def equals : Json δ → Json δ → Bool
  | .null, .null => true
  | .int n, .int m => D.eq (D.ofInt n) (D.ofInt m)
  | .int n, .double d => D.eq (D.ofInt n) d
  | .double d, .int n => D.eq d (D.ofInt n)
  | .double d, .double d' => D.eq d d'
  | .bool b, .bool b' => b == b'
  | .string s, .string s' => s == s'
  | .array vs, .array vs' => equalValues vs vs'
  | .object kvs, .object kvs' => equalEntries kvs kvs'
  | _, _ => false

/-- The comparison of two arrays. -/
def equalValues : List (Json δ) → List (Json δ) → Bool
  | [], [] => true
  | v :: vs, v' :: vs' => equals v v' && equalValues vs vs'
  | _, _ => false

/-- The comparison of two objects. -/
def equalEntries : List (ByteString × Json δ) → List (ByteString × Json δ) → Bool
  | [], [] => true
  | (key, v) :: kvs, (key', v') :: kvs' => (key == key' && equals v v') && equalEntries kvs kvs'
  | _, _ => false

end

end

end Json11

end GameSdk
