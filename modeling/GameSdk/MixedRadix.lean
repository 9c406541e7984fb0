import Mathlib.Data.List.Forall2
import Mathlib.Algebra.BigOperators.Group.List.Basic
import Mathlib.Algebra.BigOperators.Intervals
import Mathlib.Algebra.Order.BigOperators.Group.Finset
import Mathlib.Algebra.Order.BigOperators.Group.List
import Mathlib.Algebra.Order.BigOperators.GroupWithZero.List
import Mathlib.Tactic.Ring

/-!
# Mixed-radix numerals

A numeral over a list of radices `r₀, r₁, …` is a list of digits, least
significant first, and `value` is the number it stands for:
`d₀ + r₀ (d₁ + r₁ (d₂ + ⋯))`. `digits` peels the digits off again, and the two
are inverse on digits below their radices.

`cumulative` turns radices into the table of running products
`r₀, r₀ r₁, r₀ r₁ r₂, …` — the *weights* of a numeral, one place up. Taking that
table for the radices themselves agrees with the numeral on its first two
digits only: `value_cumulative_eq_iff`.
-/

namespace MixedRadix

/-- The number a digit list stands for, least significant digit first. -/
def value : List ℕ → List ℕ → ℕ
  | r :: rs, d :: ds => d + r * value rs ds
  | _, _ => 0

/-- The digits of a number, one for each radix. -/
def digits : List ℕ → ℕ → List ℕ
  | [], _ => []
  | r :: rs, x => x % r :: digits rs (x / r)

/-- One digit for each radix, each below its radix. -/
abbrev IsDigits (rs ds : List ℕ) : Prop := List.Forall₂ (fun r d => d < r) rs ds

/-- The running products of `a` with the radices. -/
def cumulative (a : ℕ) : List ℕ → List ℕ
  | [] => []
  | r :: rs => a * r :: cumulative (a * r) rs

/-- No digits stand for 0. -/
@[simp] theorem value_nil_right (rs : List ℕ) : value rs [] = 0 := by
  cases rs <;> rfl

/-- The first digit counts once, the others by their radix. -/
@[simp] theorem value_cons (r : ℕ) (rs : List ℕ) (d : ℕ) (ds : List ℕ) :
    value (r :: rs) (d :: ds) = d + r * value rs ds := rfl

/-- Without radices there are no digits. -/
@[simp] theorem digits_nil (x : ℕ) : digits [] x = [] := rfl

/-- The first digit is a remainder; the others are those of the quotient. -/
@[simp] theorem digits_cons (r : ℕ) (rs : List ℕ) (x : ℕ) :
    digits (r :: rs) x = x % r :: digits rs (x / r) := rfl

/-- The table goes on from the product so far. -/
@[simp] theorem cumulative_cons (a r : ℕ) (rs : List ℕ) :
    cumulative a (r :: rs) = a * r :: cumulative (a * r) rs := rfl

/-- There is a digit for each radix. -/
@[simp] theorem length_digits (rs : List ℕ) (x : ℕ) : (digits rs x).length = rs.length := by
  induction rs generalizing x with
  | nil => rfl
  | cons r rs ih => rw [digits_cons, List.length_cons, ih, List.length_cons]

/-- There is an entry for each radix. -/
@[simp] theorem length_cumulative (a : ℕ) (rs : List ℕ) :
    (cumulative a rs).length = rs.length := by
  induction rs generalizing a with
  | nil => rfl
  | cons r rs ih => rw [cumulative_cons, List.length_cons, ih, List.length_cons]

/-! ## Digits and values are inverse

Below the product of the radices each number has one numeral, and `digits` finds it. A code that
assigns numbers to combinations of choices does so without gaps and without collisions for this
reason.
-/

/-- A numeral stays below the product of its radices. -/
theorem value_lt {rs ds : List ℕ} (h : IsDigits rs ds) : value rs ds < rs.prod := by
  induction h with
  | nil => exact Nat.one_pos
  | @cons r d rs ds hd _ ih =>
    rw [value_cons, List.prod_cons]
    calc d + r * value rs ds < r * (value rs ds + 1) := by rw [Nat.mul_succ]; omega
      _ ≤ r * rs.prod := Nat.mul_le_mul_left r ih

/-- A bound on numerals whose digits may exceed the radices. -/
theorem value_le_of_le {b : ℕ} {rs ds : List ℕ} (hpos : ∀ r ∈ rs, 0 < r)
    (hds : ∀ d ∈ ds, d ≤ b) : value rs ds ≤ b * rs.length * rs.prod := by
  induction rs generalizing ds with
  | nil => exact Nat.zero_le _
  | cons r rs ih =>
    rcases ds with _ | ⟨d, ds⟩
    · simp
    obtain ⟨hr, htail⟩ := List.forall_mem_cons.mp hpos
    obtain ⟨hd, hds'⟩ := List.forall_mem_cons.mp hds
    have hprod : 0 < rs.prod := List.prod_pos htail
    rw [value_cons, List.length_cons, List.prod_cons]
    calc d + r * value rs ds ≤ b * (r * rs.prod) + r * (b * rs.length * rs.prod) :=
          Nat.add_le_add (le_trans hd (Nat.le_mul_of_pos_right b (Nat.mul_pos hr hprod)))
            (Nat.mul_le_mul_left r (ih htail hds'))
      _ = b * (rs.length + 1) * (r * rs.prod) := by ring

/-- **The digits of a numeral come back.** -/
theorem digits_value {rs ds : List ℕ} (h : IsDigits rs ds) : digits rs (value rs ds) = ds := by
  induction h with
  | nil => rfl
  | @cons r d rs ds hd _ ih =>
    have hr : 0 < r := by omega
    rw [value_cons, digits_cons, Nat.add_mul_mod_self_left, Nat.mod_eq_of_lt hd,
      Nat.add_mul_div_left _ _ hr, Nat.div_eq_of_lt hd, Nat.zero_add, ih]

/-- **The number comes back**, if it is below the product of the radices. -/
theorem value_digits {rs : List ℕ} {x : ℕ} (hx : x < rs.prod) : value rs (digits rs x) = x := by
  induction rs generalizing x with
  | nil =>
    have : x = 0 := by simpa using hx
    rw [this, digits_nil, value_nil_right]
  | cons r rs ih =>
    have hlt : x / r < rs.prod := Nat.div_lt_of_lt_mul (by rwa [List.prod_cons] at hx)
    rw [digits_cons, value_cons, ih hlt]
    exact Nat.mod_add_div x r

/-- Remainders are digits. -/
theorem isDigits_digits {rs : List ℕ} (hpos : ∀ r ∈ rs, 0 < r) (x : ℕ) :
    IsDigits rs (digits rs x) := by
  induction rs generalizing x with
  | nil => exact List.Forall₂.nil
  | cons r rs ih =>
    have hr : 0 < r := hpos r (List.mem_cons_self ..)
    exact List.Forall₂.cons (Nat.mod_lt x hr)
      (ih (fun r' hr' => hpos r' (List.mem_cons_of_mem _ hr')) _)

/-- Every place at least doubles the numbers a numeral can stand for. -/
theorem two_pow_length_le_prod {rs : List ℕ} (h : ∀ r ∈ rs, 2 ≤ r) :
    2 ^ rs.length ≤ rs.prod := by
  induction rs with
  | nil => exact Nat.le_refl 1
  | cons r rs ih =>
    obtain ⟨hr, htail⟩ := List.forall_mem_cons.mp h
    rw [List.length_cons, List.prod_cons, Nat.pow_succ']
    exact Nat.mul_le_mul hr (ih htail)

/-- A numeral is zero only when all of its digits are. -/
theorem value_eq_zero_iff {rs ds : List ℕ} (hpos : ∀ r ∈ rs, 0 < r)
    (hlen : rs.length = ds.length) : value rs ds = 0 ↔ ∀ d ∈ ds, d = 0 := by
  induction rs generalizing ds with
  | nil =>
    obtain rfl : ds = [] := List.eq_nil_of_length_eq_zero hlen.symm
    simp
  | cons r rs ih =>
    rcases ds with _ | ⟨d, ds⟩
    · cases hlen
    · have hr : 0 < r := hpos r (List.mem_cons_self ..)
      have htail := ih (fun r' hr' => hpos r' (List.mem_cons_of_mem _ hr'))
        (Nat.succ.inj hlen)
      rw [value_cons, Nat.add_eq_zero_iff, Nat.mul_eq_zero, List.forall_mem_cons, ← htail]
      constructor
      · rintro ⟨hd, h | h⟩
        · omega
        · exact ⟨hd, h⟩
      · rintro ⟨hd, h⟩
        exact ⟨hd, Or.inr h⟩

/-- The digits from place `n` on are those of the number divided by the weight
of that place. -/
theorem drop_digits (n : ℕ) (rs : List ℕ) (x : ℕ) :
    (digits rs x).drop n = digits (rs.drop n) (x / (rs.take n).prod) := by
  induction n generalizing rs x with
  | zero => simp
  | succ n ih =>
    rcases rs with _ | ⟨r, rs⟩
    · rfl
    · rw [digits_cons, List.drop_succ_cons, ih, List.drop_succ_cons, List.take_succ_cons,
        List.prod_cons, Nat.div_div_eq_div_mul]

/-- A number has no digit from place `n` on exactly when it is below the weight
of that place. -/
theorem drop_digits_eq_zero_iff {rs : List ℕ} (hpos : ∀ r ∈ rs, 0 < r) {x : ℕ}
    (hx : x < rs.prod) (n : ℕ) :
    (∀ d ∈ (digits rs x).drop n, d = 0) ↔ x < (rs.take n).prod := by
  have hprod : (rs.take n).prod * (rs.drop n).prod = rs.prod := List.prod_take_mul_prod_drop rs n
  have hw : 0 < (rs.take n).prod :=
    List.prod_pos fun r hr => hpos r (List.mem_of_mem_take hr)
  have hlt : x / (rs.take n).prod < (rs.drop n).prod :=
    Nat.div_lt_of_lt_mul (by rwa [hprod])
  rw [drop_digits, ← value_eq_zero_iff (fun r hr => hpos r (List.mem_of_mem_drop hr))
    (length_digits _ _).symm, value_digits hlt, Nat.div_eq_zero_iff]
  omega

/-! ## Digits with their places

Digits may come in any order, if each comes with its place. It then counts for itself times the
product of the radices below, and one place is used once at most.
-/

/-- The products do not get smaller along the table. -/
theorem prod_take_le_succ {rs : List ℕ} (hpos : ∀ r ∈ rs, 0 < r) (k : ℕ) :
    (rs.take k).prod ≤ (rs.take (k + 1)).prod := by
  rcases Nat.lt_or_ge k rs.length with hk | hk
  · rw [List.prod_take_succ rs k hk]
    exact Nat.le_mul_of_pos_right _ (hpos _ (List.getElem_mem hk))
  · rw [List.take_of_length_le hk, List.take_of_length_le (hk.trans (Nat.le_succ k))]

/-- Digits for places of their own, each below its radix, come to less than the product. -/
theorem sum_mul_prod_take_lt {rs : List ℕ} (hpos : ∀ r ∈ rs, 0 < r) {ps : List (ℕ × ℕ)}
    (hnodup : (ps.map Prod.fst).Nodup) (hps : ∀ p ∈ ps, ∃ r, rs[p.1]? = some r ∧ p.2 < r) :
    (ps.map fun p => p.2 * (rs.take p.1).prod).sum < rs.prod := by
  -- a digit is worth no more than the distance from the weight of its place to the next
  have hstep : ∀ p ∈ ps, p.2 * (rs.take p.1).prod ≤
      (rs.take (p.1 + 1)).prod - (rs.take p.1).prod := by
    intro p hp
    obtain ⟨r, hr, hlt⟩ := hps p hp
    obtain ⟨hk, rfl⟩ := List.getElem?_eq_some_iff.mp hr
    rw [List.prod_take_succ rs p.1 hk]
    apply Nat.le_sub_of_add_le
    calc p.2 * (rs.take p.1).prod + (rs.take p.1).prod
        = (p.2 + 1) * (rs.take p.1).prod := (Nat.succ_mul ..).symm
      _ ≤ rs[p.1] * (rs.take p.1).prod := Nat.mul_le_mul_right _ hlt
      _ = (rs.take p.1).prod * rs[p.1] := Nat.mul_comm ..
  have hplaces : (ps.map Prod.fst).toFinset ⊆ Finset.range rs.length := by
    intro k hk
    obtain ⟨p, hp, rfl⟩ := List.mem_map.mp (List.mem_toFinset.mp hk)
    obtain ⟨r, hr, -⟩ := hps p hp
    exact Finset.mem_range.mpr (List.getElem?_eq_some_iff.mp hr).1
  calc (ps.map fun p => p.2 * (rs.take p.1).prod).sum
      ≤ (ps.map fun p => (rs.take (p.1 + 1)).prod - (rs.take p.1).prod).sum :=
        List.sum_le_sum hstep
    _ = ∑ k ∈ (ps.map Prod.fst).toFinset, ((rs.take (k + 1)).prod - (rs.take k).prod) := by
        rw [List.sum_toFinset _ hnodup, List.map_map]
        rfl
    _ ≤ ∑ k ∈ Finset.range rs.length, ((rs.take (k + 1)).prod - (rs.take k).prod) :=
        Finset.sum_le_sum_of_subset hplaces
    _ = rs.prod - 1 := by
        rw [Finset.sum_range_tsub (monotone_nat_of_le_succ (prod_take_le_succ hpos)),
          List.take_length, List.take_zero, List.prod_nil]
    _ < rs.prod := Nat.sub_lt (List.prod_pos hpos) Nat.one_pos

/-! ## The table of running products

The running products are the weights of the places. If they are used for the radices themselves, by
a slip in the index, each place from the third on is given too much weight. What comes out is never
less, and it is the same number only where these places are zero.
-/

/-- No entry of the table is zero. -/
theorem cumulative_pos {a : ℕ} {rs : List ℕ} (ha : 0 < a) (hpos : ∀ r ∈ rs, 0 < r) :
    ∀ c ∈ cumulative a rs, 0 < c := by
  induction rs generalizing a with
  | nil => intro c hc; cases hc
  | cons r rs ih =>
    have har : 0 < a * r := Nat.mul_pos ha (hpos r (List.mem_cons_self ..))
    intro c hc
    rcases List.mem_cons.mp hc with rfl | hc
    · exact har
    · exact ih har (fun r' hr' => hpos r' (List.mem_cons_of_mem _ hr')) c hc

/-- No entry is above the last one. -/
theorem cumulative_le {a : ℕ} {rs : List ℕ} (hpos : ∀ r ∈ rs, 0 < r) :
    ∀ c ∈ cumulative a rs, c ≤ a * rs.prod := by
  induction rs generalizing a with
  | nil => intro c hc; cases hc
  | cons r rs ih =>
    obtain ⟨-, htail⟩ := List.forall_mem_cons.mp hpos
    rw [List.prod_cons, ← Nat.mul_assoc]
    intro c hc
    rcases List.mem_cons.mp hc with rfl | hc
    · exact Nat.le_mul_of_pos_right _ (List.prod_pos htail)
    · exact ih htail c hc

/-- The product of the table is no smaller than that of the radices. -/
theorem prod_le_prod_cumulative {a : ℕ} {rs : List ℕ} (ha : 0 < a) (hpos : ∀ r ∈ rs, 0 < r) :
    rs.prod ≤ (cumulative a rs).prod := by
  induction rs generalizing a with
  | nil => exact Nat.le_refl 1
  | cons r rs ih =>
    obtain ⟨hr, htail⟩ := List.forall_mem_cons.mp hpos
    rw [cumulative_cons, List.prod_cons, List.prod_cons]
    exact Nat.mul_le_mul (Nat.le_mul_of_pos_left r ha) (ih (Nat.mul_pos ha hr) htail)

/-- The entry at place `i` is the weight of place `i + 1`. -/
theorem getElem?_cumulative (a : ℕ) (rs : List ℕ) (i : ℕ) :
    (cumulative a rs)[i]? = if i < rs.length then some (a * (rs.take (i + 1)).prod) else none := by
  induction rs generalizing a i with
  | nil => simp [cumulative]
  | cons r rs ih =>
    rcases i with _ | i
    · simp
    · rw [cumulative_cons, List.getElem?_cons_succ, ih, List.length_cons,
        List.take_succ_cons, List.prod_cons, Nat.mul_assoc]
      simp only [Nat.add_lt_add_iff_right]

/-- The last entry is the product of all radices. -/
theorem getLast?_cumulative (a : ℕ) {rs : List ℕ} (hne : rs ≠ []) :
    (cumulative a rs).getLast? = some (a * rs.prod) := by
  have hlen : 0 < rs.length := List.length_pos_iff.mpr hne
  rw [List.getLast?_eq_getElem?, length_cumulative, getElem?_cumulative, if_pos (by omega),
    show rs.length - 1 + 1 = rs.length by omega, List.take_length]

/-- Digits are digits for the table as well: its entries are no smaller than the
radices. -/
theorem IsDigits.cumulative {a : ℕ} {rs ds : List ℕ} (ha : 0 < a) (h : IsDigits rs ds) :
    IsDigits (cumulative a rs) ds := by
  induction h generalizing a with
  | nil => exact List.Forall₂.nil
  | @cons r d rs ds hd _ ih =>
    have hr : r ≤ a * r := Nat.le_mul_of_pos_left r ha
    exact List.Forall₂.cons (by omega) (ih (Nat.mul_pos ha (by omega)))

/-- The table, taken for the radices, gives no digit less weight. -/
theorem value_le_value_cumulative {a : ℕ} {rs : List ℕ} (ha : 0 < a) (hpos : ∀ r ∈ rs, 0 < r)
    (ds : List ℕ) : value rs ds ≤ value (cumulative a rs) ds := by
  induction rs generalizing a ds with
  | nil => exact Nat.zero_le _
  | cons r rs ih =>
    rcases ds with _ | ⟨d, ds⟩
    · simp
    · have har : 0 < a * r := Nat.mul_pos ha (hpos r (List.mem_cons_self ..))
      have htail := ih har (fun r' hr' => hpos r' (List.mem_cons_of_mem _ hr')) ds
      rw [cumulative_cons, value_cons, value_cons]
      exact Nat.add_le_add_left (Nat.mul_le_mul (Nat.le_mul_of_pos_left r ha) htail) d

/-- From the second place on the table overshoots: with a running product of at
least two, the two readings of a numeral differ by its higher digits. -/
theorem value_cumulative_cons_eq_iff {a r d : ℕ} {rs ds : List ℕ} (ha : 2 ≤ a)
    (hpos : ∀ r' ∈ r :: rs, 0 < r') :
    value (cumulative a (r :: rs)) (d :: ds) = value (r :: rs) (d :: ds) ↔
      value (cumulative (a * r) rs) ds = 0 := by
  have hr : 0 < r := hpos r (List.mem_cons_self ..)
  have hle := value_le_value_cumulative (a := a * r) (Nat.mul_pos (by omega) hr)
    (fun r' hr' => hpos r' (List.mem_cons_of_mem _ hr')) ds
  rw [cumulative_cons, value_cons, value_cons]
  generalize value (cumulative (a * r) rs) ds = w at hle ⊢
  constructor
  · intro h
    by_contra hw
    have hlt : r * value rs ds < a * r * w := by
      calc r * value rs ds ≤ r * w := Nat.mul_le_mul_left r hle
        _ < a * (r * w) := lt_mul_of_one_lt_left (Nat.mul_pos hr (by omega)) (by omega)
        _ = a * r * w := (Nat.mul_assoc a r w).symm
    omega
  · rintro rfl
    have : value rs ds = 0 := by omega
    rw [this, Nat.mul_zero, Nat.mul_zero]

/-- **The table read as radices agrees with the numeral exactly when every digit
from the third on is zero.** -/
theorem value_cumulative_eq_iff {rs ds : List ℕ} (h2 : ∀ r ∈ rs, 2 ≤ r)
    (hlen : rs.length = ds.length) :
    value (cumulative 1 rs) ds = value rs ds ↔ ∀ d ∈ ds.drop 2, d = 0 := by
  have hpos : ∀ r ∈ rs, 0 < r := fun r hr => by have := h2 r hr; omega
  rcases rs with _ | ⟨r, rs⟩
  · obtain rfl : ds = [] := List.eq_nil_of_length_eq_zero hlen.symm
    simp [cumulative]
  rcases ds with _ | ⟨d, ds⟩
  · cases hlen
  have hr : 2 ≤ r := h2 r (List.mem_cons_self ..)
  have hhead : value (cumulative 1 (r :: rs)) (d :: ds) = value (r :: rs) (d :: ds) ↔
      value (cumulative r rs) ds = value rs ds := by
    rw [cumulative_cons, Nat.one_mul, value_cons, value_cons, Nat.add_left_cancel_iff]
    exact Nat.mul_right_inj (by omega)
  rw [hhead]
  rcases rs with _ | ⟨r', rs⟩
  · obtain rfl : ds = [] := List.eq_nil_of_length_eq_zero (Nat.succ.inj hlen).symm
    simp [cumulative]
  rcases ds with _ | ⟨d', ds⟩
  · cases hlen
  have hpos' : ∀ r'' ∈ r' :: rs, 0 < r'' := fun r'' h => hpos r'' (List.mem_cons_of_mem _ h)
  rw [value_cumulative_cons_eq_iff hr hpos', value_eq_zero_iff]
  · rfl
  · exact cumulative_pos (Nat.mul_pos (by omega) (hpos' r' (List.mem_cons_self ..)))
      fun r'' h => hpos' r'' (List.mem_cons_of_mem _ h)
  · simpa using hlen

/-- Peeling with the table instead of the radices returns the digits of a
numeral exactly when every digit from the third on is zero. -/
theorem digits_cumulative_value_eq_iff {rs ds : List ℕ} (h2 : ∀ r ∈ rs, 2 ≤ r)
    (h : IsDigits rs ds) :
    digits (cumulative 1 rs) (value rs ds) = ds ↔ ∀ d ∈ ds.drop 2, d = 0 := by
  have hc : IsDigits (cumulative 1 rs) ds := h.cumulative Nat.one_pos
  have hpos : ∀ r ∈ rs, 0 < r := fun r hr => by have := h2 r hr; omega
  have hle : value rs ds ≤ value (cumulative 1 rs) ds :=
    value_le_value_cumulative Nat.one_pos hpos ds
  rw [← value_cumulative_eq_iff h2 h.length_eq]
  constructor
  · intro hds
    have := value_digits (lt_of_le_of_lt hle (value_lt hc))
    rw [hds] at this
    exact this
  · intro heq
    rw [← heq]
    exact digits_value hc

end MixedRadix
