import GameSdk.MixedRadix
import Mathlib.Tactic.Linarith

/-!
# Mixed-radix numerals over digit sets

Here a place admits the digits of a finite set of its own, which need not be the
numbers below its radix. Different numerals may then stand for one number: two
digits of a place that are a multiple of the radix apart are told apart only if
the places above cannot make up for that multiple. `Separated` asks for this
place by place, and `value_injective_iff` says that nothing else can go wrong.

`differences` computes the differences of numerals place by place, so whether a list of digit sets
is separated can be decided. This is how a decoder with a table of weights is judged: if the sets of
digits it lets through are separated, it never gives one number to two inputs.
-/

namespace MixedRadix

/-- One digit for each place, out of the set of that place. -/
abbrev IsNumeral (digitSets : List (List ℕ)) (ds : List ℕ) : Prop :=
  List.Forall₂ (fun digitSet d => d ∈ digitSet) digitSets ds

/-- What two numerals can differ by. -/
def differences : List ℕ → List (List ℕ) → List ℤ
  | r :: rs, digitSet :: digitSets =>
    digitSet.flatMap fun (d : ℕ) => digitSet.flatMap fun (d' : ℕ) =>
      (differences rs digitSets).map fun t => (d : ℤ) - d' + r * t
  | _, _ => [0]

/-- At no place two digits are a multiple of the radix apart that the places above
can make up for. -/
def Separated : List ℕ → List (List ℕ) → Prop
  | r :: rs, digitSet :: digitSets =>
    (∀ d ∈ digitSet, ∀ d' ∈ digitSet, d ≠ d' →
      ∀ t ∈ differences rs digitSets, (d : ℤ) - d' ≠ r * t) ∧ Separated rs digitSets
  | _, _ => True

instance decidableSeparated : (rs : List ℕ) → (digitSets : List (List ℕ)) →
    Decidable (Separated rs digitSets)
  | [], _ => .isTrue trivial
  | _ :: _, [] => .isTrue trivial
  | _ :: rs, _ :: digitSets =>
    haveI := decidableSeparated rs digitSets
    inferInstanceAs (Decidable (_ ∧ _))

/-- What is computed are the differences of the numbers that numerals stand for. -/
theorem mem_differences {rs : List ℕ} {digitSets : List (List ℕ)}
    (hlen : rs.length = digitSets.length) {t : ℤ} :
    t ∈ differences rs digitSets ↔ ∃ ds ds', IsNumeral digitSets ds ∧ IsNumeral digitSets ds' ∧
      t = (value rs ds : ℤ) - value rs ds' := by
  induction rs generalizing digitSets t with
  | nil =>
    obtain rfl : digitSets = [] := List.eq_nil_of_length_eq_zero hlen.symm
    simp [differences, value]
  | cons r rs ih =>
    rcases digitSets with _ | ⟨digitSet, digitSets⟩
    · cases hlen
    simp only [differences, List.mem_flatMap, List.mem_map, ih (Nat.succ.inj hlen)]
    constructor
    · rintro ⟨d, hd, d', hd', -, ⟨ds, ds', hds, hds', rfl⟩, rfl⟩
      refine ⟨d :: ds, d' :: ds', .cons hd hds, .cons hd' hds', ?_⟩
      simp only [value_cons]
      push_cast
      ring
    · rintro ⟨-, -, ⟨⟩, ⟨⟩, rfl⟩
      rename_i d ds hd hds d' ds' hd' hds'
      refine ⟨d, hd, d', hd', _, ⟨ds, ds', hds, hds', rfl⟩, ?_⟩
      simp only [value_cons]
      push_cast
      ring

/-- **Different numerals stand for different numbers exactly when the digit sets
are separated.** -/
theorem value_injective_iff {rs : List ℕ} {digitSets : List (List ℕ)}
    (hlen : rs.length = digitSets.length) (hpos : ∀ r ∈ rs, 0 < r)
    (hne : ∀ s ∈ digitSets, s ≠ []) :
    (∀ ds ds', IsNumeral digitSets ds → IsNumeral digitSets ds' →
      value rs ds = value rs ds' → ds = ds') ↔ Separated rs digitSets := by
  induction rs generalizing digitSets with
  | nil =>
    obtain rfl : digitSets = [] := List.eq_nil_of_length_eq_zero hlen.symm
    simp [Separated]
  | cons r rs ih =>
    rcases digitSets with _ | ⟨digitSet, digitSets⟩
    · cases hlen
    obtain ⟨hr, hpos'⟩ := List.forall_mem_cons.mp hpos
    obtain ⟨hhead, hne'⟩ := List.forall_mem_cons.mp hne
    have hlen' := Nat.succ.inj hlen
    rw [Separated, ← ih hlen' hpos' hne']
    constructor
    · intro hinj
      refine ⟨?_, ?_⟩
      · -- the places above make up for the multiple: two numerals of one value
        intro d hd d' hd' hdd' t ht heq
        obtain ⟨ds, ds', hds, hds', rfl⟩ := (mem_differences hlen').mp ht
        have hvalue : value (r :: rs) (d :: ds') = value (r :: rs) (d' :: ds) := by
          simp only [value_cons]
          zify
          linarith
        have := hinj _ _ (.cons hd hds') (.cons hd' hds) hvalue
        exact hdd' (List.cons.inj this).1
      · intro ds ds' hds hds' hvalue
        obtain ⟨d, hd⟩ := List.exists_mem_of_ne_nil digitSet hhead
        have := hinj (d :: ds) (d :: ds') (.cons hd hds) (.cons hd hds') (by simp [hvalue])
        exact (List.cons.inj this).2
    · rintro ⟨hsep, hinj⟩ - - ⟨⟩ ⟨⟩ hvalue
      rename_i d ds hd hds d' ds' hd' hds'
      simp only [value_cons] at hvalue
      by_cases hdd' : d = d'
      · obtain rfl := hdd'
        have : value rs ds = value rs ds' :=
          Nat.eq_of_mul_eq_mul_left hr (Nat.add_left_cancel hvalue)
        rw [hinj ds ds' hds hds' this]
      · refine absurd ?_ (hsep d hd d' hd' hdd' _
          ((mem_differences hlen').mpr ⟨ds', ds, hds', hds, rfl⟩))
        zify at hvalue
        linarith

/-- Digits below their radices are separated. -/
theorem separated_of_lt {rs : List ℕ} {digitSets : List (List ℕ)}
    (h : List.Forall₂ (fun r s => s ≠ [] ∧ ∀ d ∈ s, d < r) rs digitSets) :
    Separated rs digitSets := by
  have hpos : ∀ r ∈ rs, 0 < r := by
    intro r hr
    obtain ⟨i, hi, rfl⟩ := List.mem_iff_getElem.mp hr
    obtain ⟨hne, hlt⟩ := List.Forall₂.get h hi (by have := h.length_eq; omega)
    obtain ⟨d, hd⟩ := List.exists_mem_of_ne_nil _ hne
    exact Nat.zero_lt_of_lt (hlt d hd)
  have hne : ∀ s ∈ digitSets, s ≠ [] := by
    intro s hs
    obtain ⟨i, hi, rfl⟩ := List.mem_iff_getElem.mp hs
    exact (List.Forall₂.get h (by have := h.length_eq; omega) hi).1
  have hdigits {ds : List ℕ} (hds : IsNumeral digitSets ds) : IsDigits rs ds := by
    rw [IsDigits, List.forall₂_iff_get]
    have hlen := h.length_eq
    have hlen' := hds.length_eq
    refine ⟨by omega, ?_⟩
    intro i hi hi'
    exact (List.Forall₂.get h hi (by omega)).2 _ (List.Forall₂.get hds (by omega) hi')
  rw [← value_injective_iff h.length_eq hpos hne]
  intro ds ds' hds hds' hvalue
  rw [← digits_value (hdigits hds), hvalue, digits_value (hdigits hds')]

end MixedRadix
