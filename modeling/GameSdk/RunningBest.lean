import Mathlib.Data.List.Induction
import Mathlib.Order.Lattice

/-!
# Keeping the best so far

Two loops over a list that remember one of its elements: the one with the least value
below a bound, which gives way only to a smaller value, and the last one that passes a
test. On a list in the order of a relation `R` the first loop breaks ties towards the
front, and the second one ends as far back as it can.

The loops are those of a search through a sorted map: the least value belongs to the best entry, the
order breaks ties. `LeastOf` says what the first loop has after a part of the list, and is what its
induction carries; `IsLeast` and `IsLast` say what the two loops find.
-/

namespace RunningBest

universe u v

variable {α : Type u} {β : Type v} [LinearOrder β] {p : α → Prop} [DecidablePred p] {f : α → β}
  {b : β} {R : α → α → Prop} {l : List α}

/-- What holds of all elements, when one is added at the end. -/
theorem forall_mem_concat {q : α → Prop} {x : α} :
    (∀ y ∈ l ++ [x], q y) ↔ (∀ y ∈ l, q y) ∧ q x := by
  rw [List.forall_mem_append, List.forall_mem_singleton]

/-! ## The least value

The loop has an element and its value, or none and the bound. A later element takes its place only
if its value is below that. So of two elements with the same value the first one stays, and the
bound stays if no value is below it.
-/

/-- The best element so far, and the value to beat. -/
def leastStep (p : α → Prop) [DecidablePred p] (f : α → β) (best : Option α × β) (x : α) :
    Option α × β :=
  if p x ∧ f x < best.2 then (some x, f x) else best

/-- The element with the least value below the bound `b`, among those that pass the test: the first
one, if there are several. -/
def least (p : α → Prop) [DecidablePred p] (f : α → β) (b : β) (l : List α) : Option α :=
  (l.foldl (leastStep p f) (none, b)).1

/-- `y` comes first among the elements with the least value. -/
structure IsLeast (R : α → α → Prop) (p : α → Prop) (f : α → β) (b : β) (l : List α) (y : α) :
    Prop where
  mem : y ∈ l
  pass : p y
  lt_bound : f y < b
  le : ∀ x ∈ l, p x → f y < f x ∨ f y = f x ∧ (y = x ∨ R y x)

/-- What the loop has found: nothing below the bound, or the least. -/
inductive LeastOf (R : α → α → Prop) (p : α → Prop) (f : α → β) (b : β) (l : List α) :
    Option α × β → Prop
  | none (h : ∀ x ∈ l, p x → b ≤ f x) : LeastOf R p f b l (none, b)
  | some {y : α} (h : IsLeast R p f b l y) : LeastOf R p f b l (some y, f y)

/-- One round of the loop. -/
theorem leastOf_step {best : Option α × β} (h : LeastOf R p f b l best) {x : α}
    (hx : ∀ y ∈ l, R y x) : LeastOf R p f b (l ++ [x]) (leastStep p f best x) := by
  rw [leastStep]
  by_cases hbetter : p x ∧ f x < best.2
  · -- everything before is above the new value
    rw [if_pos hbetter]
    have hlt : f x < b ∧ ∀ z ∈ l, p z → f x < f z := by
      cases h with
      | none h => exact ⟨hbetter.2, fun z hz hp => lt_of_lt_of_le hbetter.2 (h z hz hp)⟩
      | some h =>
        refine ⟨lt_trans hbetter.2 h.lt_bound, fun z hz hp => ?_⟩
        rcases h.le z hz hp with hz | ⟨hz, -⟩
        · exact lt_trans hbetter.2 hz
        · exact hz ▸ hbetter.2
    refine .some ⟨by simp, hbetter.1, hlt.1, forall_mem_concat.mpr ⟨?_, ?_⟩⟩
    · intro z hz hp
      exact Or.inl (hlt.2 z hz hp)
    · intro _
      exact Or.inr ⟨rfl, Or.inl rfl⟩
  · rw [if_neg hbetter]
    have hge (hp : p x) : best.2 ≤ f x := not_lt.mp fun hlt => hbetter ⟨hp, hlt⟩
    cases h with
    | none h => exact .none (forall_mem_concat.mpr ⟨h, hge⟩)
    | @some y h =>
      refine .some ⟨List.mem_append_left _ h.mem, h.pass, h.lt_bound,
        forall_mem_concat.mpr ⟨h.le, ?_⟩⟩
      intro hp
      rcases lt_or_eq_of_le (hge hp) with hlt | heq
      · exact Or.inl hlt
      · exact Or.inr ⟨heq, Or.inr (hx y h.mem)⟩

/-- **The loop finds the least value**, and the first element that has it. -/
theorem leastOf_foldl (hl : l.Pairwise R) :
    LeastOf R p f b l (l.foldl (leastStep p f) (none, b)) := by
  induction l using List.reverseRecOn with
  | nil => exact .none fun x hx => absurd hx List.not_mem_nil
  | append_singleton l x ih =>
    rw [List.pairwise_append] at hl
    rw [List.foldl_append, List.foldl_cons, List.foldl_nil]
    exact leastOf_step (ih hl.1) fun y hy => hl.2.2 y hy x (List.mem_singleton_self x)

/-- What the function returns has the least value, whatever that value is. -/
theorem exists_leastOf_least (hl : l.Pairwise R) : ∃ v, LeastOf R p f b l (least p f b l, v) :=
  ⟨_, leastOf_foldl hl⟩

/-- **The first loop** finds the least value below the bound. -/
theorem isLeast_of_eq_some (hl : l.Pairwise R) {y : α} (h : least p f b l = some y) :
    IsLeast R p f b l y := by
  obtain ⟨v, hfound⟩ := exists_leastOf_least (p := p) (f := f) (b := b) hl
  rw [h] at hfound
  cases hfound with
  | some hleast => exact hleast

/-- It finds nothing when there is nothing below the bound. -/
theorem le_of_eq_none (hl : l.Pairwise R) (h : least p f b l = none) :
    ∀ x ∈ l, p x → b ≤ f x := by
  obtain ⟨v, hfound⟩ := exists_leastOf_least (p := p) (f := f) (b := b) hl
  rw [h] at hfound
  cases hfound with
  | none hnone => exact hnone

/-! ## The last one

The loop takes every element that passes the test, so it ends with the last of them.
-/

/-- The last element that passes the test. -/
def last (p : α → Prop) [DecidablePred p] (l : List α) : Option α :=
  l.foldl (fun best x => if p x then some x else best) none

/-- `y` passes the test, and comes after all others that do. -/
structure IsLast (R : α → α → Prop) (p : α → Prop) (l : List α) (y : α) : Prop where
  mem : y ∈ l
  pass : p y
  le : ∀ x ∈ l, p x → x = y ∨ R x y

/-- One round of the loop. -/
theorem last_append_singleton (l : List α) (x : α) :
    last p (l ++ [x]) = if p x then some x else last p l := by
  rw [last, List.foldl_append, List.foldl_cons, List.foldl_nil, last]

/-- **The second loop** finds the last element that passes. -/
theorem isLast_of_eq_some (hl : l.Pairwise R) {y : α} (h : last p l = some y) :
    IsLast R p l y := by
  induction l using List.reverseRecOn with
  | nil => cases h
  | append_singleton l x ih =>
    rw [List.pairwise_append] at hl
    rw [last_append_singleton] at h
    split at h
    · next hp =>
      obtain rfl := Option.some.inj h
      refine ⟨by simp, hp, forall_mem_concat.mpr ⟨?_, fun _ => Or.inl rfl⟩⟩
      intro z hz _
      exact Or.inr (hl.2.2 z hz x (List.mem_singleton_self x))
    · next hp =>
      obtain ⟨hmem, hy, hle⟩ := ih hl.1 h
      exact ⟨List.mem_append_left _ hmem, hy,
        forall_mem_concat.mpr ⟨hle, fun hpx => absurd hpx hp⟩⟩

/-- Without a result no element passes the test. -/
theorem not_of_eq_none (h : last p l = none) : ∀ x ∈ l, ¬ p x := by
  induction l using List.reverseRecOn with
  | nil => exact fun x hx => absurd hx List.not_mem_nil
  | append_singleton l x ih =>
    rw [last_append_singleton] at h
    split at h
    · cases h
    · next hp => exact forall_mem_concat.mpr ⟨ih h, hp⟩

end RunningBest
