import Mathlib.Data.List.Basic
import Mathlib.Tactic.Basic

/-!
# Scanners

A scanner takes a value off the front of a list, or fails. What it accepts is described by a
relation of texts and values: it is *exact* if it takes nothing but such a text, and takes every
such text after which something comes that cannot be a part of it.

Two scanners in sequence are exact if each of them is, and a loop that takes items until a
delimiter says that there are no more is exact if item and delimiter are. The loop has fuel; one
unit for each element of the input is enough, if no item is empty.
-/

namespace GameSdk

/-- Takes a value off the front of a list, or fails. -/
abbrev Scanner (σ ε : Type) : Type → Type := StateT (List σ) (Except ε)

namespace Scanner

variable {σ ε α β : Type}

/-! ## One scanner after another

A sequence of two scanners takes what the first one takes, and then what the second one takes of the
rest. It fails where one of them fails.
-/

/-- After a first scanner that succeeds, the second one runs on the rest. -/
theorem run_bind_of_ok {p : Scanner σ ε α} {q : α → Scanner σ ε β} {s s' : List σ} {a : α}
    (h : p.run s = .ok (a, s')) : (p >>= q).run s = (q a).run s' := by
  rw [StateT.run_bind, h]
  rfl

/-- A first scanner that fails ends the sequence. -/
theorem run_bind_of_error {p : Scanner σ ε α} {q : α → Scanner σ ε β} {s : List σ} {e : ε}
    (h : p.run s = .error e) : (p >>= q).run s = .error e := by
  rw [StateT.run_bind, h]
  rfl

/-- A sequence succeeds if both of its scanners do. -/
theorem run_bind_eq_ok {p : Scanner σ ε α} {q : α → Scanner σ ε β} {s rest : List σ} {b : β} :
    (p >>= q).run s = .ok (b, rest) ↔
      ∃ a s', p.run s = .ok (a, s') ∧ (q a).run s' = .ok (b, rest) := by
  rcases h : p.run s with e | ⟨a, s'⟩
  · rw [run_bind_of_error h]
    simp
  · rw [run_bind_of_ok h]
    constructor
    · intro hq
      exact ⟨a, s', rfl, hq⟩
    · rintro ⟨a', s'', heq, hq⟩
      cases heq
      exact hq

/-- A sequence fails if one of its scanners does. -/
theorem run_bind_eq_error {p : Scanner σ ε α} {q : α → Scanner σ ε β} {s : List σ} {e : ε} :
    (p >>= q).run s = .error e ↔
      p.run s = .error e ∨ ∃ a s', p.run s = .ok (a, s') ∧ (q a).run s' = .error e := by
  rcases h : p.run s with e' | ⟨a, s'⟩
  · rw [run_bind_of_error h]
    simp
  · rw [run_bind_of_ok h]
    constructor
    · intro hq
      exact .inr ⟨a, s', rfl, hq⟩
    · rintro (heq | ⟨a', s'', heq, hq⟩)
      · cases heq
      · cases heq
        exact hq

/-- A scanner that takes nothing. -/
@[simp] theorem run_pure_eq_ok {a b : α} {s rest : List σ} :
    (pure a : Scanner σ ε α).run s = .ok (b, rest) ↔ a = b ∧ s = rest := by
  rw [StateT.run_pure]
  change Except.ok (a, s) = .ok (b, rest) ↔ _
  simp

/-- A scanner that fails. -/
@[simp] theorem run_throw (e : ε) (s : List σ) :
    (throw e : Scanner σ ε α).run s = .error e := rfl

/-- The rest of the input can be looked at. -/
@[simp] theorem run_get (s : List σ) : (get : Scanner σ ε (List σ)).run s = .ok (s, s) := rfl

/-- It can be replaced. -/
@[simp] theorem run_set (s s' : List σ) :
    (set s' : Scanner σ ε PUnit).run s = .ok (⟨⟩, s') := rfl

/-- It can be changed. -/
@[simp] theorem run_modify (f : List σ → List σ) (s : List σ) :
    (modify f : Scanner σ ε PUnit).run s = .ok (⟨⟩, f s) := rfl

/-! ## Exactness

To be exact is two things: a scanner is *sound* if what it takes is a text of the value that it
returns, and *complete* if it takes every such text. Complete it can only be where it is clear that
the text has ended, and `follow` says after what that is. A digit, for instance, may not come after
a number.
-/

/-- `p` takes the texts of `P`, and nothing else; each of them if `follow` holds of what comes
after it. -/
structure Exact (p : Scanner σ ε α) (follow : List σ → Prop) (P : List σ → α → Prop) : Prop where
  sound : ∀ {s a rest}, p.run s = .ok (a, rest) → ∃ t, P t a ∧ t ++ rest = s
  complete : ∀ {t a rest}, P t a → follow rest → p.run (t ++ rest) = .ok (a, rest)

/-- A text of two parts. The second may depend on the value of the first. -/
def Both (P : List σ → α → Prop) (Q : α → List σ → β → Prop) (t : List σ) (b : β) : Prop :=
  ∃ a u v, P u a ∧ Q a v b ∧ u ++ v = t

/-- **Two exact scanners in sequence are exact**, if each text of the second one may follow one of
the first. -/
theorem Exact.bind {p : Scanner σ ε α} {q : α → Scanner σ ε β} {follow follow' : List σ → Prop}
    {P : List σ → α → Prop} {Q : α → List σ → β → Prop} (hp : p.Exact follow P)
    (hq : ∀ a, (q a).Exact follow' (Q a))
    (hfollow : ∀ {a b v rest}, Q a v b → follow' rest → follow (v ++ rest)) :
    (p >>= q).Exact follow' (Both P Q) where
  sound {s b rest} h := by
    obtain ⟨a, s', hps, hqs⟩ := run_bind_eq_ok.mp h
    obtain ⟨u, hu, rfl⟩ := hp.sound hps
    obtain ⟨v, hv, rfl⟩ := (hq a).sound hqs
    exact ⟨u ++ v, ⟨a, u, v, hu, hv, rfl⟩, List.append_assoc u v rest⟩
  complete {t b rest} h hrest := by
    obtain ⟨a, u, v, hu, hv, rfl⟩ := h
    rw [List.append_assoc, run_bind_of_ok (hp.complete hu (hfollow hv hrest))]
    exact (hq a).complete hv hrest

/-- What is taken is shorter than the input, if no text is empty. -/
theorem Exact.length_lt {p : Scanner σ ε α} {follow : List σ → Prop} {P : List σ → α → Prop}
    (hp : p.Exact follow P) (hne : ∀ {t a}, P t a → t ≠ []) {s rest : List σ} {a : α}
    (h : p.run s = .ok (a, rest)) : rest.length < s.length := by
  obtain ⟨t, ht, rfl⟩ := hp.sound h
  have := List.length_pos_iff.mpr (hne ht)
  rw [List.length_append]
  omega

/-! ## Items with delimiters

A list in brackets is items, and after each of them a delimiter that says whether another item
follows. The loop takes an item and a delimiter in each round. `Separated` describes its texts, and
the two halves of exactness are proved for the loop by induction, over its fuel and over the text.
-/

/-- Items until a delimiter says that there are no more. -/
def loop (outOfFuel : ε) (item : Scanner σ ε α) (more : Scanner σ ε Bool) (put : β → α → β) :
    ℕ → β → Scanner σ ε β
  | 0, _ => throw outOfFuel
  | fuel + 1, acc => do
    let a ← item
    if ← more then loop outOfFuel item more put fuel (put acc a) else return put acc a

/-- Each item has its delimiter after it; the last one says that there are no more. -/
inductive Separated (P : List σ → α → Prop) (M : List σ → Bool → Prop) :
    List σ → List α → Prop
  | last {t u a} : P t a → M u false → Separated P M (t ++ u) [a]
  | cons {t u v a as} : P t a → M u true → Separated P M v as →
      Separated P M (t ++ u ++ v) (a :: as)

section

variable {outOfFuel : ε} {item : Scanner σ ε α} {more : Scanner σ ε Bool} {put : β → α → β}
  {P : List σ → α → Prop} {M : List σ → Bool → Prop}

/-- What the loop takes is a text of the items that it has put together. -/
theorem loop_sound (hitem : ∀ {s a rest}, item.run s = .ok (a, rest) → ∃ t, P t a ∧ t ++ rest = s)
    (hmore : ∀ {s b rest}, more.run s = .ok (b, rest) → ∃ t, M t b ∧ t ++ rest = s)
    {fuel : ℕ} {acc b : β} {s rest : List σ}
    (h : (loop outOfFuel item more put fuel acc).run s = .ok (b, rest)) :
    ∃ t as, Separated P M t as ∧ as.foldl put acc = b ∧ t ++ rest = s := by
  induction fuel generalizing acc s with
  | zero =>
    rw [loop, run_throw] at h
    cases h
  | succ fuel ih =>
    rw [loop] at h
    obtain ⟨a, s₁, ha, h⟩ := run_bind_eq_ok.mp h
    obtain ⟨m, s₂, hm, h⟩ := run_bind_eq_ok.mp h
    obtain ⟨t, ht, rfl⟩ := hitem ha
    obtain ⟨u, hu, rfl⟩ := hmore hm
    cases m with
    | false =>
      obtain ⟨rfl, rfl⟩ := run_pure_eq_ok.mp h
      exact ⟨t ++ u, [a], .last ht hu, rfl, List.append_assoc t u s₂⟩
    | true =>
      obtain ⟨v, as, hv, rfl, rfl⟩ := ih h
      exact ⟨t ++ u ++ v, a :: as, .cons ht hu hv, rfl, by simp only [List.append_assoc]⟩

/-- With a unit of fuel for each item, the loop takes every such text. -/
theorem loop_complete
    (hitem : ∀ {t a u b}, P t a → M u b → ∀ rest, item.run (t ++ (u ++ rest)) = .ok (a, u ++ rest))
    (hlast : ∀ {u}, M u false → ∀ rest, more.run (u ++ rest) = .ok (false, rest))
    (hmore : ∀ {u t a}, M u true → P t a → ∀ rest,
      more.run (u ++ (t ++ rest)) = .ok (true, t ++ rest))
    {t : List σ} {as : List α} (h : Separated P M t as) {fuel : ℕ} (hfuel : as.length ≤ fuel)
    (acc : β) (rest : List σ) :
    (loop outOfFuel item more put fuel acc).run (t ++ rest) = .ok (as.foldl put acc, rest) := by
  induction h generalizing fuel acc with
  | @last t u a ht hu =>
    obtain ⟨fuel, rfl⟩ := Nat.exists_eq_succ_of_ne_zero (Nat.ne_of_gt hfuel)
    rw [loop, List.append_assoc, run_bind_of_ok (hitem ht hu rest),
      run_bind_of_ok (hlast hu rest)]
    rfl
  | @cons t u v a as ht hu hv ih =>
    obtain ⟨fuel, rfl⟩ := Nat.exists_eq_succ_of_ne_zero (Nat.ne_of_gt (Nat.zero_lt_of_lt hfuel))
    -- the text of the next item is what the delimiter looks for
    have hnext : more.run (u ++ (v ++ rest)) = .ok (true, v ++ rest) := by
      cases hv with
      | last hv _ =>
        rw [List.append_assoc]
        exact hmore hu hv _
      | cons hv _ _ =>
        simp only [List.append_assoc]
        exact hmore hu hv _
    rw [loop, List.append_assoc, List.append_assoc, run_bind_of_ok (hitem ht hu (v ++ rest)),
      run_bind_of_ok hnext, if_pos rfl, ih (by simpa using hfuel)]
    rfl

/-- There are not more items than there are elements of the text. -/
theorem Separated.length_le (hne : ∀ {t a}, P t a → t ≠ []) {t : List σ} {as : List α}
    (h : Separated P M t as) : as.length ≤ t.length := by
  induction h with
  | last ht _ =>
    have := List.length_pos_iff.mpr (hne ht)
    rw [List.length_append, List.length_singleton]
    omega
  | cons ht _ _ ih =>
    have := List.length_pos_iff.mpr (hne ht)
    rw [List.length_append, List.length_append, List.length_cons]
    omega

/-- Items of one kind are items of a wider kind. -/
theorem Separated.imp {P' : List σ → α → Prop} (hP : ∀ {t a}, P t a → P' t a) {t : List σ}
    {as : List α} (h : Separated P M t as) : Separated P' M t as := by
  induction h with
  | last ht hu => exact .last (hP ht) hu
  | cons ht hu _ ih => exact .cons (hP ht) hu ih

/-- Every item has a text. -/
theorem Separated.exists_of_mem {t : List σ} {as : List α} (h : Separated P M t as) {a : α}
    (ha : a ∈ as) : ∃ u, P u a := by
  induction h with
  | last ht _ =>
    rw [List.mem_singleton] at ha
    exact ⟨_, ha ▸ ht⟩
  | cons ht _ _ ih =>
    rcases List.mem_cons.mp ha with rfl | ha
    · exact ⟨_, ht⟩
    · exact ih ha

/-- **The loop does not run out of fuel** where every item takes something. -/
theorem loop_ne_outOfFuel (hitem : ∀ s, item.run s ≠ .error outOfFuel)
    (hmore : ∀ s, more.run s ≠ .error outOfFuel)
    (hitemLt : ∀ {s a rest}, item.run s = .ok (a, rest) → rest.length < s.length)
    (hmoreLe : ∀ {s b rest}, more.run s = .ok (b, rest) → rest.length ≤ s.length)
    {fuel : ℕ} {s : List σ} (hfuel : s.length < fuel) (acc : β) :
    (loop outOfFuel item more put fuel acc).run s ≠ .error outOfFuel := by
  induction fuel generalizing s acc with
  | zero => exact absurd hfuel (Nat.not_lt_zero _)
  | succ fuel ih =>
    intro h
    rw [loop] at h
    rcases run_bind_eq_error.mp h with h | ⟨a, s₁, ha, h⟩
    · exact hitem s h
    rcases run_bind_eq_error.mp h with h | ⟨m, s₂, hm, h⟩
    · exact hmore s₁ h
    have hlt := hitemLt ha
    have hle := hmoreLe hm
    cases m with
    | false => cases h
    | true => exact ih (by omega) (put acc a) h

end

end Scanner

end GameSdk
