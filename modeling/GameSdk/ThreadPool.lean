import GameSdk.Runs
import Mathlib.Data.List.Forall2

/-!
# Pools of threads

The threads of a pool are a list of what each of them does next. One of them takes a step by
`List.set`. What holds of every thread is kept by a step of one of them if it holds of that one
after it; a sum over the threads changes by what the one contributes, and the shares of the others
stay.

Two measures are used for progress. `total` is the work of all threads together, which bounds the
steps of a run. `share` is the work of one of them, which bounds the steps of that thread: no other
thread can take it, or add to it.
-/

namespace ThreadPool

open Runs (total)

universe u v

variable {φ : Type u} {pool : List φ} {i : ℕ} {p q : φ}

/-- What holds of every thread, after a step of one. -/
theorem forall_set {P : φ → Prop} (h : ∀ p ∈ pool, P p) (hq : P q) : ∀ p ∈ pool.set i q, P p := by
  intro p hp
  rcases List.mem_or_eq_of_mem_set hp with hp | rfl
  · exact h p hp
  · exact hq

/-- The same of what ties each thread to a task of its own. -/
theorem forall₂_set {ψ : Type v} {R : ψ → φ → Prop} {rs : List ψ} (h : List.Forall₂ R rs pool)
    (hp : pool[i]? = some p) (hq : ∀ r, R r p → R r q) : List.Forall₂ R rs (pool.set i q) := by
  induction h generalizing i with
  | nil => cases hp
  | cons hr hrest ih =>
    cases i with
    | zero =>
      obtain rfl := Option.some.inj hp
      exact .cons (hq _ hr) hrest
    | succ i => exact .cons hr (ih hp)

/-- Each thread has a task. -/
theorem exists_of_forall₂ {ψ : Type v} {R : ψ → φ → Prop} {rs : List ψ}
    (h : List.Forall₂ R rs pool) (hp : pool[i]? = some p) : ∃ r ∈ rs, R r p := by
  induction h generalizing i with
  | nil => cases hp
  | cons hr hrest ih =>
    cases i with
    | zero =>
      obtain rfl := Option.some.inj hp
      exact ⟨_, List.mem_cons_self .., hr⟩
    | succ i =>
      obtain ⟨r, hmem, hrp⟩ := ih hp
      exact ⟨r, List.mem_cons_of_mem _ hmem, hrp⟩

/-- A thread is the one that took the step, or as it was. -/
theorem getElem?_set_eq_some {j : ℕ} (hp : pool[i]? = some p) {r : φ}
    (h : (pool.set i q)[j]? = some r) : j = i ∧ r = q ∨ j ≠ i ∧ pool[j]? = some r := by
  obtain ⟨hi, -⟩ := List.getElem?_eq_some_iff.mp hp
  rw [List.getElem?_set] at h
  split_ifs at h with hji
  · exact .inl ⟨hji.symm, (Option.some.inj h).symm⟩
  · exact .inr ⟨fun heq => hji heq.symm, h⟩

/-- The sum changes by what one thread contributes. -/
theorem total_set (f : φ → ℕ) (h : pool[i]? = some p) :
    total f (pool.set i q) + f p = total f pool + f q := by
  induction pool generalizing i with
  | nil => cases h
  | cons r pool ih =>
    cases i with
    | zero =>
      obtain rfl : r = p := Option.some.inj h
      simp only [List.set_cons_zero, total]
      omega
    | succ i =>
      have hrest := ih h
      simp only [List.set_cons_succ, total]
      omega

/-- A thread has no more than all of them. -/
theorem le_total (f : φ → ℕ) (h : pool[i]? = some p) : f p ≤ total f pool := by
  induction pool generalizing i with
  | nil => cases h
  | cons r pool ih =>
    rw [total]
    cases i with
    | zero =>
      obtain rfl : r = p := Option.some.inj h
      exact Nat.le_add_right _ _
    | succ i => exact Nat.le_trans (ih h) (Nat.le_add_left _ _)

/-- A bound for each thread is a bound for the sum. -/
theorem total_le {f : φ → ℕ} {n : ℕ} (h : ∀ p ∈ pool, f p ≤ n) :
    total f pool ≤ n * pool.length := by
  induction pool with
  | nil => exact Nat.zero_le _
  | cons p pool ih =>
    obtain ⟨hp, hrest⟩ := List.forall_mem_cons.mp h
    have hsum := ih hrest
    rw [total, List.length_cons, Nat.mul_succ]
    omega

/-- There is no work if no thread has any. -/
theorem total_eq_zero {f : φ → ℕ} (h : ∀ p ∈ pool, f p = 0) : total f pool = 0 := by
  have hle := total_le fun p hp => Nat.le_of_eq (h p hp)
  rwa [Nat.zero_mul, Nat.le_zero] at hle

/-- The number that belongs to the thread at a place of the pool, if there is one. -/
def share (f : φ → ℕ) (pool : List φ) (i : ℕ) : ℕ := (pool[i]?.map f).getD 0

/-- A bound on the numbers of all threads is one on each share. -/
theorem share_le {f : φ → ℕ} {n : ℕ} (h : ∀ p ∈ pool, f p ≤ n) (i : ℕ) : share f pool i ≤ n := by
  rw [share]
  cases hp : pool[i]? with
  | none => exact Nat.zero_le n
  | some p => exact h p (List.mem_of_getElem? hp)

/-- A step of one thread changes its own share and no other. -/
theorem share_set (f : φ → ℕ) (h : pool[i]? = some p) (j : ℕ) :
    share f (pool.set i q) j = if i = j then f q else share f pool j := by
  obtain ⟨hi, -⟩ := List.getElem?_eq_some_iff.mp h
  rw [share, List.getElem?_set]
  split_ifs with hij
  · rfl
  · rfl

/-- The share of a thread that is there. -/
theorem share_eq (f : φ → ℕ) (h : pool[i]? = some p) : share f pool i = f p := by
  rw [share, h]
  rfl

/-- Either a thread is left that is not done, or all of them are. -/
theorem exists_or_forall (P : φ → Prop) [DecidablePred P] (pool : List φ) :
    (∃ (i : ℕ) (p : φ), pool[i]? = some p ∧ ¬ P p) ∨ ∀ p ∈ pool, P p := by
  by_cases h : ∀ p ∈ pool, P p
  · exact .inr h
  · simp only [not_forall] at h
    obtain ⟨p, hp, hnot⟩ := h
    obtain ⟨i, hi⟩ := List.mem_iff_getElem?.mp hp
    exact .inl ⟨i, p, hi, hnot⟩

end ThreadPool
