import Mathlib.Data.Nat.Notation
import Mathlib.Order.Basic

/-!
# Loops

A loop that may not end is run with fuel. More fuel does not change a result; a variant
that falls in every round says how much is enough, and an invariant of the rounds holds
where the loop ends.
-/

namespace WhileLoop

universe u

variable {σ : Type u} {cond : σ → Bool} {body : σ → σ} {s t : σ}

/-- Run the loop for as many rounds as there is fuel. -/
def run (cond : σ → Bool) (body : σ → σ) : ℕ → σ → Option σ
  | 0, _ => none
  | fuel + 1, s => if cond s then run cond body fuel (body s) else some s

/-- While the condition holds, a round takes one unit of fuel. -/
theorem run_of_true (h : cond s = true) (fuel : ℕ) :
    run cond body (fuel + 1) s = run cond body fuel (body s) := by
  rw [run, if_pos h]

/-- Where the condition fails, the loop is done. -/
theorem run_of_false (h : cond s = false) (fuel : ℕ) :
    run cond body (fuel + 1) s = some s := by
  rw [run, h]
  rfl

/-- **Fuel monotonicity.** -/
theorem run_mono {fuel fuel' : ℕ} (h : run cond body fuel s = some t) (hle : fuel ≤ fuel') :
    run cond body fuel' s = some t := by
  induction fuel generalizing s fuel' with
  | zero => cases h
  | succ fuel ih =>
    obtain ⟨fuel', rfl⟩ := Nat.exists_eq_succ_of_ne_zero (Nat.ne_zero_of_lt hle)
    rcases hcond : cond s with _ | _
    · rwa [run_of_false hcond] at h ⊢
    · rw [run_of_true hcond] at h ⊢
      exact ih h (Nat.le_of_succ_le_succ hle)

/-- What the rounds keep holds where the loop ends. -/
theorem invariant_of_run {I : σ → Prop} (hbody : ∀ s, I s → cond s = true → I (body s))
    {fuel : ℕ} (hs : I s) (h : run cond body fuel s = some t) : I t := by
  induction fuel generalizing s with
  | zero => cases h
  | succ fuel ih =>
    rcases hcond : cond s with _ | _
    · rw [run_of_false hcond] at h
      cases h
      exact hs
    · rw [run_of_true hcond] at h
      exact ih (hbody s hs hcond) h

/-- **The rule for loops**: enough fuel for the variant, and the loop ends where the
invariant holds and the condition does not. -/
theorem exists_run {Inv : σ → Prop} (variant : σ → ℕ)
    (hbody : ∀ s, Inv s → cond s = true → Inv (body s) ∧ variant (body s) < variant s)
    (hs : Inv s) : ∃ fuel t, run cond body fuel s = some t ∧ Inv t ∧ cond t = false := by
  induction hn : variant s using Nat.strongRecOn generalizing s with
  | ind n ih =>
    rcases hcond : cond s with _ | _
    · exact ⟨1, s, run_of_false hcond 0, hs, hcond⟩
    · obtain ⟨hinv, hlt⟩ := hbody s hs hcond
      obtain ⟨fuel, t, hrun, hend⟩ := ih _ (hn ▸ hlt) hinv rfl
      exact ⟨fuel + 1, t, by rwa [run_of_true hcond], hend⟩

end WhileLoop
