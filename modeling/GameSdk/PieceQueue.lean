import Mathlib.Data.List.Basic

/-!
# Queues that are read in pieces

A queue of elements: a write puts some at the end, a read takes a number of them from the
front, and either hands them out or skips them. A read of more than there is fails, and
leaves the queue empty.

The machines here answer every call. Two machines that stay related give the same
answers (`run_sim`), and so a stream is shown to be a queue.
-/

namespace PieceQueue

universe u v

variable {σ τ : Type u} {ι κ ο : Type v}

/-! ## Machines that answer

`run` collects the answers to a list of calls. Machines whose states are related, step by step, give
the same answers; that is the only rule needed, as a run begins wherever another one ends.
-/

/-- Make the calls one after the other, and collect the answers. -/
def run (step : σ → ι → ο × σ) (s : σ) : List ι → List ο × σ
  | [] => ([], s)
  | i :: is => ((step s i).1 :: (run step (step s i).2 is).1, (run step (step s i).2 is).2)

/-- No calls, no answers. -/
@[simp] theorem run_nil (step : σ → ι → ο × σ) (s : σ) : run step s [] = ([], s) := rfl

/-- The answer to the first call, and those to the rest. -/
@[simp] theorem run_cons (step : σ → ι → ο × σ) (s : σ) (i : ι) (is : List ι) :
    run step s (i :: is) =
      ((step s i).1 :: (run step (step s i).2 is).1, (run step (step s i).2 is).2) := rfl

/-- The answers to two lists of calls in sequence. -/
theorem run_append (step : σ → ι → ο × σ) (s : σ) (is js : List ι) :
    run step s (is ++ js) =
      ((run step s is).1 ++ (run step (run step s is).2 js).1,
        (run step (run step s is).2 js).2) := by
  induction is generalizing s with
  | nil => rfl
  | cons i is ih => rw [List.cons_append, run_cons, ih, run_cons, List.cons_append]

/-- **Simulation**: related states stay related, and give the same answers. -/
theorem run_sim {γ : Type v} {step : σ → ι → ο × σ} {step' : τ → κ → ο × τ} {f : γ → ι} {g : γ → κ}
    {R : σ → τ → Prop}
    (hstep : ∀ s t c, R s t →
      (step s (f c)).1 = (step' t (g c)).1 ∧ R (step s (f c)).2 (step' t (g c)).2)
    {s : σ} {t : τ} (h : R s t) (cs : List γ) :
    (run step s (cs.map f)).1 = (run step' t (cs.map g)).1 ∧
      R (run step s (cs.map f)).2 (run step' t (cs.map g)).2 := by
  induction cs generalizing s t with
  | nil => exact ⟨rfl, h⟩
  | cons c cs ih =>
    obtain ⟨hanswer, hnext⟩ := hstep s t c h
    obtain ⟨hanswers, hend⟩ := ih hnext
    exact ⟨congrArg₂ List.cons hanswer hanswers, hend⟩

/-- What no call changes, the run does not change. -/
theorem run_keeps {γ : Type u} {step : σ → ι → ο × σ} {g : σ → γ} {is : List ι}
    (h : ∀ i ∈ is, ∀ s, g (step s i).2 = g s) (s : σ) : g (run step s is).2 = g s := by
  induction is generalizing s with
  | nil => rfl
  | cons i is ih =>
    rw [List.forall_mem_cons] at h
    exact (ih h.2 (step s i).2).trans (h.1 s)

/-! ## The queue

The queue itself is such a machine, and it is the one that others are compared with. Its state is
what has been written and not yet been read.
-/

variable {α : Type u}

/-- A call; a read hands the elements out or skips them. -/
inductive Call (α : Type u) where
  | write (xs : List α)
  | read (copies : Bool) (count : ℕ)
  deriving DecidableEq, Repr

/-- Whether the call succeeds, the elements it hands out, and the queue after it. -/
def step (q : List α) : Call α → (Bool × List α) × List α
  | .write xs => ((true, []), q ++ xs)
  | .read copies count =>
    ((decide (count ≤ q.length), if copies then q.take count else []), q.drop count)

/-- **Every way to take the queue apart** gives the pieces in order. -/
theorem run_read_pieces (pieces : List (Bool × List α)) (rest : List α) :
    run step ((pieces.map Prod.snd).flatten ++ rest)
        (pieces.map fun p => .read p.1 p.2.length) =
      (pieces.map fun p => (true, if p.1 then p.2 else []), rest) := by
  induction pieces with
  | nil => rfl
  | cons p pieces ih =>
    have hq : ((p :: pieces).map Prod.snd).flatten ++ rest =
        p.2 ++ ((pieces.map Prod.snd).flatten ++ rest) := by
      rw [List.map_cons, List.flatten_cons, List.append_assoc]
    have hread : step (p.2 ++ ((pieces.map Prod.snd).flatten ++ rest))
        (.read p.1 p.2.length) =
          ((true, if p.1 then p.2 else []), (pieces.map Prod.snd).flatten ++ rest) := by
      have hle : p.2.length ≤ (p.2 ++ ((pieces.map Prod.snd).flatten ++ rest)).length := by
        rw [List.length_append]
        exact Nat.le_add_right ..
      rw [step, decide_eq_true hle, List.take_left, List.drop_left]
    rw [hq, List.map_cons, run_cons, hread, ih, List.map_cons]

/-- Writes always succeed, and the queue is what was written. -/
theorem run_write (q : List α) (xss : List (List α)) :
    run step q (xss.map .write) = (xss.map fun _ => (true, []), q ++ xss.flatten) := by
  induction xss generalizing q with
  | nil => rw [List.flatten_nil, List.append_nil]; rfl
  | cons xs xss ih =>
    rw [List.map_cons, run_cons, step, ih, List.map_cons, List.flatten_cons, List.append_assoc]

/-- A read fails when there is less, and leaves nothing. -/
theorem step_read_eq_false_iff (q : List α) (copies : Bool) (count : ℕ) :
    (step q (.read copies count)).1.1 = false ↔ q.length < count := by
  rw [step, decide_eq_false_iff_not, Nat.not_le]

/-- A read of more than there is fails, with what there was if it copies, and empties the queue. -/
theorem step_read_of_lt {q : List α} {count : ℕ} (h : q.length < count) (copies : Bool) :
    step q (.read copies count) = ((false, if copies then q else []), []) := by
  rw [step, decide_eq_false (Nat.not_le.mpr h), List.take_of_length_le (Nat.le_of_lt h),
    List.drop_of_length_le (Nat.le_of_lt h)]

end PieceQueue
