import Mathlib.Data.List.Basic

/-!
# Checked accesses

Reading or writing a vector out of range and dividing by zero have no defined
meaning in C++. The models make them an error of the `Except` monad, so that a
run is free of them exactly when it returns. `read`, `write` and `modify` are the
vector accesses; the names of the vectors are a parameter.

The rules come in two kinds. One says what a computation did if it returned (`bind_eq_ok`,
`write_eq_ok`, `foldlM_invariant`): a proof about the result peels a function apart with them. The
other says when it is safe (`safe_bind`, `safe_read`): a proof that a function has no fault goes
through it access by access, and is left with the bounds.
-/

universe u v w

/-- What went wrong: an index past the end of a vector, or a zero divisor. -/
inductive Fault (ν : Type u) where
  /-- index `i` of the vector `vec`, which has `size` elements -/
  | outOfRange (vec : ν) (i size : ℕ)
  /-- a division or remainder by zero -/
  | zeroDivisor
  deriving DecidableEq, Repr

namespace Checked

variable {ν : Type u} {α : Type v} {β : Type v}

/-- `xs[i]`, for reading. -/
def read (vec : ν) (xs : List α) (i : ℕ) : Except (Fault ν) α :=
  match xs[i]? with
  | some a => .ok a
  | none => .error (.outOfRange vec i xs.length)

/-- `xs[i] = a`. -/
def write (vec : ν) (xs : List α) (i : ℕ) (a : α) : Except (Fault ν) (List α) :=
  if i < xs.length then .ok (xs.set i a) else .error (.outOfRange vec i xs.length)

/-- A read that returns has found its element. -/
theorem read_eq_ok_iff {vec : ν} {xs : List α} {i : ℕ} {a : α} :
    read vec xs i = .ok a ↔ xs[i]? = some a := by
  rw [read]
  rcases h : xs[i]? with _ | b
  · exact ⟨fun h => (nomatch h), fun h => (nomatch h)⟩
  · rw [Except.ok.injEq, Option.some.injEq]

/-- Within the bounds a read returns. -/
theorem read_of_lt {vec : ν} {xs : List α} {i : ℕ} (h : i < xs.length) :
    read vec xs i = .ok xs[i] :=
  read_eq_ok_iff.mpr (List.getElem?_eq_getElem h)

/-- Within the bounds a write returns. -/
theorem write_of_lt {vec : ν} {xs : List α} {i : ℕ} {a : α} (h : i < xs.length) :
    write vec xs i a = .ok (xs.set i a) := if_pos h

/-- A write that returns was within the bounds, and has changed one element. -/
theorem write_eq_ok {vec : ν} {xs ys : List α} {i : ℕ} {a : α}
    (h : write vec xs i a = .ok ys) : i < xs.length ∧ ys = xs.set i a := by
  rw [write] at h
  split at h
  · exact ⟨by assumption, (Except.ok.inj h).symm⟩
  · cases h

/-- Apply `f` to the element at `i`. -/
def modify (vec : ν) (xs : List α) (i : ℕ) (f : α → α) : Except (Fault ν) (List α) :=
  if i < xs.length then .ok (xs.modify i f) else .error (.outOfRange vec i xs.length)

/-- The same of an access that reads and writes. -/
theorem modify_eq_ok {vec : ν} {xs ys : List α} {i : ℕ} {f : α → α}
    (h : modify vec xs i f = .ok ys) : i < xs.length ∧ ys = xs.modify i f := by
  rw [modify] at h
  split at h
  · exact ⟨by assumption, (Except.ok.inj h).symm⟩
  · cases h

/-- Inversion for sequencing: a successful `x >>= f` ran `x` and then `f`. -/
theorem bind_eq_ok {ε : Type w} {x : Except ε α} {f : α → Except ε β} {b : β} :
    x >>= f = .ok b ↔ ∃ a, x = .ok a ∧ f a = .ok b := by
  rcases x with e | a
  · exact ⟨fun h => (nomatch h), fun ⟨_, h, _⟩ => (nomatch h)⟩
  · exact ⟨fun h => ⟨a, rfl, h⟩, fun ⟨_, h, hf⟩ => Except.ok.inj h ▸ hf⟩

/-- What follows a computation that returns gets its result. -/
@[simp] theorem ok_bind {ε : Type w} (a : α) (f : α → Except ε β) :
    (Except.ok a >>= f) = f a := rfl

/-- A function of a result returns if the computation does. -/
theorem map_eq_ok {ε : Type w} {x : Except ε α} {f : α → β} {b : β} :
    x.map f = .ok b ↔ ∃ a, x = .ok a ∧ f a = b := by
  rcases x with e | a
  · exact ⟨fun h => (nomatch h), fun ⟨_, h, _⟩ => (nomatch h)⟩
  · exact ⟨fun h => ⟨a, rfl, Except.ok.inj h⟩, fun ⟨_, h, hf⟩ => Except.ok.inj h ▸ hf ▸ rfl⟩

/-- Forgetting the fault leaves the result. -/
theorem toOption_eq_some {ε : Type w} {x : Except ε α} {a : α} :
    x.toOption = some a ↔ x = .ok a := by
  rcases x with e | b
  · exact ⟨fun h => (nomatch h), fun h => (nomatch h)⟩
  · exact ⟨fun h => congrArg Except.ok (Option.some.inj h),
      fun h => congrArg some (Except.ok.inj h)⟩

/-- What every step of a loop keeps holds after the loop. -/
theorem foldlM_invariant {ε : Type w} {σ : Type v} {f : σ → α → Except ε σ} {P : σ → Prop}
    (hstep : ∀ s a s', P s → f s a = .ok s' → P s') {xs : List α} {s s' : σ} (hs : P s)
    (h : xs.foldlM f s = .ok s') : P s' := by
  induction xs generalizing s with
  | nil =>
    obtain rfl : s = s' := Except.ok.inj h
    exact hs
  | cons a xs ih =>
    rw [List.foldlM_cons] at h
    obtain ⟨s₁, h₁, h⟩ := bind_eq_ok.mp h
    exact ih (hstep s a s₁ hs h₁) h

/-- A loop over `0, …, n - 1`: the invariant may mention how far the loop has got. -/
theorem foldlM_range_invariant {ε : Type w} {σ : Type} {f : σ → ℕ → Except ε σ}
    {P : ℕ → σ → Prop} {n : ℕ}
    (hstep : ∀ s s', ∀ i < n, P i s → f s i = .ok s' → P (i + 1) s') {s s' : σ} (hs : P 0 s)
    (h : (List.range n).foldlM f s = .ok s') : P n s' := by
  induction n generalizing s' with
  | zero =>
    obtain rfl : s = s' := Except.ok.inj h
    exact hs
  | succ n ih =>
    rw [List.range_succ, List.foldlM_append] at h
    obtain ⟨s₁, h₁, h⟩ := bind_eq_ok.mp h
    rw [List.foldlM_cons] at h
    obtain ⟨s₂, h₂, h⟩ := bind_eq_ok.mp h
    obtain rfl : s₂ = s' := Except.ok.inj h
    have hn := ih (fun s s' i hi => hstep s s' i (Nat.lt_succ_of_lt hi)) h₁
    exact hstep s₁ s₂ n (Nat.lt_succ_self n) hn h₂

/-! ## Safety

`Safe Bad x` says that `x` does not end in a fault of the kind `Bad`. It goes
through a computation bind by bind, like a weakest precondition.
-/

/-- `x` returns, or ends in a fault that is not `Bad`. -/
def Safe (Bad : Fault ν → Prop) (x : Except (Fault ν) α) : Prop :=
  ∀ e, x = .error e → ¬ Bad e

variable {Bad : Fault ν → Prop}

/-- To return is safe, whatever is bad. -/
@[simp] theorem safe_ok (a : α) : Safe Bad (.ok a : Except (Fault ν) α) :=
  fun _ h => (nomatch h)

/-- A fault is safe if it is not one of the bad ones. -/
@[simp] theorem safe_error {e : Fault ν} : Safe Bad (.error e : Except (Fault ν) α) ↔ ¬ Bad e := by
  constructor
  · exact fun h => h e rfl
  · intro h e' heq
    obtain rfl : e = e' := Except.error.inj heq
    exact h

/-- **Safety goes through a sequence**: the second part has to be safe for the results of the first
only. -/
theorem safe_bind {x : Except (Fault ν) α} {f : α → Except (Fault ν) β} :
    Safe Bad (x >>= f) ↔ Safe Bad x ∧ ∀ a, x = .ok a → Safe Bad (f a) := by
  rcases x with e | a
  · constructor
    · exact fun h => ⟨fun e' he' => h e' (congrArg (· >>= f) he'), fun _ h => (nomatch h)⟩
    · exact fun ⟨h, _⟩ e' he' => h e' (congrArg Except.error (Except.error.inj he'))
  · constructor
    · exact fun h => ⟨safe_ok a, fun b hb => Except.ok.inj hb ▸ h⟩
    · exact fun ⟨_, h⟩ => h a rfl

/-- A function of the result adds no fault. -/
theorem safe_map {x : Except (Fault ν) α} {f : α → β} : Safe Bad (x.map f) ↔ Safe Bad x := by
  rcases x with e | a
  · rw [Except.map, safe_error, safe_error]
  · exact iff_of_true (safe_ok _) (safe_ok _)

/-- A read within the bounds is safe. -/
theorem safe_read {vec : ν} {xs : List α} {i : ℕ} (h : i < xs.length) :
    Safe Bad (read vec xs i) := by
  rw [read_of_lt h]
  exact safe_ok _

/-- A write within the bounds is safe. -/
theorem safe_write {vec : ν} {xs : List α} {i : ℕ} {a : α} (h : i < xs.length) :
    Safe Bad (write vec xs i a) := by
  rw [write_of_lt h]
  exact safe_ok _

/-- An access within the bounds is safe. -/
theorem safe_modify {vec : ν} {xs : List α} {i : ℕ} {f : α → α} (h : i < xs.length) :
    Safe Bad (modify vec xs i f) := by
  rw [modify, if_pos h]
  exact safe_ok _

/-- A loop is safe when each of its steps is, given what the steps keep. -/
theorem safe_foldlM {σ : Type v} {f : σ → α → Except (Fault ν) σ} {P : σ → Prop} {xs : List α}
    (hstep : ∀ s, ∀ a ∈ xs, ∀ s', P s → f s a = .ok s' → P s')
    (hsafe : ∀ s, ∀ a ∈ xs, P s → Safe Bad (f s a)) {s : σ} (hs : P s) :
    Safe Bad (xs.foldlM f s) := by
  induction xs generalizing s with
  | nil => exact safe_ok s
  | cons a xs ih =>
    rw [List.foldlM_cons, safe_bind]
    refine ⟨hsafe s a (List.mem_cons_self ..) hs, fun s' hs' => ?_⟩
    exact ih (fun s a ha => hstep s a (List.mem_cons_of_mem _ ha))
      (fun s a ha => hsafe s a (List.mem_cons_of_mem _ ha))
      (hstep s a (List.mem_cons_self ..) s' hs hs')

end Checked
