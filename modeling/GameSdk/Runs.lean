import Mathlib.Data.List.Basic
import Mathlib.Logic.Relation

/-!
# Runs of machines

A machine here is a step function on states, fed a list of inputs. `states`
lists every state a run goes through; `StepsOk` says that every step of a run
meets a condition on the state before it and its input. A partial machine may
refuse a step with an error (`runChecked`).

The rules turn facts about one step into facts about every run.
`forall_states_iff` carries an equivalence: if the condition on a step says
precisely when that step is good, then the runs all of whose steps are good are
precisely those that meet the condition throughout.

There are three kinds of rules, by what the machine does.

* A total machine: `forall_mem_states` for invariants, `forall_states_iff` and `stepsOk_congr` for
  conditions on steps.
* A machine that may fail: `not_bad_of_checksOk` and `exists_of_checksOk` for safety,
  `eachStep_of_checksOk` and `eachStep_iff_checksOk` for what steps do, `stays_iff_checksOk` for
  what states have, `sum_cost_le` for the work that is left.
* Two machines: `follows_runChecked` and `exists_runChecked_iff` for simulations.

The other half of a proof is always about one step, and about the machine at hand.
-/

namespace Runs

universe u v w x

variable {σ : Type u} {ι : Type v} {ε : Type w}

/-- The states a run goes through, the first one included. -/
def states (step : σ → ι → σ) (s : σ) : List ι → List σ
  | [] => [s]
  | i :: is => s :: states step (step s i) is

/-- Every step of the run meets `Ok`, a condition on the state before it and its
input. -/
def StepsOk (step : σ → ι → σ) (Ok : σ → ι → Prop) (s : σ) : List ι → Prop
  | [] => True
  | i :: is => Ok s i ∧ StepsOk step Ok (step s i) is

instance decidableStepsOk (step : σ → ι → σ) (Ok : σ → ι → Prop) [∀ s i, Decidable (Ok s i)] :
    (s : σ) → (is : List ι) → Decidable (StepsOk step Ok s is)
  | _, [] => .isTrue trivial
  | s, i :: is =>
    have := decidableStepsOk step Ok (step s i) is
    inferInstanceAs (Decidable (Ok s i ∧ StepsOk step Ok (step s i) is))

/-- The first state is one of those of the run. -/
theorem mem_states_self (step : σ → ι → σ) (s : σ) (is : List ι) : s ∈ states step s is := by
  cases is <;> exact List.mem_cons_self ..

/-- The state at the end of a run is one of its states. -/
theorem foldl_mem_states (step : σ → ι → σ) (s : σ) (is : List ι) :
    is.foldl step s ∈ states step s is := by
  induction is generalizing s with
  | nil => exact List.mem_singleton_self s
  | cons i is ih => exact List.mem_cons_of_mem _ (ih (step s i))

/-- The states of a run are the first one and those of the rest. -/
@[simp] theorem forall_mem_states_cons {step : σ → ι → σ} {s : σ} {i : ι} {is : List ι}
    {P : σ → Prop} :
    (∀ t ∈ states step s (i :: is), P t) ↔ P s ∧ ∀ t ∈ states step (step s i) is, P t :=
  List.forall_mem_cons

/-- An invariant holds in every state of a run. -/
theorem forall_mem_states {step : σ → ι → σ} {Inv : σ → Prop}
    (hinv : ∀ s i, Inv s → Inv (step s i)) {s : σ} (hs : Inv s) (is : List ι) :
    ∀ t ∈ states step s is, Inv t := by
  induction is generalizing s with
  | nil =>
    intro t ht
    obtain rfl : t = s := by simpa [states] using ht
    exact hs
  | cons i is ih => exact forall_mem_states_cons.mpr ⟨hs, ih (hinv s i hs)⟩

/-- What the steps of a relation keep holds in every state they lead to. -/
theorem invariant_of_reachable {R : σ → σ → Prop} {P : σ → Prop}
    (hstep : ∀ s s', P s → R s s' → P s') {s s' : σ} (hs : P s)
    (h : Relation.ReflTransGen R s s') : P s' := by
  induction h with
  | refl => exact hs
  | tail _ hr ih => exact hstep _ _ ih hr

/-- Conditions on steps that agree within an invariant hold of the same runs, if the
steps that meet them keep the invariant. -/
theorem stepsOk_congr_of_ok {step : σ → ι → σ} {Inv : σ → Prop} {P Q : σ → ι → Prop}
    (hinv : ∀ s i, Inv s → Q s i → Inv (step s i)) (h : ∀ s i, Inv s → (P s i ↔ Q s i)) {s : σ}
    (hs : Inv s) (is : List ι) : StepsOk step P s is ↔ StepsOk step Q s is := by
  induction is generalizing s with
  | nil => exact Iff.rfl
  | cons i is ih =>
    rw [StepsOk, StepsOk, h s i hs]
    exact and_congr_right fun hok => ih (hinv s i hs hok)

/-- Conditions on steps that agree within an invariant hold of the same runs. -/
theorem stepsOk_congr {step : σ → ι → σ} {Inv : σ → Prop} {P Q : σ → ι → Prop}
    (hinv : ∀ s i, Inv s → Inv (step s i)) (h : ∀ s i, Inv s → (P s i ↔ Q s i)) {s : σ}
    (hs : Inv s) (is : List ι) : StepsOk step P s is ↔ StepsOk step Q s is :=
  stepsOk_congr_of_ok (fun s i hs _ => hinv s i hs) h hs is

/-- Conditions on steps that agree where an assumption on the steps holds, hold of the same
runs that meet the assumption. -/
theorem stepsOk_congr_of_assumption {step : σ → ι → σ} {Inv : σ → Prop} {A P Q : σ → ι → Prop}
    (hinv : ∀ s i, Inv s → Inv (step s i)) (h : ∀ s i, Inv s → A s i → (P s i ↔ Q s i)) {s : σ}
    (hs : Inv s) {is : List ι} (ha : StepsOk step A s is) :
    StepsOk step P s is ↔ StepsOk step Q s is := by
  induction is generalizing s with
  | nil => exact Iff.rfl
  | cons i is ih => exact and_congr (h s i hs ha.1) (ih (hinv s i hs) ha.2)

/-- **Exact step conditions.** Within an invariant `Inv`, let `Ok` say exactly
which steps keep `P`. Then the runs that stay in `P` are exactly those all of
whose steps are `Ok`. -/
theorem forall_states_iff {step : σ → ι → σ} {Inv P : σ → Prop} {Ok : σ → ι → Prop}
    (hinv : ∀ s i, Inv s → Inv (step s i))
    (hstep : ∀ s i, Inv s → P s → (P (step s i) ↔ Ok s i)) {s : σ} (hi : Inv s) (hs : P s)
    (is : List ι) : (∀ t ∈ states step s is, P t) ↔ StepsOk step Ok s is := by
  induction is generalizing s with
  | nil =>
    refine ⟨fun _ => trivial, fun _ t ht => ?_⟩
    obtain rfl : t = s := by simpa [states] using ht
    exact hs
  | cons i is ih =>
    rw [forall_mem_states_cons, StepsOk]
    constructor
    · rintro ⟨-, hrest⟩
      have hnext : P (step s i) := hrest _ (mem_states_self ..)
      exact ⟨(hstep s i hi hs).mp hnext, (ih (hinv s i hi) hnext).mp hrest⟩
    · rintro ⟨hok, hrest⟩
      have hnext : P (step s i) := (hstep s i hi hs).mpr hok
      exact ⟨hs, (ih (hinv s i hi) hnext).mpr hrest⟩

/-! ## Partial machines

A machine that stops at its first error. A condition on the steps of its run is asked of those up to
the error (`ChecksOk`), and of the failing step itself; what the steps do (`EachStep`) is asked of
those that succeed.
-/

/-- Run a machine whose steps may fail. -/
def runChecked (step : σ → ι → Except ε σ) (s : σ) : List ι → Except ε σ
  | [] => .ok s
  | i :: is =>
    match step s i with
    | .ok s' => runChecked step s' is
    | .error e => .error e

/-- A run succeeds if its first step does, and the run from there. -/
theorem runChecked_cons_eq_ok {step : σ → ι → Except ε σ} {s s' : σ} {i : ι} {is : List ι} :
    runChecked step s (i :: is) = .ok s' ↔
      ∃ s₁, step s i = .ok s₁ ∧ runChecked step s₁ is = .ok s' := by
  rw [runChecked]
  rcases hi : step s i with e | s₁
  · exact iff_of_false (fun h => (nomatch h)) fun ⟨_, h, _⟩ => (nomatch h)
  · exact ⟨fun h => ⟨s₁, rfl, h⟩, fun ⟨_, h₁, h⟩ => Except.ok.inj h₁ ▸ h⟩

/-- It fails in its first step or later. -/
theorem runChecked_cons_eq_error {step : σ → ι → Except ε σ} {s : σ} {i : ι} {is : List ι}
    {e : ε} : runChecked step s (i :: is) = .error e ↔
      step s i = .error e ∨ ∃ s₁, step s i = .ok s₁ ∧ runChecked step s₁ is = .error e := by
  rw [runChecked]
  rcases hi : step s i with e' | s₁
  · simp
  · simp

/-- Induction over the steps of a run that succeeds, from its end. -/
theorem runChecked_induction {step : σ → ι → Except ε σ} {Q : σ → List ι → Prop} {s' : σ}
    (nil : Q s' [])
    (cons : ∀ s i s₁ is, step s i = .ok s₁ → runChecked step s₁ is = .ok s' → Q s₁ is →
      Q s (i :: is))
    {s : σ} {is : List ι} (h : runChecked step s is = .ok s') : Q s is := by
  induction is generalizing s with
  | nil =>
    obtain rfl : s = s' := Except.ok.inj h
    exact nil
  | cons i is ih =>
    obtain ⟨s₁, hi, hrest⟩ := runChecked_cons_eq_ok.mp h
    exact cons s i s₁ is hi hrest (ih hrest)

/-- What the steps on certain inputs keep holds at the end of a run on them that succeeds. -/
theorem invariant_of_runChecked {step : σ → ι → Except ε σ} {I : σ → Prop} {A : ι → Prop}
    (hstep : ∀ s i s', I s → A i → step s i = .ok s' → I s') {s s' : σ} (hs : I s)
    {is : List ι} (ha : ∀ i ∈ is, A i) (h : runChecked step s is = .ok s') : I s' := by
  induction is generalizing s with
  | nil =>
    obtain rfl : s = s' := Except.ok.inj h
    exact hs
  | cons i is ih =>
    obtain ⟨s₁, hi, hrest⟩ := runChecked_cons_eq_ok.mp h
    obtain ⟨hai, hais⟩ := List.forall_mem_cons.mp ha
    exact ih (hstep s i s₁ hs hai hi) hais hrest

/-- What a total machine follows step by step, it follows through a run that succeeds. -/
theorem follows_runChecked {τ : Type x} {step : σ → ι → Except ε σ} {next : τ → ι → τ}
    {R : σ → τ → Prop} (hstep : ∀ s t i s', R s t → step s i = .ok s' → R s' (next t i)) {s s' : σ}
    {t : τ} (hs : R s t) {is : List ι} (h : runChecked step s is = .ok s') :
    R s' (is.foldl next t) := by
  induction is generalizing s t with
  | nil =>
    obtain rfl : s = s' := Except.ok.inj h
    exact hs
  | cons i is ih =>
    obtain ⟨s₁, hi, hrest⟩ := runChecked_cons_eq_ok.mp h
    exact ih (hstep s t i s₁ hs hi) hrest

/-- A run of a machine is a run of a part of it, if each step that changes the part is a step of
the part. -/
theorem exists_runChecked_of_part {τ : Type u} {κ : Type v} {δ : Type w}
    {step : σ → ι → Except ε σ} {next : τ → κ → Except δ τ} {f : σ → τ}
    (hstep : ∀ s i s', step s i = .ok s' → f s' = f s ∨ ∃ k, next (f s) k = .ok (f s')) {s s' : σ}
    {is : List ι} (h : runChecked step s is = .ok s') :
    ∃ ks, runChecked next (f s) ks = .ok (f s') := by
  refine runChecked_induction (Q := fun s _ => ∃ ks, runChecked next (f s) ks = .ok (f s')) ?_ ?_ h
  · exact ⟨[], rfl⟩
  · rintro s i s₁ is hi - ⟨ks, hks⟩
    rcases hstep s i s₁ hi with hsame | ⟨k, hk⟩
    · exact ⟨ks, hsame ▸ hks⟩
    · exact ⟨k :: ks, runChecked_cons_eq_ok.mpr ⟨f s₁, hk, hks⟩⟩

/-- Every step of the run up to its first failure meets `Ok`. -/
def ChecksOk (step : σ → ι → Except ε σ) (Ok : σ → ι → Prop) (s : σ) : List ι → Prop
  | [] => True
  | i :: is => Ok s i ∧ ∀ s', step s i = .ok s' → ChecksOk step Ok s' is

/-- A condition that every step meets. -/
theorem checksOk_of_forall {step : σ → ι → Except ε σ} {Ok : σ → ι → Prop} (h : ∀ s i, Ok s i)
    (s : σ) (is : List ι) : ChecksOk step Ok s is := by
  induction is generalizing s with
  | nil => trivial
  | cons i is ih => exact ⟨h s i, fun s' _ => ih s'⟩

instance decidableChecksOk (step : σ → ι → Except ε σ) (Ok : σ → ι → Prop)
    [∀ s i, Decidable (Ok s i)] : (s : σ) → (is : List ι) → Decidable (ChecksOk step Ok s is)
  | _, [] => .isTrue trivial
  | s, i :: is =>
    match h : step s i with
    | .ok s' =>
      have := decidableChecksOk step Ok s' is
      decidable_of_iff (Ok s i ∧ ChecksOk step Ok s' is)
        (and_congr_right fun _ =>
          ⟨fun h' _ heq => Except.ok.inj (h.symm.trans heq) ▸ h', fun h' => h' s' h⟩)
    | .error _ =>
      decidable_of_iff (Ok s i)
        (iff_self_and.mpr fun _ _ heq => (nomatch h.symm.trans heq))

/-- What the `Ok` steps keep holds at the end of a run that succeeds and whose steps are `Ok`. -/
theorem invariant_of_checksOk {step : σ → ι → Except ε σ} {I : σ → Prop} {Ok : σ → ι → Prop}
    (hstep : ∀ s i s', I s → Ok s i → step s i = .ok s' → I s') {s s' : σ} (hs : I s)
    {is : List ι} (hok : ChecksOk step Ok s is) (h : runChecked step s is = .ok s') : I s' := by
  induction is generalizing s with
  | nil =>
    obtain rfl : s = s' := Except.ok.inj h
    exact hs
  | cons i is ih =>
    obtain ⟨s₁, hi, hrest⟩ := runChecked_cons_eq_ok.mp h
    exact ih (hstep s i s₁ hs hok.1 hi) (hok.2 s₁ hi) hrest

/-- What the inputs cost altogether. -/
def total (c : ι → ℕ) : List ι → ℕ
  | [] => 0
  | i :: is => c i + total c is

/-- The costs of two runs in sequence add up. -/
theorem total_append (c : ι → ℕ) (is is' : List ι) :
    total c (is ++ is') = total c is + total c is' := by
  induction is with
  | nil => exact (Nat.zero_add _).symm
  | cons i is ih => rw [List.cons_append, total, total, ih, Nat.add_assoc]

/-- The cost of renamed inputs. -/
theorem total_map {κ : Type x} (c : ι → ℕ) (f : κ → ι) (ks : List κ) :
    total c (ks.map f) = total (fun k => c (f k)) ks := by
  induction ks with
  | nil => rfl
  | cons k ks ih => rw [List.map_cons, total, total, ih]

/-- If each input costs one, the cost is their number. -/
theorem total_one (is : List ι) : total (fun _ => 1) is = is.length := by
  induction is with
  | nil => rfl
  | cons i is ih => rw [total, ih, List.length_cons, Nat.add_comm]

/-- Steps that pay for themselves out of a measure cost no more than it in a whole run. -/
theorem sum_cost_le {step : σ → ι → Except ε σ} {I : σ → Prop} {A : ι → Prop} {m : σ → ℕ}
    {c : ι → ℕ} (hstep : ∀ s i s', I s → A i → step s i = .ok s' → I s' ∧ m s' + c i ≤ m s)
    {s s' : σ} (hs : I s) {is : List ι} (ha : ∀ i ∈ is, A i) (h : runChecked step s is = .ok s') :
    m s' + total c is ≤ m s := by
  induction is generalizing s with
  | nil =>
    obtain rfl : s = s' := Except.ok.inj h
    exact Nat.le_refl _
  | cons i is ih =>
    obtain ⟨s₁, hi, hrest⟩ := runChecked_cons_eq_ok.mp h
    obtain ⟨hai, hais⟩ := List.forall_mem_cons.mp ha
    obtain ⟨hs₁, hle⟩ := hstep s i s₁ hs hai hi
    have hlater := ih hs₁ hais hrest
    rw [total]
    omega

/-- Every successful step of the run satisfies `Q`, a relation between the state
before it, its input and the state after. -/
def EachStep (step : σ → ι → Except ε σ) (Q : σ → ι → σ → Prop) (s : σ) : List ι → Prop
  | [] => True
  | i :: is => ∀ s', step s i = .ok s' → Q s i s' ∧ EachStep step Q s' is

/-- Conditions on steps that agree within an invariant hold of the same runs. -/
theorem checksOk_congr {step : σ → ι → Except ε σ} {Inv : σ → Prop} {P Q : σ → ι → Prop}
    (hinv : ∀ s i s', Inv s → step s i = .ok s' → Inv s')
    (h : ∀ s i, Inv s → (P s i ↔ Q s i)) {s : σ} (hs : Inv s) (is : List ι) :
    ChecksOk step P s is ↔ ChecksOk step Q s is := by
  induction is generalizing s with
  | nil => exact Iff.rfl
  | cons i is ih =>
    exact and_congr (h s i hs) (forall₂_congr fun s' hi => ih (hinv s i s' hs hi))

/-- If no `Ok` step from the invariant fails with an error of the kind `Bad`, no
run whose steps are `Ok` does. -/
theorem not_bad_of_checksOk {step : σ → ι → Except ε σ} {Inv : σ → Prop} {Ok : σ → ι → Prop}
    {Bad : ε → Prop} (hinv : ∀ s i s', Inv s → step s i = .ok s' → Inv s')
    (hstep : ∀ s i e, Inv s → Ok s i → step s i = .error e → ¬ Bad e) {s : σ} (hs : Inv s)
    {is : List ι} (hok : ChecksOk step Ok s is) :
    ∀ e, runChecked step s is = .error e → ¬ Bad e := by
  induction is generalizing s with
  | nil => exact fun e h => (nomatch h)
  | cons i is ih =>
    intro e he
    rcases runChecked_cons_eq_error.mp he with hi | ⟨s₁, hi, hrest⟩
    · exact hstep s i e hs hok.1 hi
    · exact ih (hinv s i s₁ hs hi) (hok.2 s₁ hi) e hrest

/-- If every `Ok` step from the invariant succeeds and keeps it, every run whose steps are
`Ok` does. -/
theorem exists_of_checksOk {step : σ → ι → Except ε σ} {Inv : σ → Prop} {Ok : σ → ι → Prop}
    (hstep : ∀ s i, Inv s → Ok s i → ∃ s', step s i = .ok s' ∧ Inv s') {s : σ} (hs : Inv s)
    {is : List ι} (hok : ChecksOk step Ok s is) : ∃ s', runChecked step s is = .ok s' ∧ Inv s' := by
  induction is generalizing s with
  | nil => exact ⟨s, rfl, hs⟩
  | cons i is ih =>
    obtain ⟨s₁, h₁, hs₁⟩ := hstep s i hs hok.1
    obtain ⟨s', hs', hinv⟩ := ih hs₁ (hok.2 s₁ h₁)
    exact ⟨s', runChecked_cons_eq_ok.mpr ⟨s₁, h₁, hs'⟩, hinv⟩

/-- What holds of one `Ok` step from the invariant holds of every step of a run
whose steps are `Ok`. -/
theorem eachStep_of_checksOk {step : σ → ι → Except ε σ} {Inv : σ → Prop} {Ok : σ → ι → Prop}
    {Q : σ → ι → σ → Prop}
    (hstep : ∀ s i s', Inv s → Ok s i → step s i = .ok s' → Inv s' ∧ Q s i s') {s : σ}
    (hs : Inv s) {is : List ι} (hok : ChecksOk step Ok s is) : EachStep step Q s is := by
  induction is generalizing s with
  | nil => trivial
  | cons i is ih =>
    intro s' hi
    obtain ⟨hinv, hq⟩ := hstep s i s' hs hok.1 hi
    exact ⟨hq, ih hinv (hok.2 s' hi)⟩

/-- If a condition on the steps is what each of them needs to do what it should, then the runs
that do so throughout are those whose steps all meet it. -/
theorem eachStep_iff_checksOk {step : σ → ι → Except ε σ} {I : σ → Prop} {A Ok : σ → ι → Prop}
    {Q : σ → ι → σ → Prop} (hinv : ∀ s i s', I s → A s i → step s i = .ok s' → I s')
    (hiff : ∀ s i, I s → A s i → ((∀ s', step s i = .ok s' → Q s i s') ↔ Ok s i)) {s : σ}
    (hs : I s) {is : List ι} (ha : ChecksOk step A s is) :
    EachStep step Q s is ↔ ChecksOk step Ok s is := by
  induction is generalizing s with
  | nil => exact Iff.rfl
  | cons i is ih =>
    rw [EachStep, ChecksOk, ← hiff s i hs ha.1, ← forall₂_and]
    refine forall₂_congr fun s' hi => and_congr_right fun _ => ?_
    exact ih (hinv s i s' hs ha.1 hi) (ha.2 s' hi)

/-- **Simulation of a partial machine by a total one.** If the machines go along together
as long as the condition on the total one's steps is met, and the partial one fails where it
is not, then its runs succeed exactly when every step of the total one meets it. -/
theorem exists_runChecked_iff {τ : Type w} {step : σ → ι → Except ε σ} {next : τ → ι → τ}
    {R : σ → τ → Prop} {Ok : τ → ι → Prop}
    (hok : ∀ s t i, R s t → Ok t i → ∃ s', step s i = .ok s' ∧ R s' (next t i))
    (hbad : ∀ s t i s', R s t → step s i = .ok s' → Ok t i) {s : σ} {t : τ} (hs : R s t)
    (is : List ι) : (∃ s', runChecked step s is = .ok s') ↔ StepsOk next Ok t is := by
  induction is generalizing s t with
  | nil => exact iff_of_true ⟨s, rfl⟩ trivial
  | cons i is ih =>
    rw [StepsOk]
    constructor
    · rintro ⟨s', hs'⟩
      obtain ⟨s₁, h₁, hrest⟩ := runChecked_cons_eq_ok.mp hs'
      have hti := hbad s t i s₁ hs h₁
      obtain ⟨s₂, h₂, hR⟩ := hok s t i hs hti
      obtain rfl : s₁ = s₂ := Except.ok.inj (h₁.symm.trans h₂)
      exact ⟨hti, (ih hR).mp ⟨s', hrest⟩⟩
    · rintro ⟨hti, hrest⟩
      obtain ⟨s₁, h₁, hR⟩ := hok s t i hs hti
      obtain ⟨s', hs'⟩ := (ih hR).mpr hrest
      exact ⟨s', runChecked_cons_eq_ok.mpr ⟨s₁, h₁, hs'⟩⟩

/-- The run succeeds, and every state it goes through has `P`. -/
def Stays (step : σ → ι → Except ε σ) (P : σ → Prop) (s : σ) : List ι → Prop
  | [] => P s
  | i :: is => P s ∧ ∃ s', step s i = .ok s' ∧ Stays step P s' is

/-- The first state has the property. -/
theorem Stays.self {step : σ → ι → Except ε σ} {P : σ → Prop} {s : σ} {is : List ι}
    (h : Stays step P s is) : P s := by
  cases is with
  | nil => exact h
  | cons i is => exact h.1

/-- So has the last one. -/
theorem Stays.of_runChecked {step : σ → ι → Except ε σ} {P : σ → Prop} {s t : σ} {is : List ι}
    (h : Stays step P s is) (hrun : runChecked step s is = .ok t) : P t := by
  induction is generalizing s with
  | nil =>
    obtain rfl : s = t := Except.ok.inj hrun
    exact h
  | cons i is ih =>
    obtain ⟨s₁, h₁, hrest⟩ := runChecked_cons_eq_ok.mp hrun
    obtain ⟨-, s₂, h₂, hstays⟩ := h
    obtain rfl : s₁ = s₂ := Except.ok.inj (h₁.symm.trans h₂)
    exact ih hstays hrest

/-- **Exact conditions for the steps of a partial machine.** Within an invariant, and where an
assumption holds of the steps, let `Ok` say exactly which steps succeed and keep `P`. Then the
runs that succeed and stay in `P` are exactly those all of whose steps are `Ok`. -/
theorem stays_iff_checksOk {step : σ → ι → Except ε σ} {I P : σ → Prop} {A Ok : σ → ι → Prop}
    (hinv : ∀ s i s', I s → step s i = .ok s' → I s')
    (hok : ∀ s i, I s → P s → A s i → Ok s i → ∃ s', step s i = .ok s' ∧ P s')
    (hbad : ∀ s i s', I s → P s → A s i → step s i = .ok s' → P s' → Ok s i) {s : σ}
    (hs : I s) (hp : P s) {is : List ι} (ha : ChecksOk step A s is) :
    Stays step P s is ↔ ChecksOk step Ok s is := by
  induction is generalizing s with
  | nil => exact iff_of_true hp trivial
  | cons i is ih =>
    rw [Stays, ChecksOk]
    constructor
    · rintro ⟨-, s₁, h₁, hrest⟩
      refine ⟨hbad s i s₁ hs hp ha.1 h₁ hrest.self, fun s' h' => ?_⟩
      obtain rfl : s₁ = s' := Except.ok.inj (h₁.symm.trans h')
      exact (ih (hinv s i s₁ hs h₁) hrest.self (ha.2 s₁ h₁)).mp hrest
    · rintro ⟨hi, hrest⟩
      obtain ⟨s₁, h₁, hp₁⟩ := hok s i hs hp ha.1 hi
      exact ⟨hp, s₁, h₁, (ih (hinv s i s₁ hs h₁) hp₁ (ha.2 s₁ h₁)).mpr (hrest s₁ h₁)⟩

end Runs
