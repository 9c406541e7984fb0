import GameSdk.Runs

/-!
# The life of the upload thread (`uploadthread.cpp`)

`Submit` looks at `ready_` before it locks the mutex, `Run` at `do_quit_`. The thread holds the
mutex while it serializes a cache and hands the event to the backend. It waits for a second, or
until it is notified.

`thread_` is never reset, so a `Start` after a `Stop` finds it and does nothing.

The calls come from one thread at a time, and the caches may be of any type.

* Each cache that was accepted is uploaded once, in order, but for the one in `ready_`.
* A `Submit` that has looked at `ready_` gets the mutex.
* `Stop` ends after four steps of the thread at most.

`ThreadMoves` lists what the thread can do. Its `rank` falls with each of its steps once `do_quit_`
is set, so that the join in `Stop` does not wait forever.
-/

namespace GameSdk

universe u

/-- Where the caller is. -/
inductive Submitter (C : Type u) where
  | idle
  /-- has found `ready_` to be null, and wants the mutex -/
  | submitting (prongs : C)
  /-- in `thread_->join()` -/
  | joining
  deriving DecidableEq, Repr

/-- Where the thread is in `Run`. -/
inductive UploadLoop (C : Type u) where
  /-- is about to look at `do_quit_` -/
  | checking
  /-- wants the mutex -/
  | locking
  /-- holds the mutex -/
  | processing (prongs : C)
  | waiting
  | returned
  deriving DecidableEq, Repr

/-- The members of the thread, and ghosts for the caches. -/
structure UploadLifecycle (C : Type u) where
  doQuit : Bool
  ready : Option C
  caller : Submitter C
  thread : UploadLoop C
  /-- `thread_` is no longer joinable -/
  joined : Bool
  /-- what has gone to `Backend::Process` -/
  processed : List C
  /-- ghost: what `Submit` has accepted and refused -/
  accepted : List C
  refused : List C
  deriving DecidableEq, Repr

namespace UploadLifecycle

variable {C : Type u}

/-! ### Steps

The caller and the thread, with the mutex between them.
-/

/-- After the constructor's `Start`. -/
def start : UploadLifecycle C := ⟨false, none, .idle, .checking, false, [], [], []⟩

variable (s : UploadLifecycle C)

/-- One thing that happens. -/
inductive Event (C : Type u) where
  | submit (prongs : C)
  /-- the caller gets the mutex -/
  | write
  | start
  | stop
  | joined
  /-- a step of the thread -/
  | thread
  deriving DecidableEq, Repr

/-- What is not a step of the program. -/
inductive Failure where
  | blocked
  deriving DecidableEq, Repr

/-- The thread holds the mutex. -/
def locked : Bool :=
  match s.thread with
  | .processing _ => true
  | _ => false

/-- A step of `Run`. -/
def threadStep : Except Failure (UploadLifecycle C) :=
  match s.thread with
  | .checking => .ok { s with thread := if s.doQuit then .returned else .locking }
  | .locking =>
    match s.ready with
    | some prongs => .ok { s with thread := .processing prongs }
    | none => .ok { s with thread := .waiting }
  | .processing prongs =>
    .ok { s with processed := s.processed ++ [prongs], ready := none, thread := .waiting }
  -- the time is over, or somebody has notified
  | .waiting => .ok { s with thread := .checking }
  | .returned => .error .blocked

/-- One event, on the state in which it happens. -/
def step : Event C → Except Failure (UploadLifecycle C)
  | .submit prongs =>
    match s.caller, s.ready with
    | .idle, none => .ok { s with caller := .submitting prongs }
    | .idle, some _ => .ok { s with refused := s.refused ++ [prongs] }
    | _, _ => .error .blocked
  | .write =>
    match s.caller with
    | .submitting prongs =>
      if s.locked then .error .blocked
      else .ok { s with
        ready := some prongs, accepted := s.accepted ++ [prongs], caller := .idle }
    | _ => .error .blocked
  | .start =>
    match s.caller with
    | .idle => .ok s
    | _ => .error .blocked
  | .stop =>
    match s.caller with
    | .idle => if s.joined then .ok s else .ok { s with doQuit := true, caller := .joining }
    | _ => .error .blocked
  | .joined =>
    match s.caller, s.thread with
    | .joining, .returned => .ok { s with caller := .idle, joined := true }
    | _, _ => .error .blocked
  | .thread => s.threadStep

/-- What a step of the thread does. -/
inductive ThreadMoves : UploadLifecycle C → Prop where
  | quit (ht : s.thread = .checking) (hq : s.doQuit = true) :
      ThreadMoves { s with thread := .returned }
  | goOn (ht : s.thread = .checking) (hq : s.doQuit = false) :
      ThreadMoves { s with thread := .locking }
  | take {prongs : C} (ht : s.thread = .locking) (hr : s.ready = some prongs) :
      ThreadMoves { s with thread := .processing prongs }
  | rest (ht : s.thread = .locking) (hr : s.ready = none) :
      ThreadMoves { s with thread := .waiting }
  | process {prongs : C} (ht : s.thread = .processing prongs) :
      ThreadMoves { s with
        processed := s.processed ++ [prongs], ready := none, thread := .waiting }
  | wake (ht : s.thread = .waiting) : ThreadMoves { s with thread := .checking }

variable {s} {s' : UploadLifecycle C} {e : Event C} {es : List (Event C)}

theorem moves_of_threadStep (h : s.threadStep = .ok s') : s.ThreadMoves s' := by
  rw [threadStep] at h
  split at h
  · next ht =>
    obtain rfl := Except.ok.inj h
    split_ifs with hq
    · exact .quit ht hq
    · exact .goOn ht (Bool.eq_false_iff.mpr hq)
  · next ht =>
    split at h
    · next prongs hr =>
      obtain rfl := Except.ok.inj h
      exact .take ht hr
    · next hr =>
      obtain rfl := Except.ok.inj h
      exact .rest ht hr
  · next prongs ht =>
    obtain rfl := Except.ok.inj h
    exact .process ht
  · next ht =>
    obtain rfl := Except.ok.inj h
    exact .wake ht
  · cases h

theorem exists_threadStep (h : s.thread ≠ .returned) : ∃ s', s.step .thread = .ok s' := by
  rw [step, threadStep]
  cases ht : s.thread with
  | locking => cases s.ready <;> exact ⟨_, rfl⟩
  | returned => exact absurd ht h
  | checking | processing | waiting => exact ⟨_, rfl⟩

/-! ## Every cache is uploaded once

The invariant, for the caller and for the thread.
-/

/-- What holds of the caches at any time. -/
structure Inv (s : UploadLifecycle C) : Prop where
  /-- all but the one that is still to be uploaded -/
  accepted : s.accepted = s.processed ++ s.ready.toList
  processing : ∀ prongs, s.thread = .processing prongs → s.ready = some prongs
  submitting : ∀ prongs, s.caller = .submitting prongs → s.ready = none
  joining : s.caller = .joining → s.doQuit = true ∧ s.joined = false
  joined : s.joined = true → s.thread = .returned

theorem inv_start : (start : UploadLifecycle C).Inv where
  accepted := rfl
  processing := fun _ h => (nomatch h)
  submitting := fun _ h => (nomatch h)
  joining := fun h => (nomatch h)
  joined := fun h => (nomatch h)

theorem inv_thread (hinv : s.Inv) (hmoves : s.ThreadMoves s') : s'.Inv := by
  cases hmoves with
  | quit ht hq =>
    exact ⟨hinv.accepted, fun _ h => (nomatch h), hinv.submitting, hinv.joining, fun _ => rfl⟩
  | goOn ht hq =>
    refine ⟨hinv.accepted, fun _ h => (nomatch h), hinv.submitting, hinv.joining, fun h => ?_⟩
    exact absurd (hinv.joined h) (by simp [ht])
  | @take prongs ht hr =>
    refine ⟨hinv.accepted, fun _ h => ?_, hinv.submitting, hinv.joining, fun h => ?_⟩
    · obtain rfl := UploadLoop.processing.inj h
      exact hr
    · exact absurd (hinv.joined h) (by simp [ht])
  | rest ht hr =>
    refine ⟨hinv.accepted, fun _ h => (nomatch h), hinv.submitting, hinv.joining, fun h => ?_⟩
    exact absurd (hinv.joined h) (by simp [ht])
  | @process prongs ht =>
    refine ⟨?_, fun _ h => (nomatch h), fun _ _ => rfl, hinv.joining, fun h => ?_⟩
    · rw [hinv.accepted, hinv.processing prongs ht]
      exact (List.append_nil _).symm
    · exact absurd (hinv.joined h) (by simp [ht])
  | wake ht =>
    refine ⟨hinv.accepted, fun _ h => (nomatch h), hinv.submitting, hinv.joining, fun h => ?_⟩
    exact absurd (hinv.joined h) (by simp [ht])

theorem inv_step (hinv : s.Inv) (h : s.step e = .ok s') : s'.Inv := by
  cases e with
  | thread => exact inv_thread hinv (moves_of_threadStep h)
  | submit prongs =>
    rw [step] at h
    split at h
    · next hcaller hready =>
      obtain rfl := Except.ok.inj h
      exact ⟨hinv.accepted, hinv.processing, fun _ _ => hready, fun h => (nomatch h),
        hinv.joined⟩
    · obtain rfl := Except.ok.inj h
      exact ⟨hinv.accepted, hinv.processing, hinv.submitting, hinv.joining, hinv.joined⟩
    · cases h
  | write =>
    rw [step] at h
    split at h
    · next prongs hcaller =>
      split_ifs at h with hlocked
      obtain rfl := Except.ok.inj h
      have hready := hinv.submitting prongs hcaller
      refine ⟨?_, fun prongs' ht => ?_, fun _ h => (nomatch h), fun h => (nomatch h),
        hinv.joined⟩
      · simp [hinv.accepted, hready]
      · exact absurd (by rw [locked, ht]) hlocked
    · cases h
  | start =>
    rw [step] at h
    split at h
    · obtain rfl := Except.ok.inj h
      exact hinv
    · cases h
  | stop =>
    rw [step] at h
    split at h
    · split_ifs at h with hjoined
      · obtain rfl := Except.ok.inj h
        exact hinv
      · obtain rfl := Except.ok.inj h
        exact ⟨hinv.accepted, hinv.processing, fun _ h => (nomatch h),
          fun _ => ⟨rfl, Bool.eq_false_iff.mpr hjoined⟩, hinv.joined⟩
    · cases h
  | joined =>
    rw [step] at h
    split at h
    · next hcaller ht =>
      obtain rfl := Except.ok.inj h
      exact ⟨hinv.accepted, hinv.processing, fun _ h => (nomatch h), fun h => (nomatch h),
        fun _ => ht⟩
    · cases h

theorem inv_run (h : Runs.runChecked step start es = .ok s) : s.Inv :=
  Runs.invariant_of_runChecked (A := fun _ => True) (fun _ _ _ hinv _ he => inv_step hinv he)
    inv_start (fun _ _ => trivial) h

/-- **Every cache that is accepted is uploaded once, in order**, but for the one that is still to be
uploaded; and a `Submit` that has found `ready_` to be null never waits for an upload. -/
theorem uploaded_in_order (h : Runs.runChecked step start es = .ok s) :
    s.accepted = s.processed ++ s.ready.toList ∧
      ∀ prongs, s.caller = .submitting prongs → ∃ s', s.step .write = .ok s' := by
  have hinv := inv_run h
  refine ⟨hinv.accepted, fun prongs hcaller => ?_⟩
  have hlocked : s.locked = false := by
    rw [locked]
    split
    · next prongs' ht =>
      exact nomatch (hinv.submitting prongs hcaller).symm.trans (hinv.processing prongs' ht)
    · rfl
  rw [step, hcaller]
  exact ⟨_, if_neg (Bool.eq_false_iff.mp hlocked)⟩

theorem uploaded_in_order_sample : ∃ s : UploadLifecycle ℕ,
    Runs.runChecked step start
      [.submit 1, .write, .thread, .thread, .thread, .submit 2] = .ok s ∧
      s.accepted = s.processed ++ s.ready.toList ∧
      ∀ prongs, s.caller = .submitting prongs → ∃ s', s.step .write = .ok s' :=
  have h : Runs.runChecked step start
      [.submit 1, .write, .thread, .thread, .thread, .submit 2] = .ok _ := rfl
  ⟨_, h, uploaded_in_order h⟩

/-! ## What `Stop` waits for

How many steps the thread takes from each point of its loop to its end.
-/

/-- The cache that the thread is about to upload, though `do_quit_` may be set. -/
def underway (s : UploadLifecycle C) : List C :=
  match s.thread with
  | .locking => s.ready.toList
  | .processing prongs => [prongs]
  | _ => []

/-- How many steps the thread still takes when `do_quit_` is set. -/
def rank (s : UploadLifecycle C) : Nat :=
  match s.thread with
  | .returned => 0
  | .checking => 1
  | .waiting => 2
  | .processing _ => 3
  | .locking => 4

theorem rank_le (s : UploadLifecycle C) : s.rank ≤ 4 := by
  rw [rank]
  split <;> decide

/-- A call of `Stop` is being made, or has been made. -/
def Stopping (s : UploadLifecycle C) : Prop :=
  s.doQuit = true ∧ (s.caller = .joining ∨ s.joined = true)

theorem stopping_thread (hstop : s.Stopping) (hmoves : s.ThreadMoves s') :
    s'.Stopping ∧ s'.processed ++ s'.underway = s.processed ++ s.underway ∧
      s'.rank < s.rank := by
  cases hmoves with
  | goOn ht hq => exact absurd hstop.1 (by simp [hq])
  | quit ht hq => exact ⟨hstop, by simp [underway, ht], by simp [rank, ht]⟩
  | take ht hr => exact ⟨hstop, by simp [underway, ht, hr], by simp [rank, ht]⟩
  | rest ht hr => exact ⟨hstop, by simp [underway, ht, hr], by simp [rank, ht]⟩
  | process ht => exact ⟨hstop, by simp [underway, ht], by simp [rank, ht]⟩
  | wake ht => exact ⟨hstop, by simp [underway, ht], by simp [rank, ht]⟩

/-! ### Stopping

While `Stop` waits the thread takes its last steps, and the caller none.
-/

/-- While the caller is in `Stop`, it is the thread's turn, or `Stop` returns. -/
theorem joining_step (hcaller : s.caller = .joining) (h : s.step e = .ok s') :
    s.ThreadMoves s' ∨ s.thread = .returned ∧ s' = { s with caller := .idle, joined := true } := by
  cases e with
  | thread => exact .inl (moves_of_threadStep h)
  | submit prongs =>
    rw [step, hcaller] at h
    cases h
  | write | start | stop =>
    rw [step, hcaller] at h
    cases h
  | joined =>
    rw [step, hcaller] at h
    split at h
    · next ht =>
      exact .inr ⟨ht, (Except.ok.inj h).symm⟩
    · cases h

/-- Once `Stop` has returned, nothing changes but what `Submit` leaves. -/
theorem joined_step (hinv : s.Inv) (hjoined : s.joined = true) (h : s.step e = .ok s') :
    s'.joined = true ∧ s'.doQuit = s.doQuit ∧ s'.thread = .returned ∧
      s'.processed = s.processed := by
  have ht := hinv.joined hjoined
  cases e with
  | thread =>
    rw [step, threadStep, ht] at h
    cases h
  | submit prongs =>
    rw [step] at h
    split at h
    · obtain rfl := Except.ok.inj h
      exact ⟨hjoined, rfl, ht, rfl⟩
    · obtain rfl := Except.ok.inj h
      exact ⟨hjoined, rfl, ht, rfl⟩
    · cases h
  | write =>
    rw [step] at h
    split at h
    · split_ifs at h
      obtain rfl := Except.ok.inj h
      exact ⟨hjoined, rfl, ht, rfl⟩
    · cases h
  | start =>
    rw [step] at h
    split at h
    · obtain rfl := Except.ok.inj h
      exact ⟨hjoined, rfl, ht, rfl⟩
    · cases h
  | stop =>
    rw [step] at h
    split at h
    · rw [if_pos hjoined] at h
      obtain rfl := Except.ok.inj h
      exact ⟨hjoined, rfl, ht, rfl⟩
    · cases h
  | joined =>
    rw [step] at h
    split at h
    · obtain rfl := Except.ok.inj h
      exact ⟨rfl, rfl, ht, rfl⟩
    · cases h

theorem stopping_step (hinv : s.Inv) (hstop : s.Stopping) (h : s.step e = .ok s') :
    s'.Stopping ∧ s'.processed ++ s'.underway = s.processed ++ s.underway ∧
      (s'.joined = true ∨ s'.rank < s.rank) := by
  rcases hstop.2 with hcaller | hjoined
  · rcases joining_step hcaller h with hmoves | ⟨ht, rfl⟩
    · obtain ⟨hstop', hprocessed, hrank⟩ := stopping_thread hstop hmoves
      exact ⟨hstop', hprocessed, .inr hrank⟩
    · exact ⟨⟨hstop.1, .inr rfl⟩, rfl, .inl rfl⟩
  · obtain ⟨hjoined', hquit, ht, hprocessed⟩ := joined_step hinv hjoined h
    refine ⟨⟨hquit.trans hstop.1, .inr hjoined'⟩, ?_, .inl hjoined'⟩
    rw [hprocessed, underway, underway, ht, hinv.joined hjoined]

theorem joined_run (h : Runs.runChecked step s es = .ok s') (hinv : s.Inv)
    (hjoined : s.joined = true) : s'.joined = true := by
  have hstep : ∀ (t : UploadLifecycle C) e t', t.Inv ∧ t.joined = true → True →
      step t e = .ok t' → t'.Inv ∧ t'.joined = true :=
    fun t e t' ht _ he => ⟨inv_step ht.1 he, (joined_step ht.1 ht.2 he).1⟩
  exact (Runs.invariant_of_runChecked hstep ⟨hinv, hjoined⟩ (fun _ _ => trivial) h).2

theorem stopping_run (h : Runs.runChecked step s es = .ok s') (hinv : s.Inv)
    (hstop : s.Stopping) :
    s'.Inv ∧ s'.Stopping ∧ s'.processed ++ s'.underway = s.processed ++ s.underway ∧
      (s'.joined = true ∨ es.length + s'.rank ≤ s.rank) := by
  induction es generalizing s with
  | nil =>
    obtain rfl := Except.ok.inj h
    exact ⟨hinv, hstop, rfl, .inr (Nat.le_of_eq (Nat.zero_add _))⟩
  | cons e es ih =>
    obtain ⟨t, he, hrest⟩ := Runs.runChecked_cons_eq_ok.mp h
    obtain ⟨hstop₁, hprocessed₁, hrank₁⟩ := stopping_step hinv hstop he
    obtain ⟨hinv', hstop', hprocessed', hrank'⟩ := ih hrest (inv_step hinv he) hstop₁
    refine ⟨hinv', hstop', hprocessed'.trans hprocessed₁, ?_⟩
    rcases hrank₁ with hjoined | hrank₁
    · exact .inl (joined_run hrest (inv_step hinv he) hjoined)
    · refine hrank'.imp_right fun hrank' => ?_
      rw [List.length_cons]
      omega

/-- **`Stop` returns** after four steps of the thread at most, without waiting for its time to be
over, **and what it leaves behind**: the cache under way is still uploaded, one that the thread has
not come to is lost, and nothing is uploaded any more, not even after another `Start`. -/
theorem stop_outcome {es' : List (Event C)} (h : Runs.runChecked step start es = .ok s)
    (hcaller : s.caller = .joining) (h' : Runs.runChecked step s es' = .ok s') :
    (s'.joined = false → es'.length ≤ 4 ∧ ∃ e s'', s'.step e = .ok s'') ∧
      (s'.joined = true → s'.processed = s.processed ++ s.underway) := by
  have hinv := inv_run h
  have hstop : s.Stopping := ⟨(hinv.joining hcaller).1, .inl hcaller⟩
  obtain ⟨hinv', hstop', hprocessed, hrank⟩ := stopping_run h' hinv hstop
  constructor
  · intro hjoined
    have hcaller' : s'.caller = .joining := hstop'.2.resolve_right (by simp [hjoined])
    have hrank := hrank.resolve_left (by simp [hjoined])
    refine ⟨by have := s.rank_le; omega, ?_⟩
    by_cases ht : s'.thread = .returned
    · exact ⟨.joined, _, by rw [step, hcaller', ht]⟩
    · exact ⟨.thread, exists_threadStep ht⟩
  · intro hjoined
    have hnone : s'.underway = [] := by rw [underway, hinv'.joined hjoined]
    rw [← hprocessed, hnone, List.append_nil]

/-- Stopped while it uploads, with a cache that comes too late. -/
theorem stop_outcome_sample : ∃ s s' : UploadLifecycle ℕ,
    s.caller = .joining ∧ s'.accepted = [1, 2] ∧
      (s'.joined = true → s'.processed = s.processed ++ s.underway) :=
  have h : Runs.runChecked step start [.submit 1, .write, .thread, .thread, .stop] = .ok _ := rfl
  have h' : Runs.runChecked step _
      [.thread, .thread, .thread, .joined, .start, .submit 2, .write] = .ok _ := rfl
  ⟨_, _, rfl, rfl, (stop_outcome h rfl h').2⟩

end UploadLifecycle

end GameSdk
