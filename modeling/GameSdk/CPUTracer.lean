import GameSdk.Runs

/-!
# The tracer of CPU time (`CPUTracer.cpp`, `Trace.h`)

A thread keeps a trace section open between `startTrace` and `endTrace`. It waits on a
condition variable, inside a `ScopedTrace` or outside, and looks at `mRunning` and `mTrace`
when it is woken. All of this is under one mutex but for `join`; where tracing is switched off
the calls join the thread. Tracing may be switched on and off at any time, and the wait may end
for no reason.

The calls come from one thread at a time.

* While the thread waits in a section, that section is open and no other.
* The flag is what the last call asked for, so that no notification is lost.
* From the moment `join` is waited for, the thread ends at its next step.
-/

namespace GameSdk

/-- Where `threadMain` is. A wait may be inside a `ScopedTrace`, with its `mIsTracing`. -/
inductive TracerThread where
  /-- has not locked `mMutex` yet -/
  | starting
  | waiting (scope : Option Bool)
  /-- wants `mMutex` back -/
  | woken (scope : Option Bool)
  | returned
  deriving DecidableEq, Repr

/-- The scope in which the wait is. -/
def TracerThread.scope : TracerThread → Option Bool
  | .waiting scope | .woken scope => scope
  | .starting | .returned => none

/-- Where the caller is. -/
inductive TracerCaller where
  | idle
  /-- in `mThread->join()`, called by the destructor or not -/
  | joining (destructor : Bool)
  | destroyed
  deriving DecidableEq, Repr

/-- The tracer, its thread and its caller. -/
structure CPUTracer where
  running : Bool
  trace : Bool
  /-- `mThread` -/
  thread : Option TracerThread
  caller : TracerCaller
  /-- ghost: how many sections have begun and ended -/
  begins : ℕ
  ends : ℕ
  deriving DecidableEq, Repr

namespace CPUTracer

/-- A tracer that has no thread yet. -/
def new : CPUTracer := ⟨true, false, none, .idle, 0, 0⟩

variable (s : CPUTracer)

/-! ## The calls

What the caller does under the mutex, and what `joinThread` does before and after it waits. Where
tracing is switched off, both `startTrace` and `endTrace` join.
-/

/-- `mCondition.notify_one` wakes the thread if it waits. -/
def notifyOne : CPUTracer :=
  match s.thread with
  | some (.waiting scope) => { s with thread := some (.woken scope) }
  | _ => s

/-- The thread that has been started is joinable. -/
def joinThread (destructor : Bool) : CPUTracer :=
  if s.thread.isSome then
    { { s with trace := false, running := false }.notifyOne with caller := .joining destructor }
  else { s with caller := if destructor then .destroyed else .idle }

/-- `enabled` is what `TRACE_ENABLED()` says. -/
def startTrace (enabled : Bool) : CPUTracer :=
  if enabled then
    let s := if s.thread.isNone then { s with running := true, thread := some .starting } else s
    { s with trace := true }.notifyOne
  else s.joinThread false

/-- The section is to end: the thread is told, or joined if tracing is off. -/
def endTrace (enabled : Bool) : CPUTracer :=
  if enabled then { s with trace := false }.notifyOne else s.joinThread false

/-! ## The thread

The body of the thread from one wait to the next. It leaves the scope of its last wait when it goes
round, so a section ends where the block of the source does.
-/

/-- The end of a wait: the destructor of `ScopedTrace`. -/
def leaveScope (scope : Option Bool) : CPUTracer :=
  if scope = some true then { s with ends := s.ends + 1 } else s

/-- The head of the loop, up to the next wait; `enabled` is what the constructor of `ScopedTrace`
finds. -/
def loop (enabled : Bool) : CPUTracer :=
  if s.running then
    if s.trace then
      { s with
        thread := some (.waiting (some enabled))
        begins := if enabled then s.begins + 1 else s.begins }
    else { s with thread := some (.waiting none) }
  else { s with thread := some .returned }

/-! ### Events

The calls, the steps of the thread, and a wait that ends without a notification.
-/

/-- One thing that happens. -/
inductive Event where
  | startTrace (enabled : Bool)
  | endTrace (enabled : Bool)
  | destroy
  /-- the thread gets the mutex -/
  | thread (enabled : Bool)
  /-- the wait ends for no reason -/
  | wake
  /-- the caller comes back from `join` -/
  | joined
  deriving DecidableEq, Repr

/-- What is not a step of the program. -/
inductive Failure where
  | blocked
  deriving DecidableEq, Repr

/-- A call is made by a caller that is not in another one. -/
def call (s' : CPUTracer) : Except Failure CPUTracer :=
  if s.caller = .idle then .ok s' else .error .blocked

/-- One event, on the state in which it happens. -/
def step : Event → Except Failure CPUTracer
  | .startTrace enabled => s.call (s.startTrace enabled)
  | .endTrace enabled => s.call (s.endTrace enabled)
  | .destroy => s.call (s.joinThread true)
  | .thread enabled =>
    match s.thread with
    | some .starting => .ok (s.loop enabled)
    | some (.woken scope) => .ok ((s.leaveScope scope).loop enabled)
    | _ => .error .blocked
  | .wake =>
    match s.thread with
    | some (.waiting scope) => .ok { s with thread := some (.woken scope) }
    | _ => .error .blocked
  | .joined =>
    match s.caller, s.thread with
    | .joining destructor, some .returned =>
      .ok { s with thread := none, caller := if destructor then .destroyed else .idle }
    | _, _ => .error .blocked

/-- Whether a section is to be shown after the calls so far. -/
def wanted (shown : Bool) : Event → Bool
  | .startTrace enabled => enabled
  | .endTrace _ | .destroy => false
  | .thread _ | .wake | .joined => shown

/-! ## What holds at any time

The invariant counts sections, and says what the thread and the caller may be doing together. It is
shown for each call and for the thread, and then for a run.
-/

/-- Whether the thread is in a section. -/
def inSection : Bool :=
  match s.thread with
  | some t => t.scope = some true
  | none => false

/-- Where thread and caller can be at the same time. -/
def TogetherOk : TracerCaller → Option TracerThread → Prop
  | .idle, none => s.trace = false
  | .idle, some (.waiting scope) => s.running = true ∧ scope.isSome = s.trace
  | .idle, some .starting | .idle, some (.woken _) => s.running = true
  | .idle, some .returned => False
  -- the thread does not miss that it is to return
  | .joining _, some (.waiting _) | .joining _, none => False
  | .joining _, some _ => s.running = false ∧ s.trace = false
  | .destroyed, thread => thread = none ∧ s.trace = false

/-- The sections add up, and thread and caller fit together. -/
structure Inv (s : CPUTracer) : Prop where
  balanced : s.begins = s.ends + s.inSection.toNat
  together : s.TogetherOk s.caller s.thread

variable {s} {s' : CPUTracer} {e : Event}

/-- At first there are no sections. -/
theorem inv_new : new.Inv := ⟨rfl, rfl⟩

/-- The invariant is kept by asking the thread to end. -/
theorem inv_joinThread (hinv : s.Inv) (hidle : s.caller = .idle) (destructor : Bool) :
    (s.joinThread destructor).Inv := by
  obtain ⟨running, trace, thread, caller, begins, ends⟩ := s
  obtain rfl : caller = .idle := hidle
  obtain ⟨hbalanced, htogether⟩ := hinv
  rcases thread with _ | (_ | scope | scope | _)
  · refine ⟨hbalanced, ?_⟩
    cases destructor
    · exact htogether
    · exact ⟨rfl, htogether⟩
  · exact ⟨hbalanced, rfl, rfl⟩
  · exact ⟨hbalanced, rfl, rfl⟩
  · exact ⟨hbalanced, rfl, rfl⟩
  · exact htogether.elim

/-- The invariant is kept by `startTrace`. -/
theorem inv_startTrace (hinv : s.Inv) (hidle : s.caller = .idle) (enabled : Bool) :
    (s.startTrace enabled).Inv := by
  cases enabled with
  | false => exact inv_joinThread hinv hidle false
  | true =>
    obtain ⟨running, trace, thread, caller, begins, ends⟩ := s
    obtain rfl : caller = .idle := hidle
    obtain ⟨hbalanced, htogether⟩ := hinv
    rcases thread with _ | (_ | scope | scope | _)
    · exact ⟨hbalanced, rfl⟩
    · exact ⟨hbalanced, htogether⟩
    · exact ⟨hbalanced, htogether.1⟩
    · exact ⟨hbalanced, htogether⟩
    · exact htogether.elim

/-- The invariant is kept by `endTrace`. -/
theorem inv_endTrace (hinv : s.Inv) (hidle : s.caller = .idle) (enabled : Bool) :
    (s.endTrace enabled).Inv := by
  cases enabled with
  | false => exact inv_joinThread hinv hidle false
  | true =>
    obtain ⟨running, trace, thread, caller, begins, ends⟩ := s
    obtain rfl : caller = .idle := hidle
    obtain ⟨hbalanced, htogether⟩ := hinv
    rcases thread with _ | (_ | scope | scope | _)
    · exact ⟨hbalanced, rfl⟩
    · exact ⟨hbalanced, htogether⟩
    · exact ⟨hbalanced, htogether.1⟩
    · exact ⟨hbalanced, htogether⟩
    · exact htogether.elim

/-! ### The thread

It runs from one wait to the next. What it finds when it is woken is what the invariant says of a
thread that waits.
-/

/-- What the head of the loop does. It is reached with all sections closed. -/
theorem inv_loop (hclosed : s.begins = s.ends) (hrunning : s.caller = .idle → s.running = true)
    (hjoining : ∀ d, s.caller = .joining d → s.running = false ∧ s.trace = false)
    (hdestroyed : s.caller ≠ .destroyed) (enabled : Bool) : (s.loop enabled).Inv := by
  obtain ⟨running, trace, thread, caller, begins, ends⟩ := s
  obtain rfl : begins = ends := hclosed
  rcases caller with _ | d | _
  · obtain rfl : running = true := hrunning rfl
    cases trace <;> cases enabled <;> exact ⟨rfl, rfl, rfl⟩
  · obtain ⟨rfl, rfl⟩ : running = false ∧ trace = false := hjoining d rfl
    exact ⟨rfl, rfl, rfl⟩
  · exact absurd rfl hdestroyed

/-- All that is said of a caller while the thread is awake. -/
structure AwakeOk (s : CPUTracer) : Prop where
  idle : s.caller = .idle → s.running = true
  joining : ∀ destructor, s.caller = .joining destructor → s.running = false ∧ s.trace = false
  alive : s.caller ≠ .destroyed

/-- What the invariant says of a thread that is about to run. -/
theorem awakeOk (hinv : s.Inv) {t : TracerThread} (hthread : s.thread = some t)
    (ht : t = .starting ∨ ∃ scope, t = .woken scope) : s.AwakeOk := by
  have htogether := hinv.together
  rw [hthread] at htogether
  obtain rfl | ⟨scope, rfl⟩ := ht
  all_goals
    refine ⟨fun hcaller => ?_, fun d hcaller => ?_, fun hcaller => ?_⟩
    · rwa [hcaller] at htogether
    · rwa [hcaller] at htogether
    · rw [hcaller] at htogether
      exact nomatch htogether.1

/-- Leaving the scope ends a section, if one was open in it. -/
theorem leaveScope_cases (s : CPUTracer) (scope : Option Bool) :
    scope = some true ∧ s.leaveScope scope = { s with ends := s.ends + 1 } ∨
      scope ≠ some true ∧ s.leaveScope scope = s := by
  rw [leaveScope]
  split_ifs with hscope
  · exact .inl ⟨hscope, rfl⟩
  · exact .inr ⟨hscope, rfl⟩

/-- What the thread does when it gets the mutex. -/
theorem thread_cases {enabled : Bool} (h : s.step (.thread enabled) = .ok s') :
    s.thread = some .starting ∧ s' = s.loop enabled ∨
      ∃ scope, s.thread = some (.woken scope) ∧ s' = (s.leaveScope scope).loop enabled := by
  rw [step] at h
  split at h
  · next hthread => exact .inl ⟨hthread, (Except.ok.inj h).symm⟩
  · next scope hthread => exact .inr ⟨scope, hthread, (Except.ok.inj h).symm⟩
  · cases h

/-- The invariant is kept by the thread. -/
theorem inv_thread (hinv : s.Inv) {enabled : Bool} (h : s.step (.thread enabled) = .ok s') :
    s'.Inv := by
  have hbalanced := hinv.balanced
  obtain ⟨hthread, rfl⟩ | ⟨scope, hthread, rfl⟩ := thread_cases h
  · have hok := awakeOk hinv hthread (.inl rfl)
    rw [inSection, hthread] at hbalanced
    exact inv_loop hbalanced hok.idle hok.joining hok.alive enabled
  · have hok := awakeOk hinv hthread (.inr ⟨scope, rfl⟩)
    rw [inSection, hthread] at hbalanced
    obtain ⟨rfl, heq⟩ | ⟨hscope, heq⟩ := leaveScope_cases s scope
    · have hclosed : s.begins = s.ends + 1 := hbalanced
      rw [heq]
      exact inv_loop (s := { s with ends := s.ends + 1 }) hclosed hok.idle hok.joining hok.alive
        enabled
    · rw [heq]
      refine inv_loop ?_ hok.idle hok.joining hok.alive enabled
      simpa [TracerThread.scope, hscope] using hbalanced

/-- The invariant is kept when the wait ends for no reason. -/
theorem inv_wake (hinv : s.Inv) (h : s.step .wake = .ok s') : s'.Inv := by
  rw [step] at h
  split at h
  · next scope hthread =>
    obtain rfl := Except.ok.inj h
    obtain ⟨hbalanced, htogether⟩ := hinv
    rw [inSection, hthread] at hbalanced
    rw [hthread] at htogether
    refine ⟨hbalanced, ?_⟩
    cases hcaller : s.caller with
    | idle =>
      rw [hcaller] at htogether
      exact htogether.1
    | joining d =>
      rw [hcaller] at htogether
      exact htogether.elim
    | destroyed =>
      rw [hcaller] at htogether
      exact nomatch htogether.1
  · cases h

/-- When the caller comes back there is no thread, and no section. -/
theorem inv_joined (hinv : s.Inv) (h : s.step .joined = .ok s') : s'.Inv := by
  rw [step] at h
  split at h
  · next destructor hcaller hthread =>
    obtain rfl := Except.ok.inj h
    obtain ⟨hbalanced, htogether⟩ := hinv
    rw [inSection, hthread] at hbalanced
    rw [hcaller, hthread] at htogether
    refine ⟨hbalanced, ?_⟩
    cases destructor
    · exact htogether.2
    · exact ⟨rfl, htogether.2⟩
  · cases h

/-- The invariant is kept by every event. -/
theorem inv_step (hinv : s.Inv) (h : s.step e = .ok s') : s'.Inv := by
  cases e with
  | startTrace enabled =>
    rw [step, call] at h
    split_ifs at h with hidle
    exact Except.ok.inj h ▸ inv_startTrace hinv hidle enabled
  | endTrace enabled =>
    rw [step, call] at h
    split_ifs at h with hidle
    exact Except.ok.inj h ▸ inv_endTrace hinv hidle enabled
  | destroy =>
    rw [step, call] at h
    split_ifs at h with hidle
    exact Except.ok.inj h ▸ inv_joinThread hinv hidle true
  | thread enabled => exact inv_thread hinv h
  | wake => exact inv_wake hinv h
  | joined => exact inv_joined hinv h

/-- The invariant holds at any time. -/
theorem inv_run {es : List Event} (h : Runs.runChecked step new es = .ok s) : s.Inv :=
  Runs.invariant_of_runChecked (A := fun _ => True) (fun _ _ _ hinv _ he => inv_step hinv he)
    inv_new (fun _ _ => trivial) h

/-! ## The sections

What the invariant means for the sections that the tracing tool shows.
-/

/-- A tracer that is joined traces nothing. -/
theorem trace_joinThread (hinv : s.Inv) (hidle : s.caller = .idle) (destructor : Bool) :
    (s.joinThread destructor).trace = false := by
  have htogether := hinv.together
  rw [hidle] at htogether
  rw [joinThread, notifyOne]
  cases hthread : s.thread with
  | none => rwa [hthread] at htogether
  | some t => cases t <;> rfl

/-- Waking the thread leaves the flag alone. -/
theorem trace_notifyOne (s : CPUTracer) : s.notifyOne.trace = s.trace := by
  rw [notifyOne]
  split <;> rfl

/-- So does the thread itself. -/
theorem trace_loop (s : CPUTracer) (enabled : Bool) : (s.loop enabled).trace = s.trace := by
  rw [loop]
  split_ifs <;> rfl

/-- `mTrace` is what the last of the calls has asked for. -/
theorem trace_step (hinv : s.Inv) (h : s.step e = .ok s') : s'.trace = wanted s.trace e := by
  cases e with
  | startTrace enabled =>
    rw [step, call] at h
    split_ifs at h with hidle
    obtain rfl := Except.ok.inj h
    cases enabled with
    | false => exact trace_joinThread hinv hidle false
    | true => exact trace_notifyOne _
  | endTrace enabled =>
    rw [step, call] at h
    split_ifs at h with hidle
    obtain rfl := Except.ok.inj h
    cases enabled with
    | false => exact trace_joinThread hinv hidle false
    | true => exact trace_notifyOne _
  | destroy =>
    rw [step, call] at h
    split_ifs at h with hidle
    obtain rfl := Except.ok.inj h
    exact trace_joinThread hinv hidle true
  | thread enabled =>
    obtain ⟨-, rfl⟩ | ⟨scope, -, rfl⟩ := thread_cases h
    · exact trace_loop s enabled
    · rw [trace_loop, leaveScope]
      split_ifs <;> rfl
  | wake =>
    rw [step] at h
    split at h
    · exact Except.ok.inj h ▸ rfl
    · cases h
  | joined =>
    rw [step] at h
    split at h
    · exact Except.ok.inj h ▸ rfl
    · cases h

/-- **No notification is lost.** At any time the flag is what the last call made it. -/
theorem wanted_run {es : List Event} (h : Runs.runChecked step new es = .ok s) :
    s.Inv ∧ s.trace = es.foldl wanted false := by
  refine Runs.follows_runChecked (R := fun s shown => s.Inv ∧ s.trace = shown) ?_
    ⟨inv_new, rfl⟩ h
  rintro s shown e s' ⟨hinv, rfl⟩ he
  exact ⟨inv_step hinv he, trace_step hinv he⟩

/-- **The sections are balanced, and none is missed.** In any order of calls and steps of the
thread, a section ends before the next one begins; whenever the thread waits, it does so in a
`ScopedTrace` exactly if the last call was `startTrace`; and where there is no thread no section
is open. -/
theorem shows_frame {es : List Event} (h : Runs.runChecked step new es = .ok s) :
    s.begins = s.ends + s.inSection.toNat ∧
      (∀ scope, s.thread = some (.waiting scope) → scope.isSome = es.foldl wanted false) ∧
      (s.thread = none → s.begins = s.ends ∧ es.foldl wanted false = false) := by
  obtain ⟨hinv, htrace⟩ := wanted_run h
  have hbalanced := hinv.balanced
  have htogether := hinv.together
  refine ⟨hbalanced, fun scope hthread => ?_, fun hthread => ?_⟩
  · rw [← htrace]
    rw [hthread] at htogether
    cases hcaller : s.caller with
    | idle =>
      rw [hcaller] at htogether
      exact htogether.2
    | joining d =>
      rw [hcaller] at htogether
      exact htogether.elim
    | destroyed =>
      rw [hcaller] at htogether
      exact nomatch htogether.1
  · rw [inSection, hthread] at hbalanced
    rw [← htrace]
    rw [hthread] at htogether
    cases hcaller : s.caller with
    | idle =>
      rw [hcaller] at htogether
      exact ⟨hbalanced, htogether⟩
    | joining d =>
      rw [hcaller] at htogether
      exact htogether.elim
    | destroyed =>
      rw [hcaller] at htogether
      exact ⟨hbalanced, htogether.2⟩

/-- A thread that is not to run on returns. -/
theorem thread_loop (hrunning : s.running = false) (enabled : Bool) :
    (s.loop enabled).thread = some .returned := by
  rw [loop, if_neg (Bool.eq_false_iff.mp hrunning)]

/-- The end of a scope does not touch `mRunning`. -/
theorem running_leaveScope (s : CPUTracer) (scope : Option Bool) :
    (s.leaveScope scope).running = s.running := by
  rw [leaveScope]
  split_ifs <;> rfl

/-- A thread that has returned has closed its section. -/
theorem closed_of_returned (hinv : s.Inv) (hthread : s.thread = some .returned) :
    s.begins = s.ends := by
  have hbalanced := hinv.balanced
  rwa [inSection, hthread] at hbalanced

/-- **The thread can be joined.** A caller in `join` does not wait for a thread that sleeps: the
thread has returned, with all sections closed, or it returns as soon as it gets the mutex. -/
theorem joinable {es : List Event} {destructor : Bool}
    (h : Runs.runChecked step new es = .ok s) (hcaller : s.caller = .joining destructor) :
    (s.thread = some .returned ∧ s.begins = s.ends ∧ ∃ s', s.step .joined = .ok s') ∨
      ∀ enabled, ∃ s', s.step (.thread enabled) = .ok s' ∧ s'.thread = some .returned ∧
        s'.begins = s'.ends := by
  obtain ⟨hinv, -⟩ := wanted_run h
  have htogether := hinv.together
  rw [hcaller] at htogether
  cases hthread : s.thread with
  | none =>
    rw [hthread] at htogether
    exact htogether.elim
  | some t =>
    rw [hthread] at htogether
    cases t with
    | waiting scope => exact htogether.elim
    | returned =>
      refine .inl ⟨rfl, closed_of_returned hinv hthread, ?_⟩
      rw [step, hcaller, hthread]
      exact ⟨_, rfl⟩
    | starting =>
      refine .inr fun enabled => ?_
      have he : s.step (.thread enabled) = .ok (s.loop enabled) := by rw [step, hthread]
      have hreturned := thread_loop htogether.1 enabled
      exact ⟨_, he, hreturned, closed_of_returned (inv_step hinv he) hreturned⟩
    | woken scope =>
      refine .inr fun enabled => ?_
      have he : s.step (.thread enabled) = .ok ((s.leaveScope scope).loop enabled) := by
        rw [step, hthread]
      have hrunning : (s.leaveScope scope).running = false :=
        (running_leaveScope s scope).trans htogether.1
      have hreturned := thread_loop hrunning enabled
      exact ⟨_, he, hreturned, closed_of_returned (inv_step hinv he) hreturned⟩

/-- Two frames, the second of which ends after tracing has been switched off. -/
def oneFrame : List Event :=
  [.startTrace true, .thread true, .endTrace true, .startTrace true, .thread true, .endTrace false]

/-- One frame: the section is open while the thread waits. -/
theorem shows_frame_sample : ∃ s : CPUTracer,
    s.thread = some (.waiting (some true)) ∧ s.begins = s.ends + s.inSection.toNat :=
  have h : Runs.runChecked step new [.startTrace true, .thread true] = .ok _ := rfl
  ⟨_, rfl, (shows_frame h).1⟩

/-- After one frame the thread can be joined. -/
theorem joinable_sample : ∃ s : CPUTracer, Runs.runChecked step new oneFrame = .ok s ∧
    ((s.thread = some .returned ∧ s.begins = s.ends ∧ ∃ s', s.step .joined = .ok s') ∨
      ∀ enabled, ∃ s', s.step (.thread enabled) = .ok s' ∧ s'.thread = some .returned ∧
        s'.begins = s'.ends) :=
  have h : Runs.runChecked step new oneFrame = .ok _ := rfl
  ⟨_, h, joinable h rfl⟩

end CPUTracer

end GameSdk
