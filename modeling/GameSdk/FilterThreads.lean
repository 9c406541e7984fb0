import GameSdk.ChoreographerFilter
import GameSdk.Runs
import GameSdk.ThreadPool

/-!
# The threads of the choreographer filter (`ChoreographerFilter.cpp`)

A pool of one or two threads calls `mDoWork` once for every refresh period: each thread predicts
the next one with its `Timer`, sleeps until then, and the one that is first does the work. When
the settings change the threads are terminated and launched anew, and the destructor terminates
them.

A step is what a thread does between two points where it waits, takes a mutex or reads
`mIsRunning`, so that a run is an interleaving of all threads. `setAffinity` and the names of the
threads are left out.

`ThreadMoves` and `Moves` list all steps, with what each of them requires and does. The modules
about the filter argue with these lists, and look at the step function only to show that a step can
be taken.
-/

namespace GameSdk

/-- What the filter reads from `Settings`, with a real refresh period. -/
structure FilterSettings where
  useAffinity : Bool
  refreshPeriod : ℤ
  appToSfDelay : ℤ
  refreshPeriod_pos : 0 < refreshPeriod

/-- What a thread of the pool does next. -/
inductive FilterThread where
  | starting
  /-- it reads the timestamp -/
  | reading (timer : Timer)
  | adding (timer : Timer) (timestamp workDuration : ℤ)
  /-- it waits for a timestamp that is not this one -/
  | waiting (timer : Timer) (timestamp workDuration : ℤ)
  /-- it has a timestamp after the wait -/
  | addingAgain (timer : Timer) (timestamp workDuration : ℤ)
  /-- it checks `mIsRunning` -/
  | checking (timer : Timer) (workDuration : ℤ)
  | sleeping (timer : Timer) (workDuration : ℤ)
  /-- it sleeps until the target time, and takes `mWorkMutex` -/
  | locking (timer : Timer) (targetTime : ℤ)
  /-- it is in `mDoWork`, and holds `mWorkMutex` -/
  | working (timer : Timer) (now : ℤ)
  | returned
  deriving DecidableEq, Repr

/-- Whether it holds `mWorkMutex`. -/
def FilterThread.isWorking : FilterThread → Bool
  | .working _ _ => true
  | _ => false

/-- The thread that holds `mThreadPoolMutex`, if there is one. -/
inductive PoolOwner where
  | none
  /-- it joins the threads, and then launches them with new settings, or not -/
  | joining (next : Option FilterSettings)
  /-- the destructor has returned -/
  | destroyed

/-- Ghost: a call of `mDoWork`. -/
structure WorkRun where
  now : ℤ
  refreshPeriod : ℤ
  deriving DecidableEq, Repr

/-- The members of the filter, its threads, and what has been worked on. -/
structure ChoreographerFilter where
  useAffinity : Bool
  threadPool : List FilterThread
  isRunning : Bool
  lastTimestamp : ℤ
  lastWorkRun : ℤ
  workDuration : ℤ
  refreshPeriod : ℤ
  appToSfDelay : ℤ
  poolOwner : PoolOwner
  /-- ghost: whether the constructor has launched its threads -/
  constructed : Bool
  /-- ghost: the calls of `mDoWork`, the last one first -/
  workRuns : List WorkRun

namespace ChoreographerFilter

/-- The constructor, up to the listener it adds: `mWorkDuration` is not initialized. -/
def new (settings : FilterSettings) (workDuration : ℤ) : ChoreographerFilter where
  useAffinity := true
  threadPool := []
  isRunning := true
  lastTimestamp := 0
  lastWorkRun := 0
  workDuration := workDuration
  refreshPeriod := settings.refreshPeriod
  appToSfDelay := settings.appToSfDelay
  poolOwner := .none
  constructed := false
  workRuns := []

variable (s : ChoreographerFilter)

/-! ## The calls

The constructor, new settings and the destructor. The last two terminate the threads and join them,
and what comes after the join is `joined`.
-/

/-- A timestamp for the threads to wake up for. -/
def onChoreographer (now : ℤ) : ChoreographerFilter := { s with lastTimestamp := now }

/-- One thread, or two where there are more than two CPUs. -/
def launchThreadsLocked (numCpus : ℤ) : ChoreographerFilter :=
  let numThreads := if numCpus > 2 then 2 else 1
  { s with
    isRunning := true
    threadPool := s.threadPool ++ List.replicate numThreads .starting }

/-- The end of the constructor. -/
def construct (useAffinity : Bool) (numCpus : ℤ) : ChoreographerFilter :=
  { s with useAffinity := useAffinity, constructed := true }.launchThreadsLocked numCpus

/-- The first half of `terminateThreadsLocked`. -/
def terminateThreadsLocked (next : Option FilterSettings) : ChoreographerFilter :=
  { s with isRunning := false, poolOwner := .joining next }

/-- Other settings terminate the threads; the same settings do nothing. -/
def onSettingsChanged (settings : FilterSettings) : ChoreographerFilter :=
  if settings.useAffinity = s.useAffinity ∧ s.refreshPeriod = settings.refreshPeriod then s
  else s.terminateThreadsLocked (some settings)

/-- What comes after the threads have been joined. -/
def joined (next : Option FilterSettings) (numCpus : ℤ) : ChoreographerFilter :=
  match next with
  | some settings =>
    { s with
      threadPool := []
      useAffinity := settings.useAffinity
      refreshPeriod := settings.refreshPeriod
      appToSfDelay := settings.appToSfDelay
      poolOwner := .none }.launchThreadsLocked numCpus
  | none => { s with threadPool := [], poolOwner := .destroyed }

/-! ## `threadMain`

What a thread does from one point where it waits to the next. The source has one loop; the state of
a thread is where it is in the loop, with the variables it has there.
-/

/-- What a thread reads from the clock, and how often its loops go round. -/
inductive ThreadEvent where
  | start (now₁ now₂ : ℤ)
  | read
  | add (fuel : ℕ)
  | wake
  | addAgain (fuel : ℕ)
  | check
  | sleep (fuel : ℕ) (now : ℤ)
  | lock (now : ℤ)
  | doWork (duration : ℤ)
  deriving DecidableEq, Repr

/-- A step of a thread, and what it does to the filter. -/
def threadStep : FilterThread → ThreadEvent → Option (FilterThread × ChoreographerFilter)
  | .starting, .start now₁ now₂ =>
    some (.reading (.new s.refreshPeriod s.appToSfDelay now₁ now₂), s)
  | .reading timer, .read => some (.adding timer s.lastTimestamp s.workDuration, s)
  | .adding timer timestamp workDuration, .add fuel =>
    (timer.addTimestamp fuel timestamp).map fun r =>
      (if r.1 then .checking r.2 workDuration else .waiting r.2 timestamp workDuration, s)
  | .waiting timer timestamp workDuration, .wake =>
    if s.isRunning = false ∨ s.lastTimestamp ≠ timestamp then
      some (.addingAgain timer s.lastTimestamp workDuration, s)
    else none
  | .addingAgain timer timestamp workDuration, .addAgain fuel =>
    (timer.addTimestamp fuel timestamp).map fun r => (.checking r.2 workDuration, s)
  | .checking timer workDuration, .check =>
    some (if s.isRunning then .sleeping timer workDuration else .returned, s)
  | .sleeping timer workDuration, .sleep fuel now =>
    (timer.sleep fuel (-workDuration) now).map fun targetTime => (.locking timer targetTime, s)
  | .locking timer targetTime, .lock now =>
    if now < targetTime ∨ s.threadPool.any FilterThread.isWorking then none
    else if now - s.lastWorkRun > s.refreshPeriod.tdiv 2 then
      -- it got here first, and there is work to do
      some (.working timer now, { s with workRuns := ⟨now, s.refreshPeriod⟩ :: s.workRuns })
    else some (.reading timer, s)
  | .working timer now, .doWork duration =>
    some (.reading timer, { s with workDuration := duration, lastWorkRun := now })
  | _, _ => none

/-! ## Runs

The events of the calls and of the threads, and two threads at work as a sample.
-/

/-- One thing that happens. -/
inductive Event where
  | onChoreographer (now : ℤ)
  | construct (useAffinity : Bool) (numCpus : ℤ)
  | onSettingsChanged (settings : FilterSettings)
  | destroy
  | joined (numCpus : ℤ)
  | thread (i : ℕ) (e : ThreadEvent)

/-- The thread waits, or there is no such thread. -/
inductive Blocked where
  | blocked
  deriving DecidableEq, Repr

/-- One event, on the state in which it happens. -/
def step (e : Event) : Except Blocked ChoreographerFilter :=
  match e, s.poolOwner with
  | .onChoreographer now, _ => .ok (s.onChoreographer now)
  | .construct useAffinity numCpus, .none =>
    if s.constructed then .error .blocked else .ok (s.construct useAffinity numCpus)
  | .onSettingsChanged settings, .none => .ok (s.onSettingsChanged settings)
  | .destroy, .none =>
    if s.constructed then .ok (s.terminateThreadsLocked none) else .error .blocked
  | .joined numCpus, .joining next =>
    if ∀ t ∈ s.threadPool, t = .returned then .ok (s.joined next numCpus) else .error .blocked
  | .thread i e, _ =>
    match s.threadPool[i]? with
    | some t =>
      match s.threadStep t e with
      | some (t', s') => .ok { s' with threadPool := s.threadPool.set i t' }
      | none => .error .blocked
    | none => .error .blocked
  | _, _ => .error .blocked

theorem sixtyHertz_pos : (0 : ℤ) < 16666667 := by decide

/-- 60 Hz, with affinity. -/
def sampleSettings : FilterSettings := ⟨true, 16666667, 0, sixtyHertz_pos⟩

/-- A round of a thread, up to the mutex. -/
def round (i : ℕ) (now now' : ℤ) : List Event :=
  [.thread i .read, .thread i (.add 2), .thread i .check, .thread i (.sleep 2 now),
    .thread i (.lock now')]

/-- Two threads, of which the second does the work first, and then the first one. -/
def twoThreads : List Event :=
  [.construct true 4, .onChoreographer 5000000, .thread 0 (.start 1000000 1000000),
    .thread 1 (.start 1000000 1000000)] ++ round 1 6000000 18000000 ++
    [.thread 1 (.doWork 2000000)] ++ round 0 6000000 18000001 ++ round 0 19000000 35000000

/-! ## What a step can do

The step function, inverted.
-/

/-- A step of a thread, by what it does. -/
inductive ThreadMoves : ThreadEvent → FilterThread → FilterThread → ChoreographerFilter → Prop
  | start {now₁ now₂} : ThreadMoves (.start now₁ now₂) .starting
      (.reading (.new s.refreshPeriod s.appToSfDelay now₁ now₂)) s
  | read {timer} :
      ThreadMoves .read (.reading timer) (.adding timer s.lastTimestamp s.workDuration) s
  | fresh {timer timestamp workDuration fuel timer'} :
      timer.addTimestamp fuel timestamp = some (true, timer') →
      ThreadMoves (.add fuel) (.adding timer timestamp workDuration)
        (.checking timer' workDuration) s
  | stale {timer timestamp workDuration fuel timer'} :
      timer.addTimestamp fuel timestamp = some (false, timer') →
      ThreadMoves (.add fuel) (.adding timer timestamp workDuration)
        (.waiting timer' timestamp workDuration) s
  | wake {timer timestamp workDuration} : s.isRunning = false ∨ s.lastTimestamp ≠ timestamp →
      ThreadMoves .wake (.waiting timer timestamp workDuration)
        (.addingAgain timer s.lastTimestamp workDuration) s
  | addAgain {timer timestamp workDuration fuel r} :
      timer.addTimestamp fuel timestamp = some r →
      ThreadMoves (.addAgain fuel) (.addingAgain timer timestamp workDuration)
        (.checking r.2 workDuration) s
  | goOn {timer workDuration} : s.isRunning = true →
      ThreadMoves .check (.checking timer workDuration) (.sleeping timer workDuration) s
  | finish {timer workDuration} : s.isRunning = false →
      ThreadMoves .check (.checking timer workDuration) .returned s
  | sleep {timer workDuration targetTime fuel now} :
      ThreadMoves (.sleep fuel now) (.sleeping timer workDuration) (.locking timer targetTime) s
  | skip {timer targetTime now} :
      ThreadMoves (.lock now) (.locking timer targetTime) (.reading timer) s
  | lock {timer targetTime now} : (∀ t ∈ s.threadPool, t.isWorking = false) →
      s.refreshPeriod.tdiv 2 < now - s.lastWorkRun →
      ThreadMoves (.lock now) (.locking timer targetTime) (.working timer now)
        { s with workRuns := ⟨now, s.refreshPeriod⟩ :: s.workRuns }
  | doWork {timer now duration} :
      ThreadMoves (.doWork duration) (.working timer now) (.reading timer)
        { s with workDuration := duration, lastWorkRun := now }

/-- A step of the filter, with what it needs. -/
inductive Moves : Event → ChoreographerFilter → Prop
  | onChoreographer {now} : Moves (.onChoreographer now) (s.onChoreographer now)
  | construct {useAffinity numCpus} : s.poolOwner = .none → s.constructed = false →
      Moves (.construct useAffinity numCpus) (s.construct useAffinity numCpus)
  | keepSettings {settings} : Moves (.onSettingsChanged settings) s
  | newSettings {settings} : s.poolOwner = .none →
      Moves (.onSettingsChanged settings) (s.terminateThreadsLocked (some settings))
  | destroy : s.poolOwner = .none → s.constructed = true →
      Moves .destroy (s.terminateThreadsLocked none)
  | joined {next numCpus} : s.poolOwner = .joining next → (∀ t ∈ s.threadPool, t = .returned) →
      Moves (.joined numCpus) (s.joined next numCpus)
  | thread {i te t t' s₁} : s.threadPool[i]? = some t → s.ThreadMoves te t t' s₁ →
      Moves (.thread i te) { s₁ with threadPool := s.threadPool.set i t' }

variable {s} {s' s₁ : ChoreographerFilter} {e : Event} {te : ThreadEvent} {t t' : FilterThread}

theorem threadMoves_of_threadStep (h : s.threadStep t te = some (t', s₁)) :
    s.ThreadMoves te t t' s₁ := by
  cases t <;> cases te <;> simp only [threadStep, reduceCtorEq] at h
  case starting.start => cases h; exact .start
  case reading.read => cases h; exact .read
  case adding.add timer timestamp workDuration fuel =>
    obtain ⟨⟨b, timer'⟩, hadd, heq⟩ := Option.map_eq_some_iff.mp h
    cases b <;> cases heq
    · exact .stale hadd
    · exact .fresh hadd
  case waiting.wake =>
    split_ifs at h with hwake
    cases h
    exact .wake hwake
  case addingAgain.addAgain =>
    obtain ⟨r, hadd, heq⟩ := Option.map_eq_some_iff.mp h
    cases heq
    exact .addAgain hadd
  case checking.check =>
    cases hrunning : s.isRunning <;> rw [hrunning] at h <;> cases h
    · exact .finish hrunning
    · exact .goOn hrunning
  case sleeping.sleep =>
    obtain ⟨targetTime, -, heq⟩ := Option.map_eq_some_iff.mp h
    cases heq
    exact .sleep
  case locking.lock =>
    split_ifs at h with hblocked hlate
    · cases h
      rw [not_or, Bool.not_eq_true, List.any_eq_false] at hblocked
      exact .lock (fun t ht => Bool.eq_false_iff.mpr (hblocked.2 t ht)) hlate
    · cases h
      exact .skip
  case working.doWork => cases h; exact .doWork

theorem moves_of_step (h : s.step e = .ok s') : s.Moves e s' := by
  cases e with
  | onChoreographer now => cases h; exact .onChoreographer
  | thread i te =>
    simp only [step] at h
    split at h
    · next t ht =>
      split at h
      · next t' s₁ hstep =>
        cases h
        exact .thread ht (threadMoves_of_threadStep hstep)
      · cases h
    · cases h
  | construct useAffinity numCpus =>
    cases howner : s.poolOwner <;> simp only [step, howner, reduceCtorEq] at h
    split_ifs at h with hconstructed
    cases h
    exact .construct howner (Bool.eq_false_iff.mpr hconstructed)
  | onSettingsChanged settings =>
    cases howner : s.poolOwner <;> simp only [step, howner, reduceCtorEq] at h
    rw [onSettingsChanged] at h
    split_ifs at h <;> cases h
    · exact .keepSettings
    · exact .newSettings howner
  | destroy =>
    cases howner : s.poolOwner <;> simp only [step, howner, reduceCtorEq] at h
    split_ifs at h with hconstructed
    cases h
    exact .destroy howner hconstructed
  | joined numCpus =>
    cases howner : s.poolOwner <;> simp only [step, howner, reduceCtorEq] at h
    split_ifs at h with hreturned
    cases h
    exact .joined howner hreturned

end ChoreographerFilter

end GameSdk
