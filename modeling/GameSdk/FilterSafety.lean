import GameSdk.FilterThreads
import Mathlib.Data.List.Chain

/-!
# The work of the choreographer filter

Whatever the order in which the threads take their steps: one thread at a time does the work, more
than half a refresh period after the last time; the threads in the pool run for as long as the
filter does, with the settings that are in force; and none is left when the destructor returns.

* `workOk_step`: nobody works outside the mutex, and the times of work are apart.
* `poolOk_step`: the threads have the period that is in force, and return once they are to end.
-/

namespace GameSdk

namespace Timer

variable {t t' : Timer} {fuel : ℕ} {point : ℤ} {r : Bool × Timer}

/-! ## The timer

What a timestamp does to the timer of a thread: the three fields that are not corrected, and the
period, which stays positive.
-/

/-- The members that the loop and the correction leave alone. -/
def stamp (t : Timer) : ℤ × ℤ × ℤ := (t.appToSfDelay, t.lastTimestamp, t.repeatCount)

/-- The correction leaves all but base time and period. -/
theorem stamp_correct (t : Timer) (point : ℤ) : (t.correct point).stamp = t.stamp := by
  rw [correct]
  dsimp only
  split_ifs <;> rfl

/-- So does catching up. -/
theorem stamp_run (h : WhileLoop.run (behind point) advance fuel t = some t') :
    t'.stamp = t.stamp :=
  WhileLoop.invariant_of_run (I := fun u : Timer => u.stamp = t.stamp)
    (fun u (hu : u.advance.stamp = t.stamp) _ => hu) rfl h

/-- What `addTimestamp` does to the members other than the period and the base time: a timestamp
that has been seen too often is refused, a new one starts the count. -/
theorem addTimestamp_cases (h : t.addTimestamp fuel point = some r) :
    r.2.appToSfDelay = t.appToSfDelay ∧ r.2.lastTimestamp = point ∧
      if point = t.lastTimestamp then
        r.1 = decide (t.repeatCount ≤ 5) ∧
          r.2.repeatCount = (t.repeatCount + 1).bmod (2 ^ 32)
      else r.1 = true ∧ r.2.repeatCount = 0 := by
  rw [addTimestamp] at h
  dsimp only at h
  split at h
  · next hrefused =>
    cases h
    rw [if_pos hrefused.1]
    exact ⟨rfl, hrefused.1.symm, (decide_eq_false (not_le.mpr hrefused.2)).symm, rfl⟩
  · next htaken =>
    obtain ⟨t', hrun, rfl⟩ := Option.map_eq_some_iff.mp h
    have hstamp := (stamp_correct t' (point + t.appToSfDelay)).trans (stamp_run hrun)
    split_ifs at hstamp ⊢ with hsame <;>
      obtain ⟨hdelay, hlast, hcount⟩ : _ = _ ∧ _ = _ ∧ _ = _ := by
        simpa only [stamp, Prod.mk.injEq] using hstamp
    · refine ⟨hdelay, hlast, ?_, hcount⟩
      exact (decide_eq_true (not_lt.mp fun hlt => htaken ⟨hsame, hlt⟩)).symm
    · exact ⟨hdelay, hlast, rfl, hcount⟩

/-- `addTimestamp` keeps a positive period. -/
theorem refreshPeriod_addTimestamp (h : t.addTimestamp fuel point = some r)
    (ht : 0 < t.refreshPeriod) : 0 < r.2.refreshPeriod := by
  obtain ⟨fuel', r', h', hfollows⟩ := exists_addTimestamp ht point
  have hr := addTimestamp_mono h (le_max_left fuel fuel')
  have hr' := addTimestamp_mono h' (le_max_right fuel fuel')
  obtain rfl : r = r' := Option.some.inj (hr.symm.trans hr')
  exact hfollows.refreshPeriod_pos

end Timer

/-- The timer of a thread, once it has started. -/
def FilterThread.timer : FilterThread → Option Timer
  | .reading timer | .adding timer _ _ | .waiting timer _ _ | .addingAgain timer _ _
  | .checking timer _ | .sleeping timer _ | .locking timer _ | .working timer _ => some timer
  | _ => none

namespace ChoreographerFilter

variable {s s' s₁ : ChoreographerFilter} {e : Event} {te : ThreadEvent} {t t' : FilterThread}
  {i : ℕ}

/-! ## One thread at a time

`WorkOk` counts the threads that are at work and looks at the last two times. It is kept by each
step of a thread, and nothing else touches it.
-/

/-- How many threads are in `mDoWork`. -/
def workers (s : ChoreographerFilter) : ℕ :=
  Runs.total (fun t => if t.isWorking then 1 else 0) s.threadPool

/-- The work is done by one thread at a time, and its last run is known to the next one. -/
structure WorkOk (s : ChoreographerFilter) : Prop where
  workers_le : s.workers ≤ 1
  idle : s.workers = 0 → ∀ w ∈ s.workRuns.head?, w.now = s.lastWorkRun
  busy : ∀ timer now, .working timer now ∈ s.threadPool → ∀ w ∈ s.workRuns.head?, w.now = now
  spaced : s.workRuns.IsChain fun w v => w.refreshPeriod.tdiv 2 < w.now - v.now

/-- A change of the pool in which no thread takes the mutex or gives it back. -/
theorem WorkOk.of_eq (h : s.WorkOk) (hworkers : s'.workers = s.workers)
    (hbusy : ∀ timer now, .working timer now ∈ s'.threadPool → .working timer now ∈ s.threadPool)
    (hruns : s'.workRuns = s.workRuns) (hlast : s'.lastWorkRun = s.lastWorkRun) : s'.WorkOk := by
  refine ⟨?_, ?_, ?_, ?_⟩
  · rw [hworkers]
    exact h.workers_le
  · rw [hworkers, hruns, hlast]
    exact h.idle
  · rw [hruns]
    exact fun timer now hmem => h.busy timer now (hbusy timer now hmem)
  · rw [hruns]
    exact h.spaced

/-- One thread in another state. -/
theorem workers_set (s₁ : ChoreographerFilter) (t' : FilterThread)
    (ht : s.threadPool[i]? = some t) :
    workers { s₁ with threadPool := s.threadPool.set i t' } + (if t.isWorking then 1 else 0) =
      s.workers + if t'.isWorking then 1 else 0 :=
  ThreadPool.total_set (fun t : FilterThread => if t.isWorking then 1 else 0) ht

/-- Nobody is at work. -/
theorem workers_eq_zero (h : ∀ t ∈ s.threadPool, t.isWorking = false) : s.workers = 0 :=
  ThreadPool.total_eq_zero fun t ht => if_neg (Bool.eq_false_iff.mp (h t ht))

/-- A thread that begins is not at work. -/
theorem workers_launch (numCpus : ℤ) : (s.launchThreadsLocked numCpus).workers = s.workers := by
  have hnew : Runs.total (fun t : FilterThread => if t.isWorking then 1 else 0)
      (List.replicate (if numCpus > 2 then 2 else 1) .starting) = 0 :=
    ThreadPool.total_eq_zero fun t ht => by rw [List.eq_of_mem_replicate ht]; rfl
  rw [workers, launchThreadsLocked]
  dsimp only
  rw [Runs.total_append, hnew, Nat.add_zero, workers]

/-- A step of a thread keeps it. -/
theorem workOk_thread (h : s.WorkOk) (ht : s.threadPool[i]? = some t)
    (hmoves : s.ThreadMoves te t t' s₁) :
    WorkOk { s₁ with threadPool := s.threadPool.set i t' } := by
  have hcount := workers_set s₁ t' ht
  -- the steps outside `mDoWork`
  have hother : s₁ = s → t.isWorking = false → t'.isWorking = false →
      WorkOk { s₁ with threadPool := s.threadPool.set i t' } := by
    rintro rfl hw hw'
    rw [hw, hw'] at hcount
    refine h.of_eq hcount (fun timer now hmem => ?_) rfl rfl
    rcases List.mem_or_eq_of_mem_set hmem with hmem | rfl
    · exact hmem
    · cases hw'
  cases hmoves with
  | @lock timer targetTime now hfree hlate =>
    have hzero : s.workers = 0 := workers_eq_zero hfree
    rw [hzero] at hcount
    refine ⟨hcount.le, fun hidle => ?_, fun timer' now' hmem => ?_, ?_⟩
    · exact absurd (hcount.symm.trans hidle) Nat.one_ne_zero
    · rcases List.mem_or_eq_of_mem_set hmem with hmem | heq
      · exact absurd (hfree _ hmem).symm Bool.false_ne_true
      · obtain ⟨-, rfl⟩ := FilterThread.working.inj heq
        rintro w ⟨⟩
        rfl
    · refine List.isChain_cons.mpr ⟨fun v hv => ?_, h.spaced⟩
      rw [h.idle hzero v hv]
      exact hlate
  | @doWork timer now duration =>
    have hcount' : workers { s with
        workDuration := duration, lastWorkRun := now
        threadPool := s.threadPool.set i (.reading timer) } + 1 = s.workers := hcount
    have hwas := h.busy timer now (List.mem_of_getElem? ht)
    refine ⟨?_, fun _ => hwas, fun timer' now' hmem => ?_, h.spaced⟩
    · exact (Nat.le_succ _).trans (hcount'.le.trans h.workers_le)
    · rcases List.mem_or_eq_of_mem_set hmem with hmem | heq
      · exact h.busy timer' now' hmem
      · cases heq
  | _ => exact hother rfl rfl rfl

/-- Every step keeps the work in order. -/
theorem workOk_step (h : s.WorkOk) (hmoves : s.Moves e s') : s'.WorkOk := by
  cases hmoves with
  | onChoreographer | keepSettings | newSettings | destroy =>
    exact h.of_eq rfl (fun _ _ => id) rfl rfl
  | construct howner hconstructed =>
    refine h.of_eq (workers_launch _) (fun timer now hmem => ?_) rfl rfl
    rcases List.mem_append.mp hmem with hmem | hmem
    · exact hmem
    · cases List.eq_of_mem_replicate hmem
  | @joined next numCpus howner hreturned =>
    have hzero : s.workers = 0 := workers_eq_zero fun t ht => by rw [hreturned t ht]; rfl
    cases next with
    | none =>
      exact h.of_eq (hzero.symm ▸ rfl) (fun _ _ hmem => absurd hmem List.not_mem_nil) rfl rfl
    | some settings =>
      refine h.of_eq ((workers_launch _).trans hzero.symm) (fun timer now hmem => ?_) rfl rfl
      cases List.eq_of_mem_replicate hmem
  | thread ht hthread => exact workOk_thread h ht hthread

/-- It holds after every run. -/
theorem workOk_run {settings : FilterSettings} {workDuration : ℤ} {es : List Event}
    (h : Runs.runChecked step (new settings workDuration) es = .ok s) : s.WorkOk := by
  refine Runs.invariant_of_runChecked (A := fun _ => True)
    (fun _ _ _ hok _ hstep => workOk_step hok (moves_of_step hstep)) ?_ (fun _ _ => trivial) h
  exact ⟨Nat.zero_le 1, by rintro _ _ ⟨⟩, by rintro _ _ ⟨⟩, .nil⟩

/-- **One thread at a time.** In every state of every run at most one thread is in `mDoWork`, and
each call of it began more than half a refresh period after the call before. -/
theorem work_spaced {settings : FilterSettings} {workDuration : ℤ} {es : List Event}
    (h : Runs.runChecked step (new settings workDuration) es = .ok s) :
    s.workers ≤ 1 ∧ s.workRuns.IsChain fun w v => w.refreshPeriod.tdiv 2 < w.now - v.now := by
  have hok := workOk_run h
  exact ⟨hok.workers_le, hok.spaced⟩

/-- Two threads, and two runs of the work. -/
theorem work_spaced_sample : ∃ s : ChoreographerFilter, s.workRuns.length = 2 ∧
    s.workRuns.IsChain fun w v => w.refreshPeriod.tdiv 2 < w.now - v.now :=
  have h : Runs.runChecked step (new sampleSettings 0) twoThreads = .ok _ := rfl
  ⟨_, rfl, (work_spaced h).2⟩

/-! ## The threads and their settings

`PoolOk` ties the threads in the pool to the filter: they follow its settings while it runs, and
there are none after the destructor.
-/

/-- A thread that works with the delay in force, and with a real refresh period. -/
def FollowsSettings (s : ChoreographerFilter) (t : FilterThread) : Prop :=
  ∀ timer ∈ t.timer, timer.appToSfDelay = s.appToSfDelay ∧ 0 < timer.refreshPeriod

/-- While the filter runs no thread has returned; all threads have the settings in force; and none
is left in the end. -/
structure PoolOk (s : ChoreographerFilter) : Prop where
  refreshPeriod_pos : 0 < s.refreshPeriod
  running_iff : s.isRunning = true ↔ s.poolOwner = .none
  alive : s.isRunning = true → ∀ t ∈ s.threadPool, t ≠ .returned
  follows : ∀ t ∈ s.threadPool, s.FollowsSettings t
  gone : s.poolOwner = .destroyed → s.threadPool = []

/-- A thread that adds a timestamp follows the settings after it. -/
theorem follows_addTimestamp {timer : Timer} {fuel : ℕ} {timestamp : ℤ} {r : Bool × Timer}
    (h : s.FollowsSettings t) (ht : t.timer = some timer)
    (hadd : timer.addTimestamp fuel timestamp = some r) (ht' : t'.timer = some r.2) :
    s.FollowsSettings t' := by
  obtain ⟨hdelay, hpos⟩ := h timer ht
  intro timer' htimer'
  obtain rfl : timer' = r.2 := Option.some.inj (htimer'.symm.trans ht')
  exact ⟨(Timer.addTimestamp_cases hadd).1.trans hdelay,
    Timer.refreshPeriod_addTimestamp hadd hpos⟩

/-- A thread goes on with the settings. -/
theorem follows_thread (hpos : 0 < s.refreshPeriod) (h : s.FollowsSettings t)
    (hmoves : s.ThreadMoves te t t' s₁) : s.FollowsSettings t' := by
  cases hmoves with
  | start =>
    rintro _ ⟨⟩
    exact ⟨rfl, hpos⟩
  | fresh hadd | stale hadd | addAgain hadd => exact follows_addTimestamp h rfl hadd rfl
  | finish => rintro _ ⟨⟩
  | _ => exact h

/-- A step of a thread keeps the pool in order. -/
theorem poolOk_thread (h : s.PoolOk) (ht : s.threadPool[i]? = some t)
    (hmoves : s.ThreadMoves te t t' s₁) :
    PoolOk { s₁ with threadPool := s.threadPool.set i t' } := by
  have hmem := List.mem_of_getElem? ht
  have hfollows := ThreadPool.forall_set (i := i) h.follows
    (follows_thread h.refreshPeriod_pos (h.follows t hmem) hmoves)
  have halive : s.isRunning = true → ∀ u ∈ s.threadPool.set i t', u ≠ .returned := by
    intro hrunning
    refine ThreadPool.forall_set (h.alive hrunning) ?_
    cases hmoves with
    | finish hstopped => exact absurd (hstopped.symm.trans hrunning) Bool.false_ne_true
    | _ => exact fun heq => by cases heq
  have hgone : s.poolOwner = .destroyed → s.threadPool.set i t' = [] := by
    intro howner
    rw [h.gone howner]
    rfl
  cases hmoves <;> exact ⟨h.refreshPeriod_pos, h.running_iff, halive, hfollows, hgone⟩

/-- New threads are in order. -/
theorem poolOk_launch (hpos : 0 < s.refreshPeriod) (howner : s.poolOwner = .none)
    (halive : ∀ t ∈ s.threadPool, t ≠ .returned)
    (hfollows : ∀ t ∈ s.threadPool, s.FollowsSettings t) (numCpus : ℤ) :
    (s.launchThreadsLocked numCpus).PoolOk := by
  refine ⟨hpos, iff_of_true rfl howner, fun _ t ht => ?_, fun t ht => ?_, fun hdestroyed => ?_⟩
  · rcases List.mem_append.mp ht with ht | ht
    · exact halive t ht
    · rw [List.eq_of_mem_replicate ht]
      exact fun heq => by cases heq
  · rcases List.mem_append.mp ht with ht | ht
    · exact hfollows t ht
    · rw [List.eq_of_mem_replicate ht]
      rintro _ ⟨⟩
  · cases howner.symm.trans hdestroyed

/-- **Every step keeps the pool in order.** -/
theorem poolOk_step (h : s.PoolOk) (hmoves : s.Moves e s') : s'.PoolOk := by
  cases hmoves with
  | onChoreographer => exact ⟨h.refreshPeriod_pos, h.running_iff, h.alive, h.follows, h.gone⟩
  | keepSettings => exact h
  | @construct useAffinity numCpus howner hconstructed =>
    exact poolOk_launch (s := { s with useAffinity := useAffinity, constructed := true })
      h.refreshPeriod_pos howner (h.alive (h.running_iff.mpr howner)) h.follows numCpus
  | newSettings howner | destroy howner =>
    refine ⟨h.refreshPeriod_pos, ⟨fun hrunning => ?_, fun hnone => ?_⟩, fun hrunning => ?_,
      h.follows, fun hdestroyed => ?_⟩
    · cases hrunning
    · cases hnone
    · cases hrunning
    · cases hdestroyed
  | @joined next numCpus howner hreturned =>
    cases next with
    | none =>
      refine ⟨h.refreshPeriod_pos, ?_, ?_, ?_, ?_⟩
      · refine iff_of_false (fun hrunning => ?_) fun hnone => ?_
        · cases howner.symm.trans (h.running_iff.mp hrunning)
        · cases hnone
      · exact fun _ _ hmem => absurd hmem List.not_mem_nil
      · exact fun _ hmem => absurd hmem List.not_mem_nil
      · exact fun _ => rfl
    | some settings =>
      exact poolOk_launch settings.refreshPeriod_pos rfl
        (fun _ hmem => absurd hmem List.not_mem_nil) (fun _ hmem => absurd hmem List.not_mem_nil) _
  | thread ht hthread => exact poolOk_thread h ht hthread

/-- At first there are no threads. -/
theorem poolOk_new (settings : FilterSettings) (workDuration : ℤ) :
    (new settings workDuration).PoolOk := by
  refine ⟨settings.refreshPeriod_pos, iff_of_true rfl rfl, ?_, ?_, fun _ => rfl⟩
  · rintro _ _ ⟨⟩
  · rintro _ ⟨⟩

/-- The pool is in order after every run. -/
theorem poolOk_run {settings : FilterSettings} {workDuration : ℤ} {es : List Event}
    (h : Runs.runChecked step (new settings workDuration) es = .ok s) : s.PoolOk :=
  Runs.invariant_of_runChecked (A := fun _ => True)
    (fun _ _ _ hok _ hstep => poolOk_step hok (moves_of_step hstep))
    (poolOk_new settings workDuration) (fun _ _ => trivial) h

/-- **The threads follow the settings.** In every state of every run: as long as nobody terminates
them all threads of the pool are alive; each of them uses the delay in force, and a period above
zero; and when the destructor has returned no thread can take a step. -/
theorem threads_follow {settings : FilterSettings} {workDuration : ℤ} {es : List Event}
    (h : Runs.runChecked step (new settings workDuration) es = .ok s) :
    (s.poolOwner = .none → ∀ t ∈ s.threadPool, t ≠ .returned) ∧
      (∀ t ∈ s.threadPool, s.FollowsSettings t) ∧
      (s.poolOwner = .destroyed → ∀ i te, s.step (.thread i te) = .error .blocked) := by
  have hok := poolOk_run h
  refine ⟨fun howner => hok.alive (hok.running_iff.mpr howner), hok.follows, fun howner i te => ?_⟩
  rw [step, hok.gone howner]
  rfl

/-- The destructor is called while the first thread does the work. -/
theorem threads_follow_sample : ∃ s : ChoreographerFilter, s.workRuns.length = 2 ∧
    ∀ i te, s.step (.thread i te) = .error .blocked :=
  have h : Runs.runChecked step (new sampleSettings 0) (twoThreads ++
    [.destroy, .thread 1 .read, .thread 1 (.add 2), .thread 1 .check, .thread 0 (.doWork 2000000),
      .thread 0 .read, .thread 0 (.add 2), .thread 0 .check, .joined 4]) = .ok _ := rfl
  ⟨_, rfl, (threads_follow h).2.2 rfl⟩

end ChoreographerFilter

end GameSdk
