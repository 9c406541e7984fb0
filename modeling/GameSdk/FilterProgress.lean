import GameSdk.FilterSafety

/-!
# The threads of the choreographer filter come to rest

Once the threads are to terminate, every one of them returns after a few steps, so that the calls
that join them return too. And when the choreographer sends no timestamps the threads do not go
round forever: each of them waits after a few rounds.

Both results are of the same kind. A thread has a number, `rank` in one case and `spin` in the
other, that each of its own steps lowers; the steps of the others do not change it. So each thread
takes as many steps as its number says, and when no thread can take one, all of them have returned,
or wait.

A run of the pool is an interleaving, so the bounds are for each thread by itself. `Rests` says
where a thread is left when no timestamps come: it waits for another one than the last.
-/

namespace GameSdk

namespace FilterThread

/-- How many steps a thread takes at most until it returns, if the filter does not run. -/
def rank : FilterThread → ℕ
  | .sleeping _ _ => 10
  | .locking _ _ => 9
  | .starting | .working _ _ => 8
  | .reading _ => 7
  | .adding _ _ _ => 6
  | .waiting _ _ _ => 5
  | .addingAgain _ _ _ => 4
  | .checking _ _ => 3
  | .returned => 0

theorem rank_le (t : FilterThread) : t.rank ≤ 10 := by
  cases t <;> simp [rank]

/-- How often a timer takes the timestamp once more. -/
def left (timestamp : ℤ) (timer : Timer) : ℕ :=
  if timer.lastTimestamp = timestamp then (6 - timer.repeatCount).toNat else 7

/-- How many steps a thread takes at most until it waits, if the timestamp stays this one. -/
def spin (timestamp : ℤ) : FilterThread → ℕ
  | .starting => 45
  | .reading timer => 6 * left timestamp timer + 2
  | .adding timer point _ => if point = timestamp then 6 * left timestamp timer + 1 else 49
  | .waiting _ point _ => if point = timestamp then 0 else 44
  | .addingAgain _ point _ => if point = timestamp then 43 else 49
  | .checking timer _ => 6 * left timestamp timer + 6
  | .sleeping timer _ => 6 * left timestamp timer + 5
  | .locking timer _ => 6 * left timestamp timer + 4
  | .working timer _ => 6 * left timestamp timer + 3
  | .returned => 0

end FilterThread

namespace ChoreographerFilter

open FilterThread

variable {s s' s₁ : ChoreographerFilter} {e : Event} {te : ThreadEvent} {t t' : FilterThread}
  {i : ℕ} {es : List Event}

theorem step_thread (ht : s.threadPool[i]? = some t)
    (h : s.threadStep t te = some (t', s₁)) : ∃ s', s.step (.thread i te) = .ok s' :=
  ⟨{ s₁ with threadPool := s.threadPool.set i t' }, by simp only [step, ht, h]⟩

/-! ## Joining the threads

Once `mIsRunning` is false a thread takes ten steps at most before it returns, whatever it was
doing.
-/

theorem rank_thread (hstopped : s.isRunning = false) (hmoves : s.ThreadMoves te t t' s₁) :
    t'.rank < t.rank := by
  cases hmoves with
  | goOn hrunning => exact absurd (hstopped.symm.trans hrunning) Bool.false_ne_true
  | _ => simp only [FilterThread.rank]; decide

/-- Whether it is a step of the thread at this place of the pool. -/
def Event.isThread (i : ℕ) : Event → ℕ
  | .thread j _ => if j = i then 1 else 0
  | _ => 0

/-- How many steps the thread at this place of the pool takes in a run. -/
def threadSteps (i : ℕ) (es : List Event) : ℕ := Runs.total (Event.isThread i) es

/-- A thread that takes a step pays for it out of its share. -/
theorem share_thread {f : FilterThread → ℕ} (ht : s.threadPool[i]? = some t)
    (hlt : f t' + 1 ≤ f t) (te : ThreadEvent) (j : ℕ) :
    ThreadPool.share f (s.threadPool.set i t') j + (Event.thread i te).isThread j ≤
      ThreadPool.share f s.threadPool j := by
  rw [ThreadPool.share_set f ht, Event.isThread]
  split_ifs with hij
  · subst hij
    rw [ThreadPool.share_eq f ht]
    exact hlt
  · exact le_refl _

/-- If the threads are to terminate, each step of theirs brings the end of the one that takes it
closer, and the others are as close to theirs as before. -/
theorem joining_step {next : Option FilterSettings} (hok : s.PoolOk)
    (howner : s.poolOwner = .joining next) (he : ∀ n, e ≠ .joined n) (hmoves : s.Moves e s') :
    (s'.PoolOk ∧ s'.poolOwner = .joining next) ∧ ∀ j,
      ThreadPool.share rank s'.threadPool j + e.isThread j ≤
        ThreadPool.share rank s.threadPool j := by
  have hstopped : s.isRunning = false := by
    refine Bool.eq_false_iff.mpr fun hrunning => ?_
    cases howner.symm.trans (hok.running_iff.mp hrunning)
  have hok' := poolOk_step hok hmoves
  cases hmoves with
  | onChoreographer | keepSettings => exact ⟨⟨hok', howner⟩, fun _ => le_refl _⟩
  | construct hnone | newSettings hnone | destroy hnone => cases howner.symm.trans hnone
  | @joined _ numCpus => exact absurd rfl (he numCpus)
  | @thread i te t t' s₁ ht hthread =>
    have hlt := rank_thread hstopped hthread
    have howner₁ : s₁.poolOwner = .joining next := by cases hthread <;> exact howner
    exact ⟨⟨hok', howner₁⟩, share_thread ht hlt te⟩

/-- The thread waits in the condition variable, for a timestamp other than the last one. -/
def Rests (s : ChoreographerFilter) (t : FilterThread) : Prop :=
  ∃ timer workDuration, t = .waiting timer s.lastTimestamp workDuration

/-- A thread that is not done can go on, or the one that holds the mutex can; unless the filter
runs, and the thread rests. -/
theorem exists_thread_step (hok : s.PoolOk) (ht : s.threadPool[i]? = some t)
    (hnot : t ≠ .returned) (hrests : s.isRunning = true → ¬ s.Rests t) :
    ∃ j te s', s.step (.thread j te) = .ok s' := by
  have hfollows := hok.follows t (List.mem_of_getElem? ht)
  cases t with
  | starting => exact ⟨i, .start 0 0, step_thread ht rfl⟩
  | reading timer => exact ⟨i, .read, step_thread ht rfl⟩
  | adding timer timestamp workDuration =>
    obtain ⟨fuel, r, hadd, -⟩ := Timer.exists_addTimestamp (hfollows timer rfl).2 timestamp
    exact ⟨i, .add fuel, step_thread ht (by rw [threadStep, hadd]; rfl)⟩
  | waiting timer timestamp workDuration =>
    have hwake : s.isRunning = false ∨ s.lastTimestamp ≠ timestamp := by
      cases hrunning : s.isRunning with
      | false => exact .inl rfl
      | true =>
        refine .inr fun hsame => hrests hrunning ⟨timer, workDuration, ?_⟩
        rw [hsame]
    exact ⟨i, .wake, step_thread ht (if_pos hwake)⟩
  | addingAgain timer timestamp workDuration =>
    obtain ⟨fuel, r, hadd, -⟩ := Timer.exists_addTimestamp (hfollows timer rfl).2 timestamp
    exact ⟨i, .addAgain fuel, step_thread ht (by rw [threadStep, hadd]; rfl)⟩
  | checking timer workDuration => exact ⟨i, .check, step_thread ht rfl⟩
  | sleeping timer workDuration =>
    obtain ⟨fuel, targetTime, hsleep, -⟩ := Timer.exists_sleep (hfollows timer rfl).2
      (-workDuration) 0
    exact ⟨i, .sleep fuel 0, step_thread ht (by rw [threadStep, hsleep]; rfl)⟩
  | locking timer targetTime =>
    rcases ThreadPool.exists_or_forall (fun t => t.isWorking = false) s.threadPool with
      ⟨j, u, hu, hworking⟩ | hfree
    · cases u with
      | working timer' now => exact ⟨j, .doWork 0, step_thread hu rfl⟩
      | _ => exact absurd rfl hworking
    · have hopen :
          ¬ (targetTime < targetTime ∨ s.threadPool.any FilterThread.isWorking = true) := by
        rw [not_or, Bool.not_eq_true, List.any_eq_false]
        exact ⟨lt_irrefl _, fun t ht => Bool.eq_false_iff.mp (hfree t ht)⟩
      by_cases hlate : targetTime - s.lastWorkRun > s.refreshPeriod.tdiv 2
      · exact ⟨i, .lock targetTime, step_thread ht (by rw [threadStep, if_neg hopen, if_pos hlate])⟩
      · exact ⟨i, .lock targetTime, step_thread ht (by rw [threadStep, if_neg hopen, if_neg hlate])⟩
  | working timer now => exact ⟨i, .doWork 0, step_thread ht rfl⟩
  | returned => exact absurd rfl hnot

/-- **The threads are joined.** Once they are to terminate, each of the threads takes at most ten
steps until they are joined, whatever the order; and until then one of them can take a step, if they
cannot be joined. -/
theorem join_returns {settings : FilterSettings} {workDuration : ℤ} {next : Option FilterSettings}
    {es' : List Event} (h : Runs.runChecked step (new settings workDuration) es = .ok s)
    (howner : s.poolOwner = .joining next) (hes : ∀ e ∈ es', ∀ n, e ≠ .joined n)
    (h' : Runs.runChecked step s es' = .ok s') :
    (∀ i, threadSteps i es' ≤ 10) ∧
      ((∃ i te s'', s'.step (.thread i te) = .ok s'') ∨
        ∀ numCpus, ∃ s'', s'.step (.joined numCpus) = .ok s'') := by
  have hok := poolOk_run h
  refine ⟨fun i => ?_, ?_⟩
  · have hcost := Runs.sum_cost_le (m := fun s => ThreadPool.share rank s.threadPool i)
      (I := fun s => s.PoolOk ∧ s.poolOwner = .joining next) (c := Event.isThread i)
      (A := fun e => ∀ n, e ≠ .joined n)
      (fun _ _ _ hs he hstep =>
        (joining_step hs.1 hs.2 he (moves_of_step hstep)).imp_right fun hshare => hshare i)
      ⟨hok, howner⟩ hes h'
    have hbound := ThreadPool.share_le (fun t (_ : t ∈ s.threadPool) => t.rank_le) i
    exact (Nat.le_add_left _ _).trans (hcost.trans hbound)
  · obtain ⟨hok', howner'⟩ := Runs.invariant_of_runChecked
      (I := fun s => s.PoolOk ∧ s.poolOwner = .joining next) (A := fun e => ∀ n, e ≠ .joined n)
      (fun _ _ _ hs he hstep => (joining_step hs.1 hs.2 he (moves_of_step hstep)).1)
      ⟨hok, howner⟩ hes h'
    rcases ThreadPool.exists_or_forall (· = .returned) s'.threadPool with ⟨i, t, ht, hnot⟩ | hall
    · refine .inl (exists_thread_step hok' ht hnot fun hrunning => ?_)
      cases howner'.symm.trans (hok'.running_iff.mp hrunning)
    · refine .inr fun numCpus => ⟨s'.joined next numCpus, ?_⟩
      simp only [step, howner']
      exact if_pos hall

/-- Two threads make three steps while the filter waits for them, with a new timestamp in between:
the settings have changed while the first one does the work. -/
theorem join_returns_sample : ∃ s s',
    Runs.runChecked step (new sampleSettings 0)
      (twoThreads ++ [.onSettingsChanged ⟨false, 16666667, 0, sixtyHertz_pos⟩]) = .ok s ∧
    Runs.runChecked step s [.thread 1 .read, .onChoreographer 36000000, .thread 0 (.doWork 0)] =
      .ok s' ∧
    (∀ i, threadSteps i [.thread 1 .read, .onChoreographer 36000000, .thread 0 (.doWork 0)] ≤ 10) ∧
    ((∃ i te s'', s'.step (.thread i te) = .ok s'') ∨
      ∀ numCpus, ∃ s'', s'.step (.joined numCpus) = .ok s'') :=
  have h : Runs.runChecked step (new sampleSettings 0)
    (twoThreads ++ [.onSettingsChanged ⟨false, 16666667, 0, sixtyHertz_pos⟩]) = .ok _ := rfl
  have h' : Runs.runChecked step _
    [.thread 1 .read, .onChoreographer 36000000, .thread 0 (.doWork 0)] = .ok _ := rfl
  ⟨_, _, h, h', join_returns h rfl (by simp) h'⟩

/-! ## No timestamps

While the last timestamp stays the same a thread adds it to its timer a few times, and then waits
for another one.
-/

/-- How often the timer of a thread has seen its timestamp, if the filter runs: not too often to
go on, or it waits for another one. -/
def CountOk (s : ChoreographerFilter) (t : FilterThread) : Prop :=
  s.isRunning = true →
    match t with
    | .starting | .returned => True
    | .waiting timer timestamp _ => timer.lastTimestamp = timestamp
    | .addingAgain timer timestamp _ => timer.lastTimestamp ≠ timestamp
    | .reading timer | .adding timer _ _ | .checking timer _ | .sleeping timer _
    | .locking timer _ | .working timer _ => 0 ≤ timer.repeatCount ∧ timer.repeatCount ≤ 6

theorem bmod_count {n : ℤ} (hn : 0 ≤ n ∧ n ≤ 6) : (n + 1).bmod (2 ^ 32) = n + 1 :=
  Int.bmod_eq_of_le (by omega) (by omega)

theorem countOk_thread (h : s.CountOk t) (hmoves : s.ThreadMoves te t t' s₁) : s.CountOk t' := by
  intro hrunning
  have hcount := h hrunning
  cases hmoves with
  | start => exact ⟨le_refl 0, show (0 : ℤ) ≤ 6 by decide⟩
  | @fresh timer timestamp workDuration fuel timer' hadd =>
    obtain ⟨-, -, hcases⟩ := Timer.addTimestamp_cases hadd
    change 0 ≤ timer'.repeatCount ∧ timer'.repeatCount ≤ 6
    split_ifs at hcases
    · obtain ⟨htaken, hnext⟩ := hcases
      have hfew := of_decide_eq_true htaken.symm
      rw [hnext, bmod_count hcount]
      exact ⟨Int.add_nonneg hcount.1 Int.one_nonneg, Int.add_le_add_right hfew 1⟩
    · rw [hcases.2]
      decide
  | stale hadd => exact (Timer.addTimestamp_cases hadd).2.1
  | @wake timer timestamp workDuration hwake =>
    rcases hwake with hstopped | hnew
    · exact absurd (hstopped.symm.trans hrunning) Bool.false_ne_true
    · exact fun heq => hnew (heq.symm.trans hcount)
  | @addAgain timer timestamp workDuration fuel r hadd =>
    obtain ⟨-, -, hcases⟩ := Timer.addTimestamp_cases hadd
    rw [if_neg (Ne.symm hcount)] at hcases
    change 0 ≤ r.2.repeatCount ∧ r.2.repeatCount ≤ 6
    rw [hcases.2]
    decide
  | finish => trivial
  | _ => exact hcount

theorem left_le (timer : Timer) (timestamp : ℤ) (h : 0 ≤ timer.repeatCount) :
    left timestamp timer ≤ 7 := by
  rw [left]
  split_ifs <;> omega

theorem left_of_ne {timer : Timer} {timestamp : ℤ} (h : timer.lastTimestamp ≠ timestamp) :
    left timestamp timer = 7 :=
  if_neg h

theorem left_of_eq {timer : Timer} {timestamp : ℤ} (h : timer.lastTimestamp = timestamp) :
    left timestamp timer = (6 - timer.repeatCount).toNat :=
  if_pos h

/-- A thread that takes a step comes closer to its rest. -/
theorem spin_thread (hrunning : s.isRunning = true) (h : s.CountOk t)
    (hmoves : s.ThreadMoves te t t' s₁) :
    t'.spin s.lastTimestamp + 1 ≤ t.spin s.lastTimestamp := by
  have hcount := h hrunning
  cases hmoves with
  | @start now₁ now₂ =>
    have hleft := left_le (.new s.refreshPeriod s.appToSfDelay now₁ now₂) s.lastTimestamp
      (le_refl 0)
    simp only [spin]
    omega
  | read =>
    simp only [spin, if_true]
    omega
  | @fresh timer timestamp workDuration fuel timer' hadd =>
    obtain ⟨-, hlast, hcases⟩ := Timer.addTimestamp_cases hadd
    simp only [spin]
    split_ifs with hstamp
    · -- the timer takes this timestamp once more, or for the first time
      rw [left_of_eq (hlast.trans hstamp)]
      split_ifs at hcases with hsame
      · have hfew := of_decide_eq_true hcases.1.symm
        rw [left_of_eq (hsame.symm.trans hstamp), hcases.2, bmod_count hcount]
        omega
      · have hother : timer.lastTimestamp ≠ s.lastTimestamp := fun heq =>
          hsame (hstamp.trans heq.symm)
        rw [left_of_ne hother, hcases.2]
        decide
    · rw [left_of_ne fun heq => hstamp (hlast.symm.trans heq)]
  | @stale timer timestamp workDuration fuel timer' hadd =>
    simp only [spin]
    split_ifs <;> omega
  | @wake timer timestamp workDuration hwake =>
    have hnew : timestamp ≠ s.lastTimestamp := by
      rcases hwake with hstopped | hnew
      · exact absurd (hstopped.symm.trans hrunning) Bool.false_ne_true
      · exact Ne.symm hnew
    simp only [spin, if_neg hnew, if_true]
    omega
  | @addAgain timer timestamp workDuration fuel r hadd =>
    obtain ⟨-, hlast, hcases⟩ := Timer.addTimestamp_cases hadd
    rw [if_neg (Ne.symm hcount)] at hcases
    simp only [spin]
    split_ifs with hstamp
    · rw [left_of_eq (hlast.trans hstamp), hcases.2]
      decide
    · rw [left_of_ne fun heq => hstamp (hlast.symm.trans heq)]
  | finish hstopped => exact absurd (hstopped.symm.trans hrunning) Bool.false_ne_true
  | _ =>
    simp only [spin]
    omega

theorem spin_le (h : s.CountOk t) (hrunning : s.isRunning = true) :
    t.spin s.lastTimestamp ≤ 49 := by
  have hcount := h hrunning
  cases t with
  | reading timer | checking timer | sleeping timer | locking timer | working timer =>
    have hleft := left_le timer s.lastTimestamp hcount.1
    simp only [spin]
    omega
  | adding timer =>
    have hleft := left_le timer s.lastTimestamp hcount.1
    simp only [spin]
    split_ifs <;> omega
  | waiting | addingAgain =>
    simp only [spin]
    split_ifs <;> decide
  | starting | returned =>
    simp only [spin]
    decide

theorem countOk_step (hok : s.PoolOk) (h : ∀ t ∈ s.threadPool, s.CountOk t)
    (hmoves : s.Moves e s') : ∀ t ∈ s'.threadPool, s'.CountOk t := by
  cases hmoves with
  | onChoreographer | keepSettings => exact h
  | newSettings | destroy => exact fun _ _ hrunning => nomatch hrunning
  | construct howner hconstructed =>
    intro t ht hrunning
    rcases List.mem_append.mp ht with ht | ht
    · exact h t ht (hok.running_iff.mpr howner)
    · rw [List.eq_of_mem_replicate ht]
      trivial
  | @joined next numCpus howner hreturned =>
    cases next with
    | none => exact fun _ hmem => absurd hmem List.not_mem_nil
    | some settings =>
      intro t ht hrunning
      rw [List.eq_of_mem_replicate ht]
      trivial
  | @thread i te t t' s₁ ht hthread =>
    have hnext := ThreadPool.forall_set (i := i) h
      (countOk_thread (h t (List.mem_of_getElem? ht)) hthread)
    cases hthread <;> exact hnext

/-- The steps of the threads while nothing else happens. -/
theorem spin_step {timestamp : ℤ} (hok : s.PoolOk ∧ ∀ t ∈ s.threadPool, s.CountOk t)
    (hs : s.isRunning = true ∧ s.lastTimestamp = timestamp) (he : ∃ i te, e = .thread i te)
    (hmoves : s.Moves e s') :
    (s'.isRunning = true ∧ s'.lastTimestamp = timestamp) ∧ ∀ j,
      ThreadPool.share (spin timestamp) s'.threadPool j + e.isThread j ≤
        ThreadPool.share (spin timestamp) s.threadPool j := by
  obtain ⟨i, te, rfl⟩ := he
  obtain ⟨hrunning, rfl⟩ := hs
  cases hmoves with
  | @thread _ _ t t' s₁ ht hthread =>
    have hlt := spin_thread hrunning (hok.2 t (List.mem_of_getElem? ht)) hthread
    have hsame : s₁.isRunning = true ∧ s₁.lastTimestamp = s.lastTimestamp := by
      cases hthread <;> exact ⟨hrunning, rfl⟩
    exact ⟨hsame, share_thread ht hlt te⟩

/-- **The threads do not spin.** While the choreographer sends no timestamp and nobody terminates
them, each of the threads takes at most 49 steps; and when none of them can take a step any more,
all of them wait for a fresh timestamp. -/
theorem rests {settings : FilterSettings} {workDuration : ℤ} {es' : List Event}
    (h : Runs.runChecked step (new settings workDuration) es = .ok s)
    (howner : s.poolOwner = .none) (hes : ∀ e ∈ es', ∃ i te, e = .thread i te)
    (h' : Runs.runChecked step s es' = .ok s') :
    (∀ i, threadSteps i es' ≤ 49) ∧
      ((∃ i te s'', s'.step (.thread i te) = .ok s'') ∨ ∀ t ∈ s'.threadPool, s'.Rests t) := by
  have hok : s.PoolOk ∧ ∀ t ∈ s.threadPool, s.CountOk t := by
    refine Runs.invariant_of_runChecked (A := fun _ => True)
      (I := fun s => s.PoolOk ∧ ∀ t ∈ s.threadPool, s.CountOk t)
      (fun _ _ _ hs _ hstep => ⟨poolOk_step hs.1 (moves_of_step hstep),
        countOk_step hs.1 hs.2 (moves_of_step hstep)⟩) ?_ (fun _ _ => trivial) h
    exact ⟨poolOk_new settings workDuration, by rintro _ ⟨⟩⟩
  have hrunning := hok.1.running_iff.mpr howner
  have hstep : ∀ t e t', ((t.PoolOk ∧ ∀ u ∈ t.threadPool, t.CountOk u) ∧
      t.isRunning = true ∧ t.lastTimestamp = s.lastTimestamp) →
      (∃ i te, e = .thread i te) → step t e = .ok t' →
      ((t'.PoolOk ∧ ∀ u ∈ t'.threadPool, t'.CountOk u) ∧
        t'.isRunning = true ∧ t'.lastTimestamp = s.lastTimestamp) ∧ ∀ j,
        ThreadPool.share (spin s.lastTimestamp) t'.threadPool j + e.isThread j ≤
          ThreadPool.share (spin s.lastTimestamp) t.threadPool j := by
    intro t e t' ht he hstep
    have hmoves := moves_of_step hstep
    obtain ⟨hs, hle⟩ := spin_step ht.1 ht.2 he hmoves
    exact ⟨⟨⟨poolOk_step ht.1.1 hmoves, countOk_step ht.1.1 ht.1.2 hmoves⟩, hs⟩, hle⟩
  refine ⟨fun i => ?_, ?_⟩
  · have hcost := Runs.sum_cost_le (c := Event.isThread i)
      (m := fun t => ThreadPool.share (spin s.lastTimestamp) t.threadPool i)
      (fun t e t' ht he hmove => (hstep t e t' ht he hmove).imp_right fun hshare => hshare i)
      ⟨hok, hrunning, rfl⟩ hes h'
    have hbound := ThreadPool.share_le (fun t ht => spin_le (hok.2 t ht) hrunning) i
    exact (Nat.le_add_left _ _).trans (hcost.trans hbound)
  · obtain ⟨⟨hok', -⟩, hrunning', -⟩ := Runs.invariant_of_runChecked
      (fun t e t' ht he hmove => (hstep t e t' ht he hmove).1) ⟨hok, hrunning, rfl⟩ hes h'
    by_cases hall : ∀ t ∈ s'.threadPool, s'.Rests t
    · exact .inr hall
    · simp only [not_forall] at hall
      obtain ⟨t, ht, hnot⟩ := hall
      obtain ⟨i, hi⟩ := List.mem_iff_getElem?.mp ht
      exact .inl (exists_thread_step hok' hi (hok'.alive hrunning' t ht) fun _ => hnot)

/-- A round of the second thread while the first one does the work. -/
theorem rests_sample : ∃ s s',
    Runs.runChecked step (new sampleSettings 0) twoThreads = .ok s ∧
    Runs.runChecked step s (round 1 19000000 52000000).dropLast = .ok s' ∧
    (∀ i, threadSteps i (round 1 19000000 52000000).dropLast ≤ 49) ∧
    ((∃ i te s'', s'.step (.thread i te) = .ok s'') ∨ ∀ t ∈ s'.threadPool, s'.Rests t) :=
  have h : Runs.runChecked step (new sampleSettings 0) twoThreads = .ok _ := rfl
  have h' : Runs.runChecked step _ (round 1 19000000 52000000).dropLast = .ok _ := rfl
  ⟨_, _, h, h', rests h rfl (by simp [round]) h'⟩

end ChoreographerFilter

end GameSdk
