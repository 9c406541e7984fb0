import GameSdk.FilterProgress
import GameSdk.FramePacing

/-!
# The filter and the frame loop (`SwappyCommon.cpp`)

The constructor of `SwappyCommon` gives its `wakeClient` to the filter as the work to be done: a
thread of the filter that returns from `mDoWork` has counted a frame, and learns how long a swap
takes. So the time between the calls of the filter is the time that frames take.

A run of the two together has a run of each in it: the events of the filter are one, and those of
the loop are another. So what is proved of either holds here, and the spacing of the work becomes
the pace of the frames.

The frames that the frame loop has waited for are no more than those counted, and these take the
filter the time between its calls.
-/

namespace GameSdk

/-- The filter and the frame loop. -/
structure SwappySystem where
  filter : ChoreographerFilter
  loop : FrameLoop

/-- The only call of `mDoWork` is that of `wakeClient`. -/
def ChoreographerFilter.Event.doWorks : ChoreographerFilter.Event → Bool
  | .thread _ (.doWork _) => true
  | _ => false

namespace ChoreographerFilter

variable {s s' : ChoreographerFilter} {e : Event}

/-! ## What the filter counts

The calls of `mDoWork` that have returned, and how long the work takes that is spaced by half a
period each time.
-/

/-- How many calls of `mDoWork` have returned. -/
def completed (s : ChoreographerFilter) : ℤ := s.workRuns.length - s.workers

theorem completed_step (hmoves : s.Moves e s') :
    s'.completed = s.completed + if e.doWorks then 1 else 0 := by
  cases hmoves with
  | onChoreographer | keepSettings | newSettings | destroy => exact (add_zero _).symm
  | @construct useAffinity numCpus =>
    have hworkers : (s.construct useAffinity numCpus).workers = s.workers := workers_launch numCpus
    rw [completed, hworkers]
    exact (add_zero _).symm
  | @joined next numCpus howner hreturned =>
    have hzero : s.workers = 0 := workers_eq_zero fun t ht => by rw [hreturned t ht]; rfl
    have hworkers : (s.joined next numCpus).workers = 0 := by
      cases next with
      | none => rfl
      | some settings => exact workers_launch numCpus
    rw [completed, completed, hworkers, hzero]
    cases next <;> exact (add_zero _).symm
  | @thread i te t t' s₁ ht hthread =>
    have hcount := workers_set s₁ t' ht
    -- one more call has begun, or one more has returned, or nothing has changed
    have hcompleted : ∀ n b b' : ℕ, s₁.workRuns.length = s.workRuns.length + n →
        (if t.isWorking then 1 else 0) = b → (if t'.isWorking then 1 else 0) = b' →
        completed { s₁ with threadPool := s.threadPool.set i t' } = s.completed + (n + b - b') := by
      rintro n _ _ hruns rfl rfl
      rw [completed, completed]
      change (s₁.workRuns.length : ℤ) - _ = _
      omega
    cases hthread with
    | lock => exact hcompleted 1 0 1 rfl rfl rfl
    | doWork => exact hcompleted 0 1 0 rfl rfl rfl
    | _ => exact hcompleted 0 0 0 rfl rfl rfl

/-- The refresh periods that the filter works with, and is to work with, are this long. -/
structure PeriodsFrom (p : ℤ) (s : ChoreographerFilter) : Prop where
  now : p ≤ s.refreshPeriod
  next : ∀ settings, s.poolOwner = .joining (some settings) → p ≤ settings.refreshPeriod
  past : ∀ w ∈ s.workRuns, p ≤ w.refreshPeriod

/-- Settings with such a refresh period, if it is a change of the settings. -/
def Event.PeriodFrom (p : ℤ) : Event → Prop
  | .onSettingsChanged settings => p ≤ settings.refreshPeriod
  | _ => True

theorem periodsFrom_step {p : ℤ} (h : s.PeriodsFrom p) (he : e.PeriodFrom p)
    (hmoves : s.Moves e s') : s'.PeriodsFrom p := by
  cases hmoves with
  | onChoreographer | keepSettings | construct => exact ⟨h.now, h.next, h.past⟩
  | newSettings =>
    refine ⟨h.now, fun settings howner => ?_, h.past⟩
    cases howner
    exact he
  | destroy => exact ⟨h.now, fun settings howner => (nomatch howner), h.past⟩
  | @joined next numCpus howner hreturned =>
    cases next with
    | none => exact ⟨h.now, fun settings howner => (nomatch howner), h.past⟩
    | some settings =>
      exact ⟨h.next settings howner, fun settings howner => (nomatch howner), h.past⟩
  | thread ht hthread =>
    cases hthread with
    | lock => exact ⟨h.now, h.next, List.forall_mem_cons.mpr ⟨h.now, h.past⟩⟩
    | _ => exact ⟨h.now, h.next, h.past⟩

/-- Runs of the work so far apart take their time. -/
theorem length_le_of_spaced {p : ℤ} {w v : WorkRun} {runs : List WorkRun}
    (hspaced : (w :: runs).IsChain fun w v => w.refreshPeriod.tdiv 2 < w.now - v.now)
    (hfrom : ∀ u ∈ w :: runs, p ≤ u.refreshPeriod) (hlast : (w :: runs).getLast? = some v) :
    runs.length * p.tdiv 2 ≤ w.now - v.now := by
  induction runs generalizing w with
  | nil =>
    obtain rfl : w = v := by simpa using hlast
    simp
  | cons u runs ih =>
    obtain ⟨hgap, hrest⟩ := List.isChain_cons_cons.mp hspaced
    obtain ⟨hw, hfrom'⟩ := List.forall_mem_cons.mp hfrom
    rw [List.getLast?_cons_cons] at hlast
    have hlater := ih hrest hfrom' hlast
    have hhalf : p.tdiv 2 ≤ w.refreshPeriod.tdiv 2 := Int.tdiv_le_tdiv (by decide) hw
    rw [List.length_cons, Nat.cast_succ, add_mul, one_mul]
    omega

end ChoreographerFilter

namespace SwappySystem

/-! ## The two together

An event of one part that is not the work is an event of that part alone.
-/

/-- One thing that happens. -/
inductive Event where
  | filter (e : ChoreographerFilter.Event)
  /-- a thread of the filter calls `wakeClient` and returns from it -/
  | wakeClient (i : ℕ) (now : ℤ)
  | loop (e : FrameLoop.Event)

/-- What is not a step of the program. -/
inductive Blocked where
  | blocked
  deriving DecidableEq, Repr

/-- The filter and the loop are new. -/
def new (settings : FilterSettings) (workDuration : ℤ) (pacer : SwappyCommon) (now : ℤ) :
    SwappySystem :=
  ⟨.new settings workDuration, .new pacer now⟩

variable (s : SwappySystem)

/-- A step of the filter alone. -/
def stepFilter (e : ChoreographerFilter.Event) : Except Blocked SwappySystem :=
  match s.filter.step e with
  | .ok filter => .ok { s with filter }
  | .error _ => .error .blocked

/-- A step of the frame loop alone. -/
def stepLoop (e : FrameLoop.Event) : Except Blocked SwappySystem :=
  match s.loop.step e with
  | .ok loop => .ok { s with loop }
  | .error _ => .error .blocked

/-- One event; the work of the filter is a frame of the loop. -/
def step : Event → Except Blocked SwappySystem
  | .filter e => if e.doWorks then .error .blocked else s.stepFilter e
  | .wakeClient i now =>
    { s with loop := s.loop.wakeClient now }.stepFilter (.thread i (.doWork s.loop.swapDuration))
  | .loop e => if e.ticks = 0 then s.stepLoop e else .error .blocked

variable {s} {s' : SwappySystem} {e : Event} {es : List Event}

theorem stepFilter_eq_ok {e : ChoreographerFilter.Event} :
    s.stepFilter e = .ok s' ↔ ∃ filter, s.filter.step e = .ok filter ∧ s' = { s with filter } := by
  rw [stepFilter]
  cases s.filter.step e with
  | ok filter => simp [eq_comm]
  | error => simp

theorem stepLoop_eq_ok {e : FrameLoop.Event} :
    s.stepLoop e = .ok s' ↔ ∃ loop, s.loop.step e = .ok loop ∧ s' = { s with loop } := by
  rw [stepLoop]
  cases s.loop.step e with
  | ok loop => simp [eq_comm]
  | error => simp

/-! ## The parts

The two runs in a run.
-/

theorem filter_step (h : s.step e = .ok s') :
    s'.filter = s.filter ∨ ∃ fe, s.filter.step fe = .ok s'.filter := by
  cases e with
  | filter e =>
    rw [step] at h
    split_ifs at h
    obtain ⟨filter, hstep, rfl⟩ := stepFilter_eq_ok.mp h
    exact .inr ⟨e, hstep⟩
  | wakeClient i now =>
    obtain ⟨filter, hstep, rfl⟩ := stepFilter_eq_ok.mp h
    exact .inr ⟨_, hstep⟩
  | loop e =>
    rw [step] at h
    split_ifs at h
    obtain ⟨loop, -, rfl⟩ := stepLoop_eq_ok.mp h
    exact .inl rfl

theorem loop_step (h : s.step e = .ok s') :
    s'.loop = s.loop ∨ ∃ le, s.loop.step le = .ok s'.loop := by
  cases e with
  | filter e =>
    rw [step] at h
    split_ifs at h
    obtain ⟨filter, -, rfl⟩ := stepFilter_eq_ok.mp h
    exact .inl rfl
  | wakeClient i now =>
    obtain ⟨filter, -, rfl⟩ := stepFilter_eq_ok.mp h
    exact .inr ⟨.wakeClient now, rfl⟩
  | loop e =>
    rw [step] at h
    split_ifs at h
    obtain ⟨loop, hstep, rfl⟩ := stepLoop_eq_ok.mp h
    exact .inr ⟨e, hstep⟩

/-! ## The pace of the frames

How many frames are counted between two times, and how many are shown.
-/

/-- The loop has counted the calls of `mDoWork` that have returned. -/
theorem counted_step (hcount : s.loop.currentFrame = s.filter.completed) (h : s.step e = .ok s') :
    s'.loop.currentFrame = s'.filter.completed := by
  cases e with
  | filter e =>
    rw [step] at h
    split_ifs at h with he
    obtain ⟨filter, hstep, rfl⟩ := stepFilter_eq_ok.mp h
    have hnext := ChoreographerFilter.completed_step (ChoreographerFilter.moves_of_step hstep)
    rw [if_neg he, add_zero] at hnext
    exact hcount.trans hnext.symm
  | wakeClient i now =>
    obtain ⟨filter, hstep, rfl⟩ := stepFilter_eq_ok.mp h
    have hnext := ChoreographerFilter.completed_step (ChoreographerFilter.moves_of_step hstep)
    exact (congrArg (· + 1) hcount).trans hnext.symm
  | loop e =>
    rw [step] at h
    split_ifs at h with he
    obtain ⟨loop, hstep, rfl⟩ := stepLoop_eq_ok.mp h
    have hnext := FrameLoop.currentFrame_step (FrameLoop.moves_of_step hstep)
    rw [he, add_zero] at hnext
    exact hnext.trans hcount

/-- Settings with such a refresh period, if it is a change of the settings of the filter. -/
def Event.PeriodFrom (p : ℤ) : Event → Prop
  | .filter e => e.PeriodFrom p
  | _ => True

theorem periodsFrom_step {p : ℤ} (hfrom : s.filter.PeriodsFrom p) (he : e.PeriodFrom p)
    (h : s.step e = .ok s') : s'.filter.PeriodsFrom p := by
  cases e with
  | filter e =>
    rw [step] at h
    split_ifs at h
    obtain ⟨filter, hstep, rfl⟩ := stepFilter_eq_ok.mp h
    exact ChoreographerFilter.periodsFrom_step hfrom he (ChoreographerFilter.moves_of_step hstep)
  | wakeClient i now =>
    obtain ⟨filter, hstep, rfl⟩ := stepFilter_eq_ok.mp h
    have hmoves := ChoreographerFilter.moves_of_step hstep
    exact ChoreographerFilter.periodsFrom_step hfrom (by trivial) hmoves
  | loop e =>
    rw [step] at h
    split_ifs at h
    obtain ⟨loop, -, rfl⟩ := stepLoop_eq_ok.mp h
    exact hfrom

/-- **Frames take their time.** If the refresh periods are all `p` or longer, the frames that have
waited, with all their swap intervals and late frames but one, have taken half of `p` for each of
these, from the first call of `wakeClient` to the last. -/
theorem frames_take_time {p : ℤ} (hp : 0 ≤ p) {settings : FilterSettings} {workDuration : ℤ}
    {pacer : SwappyCommon} {now : ℤ} (hsettings : p ≤ settings.refreshPeriod)
    (hes : ∀ e ∈ es, e.PeriodFrom p)
    (h : Runs.runChecked step (new settings workDuration pacer now) es = .ok s)
    {first last : WorkRun} (hlast : s.filter.workRuns.head? = some last)
    (hfirst : s.filter.workRuns.getLast? = some first) :
    ((s.loop.waits.map Wait.periods).sum - 1) * p.tdiv 2 ≤ last.now - first.now := by
  have hperiods : (s.loop.waits.map Wait.periods).sum ≤ s.loop.currentFrame := by
    obtain ⟨les, hrun⟩ := Runs.exists_runChecked_of_part (f := SwappySystem.loop)
      (fun _ _ _ => loop_step) h
    obtain ⟨ws, hwaits, hpaced⟩ := FrameLoop.paced_run (FrameLoop.inv_new pacer now) hrun
    have hinv := (FrameLoop.inv_new pacer now).run hrun
    have hnone : (FrameLoop.new pacer now).waits = [] := rfl
    rw [hwaits, hnone, List.append_nil]
    exact (le_of_eq (add_zero _).symm).trans (hpaced.trans (FrameLoop.paced_le hinv))
  have hcount : s.loop.currentFrame = s.filter.completed :=
    Runs.invariant_of_runChecked (A := fun _ => True)
      (fun _ _ _ hcount _ hstep => counted_step hcount hstep) rfl (fun _ _ => trivial) h
  have hfrom : s.filter.PeriodsFrom p := by
    refine Runs.invariant_of_runChecked (A := Event.PeriodFrom p)
      (fun _ _ _ hfrom he hstep => periodsFrom_step hfrom he hstep) ?_ hes h
    exact ⟨hsettings, fun settings howner => (nomatch howner), fun w hw => nomatch hw⟩
  obtain ⟨fes, hrun⟩ := Runs.exists_runChecked_of_part (f := SwappySystem.filter)
    (fun _ _ _ => filter_step) h
  have hspaced := (ChoreographerFilter.workOk_run hrun).spaced
  obtain ⟨runs, hruns⟩ := List.head?_eq_some_iff.mp hlast
  rw [hruns] at hspaced hfirst
  have htime := ChoreographerFilter.length_le_of_spaced hspaced (hruns ▸ hfrom.past) hfirst
  have hle : (s.loop.waits.map Wait.periods).sum - 1 ≤ runs.length := by
    rw [ChoreographerFilter.completed, hruns, List.length_cons] at hcount
    omega
  exact (Int.mul_le_mul_of_nonneg_right hle (Int.tdiv_nonneg hp (by decide))).trans htime

/-- Two frames, and three calls of `wakeClient`. -/
def sampleRun : List Event :=
  [.filter (.construct true 1), .filter (.onChoreographer 5000000),
    .filter (.thread 0 (.start 1000000 1000000))] ++
  [.filter (.thread 0 .read), .filter (.thread 0 (.add 2)), .filter (.thread 0 .check),
    .filter (.thread 0 (.sleep 2 6000000)), .filter (.thread 0 (.lock 18000000)),
    .wakeClient 0 18000001] ++
  [.filter (.thread 0 .read), .filter (.thread 0 (.add 2)), .filter (.thread 0 .check),
    .filter (.thread 0 (.sleep 2 19000000)), .filter (.thread 0 (.lock 35000000)),
    .wakeClient 0 35000001] ++
  [.loop (.onPreSwap 36000000), .loop (.onPostSwap 37000000), .loop (.clampSwapDuration 37000000),
    .loop .waitUntilTargetFrame, .loop (.lastFrameIsComplete true),
    .loop (.getPrevFrameGpuTime 0 38000000), .loop .updateSwapInterval,
    .loop (.updateDisplayTimings FrameLoop.noRates), .loop (.startFrame 38000000),
    .loop (.setAutoPipelineMode false), .loop (.onPreSwap 39000000)] ++
  [.filter (.thread 0 .read), .filter (.thread 0 (.add 2)), .filter (.thread 0 .check),
    .filter (.thread 0 (.sleep 3 36000000)), .filter (.thread 0 (.lock 52000000)),
    .wakeClient 0 52000001] ++
  [.filter (.thread 0 .read), .filter (.thread 0 (.add 2)), .filter (.thread 0 .check),
    .filter (.thread 0 (.sleep 4 53000000)), .filter (.thread 0 (.lock 69000000)),
    .wakeClient 0 69000001] ++
  [.loop .waitUntilTargetFrame, .loop (.lastFrameIsComplete true),
    .loop (.getPrevFrameGpuTime 0 70000000)]

/-- The second frame waits for two refresh periods. -/
theorem frames_take_time_sample : ∃ s : SwappySystem, s.loop.waits.length = 2 ∧
    ((s.loop.waits.map Wait.periods).sum - 1) * (16666667 : ℤ).tdiv 2 ≤ 69000000 - 18000000 :=
  have h : Runs.runChecked step (new ChoreographerFilter.sampleSettings 0 FrameLoop.samplePacer 0)
    sampleRun = .ok _ := rfl
  ⟨_, rfl, frames_take_time (p := 16666667) (by decide) (le_refl _) (by simp [sampleRun,
    Event.PeriodFrom, ChoreographerFilter.Event.PeriodFrom]) h rfl rfl⟩

end SwappySystem

end GameSdk
