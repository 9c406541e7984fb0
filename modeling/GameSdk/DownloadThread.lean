import GameSdk.Runs
import GameSdk.TuningForkImpl

/-!
# The download thread (`tuningfork_extra.cpp`)

The thread asks for fidelity parameters until it gets them. It waits twice as long after each
attempt, and gives up once it has waited longer than the ultimate timeout. When the first
attempt fails, the game gets the default parameters.

Time is in milliseconds, of 64 bits. The comparison with the time an attempt took converts
it to nanoseconds.

An attempt is an event from outside: what the call returns, and how long it takes. What the thread
does is a list of actions. Signed overflow stays undefined.
-/

namespace GameSdk

namespace DownloadThread

/-- Signed overflow. -/
inductive Undefined where
  | overflow
  deriving DecidableEq, Repr

/-- A result of 64-bit arithmetic. -/
def int64 (n : ℤ) : Except Undefined ℤ :=
  if -2 ^ 63 ≤ n ∧ n < 2 ^ 63 then .ok n else .error .overflow

/-- A call of `TuningFork_getFidelityParameters`: what it returns, and the nanoseconds it takes. -/
structure Attempt where
  err : TFErrorCode
  dt : ℕ
  deriving DecidableEq, Repr

/-- What the callback is given. -/
inductive Params where
  | defaults | downloaded
  deriving DecidableEq, Repr

/-- What the thread does. -/
inductive Action where
  | getFidelityParameters (timeoutMs : UInt32)
  | saveFidelityParams
  | callback (params : Params)
  | sleepFor (ns : ℤ)
  | free (params : Params)
  deriving DecidableEq, Repr

/-- The variables of the loop. -/
structure Retry where
  waitTime : ℤ
  firstTime : Bool
  deriving DecidableEq, Repr

/-- One time through the loop: what it does, and how it goes on, if it does. -/
def body (ultimateTimeoutMs : Int32) (r : Retry) (a : Attempt) :
    Except Undefined (List Action × Option Retry) := do
  let call := [.getFidelityParameters (UInt32.ofInt r.waitTime)]
  if a.err = .ok then
    .ok (call ++ [.saveFidelityParams, .free .defaults, .callback .downloaded, .free .downloaded],
      none)
  else
    let callback := if r.firstTime then [.callback .defaults] else []
    -- Wait if the call returned earlier than expected
    let waitNs ← int64 (r.waitTime * 1000000)
    let sleep := if waitNs > a.dt then [.sleepFor (waitNs - a.dt)] else []
    if r.waitTime > ultimateTimeoutMs.toInt then
      .ok (call ++ callback ++ sleep ++ [.free .defaults], none)
    else
      let waitTime ← int64 (r.waitTime * 2)  -- back off
      .ok (call ++ callback ++ sleep, some ⟨waitTime, false⟩)

end DownloadThread

/-- The thread, and what it has done. -/
structure DownloadThread where
  /-- none after the loop -/
  loop : Option DownloadThread.Retry
  actions : List DownloadThread.Action
  deriving DecidableEq, Repr

namespace DownloadThread

/-- The thread before its first attempt. -/
def start (initialTimeoutMs : Int32) : DownloadThread := ⟨some ⟨initialTimeoutMs.toInt, true⟩, []⟩

/-- One attempt. -/
def step (ultimateTimeoutMs : Int32) (t : DownloadThread) (a : Attempt) :
    Except Undefined DownloadThread :=
  match t.loop with
  | none => .ok t
  | some r => do
    let (actions, loop) ← body ultimateTimeoutMs r a
    .ok ⟨loop, t.actions ++ actions⟩

/-- What is done with parameters: the callback, and the release. -/
def Action.isParams : Action → Bool
  | .callback _ => true
  | .free _ => true
  | _ => false

/-- The loop ends after some of the attempts. The callback was called once, with the default
parameters, and they were freed after that, once. -/
def EndsWell (initialTimeoutMs ultimateTimeoutMs : Int32) (attempts : ℕ → Attempt) : Prop :=
  ∃ n t, Runs.runChecked (step ultimateTimeoutMs) (start initialTimeoutMs)
      ((List.range n).map attempts) = .ok t ∧
    t.loop = none ∧ t.actions.filter Action.isParams = [.callback .defaults, .free .defaults]

variable {ultimateTimeoutMs : Int32} {r : Retry} {a : Attempt}

/-! ## One attempt that fails

What the loop does then, and with which waiting time it goes on.
-/

/-- Within the range the result is as it is. -/
theorem int64_of_lt {n : ℤ} (hlo : -2 ^ 63 ≤ n) (hhi : n < 2 ^ 63) : int64 n = .ok n :=
  if_pos ⟨hlo, hhi⟩

/-- A result is what was computed. -/
theorem int64_eq_ok {n m : ℤ} (h : int64 n = .ok m) : m = n := by
  rw [int64] at h
  split at h
  · exact (Except.ok.inj h).symm
  · cases h

/-- It goes on with twice the time unless it has waited long enough. -/
theorem body_eq_ok {actions : List Action} {loop : Option Retry} (hfail : a.err ≠ .ok)
    (h : body ultimateTimeoutMs r a = .ok (actions, loop)) :
    loop = (if r.waitTime > ultimateTimeoutMs.toInt then none
        else some ⟨r.waitTime * 2, false⟩) ∧
      actions.filter Action.isParams =
        (if r.firstTime then [.callback .defaults] else []) ++
          if loop = none then [.free .defaults] else [] := by
  simp only [body, if_neg hfail] at h
  obtain ⟨waitNs, hns, h⟩ := Checked.bind_eq_ok.mp h
  have hsleep : (if waitNs > a.dt then [Action.sleepFor (waitNs - a.dt)] else []).filter
      Action.isParams = [] := by
    split <;> rfl
  have hcallback : (if r.firstTime then [Action.callback .defaults] else []).filter
      Action.isParams = if r.firstTime then [.callback .defaults] else [] := by
    split <;> rfl
  split at h
  · next hgt =>
    cases h
    refine ⟨(if_pos hgt).symm, ?_⟩
    simp only [List.filter_append, hsleep, hcallback]
    simp [Action.isParams]
  · next hgt =>
    obtain ⟨waitTime, hwait, h⟩ := Checked.bind_eq_ok.mp h
    obtain rfl := int64_eq_ok hwait
    cases h
    refine ⟨(if_neg hgt).symm, ?_⟩
    simp only [List.filter_append, hsleep, hcallback]
    simp [Action.isParams]

/-- Times of 32 bits do not overflow. -/
theorem exists_body (ultimateTimeoutMs : Int32) {r : Retry} (hlo : -2 ^ 32 ≤ r.waitTime)
    (hhi : r.waitTime < 2 ^ 32) (a : Attempt) :
    ∃ actions loop, body ultimateTimeoutMs r a = .ok (actions, loop) := by
  have hns := int64_of_lt (n := r.waitTime * 1000000) (by omega) (by omega)
  have htwice := int64_of_lt (n := r.waitTime * 2) (by omega) (by omega)
  simp only [body, hns, htwice, Checked.ok_bind]
  split
  · exact ⟨_, _, rfl⟩
  · split <;> exact ⟨_, _, rfl⟩

/-- A step is one time through the loop. -/
theorem step_of_body {t : DownloadThread} {actions : List Action} {loop : Option Retry}
    (hloop : t.loop = some r) (h : body ultimateTimeoutMs r a = .ok (actions, loop)) :
    step ultimateTimeoutMs t a = .ok ⟨loop, t.actions ++ actions⟩ := by
  rw [step, hloop]
  simp only [h, Checked.ok_bind]

/-- What a step does, as long as there is a loop. -/
theorem step_eq_ok {t t' : DownloadThread} (h : step ultimateTimeoutMs t a = .ok t') :
    t.loop = none ∧ t' = t ∨ ∃ r actions loop, t.loop = some r ∧
      body ultimateTimeoutMs r a = .ok (actions, loop) ∧ t' = ⟨loop, t.actions ++ actions⟩ := by
  rw [step] at h
  rcases hloop : t.loop with _ | r
  · rw [hloop] at h
    exact Or.inl ⟨rfl, (Except.ok.inj h).symm⟩
  · rw [hloop] at h
    obtain ⟨⟨actions, loop⟩, hbody, h⟩ := Checked.bind_eq_ok.mp h
    exact Or.inr ⟨r, actions, loop, rfl, hbody, (Except.ok.inj h).symm⟩

/-! ## The parameters

The callback is called with the first failure, and the default parameters are freed when the loop
ends. This is so whichever attempts come in between.
-/

/-- The callback has come once the first attempt is over, and the release comes at the end. -/
def ParamsOk (t : DownloadThread) : Prop :=
  t.actions.filter Action.isParams =
    match t.loop with
    | some r => if r.firstTime then [] else [.callback .defaults]
    | none => [.callback .defaults, .free .defaults]

/-- An attempt that fails keeps it so. -/
theorem paramsOk_step {t t' : DownloadThread} (ht : t.ParamsOk) (hfail : a.err ≠ .ok)
    (h : step ultimateTimeoutMs t a = .ok t') : t'.ParamsOk := by
  obtain ⟨-, rfl⟩ | ⟨r, actions, loop, hloop, hbody, rfl⟩ := step_eq_ok h
  · exact ht
  · obtain ⟨hnext, hactions⟩ := body_eq_ok hfail hbody
    rw [ParamsOk, hloop] at ht
    rw [ParamsOk, List.filter_append, ht, hactions]
    rcases hfirst : r.firstTime with _ | _
    · split_ifs at hnext <;> subst hnext <;> simp [hfirst]
    · split_ifs at hnext <;> subst hnext <;> simp [hfirst]

/-! ## The loop

A positive waiting time doubles, and outgrows the ultimate timeout. Zero stays zero, and a negative
time only falls.
-/

/-- A positive time doubles until it is longer than the ultimate timeout. -/
theorem exists_ended_of_pos {attempts : ℕ → Attempt} (hfail : ∀ i, (attempts i).err ≠ .ok)
    {t : DownloadThread} (hloop : t.loop = some r) (hpos : 0 < r.waitTime)
    (hlt : r.waitTime < 2 ^ 32) :
    ∃ n t', Runs.runChecked (step ultimateTimeoutMs) t ((List.range n).map attempts) = .ok t' ∧
      t'.loop = none := by
  -- the induction is on how far the time is from the timeout
  induction hm : (ultimateTimeoutMs.toInt + 1 - r.waitTime).toNat using Nat.strongRecOn
    generalizing r t attempts with
  | ind m ih =>
    obtain ⟨actions, loop, hbody⟩ := exists_body ultimateTimeoutMs
      (by omega : -2 ^ 32 ≤ r.waitTime) hlt (attempts 0)
    have hstep := step_of_body hloop hbody
    have hnext := (body_eq_ok (hfail 0) hbody).1
    by_cases hgt : r.waitTime > ultimateTimeoutMs.toInt
    · rw [if_pos hgt] at hnext
      exact ⟨1, _, Runs.runChecked_cons_eq_ok.mpr ⟨_, hstep, rfl⟩, hnext⟩
    · rw [if_neg hgt] at hnext
      have hmax := ultimateTimeoutMs.toInt_lt
      obtain ⟨n, t', hrun, hended⟩ := ih
        (ultimateTimeoutMs.toInt + 1 - r.waitTime * 2).toNat (by omega)
        (fun i => hfail (i + 1)) (t := ⟨loop, t.actions ++ actions⟩)
        (r := ⟨r.waitTime * 2, false⟩) hnext
        (by simp only; omega) (by simp only; omega) rfl
      refine ⟨n + 1, t', ?_, hended⟩
      rw [List.range_succ_eq_map, List.map_cons, List.map_map]
      exact Runs.runChecked_cons_eq_ok.mpr ⟨_, hstep, hrun⟩

/-- The waiting time is not positive, and not longer than the ultimate timeout. -/
def Stuck (ultimateTimeoutMs : Int32) (t : DownloadThread) : Prop :=
  ∃ r, t.loop = some r ∧ r.waitTime ≤ 0 ∧ r.waitTime ≤ ultimateTimeoutMs.toInt

/-- A time that is not positive stays so. -/
theorem stuck_step {t t' : DownloadThread} (ht : t.Stuck ultimateTimeoutMs) (hfail : a.err ≠ .ok)
    (h : step ultimateTimeoutMs t a = .ok t') : t'.Stuck ultimateTimeoutMs := by
  obtain ⟨r, hloop, hle, hlimit⟩ := ht
  obtain ⟨hnone, -⟩ | ⟨r', actions, loop, hloop', hbody, rfl⟩ := step_eq_ok h
  · cases hloop.symm.trans hnone
  · obtain rfl : r = r' := Option.some.inj (hloop.symm.trans hloop')
    have hnext := (body_eq_ok hfail hbody).1
    rw [if_neg (not_lt.mpr hlimit)] at hnext
    exact ⟨_, hnext, by simp only; omega, by simp only; omega⟩

/-- **The loop ends**, and the game has got the default parameters once, exactly when the
initial timeout is positive or longer than the ultimate one. -/
theorem endsWell_iff {attempts : ℕ → Attempt} (hfail : ∀ i, (attempts i).err ≠ .ok)
    (initialTimeoutMs ultimateTimeoutMs : Int32) :
    EndsWell initialTimeoutMs ultimateTimeoutMs attempts ↔
      0 < initialTimeoutMs ∨ ultimateTimeoutMs < initialTimeoutMs := by
  have hattempts (n : ℕ) : ∀ a ∈ (List.range n).map attempts, a.err ≠ .ok := by
    intro a ha
    obtain ⟨i, -, rfl⟩ := List.mem_map.mp ha
    exact hfail i
  have hlo := initialTimeoutMs.le_toInt
  have hhi := initialTimeoutMs.toInt_lt
  rw [Int32.lt_iff_toInt_lt, Int32.lt_iff_toInt_lt, Int32.toInt_zero]
  constructor
  · rintro ⟨n, t, hrun, hended, -⟩
    by_contra hnot
    have hstuck : (start initialTimeoutMs).Stuck ultimateTimeoutMs :=
      ⟨_, rfl, by simp only; omega, by simp only; omega⟩
    obtain ⟨r, hloop, -⟩ := Runs.invariant_of_runChecked
      (fun _ _ _ ht hfail h => stuck_step ht hfail h) hstuck (hattempts n) hrun
    cases hloop.symm.trans hended
  · intro hends
    obtain ⟨n, t, hrun, hended⟩ : ∃ n t, Runs.runChecked (step ultimateTimeoutMs)
        (start initialTimeoutMs) ((List.range n).map attempts) = .ok t ∧ t.loop = none := by
      rcases hends with hpos | hlt
      · exact exists_ended_of_pos hfail rfl hpos (by simp only; omega)
      · -- the first attempt is the last
        obtain ⟨actions, loop, hbody⟩ := exists_body ultimateTimeoutMs
          (r := ⟨initialTimeoutMs.toInt, true⟩) (by simp only; omega) (by simp only; omega)
          (attempts 0)
        have hnext := (body_eq_ok (hfail 0) hbody).1
        rw [if_pos hlt] at hnext
        exact ⟨1, _, Runs.runChecked_cons_eq_ok.mpr ⟨_, step_of_body rfl hbody, rfl⟩, hnext⟩
    have hstart : (start initialTimeoutMs).ParamsOk := rfl
    have hparams : t.ParamsOk := Runs.invariant_of_runChecked
      (fun _ _ _ ht hfail h => paramsOk_step ht hfail h) hstart (hattempts n) hrun
    rw [ParamsOk, hended] at hparams
    exact ⟨n, t, hrun, hended, hparams⟩

/-- With a second and four seconds. -/
theorem endsWell_backoff : EndsWell 1000 4000 fun _ => ⟨.noFidelityParams, 0⟩ :=
  (endsWell_iff (fun _ => by decide) 1000 4000).mpr (by decide)

/-- Without an initial timeout, it asks for ever, and does not wait. -/
theorem not_endsWell_zero : ¬ EndsWell 0 4000 fun _ => ⟨.noFidelityParams, 0⟩ := by
  rintro ⟨n, t, hrun, hended, -⟩
  have hstuck : (start 0).Stuck 4000 := ⟨_, rfl, by decide, by decide⟩
  obtain ⟨r, hloop, -⟩ := Runs.invariant_of_runChecked (A := fun a => a.err ≠ .ok)
    (fun _ _ _ ht hfail h => stuck_step ht hfail h) hstuck
    (fun a ha => by obtain ⟨i, -, rfl⟩ := List.mem_map.mp ha; decide) hrun
  cases hloop.symm.trans hended

end DownloadThread

end GameSdk
