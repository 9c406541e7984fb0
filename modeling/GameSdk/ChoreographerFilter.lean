import GameSdk.WhileLoop
import Mathlib.Algebra.Order.Ring.Int

/-!
# The choreographer filter (`ChoreographerFilter.cpp`)

A `Timer` follows the timestamps of the choreographer. Its period is corrected by a part
of the deviation of every timestamp that is not too far off, and both of its calls catch
up with the present by steps of one period. Times are whole nanoseconds and do not
overflow; the factor 1.5 is exact.

Both loops of the source run until they have caught up. Here they take a bound on the number of
rounds, `fuel`, and end in `none` when it is used up. There is always a bound that is enough, and a
larger one changes nothing.
-/

namespace GameSdk

/-- The fields of the timer of one filter thread. -/
structure Timer where
  refreshPeriod : ℤ
  appToSfDelay : ℤ
  baseTime : ℤ
  lastTimestamp : ℤ
  repeatCount : ℤ
  deriving DecidableEq, Repr

namespace Timer

/-- The constructor; `now₁` and `now₂` are what the two members read off the clock. -/
def new (refreshPeriod appToSfDelay now₁ now₂ : ℤ) : Timer :=
  ⟨refreshPeriod, appToSfDelay, now₁, now₂, 0⟩

/-- More than one and a half periods before the point. -/
def behind (point : ℤ) (t : Timer) : Bool :=
  decide (2 * t.baseTime + 3 * t.refreshPeriod < 2 * point)

/-- One step of one period. -/
def advance (t : Timer) : Timer := { t with baseTime := t.baseTime + t.refreshPeriod }

/-- `addTimestamp` after the loop. -/
def correct (t : Timer) (point : ℤ) : Timer :=
  let delta := point - (t.baseTime + t.refreshPeriod)
  if delta < (-t.refreshPeriod).tdiv 2 ∨ delta > t.refreshPeriod.tdiv 2 then t
  else
    let refreshPeriod := t.refreshPeriod + (delta * 2).tdiv 10
    { t with refreshPeriod, baseTime := t.baseTime + refreshPeriod }

/-- The count of times that the timestamp has been seen is an `int32_t`. -/
def addTimestamp (fuel : ℕ) (t : Timer) (point : ℤ) : Option (Bool × Timer) :=
  let repeated := { t with repeatCount := (t.repeatCount + 1).bmod (2 ^ 32) }
  if point = t.lastTimestamp ∧ t.repeatCount > 5 then some (false, repeated)
  else
    let t := if point = t.lastTimestamp then repeated else { t with repeatCount := 0 }
    let t := { t with lastTimestamp := point }
    let point := point + t.appToSfDelay
    (WhileLoop.run (behind point) advance fuel t).map fun t => (true, t.correct point)

/-- The time that `sleep` sleeps until; `now` is what it reads off the clock. -/
def sleep (fuel : ℕ) (t : Timer) (offset now : ℤ) : Option ℤ :=
  let offset :=
    if offset < -t.refreshPeriod.tdiv 2 ∨ offset > t.refreshPeriod.tdiv 2 then 0 else offset
  WhileLoop.run (fun targetTime => decide (targetTime < now)) (· + t.refreshPeriod) fuel
    (t.baseTime + t.refreshPeriod + offset)

/-- One timestamp after the other. -/
def addTimestamps (fuel : ℕ) (t : Timer) : List ℤ → Option Timer
  | [] => some t
  | point :: points => (t.addTimestamp fuel point).bind fun r => r.2.addTimestamps fuel points

/-! ## One call

`Follows` is what a call may do to the timer: the period stays positive, and the base time does not
go back.
-/

/-- Where the timer gets to from `t`: its period stays positive, its time goes on. -/
structure Follows (t t' : Timer) : Prop where
  refreshPeriod_pos : 0 < t'.refreshPeriod
  baseTime_le : t.baseTime ≤ t'.baseTime

/-- One call after another. -/
theorem Follows.trans {t t' t'' : Timer} (h : Follows t t') (h' : Follows t' t'') :
    Follows t t'' :=
  ⟨h'.refreshPeriod_pos, h.baseTime_le.trans h'.baseTime_le⟩

variable {t t' : Timer}

/-- A deviation of half a period takes a tenth of the period at most. -/
theorem corrected_pos {period delta : ℤ} (hperiod : 0 < period)
    (hdelta : ¬ delta < (-period).tdiv 2) : 0 < period + (delta * 2).tdiv 10 := by
  rw [Int.neg_tdiv, Int.tdiv_eq_ediv_of_nonneg hperiod.le] at hdelta
  have hge : -period ≤ delta * 2 := by omega
  have htenth : -(period / 10) ≤ (delta * 2).tdiv 10 := by
    rw [← Int.tdiv_eq_ediv_of_nonneg hperiod.le, ← Int.neg_tdiv]
    exact Int.tdiv_le_tdiv (by decide) hge
  omega

/-- The correction keeps the period positive, and does not take the base time back. -/
theorem follows_correct (ht : 0 < t.refreshPeriod) (point : ℤ) : Follows t (t.correct point) := by
  rw [correct]
  dsimp only
  split
  · exact ⟨ht, le_rfl⟩
  · next hnear =>
    rw [not_or] at hnear
    have hpos := corrected_pos ht hnear.1
    exact ⟨hpos, le_add_of_nonneg_right hpos.le⟩

/-- Catching up with a point ends, a positive period at a time. -/
theorem exists_run_advance (ht : 0 < t.refreshPeriod) (point : ℤ) :
    ∃ fuel t', WhileLoop.run (behind point) advance fuel t = some t' ∧ Follows t t' := by
  have hround : ∀ s, Follows t s → behind point s = true → Follows t s.advance ∧
      (2 * point - (2 * s.advance.baseTime + 3 * s.advance.refreshPeriod)).toNat <
        (2 * point - (2 * s.baseTime + 3 * s.refreshPeriod)).toNat := by
    intro s hs hbehind
    have hpos := hs.refreshPeriod_pos
    rw [behind, decide_eq_true_iff] at hbehind
    refine ⟨⟨hpos, hs.baseTime_le.trans (le_add_of_nonneg_right hpos.le)⟩, ?_⟩
    dsimp only [advance]
    omega
  obtain ⟨fuel, t', hrun, hfollows, -⟩ := WhileLoop.exists_run
    (fun s : Timer => (2 * point - (2 * s.baseTime + 3 * s.refreshPeriod)).toNat) hround
    ⟨ht, le_rfl⟩
  exact ⟨fuel, t', hrun, hfollows⟩

/-- **`addTimestamp`** returns, whatever the timestamp. -/
theorem exists_addTimestamp (ht : 0 < t.refreshPeriod) (point : ℤ) :
    ∃ fuel r, t.addTimestamp fuel point = some r ∧ Follows t r.2 := by
  by_cases hstopped : point = t.lastTimestamp ∧ t.repeatCount > 5
  · exact ⟨0, _, if_pos hstopped, ht, le_rfl⟩
  · -- the count and the last timestamp do not matter to the loop
    obtain ⟨n, hn⟩ : ∃ n, (if point = t.lastTimestamp then
        { t with repeatCount := (t.repeatCount + 1).bmod (2 ^ 32) }
        else { t with repeatCount := 0 }) = { t with repeatCount := n } := by
      split <;> exact ⟨_, rfl⟩
    obtain ⟨fuel, t', hrun, hfollows⟩ := exists_run_advance
      (t := { t with repeatCount := n, lastTimestamp := point }) ht (point + t.appToSfDelay)
    refine ⟨fuel, (true, t'.correct (point + t.appToSfDelay)), ?_, ?_⟩
    · rw [addTimestamp, if_neg hstopped]
      simp only [hn, hrun, Option.map_some]
    · exact Follows.trans ⟨hfollows.refreshPeriod_pos, hfollows.baseTime_le⟩
        (follows_correct hfollows.refreshPeriod_pos _)

/-- **The sleep has a target**, which is not in the past. -/
theorem exists_sleep (ht : 0 < t.refreshPeriod) (offset now : ℤ) :
    ∃ fuel targetTime, t.sleep fuel offset now = some targetTime ∧ now ≤ targetTime := by
  have hround : ∀ targetTime, True → decide (targetTime < now) = true →
      True ∧ (now - (targetTime + t.refreshPeriod)).toNat < (now - targetTime).toNat := by
    intro targetTime _ hlt
    rw [decide_eq_true_iff] at hlt
    exact ⟨trivial, by omega⟩
  obtain ⟨fuel, target, hrun, -, hend⟩ := WhileLoop.exists_run
    (fun targetTime : ℤ => (now - targetTime).toNat) hround trivial
  exact ⟨fuel, target, hrun, not_lt.mp (of_decide_eq_false hend)⟩

/-! ## Every run

The same for any number of timestamps, and the time the thread then sleeps to.
-/

/-- More rounds than needed change nothing. -/
theorem addTimestamp_mono {fuel fuel' : ℕ} {point : ℤ} {r : Bool × Timer}
    (h : t.addTimestamp fuel point = some r) (hle : fuel ≤ fuel') :
    t.addTimestamp fuel' point = some r := by
  rw [addTimestamp] at h ⊢
  dsimp only at h ⊢
  split at h
  · next hstopped => rwa [if_pos hstopped]
  · next hgoes =>
    obtain ⟨t', hrun, rfl⟩ := Option.map_eq_some_iff.mp h
    rw [if_neg hgoes, WhileLoop.run_mono hrun hle, Option.map_some]

/-- Nor do they for a number of timestamps. -/
theorem addTimestamps_mono {fuel fuel' : ℕ} {points : List ℤ}
    (h : t.addTimestamps fuel points = some t') (hle : fuel ≤ fuel') :
    t.addTimestamps fuel' points = some t' := by
  induction points generalizing t with
  | nil => exact h
  | cons point points ih =>
    obtain ⟨r, hr, hrest⟩ := Option.bind_eq_some_iff.mp h
    rw [addTimestamps, addTimestamp_mono hr hle, Option.bind_some]
    exact ih hrest

/-- **Every timestamp is dealt with.** Some number of rounds is enough. -/
theorem exists_addTimestamps (ht : 0 < t.refreshPeriod) (points : List ℤ) :
    ∃ fuel t', t.addTimestamps fuel points = some t' ∧ Follows t t' := by
  induction points generalizing t with
  | nil => exact ⟨0, t, rfl, ht, le_rfl⟩
  | cons point points ih =>
    obtain ⟨fuel₁, r, hcall, hr⟩ := exists_addTimestamp ht point
    obtain ⟨fuel₂, t', hrest, ht'⟩ := ih hr.refreshPeriod_pos
    refine ⟨max fuel₁ fuel₂, t', ?_, hr.trans ht'⟩
    rw [addTimestamps, addTimestamp_mono hcall (le_max_left ..), Option.bind_some]
    exact addTimestamps_mono hrest (le_max_right ..)

/-- **The loops end.** After any timestamps the period is positive and the time has not
gone back, the next call with any timestamp returns and keeps it so, and so does a sleep
with any offset, which ends at the present or later. -/
theorem addTimestamps_return {refreshPeriod : ℤ} (h : 0 < refreshPeriod)
    (appToSfDelay now₁ now₂ : ℤ) (points : List ℤ) :
    ∃ fuel t, (new refreshPeriod appToSfDelay now₁ now₂).addTimestamps fuel points = some t ∧
      Follows (new refreshPeriod appToSfDelay now₁ now₂) t ∧
      (∀ point, ∃ fuel r, t.addTimestamp fuel point = some r ∧ Follows t r.2) ∧
      ∀ offset now, ∃ fuel targetTime,
        t.sleep fuel offset now = some targetTime ∧ now ≤ targetTime := by
  obtain ⟨fuel, t, hrun, hfollows⟩ :=
    exists_addTimestamps (t := new refreshPeriod appToSfDelay now₁ now₂) h points
  exact ⟨fuel, t, hrun, hfollows, exists_addTimestamp hfollows.refreshPeriod_pos,
    exists_sleep hfollows.refreshPeriod_pos⟩

/-- At 60 Hz, with timestamps that come late and early, and after a gap. -/
theorem addTimestamps_return_sixtyHertz :
    ∃ fuel t, (new 16666667 0 0 0).addTimestamps fuel [20000000, 30000000, 90000000] = some t ∧
      0 < t.refreshPeriod := by
  obtain ⟨fuel, t, hrun, hfollows, -⟩ :=
    addTimestamps_return (by decide : (0 : ℤ) < 16666667) 0 0 0 [20000000, 30000000, 90000000]
  exact ⟨fuel, t, hrun, hfollows.refreshPeriod_pos⟩

end Timer

end GameSdk
