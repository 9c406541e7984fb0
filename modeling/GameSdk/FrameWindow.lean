import GameSdk.Runs
import GameSdk.SlidingWindow
import GameSdk.SwappySteps

/-!
# The frames that are averaged

`mFrameDurations` and its running sum are changed in three places: a frame is added, a
change of the configuration empties the window, and so do new settings. The durations
added since the window was last emptied are kept here beside the pacer; the window is
the end of them.

`sinceReset` follows the calls and keeps the durations; the window of the pacer is compared with it
call by call, and then over a run.
-/

namespace GameSdk

/-- The sum, componentwise. -/
def FrameDuration.total (ds : List FrameDuration) : FrameDuration :=
  ⟨(ds.map fun d => d.cpuTime).sum, (ds.map fun d => d.gpuTime).sum⟩

namespace SwappyCommon

variable {s : SwappyCommon}

/-- The duration that a call adds. -/
def Event.added : Event → List FrameDuration
  | .addFrameDuration cpuTime gpuTime => [FrameDuration.new cpuTime gpuTime]
  | _ => []

/-- The call empties the window: the configuration changes, or settings are applied. -/
def resets (s : SwappyCommon) : Event → Bool
  | .updateSwapInterval => s.updateSwapInterval.1
  | .updateDisplayTimings _ => s.SettingsPending
  | _ => false

/-- The durations added since the last reset, after those of `history`. -/
def sinceReset (s : SwappyCommon) (history : List FrameDuration) :
    List Event → List FrameDuration
  | [] => history
  | e :: es => (s.step e).sinceReset (if s.resets e then [] else history ++ e.added) es

/-! ## One call

A call adds a duration, empties the window, or leaves it alone.
-/

/-- The window is emptied when the configuration changes. -/
theorem frameDurations_updateConfig (s : SwappyCommon) :
    s.updateConfig.2.frameDurations =
      if s.updateConfig.1 then FrameDurations.clear else s.frameDurations := by
  rw [updateConfig]
  by_cases hfast : s.TooFast
  · simp only [if_pos hfast, if_true]
  · by_cases hslow : s.TooSlow
    · simp only [if_neg hfast, if_pos hslow, if_true]
    · by_cases hoff : s.CanTurnOff
      · simp only [if_neg hfast, if_neg hslow, if_pos hoff, if_true]
      · simp only [if_neg hfast, if_neg hslow, if_neg hoff, Bool.false_eq_true, if_false]

/-- Looking for a better rate leaves the window alone. -/
theorem frameDurations_updateSwapInterval (s : SwappyCommon) :
    s.updateSwapInterval.2.frameDurations =
      if s.updateSwapInterval.1 then FrameDurations.clear else s.frameDurations := by
  by_cases h : s.autoSwapIntervalEnabled = true ∧ s.frameDurations.Full
  · rw [updateSwapInterval_of_full h.1 h.2]
    obtain ⟨m, i, mode, heq, -⟩ :=
      prepareRefresh_eq s.updateConfig.2 (s.frameTime .on) (s.frameTime .off)
    simp only [heq]
    exact frameDurations_updateConfig s
  · rw [updateSwapInterval_eq_of_not h]
    rfl

/-- Settings that are applied empty the window. -/
theorem frameDurations_updateDisplayTimings (s : SwappyCommon) (supported : RefreshRateMap) :
    (s.updateDisplayTimings supported).frameDurations =
      if s.SettingsPending then FrameDurations.clear else s.frameDurations := by
  obtain ⟨rates, heq⟩ := updateDisplayTimings_eq s supported
  rw [heq]
  split <;> rfl

/-- What a call does to the window. -/
theorem durations_step (s : SwappyCommon) (e : Event) :
    (s.step e).frameDurations.durations =
      if s.resets e then [] else
        e.added.foldl (SlidingWindow.push frameDurationSamples) s.frameDurations.durations := by
  cases e with
  | addFrameDuration cpu gpu => exact s.frameDurations.durations_push cpu gpu
  | updateSwapInterval =>
    rw [step, frameDurations_updateSwapInterval, resets]
    split <;> rfl
  | updateDisplayTimings supported =>
    rw [step, frameDurations_updateDisplayTimings, resets]
    by_cases h : s.SettingsPending
    · simp only [h, decide_true, if_true, FrameDurations.clear]
    · simp only [h, decide_false, Bool.false_eq_true, if_false, Event.added,
        List.foldl_nil]
  | onSettingsChanged settings =>
    rw [step, onSettingsChanged]
    split <;> rfl
  | setAutoSwapInterval enabled => rfl
  | setAutoPipelineMode enabled => rfl

/-! ## Every run

The window is the end of what was added, as long as it may be.
-/

/-- The window is the end of the durations in `history`. -/
theorem durations_foldl {history : List FrameDuration}
    (h : s.frameDurations.durations = history.rtake frameDurationSamples) (events : List Event) :
    (events.foldl step s).frameDurations.durations =
      (s.sinceReset history events).rtake frameDurationSamples := by
  induction events generalizing s history with
  | nil => exact h
  | cons e es ih =>
    refine ih ?_
    rw [durations_step]
    split
    · exact (List.rtake_nil _).symm
    · rw [h]
      cases e with
      | addFrameDuration cpu gpu => exact SlidingWindow.push_rtake (by decide) history _
      | _ => simp only [Event.added, List.foldl_nil, List.append_nil]

/-- The running sum is the sum. -/
theorem sum_eq_total (w : FrameDurations) : w.sum = FrameDuration.total w.durations := by
  rw [FrameDuration.total, ← w.cpuTime_sum, ← w.gpuTime_sum]

/-- **The window** holds the last durations added since it was emptied, in order, with
their sum. An average that is used is that of exactly as many frames as fit. -/
theorem frameDurations_window (settings : TimingSettings) (hasDisplayManager : Bool)
    (u : Uninitialized) (events : List Event) :
    let s := events.foldl step (new settings hasDisplayManager u)
    let last := ((new settings hasDisplayManager u).sinceReset [] events).rtake
      frameDurationSamples
    s.frameDurations.durations = last ∧ last.length ≤ frameDurationSamples ∧
      s.frameDurations.sum = FrameDuration.total last ∧
      (s.frameDurations.Full → last.length = frameDurationSamples ∧
        s.frameDurations.average = (FrameDuration.total last).div frameDurationSamples) := by
  intro s last
  have hlast : s.frameDurations.durations = last :=
    durations_foldl (List.rtake_nil _).symm events
  have hsum : s.frameDurations.sum = FrameDuration.total last := by
    rw [sum_eq_total, hlast]
  have hle : last.length ≤ frameDurationSamples := hlast ▸ s.frameDurations.length_le
  refine ⟨hlast, hle, hsum, fun hfull => ?_⟩
  rw [FrameDurations.Full, hlast] at hfull
  have hlength : last.length = frameDurationSamples := le_antisymm hle hfull
  exact ⟨hlength, by rw [FrameDurations.average, hsum, hlast, hlength]⟩

end SwappyCommon

end GameSdk
