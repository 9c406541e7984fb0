import GameSdk.Runs
import GameSdk.SwappySteps

/-!
# The pipeline mode

Work is to be pipelined whenever the pacer may not choose the swap interval or the
pipeline mode by itself. Applying settings knows of the first flag only: it turns
pipelining off for a new configuration, or takes a mode that was chosen before the
second flag was cleared.

`PipelineModeOk` is the property, and `ModeStepOk` the condition on a call: settings that are
applied take a configuration that is to be pipelined. The calls that meet it are those that keep the
property.
-/

namespace GameSdk

namespace SwappyCommon

variable {s : SwappyCommon}

/-- Pipelining is on unless both automatic modes are enabled. -/
def PipelineModeOk (s : SwappyCommon) : Prop :=
  s.autoSwapIntervalEnabled = false ∨ s.pipelineModeAutoMode = false → s.pipelineMode = .on

/-- The condition on a step. Applying settings with the automatic swap interval but
without the automatic pipeline mode: the configuration that was prepared is taken, and
it is to be pipelined. -/
def ModeStepOk (s : SwappyCommon) : Event → Prop
  | .updateDisplayTimings _ => s.SettingsPending → s.autoSwapIntervalEnabled = true →
      s.pipelineModeAutoMode = false →
      s.needsNewConfig = false ∧ s.pipelineModeForNewRefresh = .on
  | _ => True

/-- No decision turns pipelining off without the automatic mode. -/
theorem Decision.eq_on {k : ℤ} {mode : PipelineMode} (h : s.Decision k mode)
    (hauto : s.pipelineModeAutoMode = false) (hmode : s.pipelineMode = .on) : mode = .on := by
  have hneeded (t t' : ℤ) : s.pipelineModeNotNeeded t t' = false := by
    rw [pipelineModeNotNeeded, hauto, Bool.false_and]
  have hnew (n : ℤ) : s.modeFor n = .on := by
    rw [modeFor, hneeded]
    rfl
  cases h with
  | turnOn => rfl
  | slower => exact hnew _
  | faster => exact hnew _
  | turnOff _ _ hoff =>
    rw [CanTurnOff, hneeded] at hoff
    cases hoff.2
  | keep => exact hmode

theorem pipelineModeOk_update (hok : s.PipelineModeOk) :
    (s.step .updateSwapInterval).PipelineModeOk := by
  rw [step]
  by_cases h : s.autoSwapIntervalEnabled = true ∧ s.frameDurations.Full
  · obtain ⟨k, mode, w, m, i, mode', hdecision, heq, -⟩ := updateSwapInterval_eq h.1 h.2
    rw [heq]
    rintro (hdisabled | hauto)
    · rw [h.1] at hdisabled
      cases hdisabled
    · exact hdecision.eq_on hauto (hok (Or.inr hauto))
  · rw [updateSwapInterval_of_not h]
    exact hok

theorem pipelineModeOk_updateDisplayTimings (hok : s.PipelineModeOk)
    (supported : RefreshRateMap) :
    (s.step (.updateDisplayTimings supported)).PipelineModeOk ↔
      s.ModeStepOk (.updateDisplayTimings supported) := by
  rw [step]
  by_cases hpending : s.SettingsPending
  swap
  · obtain ⟨rates, heq⟩ := updateDisplayTimings_of_not hpending supported
    rw [heq]
    exact iff_of_true hok fun h => absurd h hpending
  obtain ⟨rates, m, w, heq⟩ := updateDisplayTimings_of_pending hpending supported
  rw [heq]
  simp only [PipelineModeOk, ModeStepOk]
  rcases henabled : s.autoSwapIntervalEnabled
  · -- a new configuration, which is pipelined
    have hnew : s.needsNewConfig = true := by simp [needsNewConfig, henabled]
    simp [hnew]
  · rcases hauto : s.pipelineModeAutoMode
    · rcases hnew : s.needsNewConfig <;> simp [hpending]
    · simp

theorem pipelineModeOk_step (hok : s.PipelineModeOk) (e : Event) :
    (s.step e).PipelineModeOk ↔ s.ModeStepOk e := by
  cases e with
  | addFrameDuration cpu gpu => exact iff_of_true hok trivial
  | updateSwapInterval => exact iff_of_true (pipelineModeOk_update hok) trivial
  | updateDisplayTimings supported => exact pipelineModeOk_updateDisplayTimings hok supported
  | onSettingsChanged settings =>
    rw [step, onSettingsChanged]
    split <;> exact iff_of_true hok trivial
  | setAutoSwapInterval enabled =>
    refine iff_of_true (fun h => ?_) trivial
    rcases enabled
    · rfl
    · exact hok (Or.inr (h.resolve_left Bool.noConfusion))
  | setAutoPipelineMode enabled =>
    refine iff_of_true (fun h => ?_) trivial
    rcases enabled
    · rfl
    · exact hok (Or.inl (h.resolve_right Bool.noConfusion))

/-- **Pipelining is on without the automatic modes in exactly the runs all of whose
steps meet `ModeStepOk`.** -/
theorem pipelineModeOk_iff (settings : TimingSettings) (hasDisplayManager : Bool)
    (u : Uninitialized) (es : List Event) :
    (∀ s ∈ Runs.states step (new settings hasDisplayManager u) es, s.PipelineModeOk) ↔
      Runs.StepsOk step ModeStepOk (new settings hasDisplayManager u) es :=
  @Runs.forall_states_iff _ _ step (fun _ => True) PipelineModeOk ModeStepOk (fun _ _ _ => trivial)
    (fun _ e _ hok => pipelineModeOk_step hok e) _ trivial (by rintro (h | h) <;> cases h) es

/-- The app disables the automatic pipeline mode, then changes its swap interval. -/
theorem not_pipelineModeOk_new_interval :
    ∃ s ∈ Runs.states step (new ⟨16666667, 16666667, by decide⟩ false ⟨0, .off⟩)
        [.updateDisplayTimings ⟨[], .nil⟩, .setAutoPipelineMode false,
          .onSettingsChanged ⟨16666667, 33333334, by decide⟩, .updateDisplayTimings ⟨[], .nil⟩],
      s.pipelineModeAutoMode = false ∧ s.pipelineMode = .off ∧ ¬ s.PipelineModeOk := by
  refine ⟨_, Runs.foldl_mem_states .., ?_⟩
  rw [PipelineModeOk]
  decide +kernel

end SwappyCommon

end GameSdk
