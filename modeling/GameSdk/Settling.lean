import GameSdk.SwappySteps
import Mathlib.Logic.Function.Iterate

/-!
# The pacer settles

With constant frame times `updateSwapInterval` is a function of the swap interval and
the pipeline mode alone, the controller. Two decisions take the controller to a
configuration that it keeps: the first change of the interval is to the one for the
frame time, and until then the mode changes at most once.

`Controller` has the numbers that stay the same, and a configuration is an interval and a mode. The
two halves of the proof do not know of each other: one is about the controller, and the other shows
that the code is one.

`next_next_next` is the heart of it: after two decisions a third one changes nothing, whatever the
configuration was.
-/

namespace GameSdk

open SwappyCommon

/-! ## The controller

The refresh period, the interval of the app, and the time of a frame, which stay the same, and what
a decision makes of a configuration.
-/

/-- What the decisions depend on besides the configuration. -/
structure Controller where
  refreshPeriod : ℤ
  /-- the swap interval of the app -/
  swapIntervalNS : ℤ
  pipelineModeAutoMode : Bool
  /-- the constant frame times -/
  frame : FrameDuration

/-- A swap interval and a pipeline mode. -/
abbrev Config : Type := ℤ × PipelineMode

namespace Controller

variable (x : Controller)

/-- A frame time with the margin. -/
def time (mode : PipelineMode) : ℤ := x.frame.getTime mode + frameMargin

/-- The interval for the frame time. -/
def interval : ℤ := calculateSwapInterval (x.time .on) x.refreshPeriod

/-- The configuration for the frame time. -/
def target : Config :=
  (x.interval, if x.pipelineModeAutoMode ∧ x.time .off < x.refreshPeriod * x.interval
    then .off else .on)

/-- The frames do not fit. -/
def TooFast (cfg : Config) : Prop := x.refreshPeriod * cfg.1 < x.time cfg.2

/-- The frames would fit into fewer periods. -/
def TooSlow (cfg : Config) : Prop :=
  x.swapIntervalNS ≤ x.refreshPeriod * (cfg.1 - 1) ∧
    x.time .on < x.refreshPeriod * (cfg.1 - 1) - edgeHysteresis

instance (cfg : Config) : Decidable (x.TooFast cfg) := inferInstanceAs (Decidable (_ < _))
instance (cfg : Config) : Decidable (x.TooSlow cfg) := inferInstanceAs (Decidable (_ ∧ _))

/-- The decision of the controller. -/
def next (cfg : Config) : Config :=
  if x.TooFast cfg then
    if cfg.2 = .off ∧ x.frame.getTime .on ≤ x.refreshPeriod * cfg.1 then (cfg.1, .on)
    else x.target
  else if x.TooSlow cfg then x.target
  else if cfg.2 = .on ∧ x.pipelineModeAutoMode ∧ x.time .off < x.refreshPeriod * cfg.1 then
    (cfg.1, .off)
  else cfg

/-! ## The controller settles

A decision changes the mode, or goes to the interval for the frame time. From there on nothing
changes.
-/

/-- A positive refresh period and frame times within the cap. -/
structure Ok (x : Controller) : Prop where
  refreshPeriod_pos : 0 < x.refreshPeriod
  cpuTime_nonneg : 0 ≤ x.frame.cpuTime
  capped : x.frame.Capped

variable {x}

theorem Ok.time_pos (h : x.Ok) : 0 < x.time .on := by
  have hle : x.frame.cpuTime ≤ max x.frame.cpuTime x.frame.gpuTime := le_max_left ..
  have := h.cpuTime_nonneg
  simp only [time, FrameDuration.getTime, frameMargin]
  omega

theorem Ok.isSwapInterval (h : x.Ok) :
    IsSwapInterval (x.time .on) x.refreshPeriod x.interval := by
  refine isSwapInterval_of_le h.refreshPeriod_pos ?_
  have hmax : max x.frame.cpuTime x.frame.gpuTime ≤ 100000000 := max_le h.capped.1 h.capped.2
  simp only [time, FrameDuration.getTime, frameMargin]
  omega

/-- The target is not pipelined when it may not be and need not be. -/
theorem target_snd_eq_off_iff : x.target.2 = .off ↔
    x.pipelineModeAutoMode ∧ x.time .off < x.refreshPeriod * x.target.1 := by
  rw [target]
  split
  · next h => exact iff_of_true rfl h
  · next h => exact iff_of_false (fun hoff => (nomatch hoff)) h

/-- Frames that fit without pipelining are not too long for it. -/
theorem not_tooFast_off {n : ℤ} (hfits : x.time .off < x.refreshPeriod * n) :
    ¬ x.TooFast (n, .off) := not_lt.mpr hfits.le

/-- It is off only when the frames fit. -/
theorem target_snd_of_tooFast (hfast : x.TooFast x.target) : x.target.2 = .on := by
  cases hmode : x.target.2 with
  | on => rfl
  | off =>
    refine absurd ?_ (not_tooFast_off (target_snd_eq_off_iff.mp hmode).2)
    rw [← hmode]
    exact hfast

/-- The interval for the frame time is never more than needed. -/
theorem not_tooSlow_target (h : x.Ok) : ¬ x.TooSlow x.target := by
  rintro ⟨-, hslow⟩
  have hpos := h.time_pos
  have hp := h.refreshPeriod_pos
  have hpred : x.refreshPeriod * (x.interval - 1) =
      x.refreshPeriod * x.interval - x.refreshPeriod := by
    ring
  change x.time .on < x.refreshPeriod * (x.interval - 1) - edgeHysteresis at hslow
  rw [edgeHysteresis] at hslow
  rcases h.isSwapInterval.least with hone | hle | hlt
  · rw [hone] at hslow
    omega
  · omega
  · rw [refreshRateMargin] at hlt
    omega

/-- The target is kept, even when its interval is up to the margin too short. -/
theorem next_target (h : x.Ok) : x.next x.target = x.target := by
  rw [next]
  split
  · next hfast =>
    rw [if_neg]
    rintro ⟨hoff, -⟩
    rw [target_snd_of_tooFast hfast] at hoff
    cases hoff
  · rw [if_neg (not_tooSlow_target h), if_neg]
    rintro ⟨hon, hfits⟩
    rw [target_snd_eq_off_iff.mpr hfits] at hon
    cases hon

/-- What a decision does: it goes to the target, or changes the mode at most. -/
theorem next_cases (cfg : Config) :
    x.next cfg = x.target ∨ x.next cfg = cfg ∨
      (cfg.2 = .off ∧ x.TooFast cfg ∧ x.next cfg = (cfg.1, .on)) ∨
      (cfg.2 = .on ∧ ¬ x.TooSlow cfg ∧ x.time .off < x.refreshPeriod * cfg.1 ∧
        x.next cfg = (cfg.1, .off)) := by
  rw [next]
  by_cases hfast : x.TooFast cfg
  · rw [if_pos hfast]
    by_cases hon : cfg.2 = .off ∧ x.frame.getTime .on ≤ x.refreshPeriod * cfg.1
    · rw [if_pos hon]
      exact Or.inr (Or.inr (Or.inl ⟨hon.1, hfast, rfl⟩))
    · rw [if_neg hon]
      exact Or.inl rfl
  · rw [if_neg hfast]
    by_cases hslow : x.TooSlow cfg
    · rw [if_pos hslow]
      exact Or.inl rfl
    · rw [if_neg hslow]
      by_cases hoff : cfg.2 = .on ∧ x.pipelineModeAutoMode ∧
          x.time .off < x.refreshPeriod * cfg.1
      · rw [if_pos hoff]
        exact Or.inr (Or.inr (Or.inr ⟨hoff.1, hslow, hoff.2.2, rfl⟩))
      · rw [if_neg hoff]
        exact Or.inr (Or.inl rfl)

/-- **Two decisions settle the configuration.** -/
theorem next_next_next (h : x.Ok) (cfg : Config) :
    x.next (x.next (x.next cfg)) = x.next (x.next cfg) := by
  rcases x.next_cases cfg with hcfg | hcfg | ⟨hmode, hfast, hcfg⟩ | ⟨hmode, hslow, hfits, hcfg⟩
  · rw [hcfg, next_target h, next_target h]
  · rw [hcfg, hcfg, hcfg]
  · -- pipelining was turned on since the frames do not fit without
    rw [hcfg]
    rcases x.next_cases (cfg.1, .on) with hnext | hnext | ⟨hoff, -⟩ | ⟨-, -, hfits, -⟩
    · rw [hnext, next_target h]
    · rw [hnext, hnext]
    · cases hoff
    · refine absurd ?_ (not_tooFast_off hfits)
      rw [← hmode]
      exact hfast
  · -- pipelining was turned off since they do
    rw [hcfg]
    have hkeep : x.next (cfg.1, .off) = (cfg.1, .off) := by
      have hslow' : ¬ x.TooSlow (cfg.1, .off) := hslow
      rw [next, if_neg (not_tooFast_off hfits), if_neg hslow', if_neg]
      rintro ⟨hon, -⟩
      cases hon
    rw [hkeep, hkeep]

/-- In a configuration that is kept the frames fit, and no faster one is possible. -/
theorem fits_of_next_eq (h : x.Ok) {cfg : Config} (hcfg : x.next cfg = cfg) :
    ((cfg.2 = .on ∧ x.time .on ≤ x.refreshPeriod * cfg.1 + refreshRateMargin) ∨
      (cfg.2 = .off ∧ x.time .off ≤ x.refreshPeriod * cfg.1)) ∧ ¬ x.TooSlow cfg := by
  have hmargin : 0 ≤ refreshRateMargin := by decide
  by_cases hfast : x.TooFast cfg
  · -- only the target is kept then
    have htarget : cfg = x.target := by
      rw [next, if_pos hfast] at hcfg
      split at hcfg
      · next hon =>
        rw [← hcfg] at hon
        cases hon.1
      · exact hcfg.symm
    rw [htarget] at hfast ⊢
    exact ⟨Or.inl ⟨target_snd_of_tooFast hfast, h.isSwapInterval.le_add_margin⟩,
      not_tooSlow_target h⟩
  · have hslow : ¬ x.TooSlow cfg := by
      intro hslow
      rw [next, if_neg hfast, if_pos hslow] at hcfg
      rw [← hcfg] at hslow
      exact not_tooSlow_target h hslow
    refine ⟨?_, hslow⟩
    have hle := not_lt.mp hfast
    rcases hmode : cfg.2 <;> rw [hmode] at hle
    · exact Or.inr ⟨rfl, hle⟩
    · exact Or.inl ⟨rfl, by omega⟩

end Controller

namespace SwappyCommon

variable {s : SwappyCommon}

/-! ## The code is this controller

With a full window of equal frames the average is what one frame takes.
-/

/-- The configuration of the pacer. -/
def config (s : SwappyCommon) : Config := (s.autoSwapInterval, s.pipelineMode)

/-- The controller of the pacer, with these frames. -/
def controller (s : SwappyCommon) (frame : FrameDuration) : Controller where
  refreshPeriod := s.refreshPeriod
  swapIntervalNS := s.swapIntervalNS
  pipelineModeAutoMode := s.pipelineModeAutoMode
  frame := frame

/-- The frames push everything else out of the window. -/
theorem fillWindow_eq (s : SwappyCommon) (cpuTime gpuTime : ℤ) :
    ∃ frameDurations, (fillWindow cpuTime gpuTime).foldl step s = { s with frameDurations } ∧
      frameDurations.durations =
        List.replicate frameDurationSamples (FrameDuration.new cpuTime gpuTime) := by
  have hpush (n : ℕ) (hn : n ≤ frameDurationSamples) : ∃ frameDurations rest,
      (List.replicate n (Event.addFrameDuration cpuTime gpuTime)).foldl step s =
        { s with frameDurations } ∧
      frameDurations.durations = rest ++ List.replicate n (FrameDuration.new cpuTime gpuTime) := by
    induction n with
    | zero => exact ⟨s.frameDurations, s.frameDurations.durations, rfl, (List.append_nil _).symm⟩
    | succ n ih =>
      obtain ⟨w, rest, heq, hw⟩ := ih (Nat.le_of_succ_le hn)
      refine ⟨w.push cpuTime gpuTime,
        if w.durations.length = frameDurationSamples then rest.tail else rest, ?_, ?_⟩
      · rw [List.replicate_succ', List.foldl_append, heq]
        rfl
      · rw [FrameDurations.durations_push, List.replicate_succ', ← List.append_assoc]
        congr 1
        split
        · next hlen =>
          -- the window is longer than the new frames in it
          have hne : rest ≠ [] := by
            rintro rfl
            rw [hw, List.nil_append, List.length_replicate] at hlen
            omega
          rw [hw, List.tail_append_of_ne_nil hne]
        · exact hw
  obtain ⟨w, rest, heq, hw⟩ := hpush frameDurationSamples (Nat.le_refl _)
  have hlen := w.length_le
  rw [hw, List.length_append, List.length_replicate] at hlen
  have hrest : rest = [] := List.eq_nil_of_length_eq_zero (by omega)
  exact ⟨w, heq, by rw [hw, hrest, List.nil_append]⟩

theorem canTurnOff_iff (s : SwappyCommon) :
    s.CanTurnOff ↔ s.pipelineMode = .on ∧ s.pipelineModeAutoMode ∧
      s.frameTime .off < s.refreshPeriod * s.autoSwapInterval := by
  rw [CanTurnOff, pipelineModeNotNeeded, Bool.and_eq_true, decide_eq_true_eq]

/-- A decision of the code is that of the controller. -/
theorem Decision.eq_next {k : ℤ} {mode : PipelineMode} (h : s.Decision k mode) :
    (k, mode) = (s.controller s.frameDurations.average).next s.config := by
  have htarget : (s.newSwapInterval, s.modeFor s.newSwapInterval) =
      (s.controller s.frameDurations.average).target := by
    simp only [modeFor, pipelineModeNotNeeded, Bool.and_eq_true, decide_eq_true_eq]
    rfl
  rw [Controller.next]
  -- the conditions are the same ones
  change _ = if s.TooFast then
      if s.pipelineMode = .off ∧ s.frameDurations.average.getTime .on ≤
        s.refreshPeriod * s.autoSwapInterval then (s.autoSwapInterval, .on) else _
    else if s.TooSlow then _
    else if s.pipelineMode = .on ∧ s.pipelineModeAutoMode ∧
      s.frameTime .off < s.refreshPeriod * s.autoSwapInterval then (s.autoSwapInterval, .off)
    else s.config
  rw [← htarget]
  cases h with
  | turnOn hfast hoff hle => rw [if_pos hfast, if_pos ⟨hoff, hle⟩]
  | slower hfast hnot => rw [if_pos hfast, if_neg fun h => not_le.mpr (hnot h.1) h.2]
  | faster hspeeds => rw [if_neg hspeeds.1, if_pos hspeeds.2]
  | turnOff hfast hslow hoff =>
    rw [if_neg hfast, if_neg hslow, if_pos ((canTurnOff_iff s).mp hoff)]
  | keep hfast hslow hoff =>
    rw [if_neg hfast, if_neg hslow, if_neg ((canTurnOff_iff s).not.mp hoff)]
    rfl

/-- A window is filled with equal frames and evaluated. -/
def decision (cpuTime gpuTime : ℤ) (s : SwappyCommon) : SwappyCommon :=
  (fillWindow cpuTime gpuTime ++ [Event.updateSwapInterval]).foldl step s

/-- The code with constant frame times refines the controller. -/
theorem config_decision (henabled : s.autoSwapIntervalEnabled = true) (cpuTime gpuTime : ℤ) :
    (decision cpuTime gpuTime s).config =
        (s.controller (FrameDuration.new cpuTime gpuTime)).next s.config ∧
      (decision cpuTime gpuTime s).autoSwapIntervalEnabled = true ∧
      (decision cpuTime gpuTime s).controller = s.controller := by
  obtain ⟨w, hfill, hw⟩ := fillWindow_eq s cpuTime gpuTime
  have hfull : w.Full := by
    rw [FrameDurations.Full, hw, List.length_replicate]
  obtain ⟨k, mode, w', m, i, mode', hdecision, heq, -⟩ :=
    updateSwapInterval_eq (s := { s with frameDurations := w }) henabled hfull
  have hnext := hdecision.eq_next
  rw [FrameDurations.average_replicate hw] at hnext
  have hdecide : decision cpuTime gpuTime s =
      ({ s with frameDurations := w } : SwappyCommon).updateSwapInterval.2 := by
    rw [decision, List.foldl_append, hfill]
    rfl
  rw [hdecide, heq]
  exact ⟨hnext, henabled, rfl⟩

theorem config_iterate (henabled : s.autoSwapIntervalEnabled = true) (cpuTime gpuTime : ℤ) (n : ℕ) :
    ((decision cpuTime gpuTime)^[n] s).config =
        (s.controller (FrameDuration.new cpuTime gpuTime)).next^[n] s.config := by
  induction n generalizing s with
  | zero => rfl
  | succ n ih =>
    obtain ⟨hconfig, henabled', hcontroller⟩ := config_decision henabled cpuTime gpuTime
    rw [Function.iterate_succ_apply, Function.iterate_succ_apply, ih henabled', hcontroller,
      hconfig]

/-- **The pacer settles** within three windows of equal frames. In the configuration it
settles in the frames fit, and no faster one is possible. -/
theorem settles {c g : ℤ} (henabled : s.autoSwapIntervalEnabled = true)
    (hp : refreshRateMargin < s.refreshPeriod) (hc : 0 ≤ c ∧ c ≤ 100000000)
    (hg : 0 ≤ g ∧ g ≤ 100000000) :
    (∀ n ≥ 3, ((decision c g)^[n] s).config = ((decision c g)^[3] s).config) ∧
      ∀ k mode, ((decision c g)^[3] s).config = (k, mode) →
        ((mode = .on ∧ max c g + frameMargin ≤ s.refreshPeriod * k + refreshRateMargin) ∨
          (mode = .off ∧ c + g + frameMargin ≤ s.refreshPeriod * k)) ∧
        ¬ (s.swapIntervalNS ≤ s.refreshPeriod * (k - 1) ∧
          max c g + frameMargin < s.refreshPeriod * (k - 1) - edgeHysteresis) := by
  have hframe : FrameDuration.new c g = ⟨c, g⟩ := by
    rw [FrameDuration.new, FrameDuration.maxDuration, min_eq_left hc.2, min_eq_left hg.2]
  have hok : (s.controller ⟨c, g⟩).Ok := ⟨lt_trans (by decide) hp, hc.1, hc.2, hg.2⟩
  have hfixed : (s.controller ⟨c, g⟩).next ((s.controller ⟨c, g⟩).next^[3] s.config) =
      (s.controller ⟨c, g⟩).next^[3] s.config := by
    have hsettled := Controller.next_next_next hok s.config
    simp only [Function.iterate_succ_apply, Function.iterate_zero_apply, hsettled]
  have hiterate := config_iterate henabled c g
  rw [hframe] at hiterate
  constructor
  · intro n hn
    obtain ⟨m, rfl⟩ := Nat.exists_eq_add_of_le' hn
    rw [hiterate, hiterate, Function.iterate_add_apply, Function.iterate_fixed hfixed]
  · intro k mode hconfig
    rw [hiterate] at hconfig
    rw [hconfig] at hfixed
    exact Controller.fits_of_next_eq hok hfixed

/-- At 60 Hz frames of 20 ms and 10 ms. -/
theorem settles_thirty_ms :
    let s := new ⟨16666667, 16666667, by decide⟩ false ⟨16666667, .off⟩
    (∀ n ≥ 3, ((decision 20000000 10000000)^[n] s).config =
        ((decision 20000000 10000000)^[3] s).config) ∧
      ∀ k mode, ((decision 20000000 10000000)^[3] s).config = (k, mode) →
        ((mode = .on ∧ max 20000000 10000000 + frameMargin ≤
            s.refreshPeriod * k + refreshRateMargin) ∨
          (mode = .off ∧ 20000000 + 10000000 + frameMargin ≤ s.refreshPeriod * k)) ∧
        ¬ (s.swapIntervalNS ≤ s.refreshPeriod * (k - 1) ∧
          max 20000000 10000000 + frameMargin < s.refreshPeriod * (k - 1) - edgeHysteresis) :=
  settles rfl (by decide) (by decide) (by decide)

end SwappyCommon

end GameSdk
