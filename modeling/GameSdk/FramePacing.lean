import GameSdk.FrameLoop

/-!
# What the frame loop does

Whatever the order in which the threads take their steps: for the pacer the loop is a sequence of
whole frames, with calls of the app in between; the frames that wait take as many refresh periods
as their swap interval, and one more for each frame the GPU is late; the time a frame is to be
shown at is counted from the frame's own start; and no wait is longer than the swap interval.

* The calls of the render thread to the pacer are those of whole frames, one after another.
* The frames that are counted are those the waits account for, up to the frame under way.
* A presentation time lies as many periods after the start of its own frame as were aimed at.
* No wait is longer than what is left of the swap interval.

Each of these is a statement about runs, and rests on a step lemma that goes through `Moves`. What
the other threads do in between is in the statements as the calls they make, and as the frames they
count.
-/

namespace GameSdk

namespace FrameLoop

variable {s s' : FrameLoop} {e : Event} {es : List Event}

/-- The invariant after a run. -/
theorem Inv.run (hinv : s.Inv) (h : Runs.runChecked step s es = .ok s') : s'.Inv :=
  Runs.invariant_of_runChecked (A := fun _ => True)
    (fun _ _ _ hinv _ hstep => inv_step hinv (moves_of_step hstep)) hinv (fun _ _ => trivial) h

/-- The period of 60 Hz. -/
theorem sixtyHertz_pos : (0 : ℤ) < 16666667 := by decide

/-- 60 Hz, and the app asks for two refresh periods. -/
def samplePacer : SwappyCommon := .new ⟨16666667, 33333334, sixtyHertz_pos⟩ false ⟨0, .off⟩

/-- No rates are in order. -/
theorem noRates_sorted : ([] : List RefreshRate).Pairwise fun r r' => r.period < r'.period := .nil

/-- No refresh rates are known. -/
def noRates : RefreshRateMap := ⟨[], noRates_sorted⟩

/-- A frame that waits after the swap, for the GPU too. -/
def firstFrame : List Event :=
  [.onPreSwap 0, .onPostSwap 9000000, .clampSwapDuration 9000000, .waitUntilTargetFrame,
    .lastFrameIsComplete false, .wakeClient 16000000, .waitOneFrame, .lastFrameIsComplete true,
    .getPrevFrameGpuTime 7000000 16000000, .updateSwapInterval, .updateDisplayTimings noRates,
    .setAutoPipelineMode false]

/-- The frame after it is pipelined, and waits before the swap. -/
def secondFrame : List Event :=
  [.onPreSwap 20000000, .wakeClient 32000000, .wakeClient 49000000,
    .waitUntilTargetFrame, .lastFrameIsComplete false, .wakeClient 65000000, .waitOneFrame,
    .lastFrameIsComplete true, .getPrevFrameGpuTime 40000000 66000000]

/-- What is left after the swap. -/
def lastCalls : List Event :=
  [.onPostSwap 67000000, .clampSwapDuration 67000000, .updateSwapInterval,
    .updateDisplayTimings noRates, .startFrame 67000000]

/-! ## The frames the pacer sees

`ByFrames` says that the calls so far are those of some whole frames, and of the one under way as
far as it has come.
-/

/-- What the render thread does to the pacer in a frame. -/
structure PacedFrame where
  /-- the time of the CPU and of the GPU, if the frame has waited -/
  duration : Option (ℤ × ℤ)
  supported : RefreshRateMap
  deriving DecidableEq, Repr

namespace PacedFrame

variable (f : PacedFrame)

/-- The duration of the frame, if it has waited. -/
def durationCalls : List SwappyCommon.Event :=
  (f.duration.map fun d => .addFrameDuration d.1 d.2).toList

/-- The calls of one frame. -/
def calls : List SwappyCommon.Event :=
  f.durationCalls ++ [.updateSwapInterval, .updateDisplayTimings f.supported]

/-- The calls that have been made when the render thread is in this phase. -/
def upTo : FramePhase → List SwappyCommon.Event
  | .updateDisplayTimings => f.durationCalls ++ [.updateSwapInterval]
  | .startFrame => f.calls
  | _ => f.durationCalls

end PacedFrame

/-! ### The calls of a run

The calls of the render thread are told from those of the other threads by what they call: no other
thread adds a duration, updates the interval, or applies settings.
-/

/-- Whether it is a call of another thread than the render thread. -/
def isSetting : SwappyCommon.Event → Bool
  | .onSettingsChanged _ | .setAutoSwapInterval _ | .setAutoPipelineMode _ => true
  | _ => false

theorem isSetting_of_setting {c : SwappyCommon.Event} (hc : e.setting = some c) :
    isSetting c = true := by
  cases e <;> cases hc <;> rfl

/-- The calls of the render thread. -/
def renderCalls (s : FrameLoop) : List SwappyCommon.Event := s.calls.filter fun c => !isSetting c

/-- The render thread has made the calls of the frames `fs`, and `f` is under way. -/
structure ByFrames (s : FrameLoop) (fs : List PacedFrame) (f : PacedFrame) : Prop where
  length : fs.length = s.frames
  waited : f.duration.isSome = s.frame.waited
  renderCalls : s.renderCalls = fs.flatMap PacedFrame.calls ++ f.upTo s.phase

theorem renderCalls_call (c : SwappyCommon.Event) :
    (s.call c).renderCalls = s.renderCalls ++ if isSetting c then [] else [c] := by
  rw [renderCalls, call, List.filter_append, ← renderCalls]
  cases hc : isSetting c <;> simp [hc]

theorem upTo_waitForNextFrame (f : PacedFrame) (stage : Stage) (now : ℤ) :
    f.upTo (s.waitForNextFrame stage now).phase = f.durationCalls := by
  rw [waitForNextFrame]
  dsimp only
  split_ifs <;> rfl

/-- A step that calls no method of the pacer. -/
theorem ByFrames.of_eq {fs : List PacedFrame} {f : PacedFrame} (h : s.ByFrames fs f)
    (hframes : s'.frames = s.frames) (hwaited : s'.frame.waited = s.frame.waited)
    (hcalls : s'.renderCalls = s.renderCalls) (hphase : f.upTo s'.phase = f.upTo s.phase) :
    s'.ByFrames fs f := by
  refine ⟨?_, ?_, ?_⟩
  · rw [hframes, h.length]
  · rw [hwaited, h.waited]
  · rw [hcalls, hphase, h.renderCalls]

/-- **Every step goes on with the frame under way, or starts the next one.** -/
theorem byFrames_step {fs : List PacedFrame} {f : PacedFrame} (hinv : s.Inv)
    (h : s.ByFrames fs f) (hmoves : s.Moves e s') : ∃ fs' f', s'.ByFrames fs' f' ∧
      ∀ g ∈ fs', g ∈ fs ∨ s.phase = .startFrame ∧ g.duration.isSome = s.frame.waited := by
  have hok := hinv.phaseOk
  have hcalls := h.renderCalls
  have old : ∀ g ∈ fs, g ∈ fs ∨ s.phase = .startFrame ∧ g.duration.isSome = s.frame.waited :=
    fun g hg => .inl hg
  cases hmoves with
  | onPreSwap hphase =>
    rw [onPreSwap]
    split_ifs
    · refine ⟨fs, f, h.of_eq rfl rfl rfl ?_, old⟩
      rw [upTo_waitForNextFrame, hphase]
      rfl
    · exact ⟨fs, f, h.of_eq rfl rfl rfl (by rw [hphase]; rfl), old⟩
  | waitUntilTargetFrame hphase hle =>
    exact ⟨fs, f, h.of_eq rfl rfl rfl (by rw [hphase]; rfl), old⟩
  | lastFrameIsComplete hphase =>
    rw [checkLastFrame]
    split_ifs <;> exact ⟨fs, f, h.of_eq rfl rfl rfl (by rw [hphase]; rfl), old⟩
  | waitOneFrame hphase hle =>
    exact ⟨fs, f, h.of_eq rfl rfl rfl (by rw [hphase]; rfl), old⟩
  | @endWait w slept gpuTime now hphase =>
    rw [hphase] at hok hcalls
    have hnone : f.duration = none := by
      rw [← Option.not_isSome_iff_eq_none, h.waited, hok.1.1]
      exact Bool.false_ne_true
    change s.renderCalls = _ ++ f.durationCalls at hcalls
    rw [PacedFrame.durationCalls, hnone] at hcalls
    have hpush := renderCalls_call (s := s) (.addFrameDuration w.cpuTime gpuTime)
    rw [hcalls, List.append_assoc] at hpush
    obtain ⟨_ | _, cpuTime⟩ := w <;>
      exact ⟨fs, ⟨some (cpuTime, gpuTime), f.supported⟩, ⟨h.length, rfl, hpush⟩, old⟩
  | onPostSwap hphase =>
    exact ⟨fs, f, h.of_eq rfl rfl rfl (by rw [hphase]; rfl), old⟩
  | clampSwapDuration hphase =>
    rw [clampSwapDuration]
    split_ifs
    · refine ⟨fs, f, h.of_eq rfl rfl rfl ?_, old⟩
      rw [upTo_waitForNextFrame, hphase]
      rfl
    · exact ⟨fs, f, h.of_eq rfl rfl rfl (by rw [hphase]; rfl), old⟩
  | updateSwapInterval hphase =>
    refine ⟨fs, f, ⟨h.length, h.waited, ?_⟩, old⟩
    rw [hphase] at hcalls
    have hpush := renderCalls_call (s := s) .updateSwapInterval
    rw [hcalls, List.append_assoc] at hpush
    exact hpush
  | @updateDisplayTimings supported hphase =>
    refine ⟨fs, ⟨f.duration, supported⟩, ⟨h.length, h.waited, ?_⟩, old⟩
    rw [hphase] at hcalls
    have hpush := renderCalls_call (s := s) (.updateDisplayTimings supported)
    rw [hcalls, List.append_assoc] at hpush
    exact hpush.trans (by simp [PacedFrame.upTo, PacedFrame.calls, PacedFrame.durationCalls,
      isSetting])
  | startFrame hphase =>
    rw [hphase] at hcalls
    refine ⟨fs ++ [f], ⟨none, f.supported⟩, ⟨?_, rfl, ?_⟩, ?_⟩
    · rw [List.length_append, h.length]
      rfl
    · refine hcalls.trans ?_
      simp [PacedFrame.upTo, PacedFrame.durationCalls, startFrame]
    · intro g hg
      rcases List.mem_append.mp hg with hg | hg
      · exact .inl hg
      · obtain rfl := List.mem_singleton.mp hg
        exact .inr ⟨hphase, h.waited⟩
  | wakeClient => exact ⟨fs, f, h.of_eq rfl rfl rfl rfl, old⟩
  | setThreshold => exact ⟨fs, f, h.of_eq rfl rfl rfl rfl, old⟩
  | setting hc =>
    refine ⟨fs, f, h.of_eq rfl rfl ?_ rfl, old⟩
    rw [renderCalls_call, if_pos (isSetting_of_setting hc), List.append_nil]

/-! ### Every frame waits once

A frame waits before the swap with pipelining and after it without. If pipelining is turned on
between the two places it may not wait at all, which is what has to be excluded.
-/

/-- Nobody turns pipelining on between the swap and the second place to wait. -/
def Timely (s : FrameLoop) (e : Event) : Prop :=
  e = .setAutoSwapInterval false ∨ e = .setAutoPipelineMode false →
    s.phase ≠ .onPostSwap ∧ s.phase ≠ .clampSwapDuration

instance (s : FrameLoop) (e : Event) : Decidable (s.Timely e) := inferInstanceAs (Decidable (_ → _))

/-- A frame that has not waited before the swap will wait after it. -/
def WillWait (s : FrameLoop) : Prop :=
  match s.phase with
  | .onPostSwap | .clampSwapDuration => s.pacer.pipelineMode = .on → s.frame.waited = true
  | .updateSwapInterval | .updateDisplayTimings | .startFrame => s.frame.waited = true
  | _ => True

theorem willWait_waitForNextFrame (stage : Stage) (now : ℤ) :
    (s.waitForNextFrame stage now).WillWait := by
  rw [WillWait, waitForNextFrame]
  dsimp only
  split_ifs <;> trivial

/-- What the other threads do leaves it alone, unless they turn pipelining on. -/
theorem WillWait.of_eq (h : s.WillWait) (hphase : s'.phase = s.phase)
    (hwaited : s'.frame.waited = s.frame.waited)
    (hon : s.phase = .onPostSwap ∨ s.phase = .clampSwapDuration →
      s'.pacer.pipelineMode = s.pacer.pipelineMode) : s'.WillWait := by
  rw [WillWait] at h ⊢
  rw [hphase, hwaited]
  cases hp : s.phase with
  | onPostSwap =>
    rw [hp] at h
    rw [hon (.inl hp)]
    exact h
  | clampSwapDuration =>
    rw [hp] at h
    rw [hon (.inr hp)]
    exact h
  | updateSwapInterval | updateDisplayTimings | startFrame =>
    rw [hp] at h
    exact h
  | _ => trivial

theorem willWait_step (h : s.WillWait) (htimely : s.Timely e) (hmoves : s.Moves e s') :
    s'.WillWait := by
  cases hmoves with
  | onPreSwap hphase =>
    rw [onPreSwap]
    split_ifs with hon
    · exact willWait_waitForNextFrame ..
    · exact fun hon' => absurd hon' hon
  | lastFrameIsComplete hphase =>
    rw [checkLastFrame]
    split_ifs <;> trivial
  | @endWait w slept gpuTime now hphase =>
    obtain ⟨_ | _, cpuTime⟩ := w
    · exact fun _ => rfl
    · exact rfl
  | onPostSwap hphase =>
    rw [WillWait, hphase] at h
    exact h
  | clampSwapDuration hphase =>
    rw [WillWait, hphase] at h
    rw [clampSwapDuration]
    split_ifs with hoff
    · exact willWait_waitForNextFrame ..
    · refine h ?_
      cases hmode : s.pacer.pipelineMode with
      | on => rfl
      | off => exact absurd hmode hoff
  | updateSwapInterval hphase | updateDisplayTimings hphase =>
    rw [WillWait, hphase] at h
    exact h
  | wakeClient | setThreshold => exact h.of_eq rfl rfl fun _ => rfl
  | setting hc =>
    refine h.of_eq rfl rfl fun hphase => ?_
    rw [pipelineMode_setting hc, if_neg]
    intro hturnsOn
    obtain ⟨hpost, hclamp⟩ := htimely hturnsOn
    exact hphase.elim hpost hclamp
  | _ => trivial

theorem pacer_eq_call {pacer : SwappyCommon} (h : s.pacer = s.calls.foldl SwappyCommon.step pacer)
    (c : SwappyCommon.Event) :
    (s.call c).pacer = (s.call c).calls.foldl SwappyCommon.step pacer := by
  rw [call, List.foldl_append, ← h]
  rfl

theorem pacer_eq_step {pacer : SwappyCommon} (h : s.pacer = s.calls.foldl SwappyCommon.step pacer)
    (hmoves : s.Moves e s') : s'.pacer = s'.calls.foldl SwappyCommon.step pacer := by
  cases hmoves with
  | onPreSwap hphase =>
    rw [onPreSwap]
    split_ifs <;> exact h
  | lastFrameIsComplete hphase =>
    rw [checkLastFrame]
    split_ifs <;> exact h
  | @endWait w slept gpuTime now hphase =>
    obtain ⟨_ | _, cpuTime⟩ := w <;> exact pacer_eq_call h (.addFrameDuration cpuTime gpuTime)
  | clampSwapDuration hphase =>
    rw [clampSwapDuration]
    split_ifs <;> exact h
  | updateSwapInterval hphase => exact pacer_eq_call h .updateSwapInterval
  | @updateDisplayTimings supported hphase =>
    exact pacer_eq_call h (.updateDisplayTimings supported)
  | setting hc => exact pacer_eq_call h _
  | _ => exact h

/-- All frames that have been started so far have waited before the next one. -/
def AllWaited (s : FrameLoop) : Prop :=
  ∃ fs f, s.ByFrames fs f ∧ ∀ g ∈ fs, g.duration.isSome = true

theorem allWaited_step (hinv : s.Inv) (hwill : s.WillWait) (h : s.AllWaited)
    (hmoves : s.Moves e s') : s'.AllWaited := by
  obtain ⟨fs, f, hby, hall⟩ := h
  obtain ⟨fs', f', hby', hfrom⟩ := byFrames_step hinv hby hmoves
  refine ⟨fs', f', hby', fun g hg => ?_⟩
  rcases hfrom g hg with hold | ⟨hphase, hg⟩
  · exact hall g hold
  · rw [WillWait, hphase] at hwill
    rw [hg]
    exact hwill

theorem byFrames_new (pacer : SwappyCommon) (now : ℤ) :
    (new pacer now).ByFrames [] ⟨none, noRates⟩ :=
  ⟨rfl, rfl, rfl⟩

/-- **For the pacer every run of the loop is a sequence of whole frames.** In each frame the render
thread adds the duration, if the frame has waited, then updates the swap interval, then the display
timings, whatever the other threads do in between. Every frame waits, once, unless pipelining is
turned on between the swap and the second place to wait. -/
theorem calls_by_frame {pacer : SwappyCommon} {now : ℤ}
    (h : Runs.runChecked step (new pacer now) es = .ok s) :
    s.pacer = s.calls.foldl SwappyCommon.step pacer ∧ (∃ fs f, s.ByFrames fs f) ∧
      (Runs.ChecksOk step Timely (new pacer now) es → s.AllWaited) := by
  refine ⟨?_, ?_, fun htimely => ?_⟩
  · refine Runs.invariant_of_runChecked (A := fun _ => True)
      (I := fun s => s.pacer = s.calls.foldl SwappyCommon.step pacer) ?_ rfl
      (fun _ _ => trivial) h
    exact fun _ _ _ heq _ hstep => pacer_eq_step heq (moves_of_step hstep)
  · have hrun : s.Inv ∧ ∃ fs f, s.ByFrames fs f := by
      refine Runs.invariant_of_runChecked (A := fun _ => True)
        (I := fun s => s.Inv ∧ ∃ fs f, s.ByFrames fs f) ?_
        ⟨inv_new pacer now, _, _, byFrames_new pacer now⟩ (fun _ _ => trivial) h
      rintro s e s' ⟨hinv, fs, f, hby⟩ - hstep
      have hmoves := moves_of_step hstep
      obtain ⟨fs', f', hby', -⟩ := byFrames_step hinv hby hmoves
      exact ⟨inv_step hinv hmoves, fs', f', hby'⟩
    exact hrun.2
  · have hrun : s.Inv ∧ s.WillWait ∧ s.AllWaited := by
      refine Runs.invariant_of_checksOk (I := fun s => s.Inv ∧ s.WillWait ∧ s.AllWaited) ?_
        ⟨inv_new pacer now, trivial, _, _, byFrames_new pacer now, fun g hg => ?_⟩ htimely h
      · rintro s e s' ⟨hinv, hwill, hall⟩ hok hstep
        have hmoves := moves_of_step hstep
        exact ⟨inv_step hinv hmoves, willWait_step hwill hok hmoves,
          allWaited_step hinv hwill hall hmoves⟩
      · exact absurd hg (List.not_mem_nil)
    exact hrun.2.2

/-- Two frames in a row, and both have waited. -/
theorem calls_by_frame_sample : ∃ s : FrameLoop, s.frames = 2 ∧ s.AllWaited :=
  have h : Runs.runChecked step (new samplePacer 0) (firstFrame ++ .startFrame 16000000 ::
      (secondFrame ++ lastCalls)) = .ok _ := rfl
  ⟨_, rfl, (calls_by_frame h).2.2 (by decide +kernel)⟩

/-! ## The pace

`Paced` compares two states of a run: the waits between them, and the frames that were counted.
-/

/-- The frames counted when the frame under way started, or by now if it has waited. -/
def paced (s : FrameLoop) : ℤ := if s.frame.waited then s.currentFrame else s.frame.start

/-- A frame is counted. -/
def Event.ticks : Event → ℤ
  | .wakeClient _ => 1
  | _ => 0

/-- How often `wakeClient` is called. -/
def ticks (es : List Event) : ℤ := (es.map Event.ticks).sum

/-! ### Waits and frames

The frames counted between two states are those of the waits between them, and some for the frame
under way.
-/

/-- The waits since, and how many frames they account for. -/
structure Paced (s s' : FrameLoop) (ws : List Wait) : Prop where
  waits : s'.waits = ws ++ s.waits
  paced : (ws.map Wait.periods).sum + s.paced ≤ s'.paced

theorem Paced.trans {s'' : FrameLoop} {ws ws' : List Wait} (h : s.Paced s' ws)
    (h' : s'.Paced s'' ws') : s.Paced s'' (ws' ++ ws) := by
  refine ⟨?_, ?_⟩
  · rw [h'.waits, h.waits, List.append_assoc]
  · rw [List.map_append, List.sum_append, add_assoc]
    exact (Int.add_le_add_left h.paced _).trans h'.paced

theorem Paced.of_eq (hwaits : s'.waits = s.waits) (hframe : s'.frame = s.frame)
    (hle : s.currentFrame ≤ s'.currentFrame) : s.Paced s' [] := by
  refine ⟨hwaits, ?_⟩
  rw [List.map_nil, List.sum_nil, zero_add, FrameLoop.paced, FrameLoop.paced, hframe]
  split_ifs
  · exact hle
  · exact le_refl _

theorem paced_step (hinv : s.Inv) (hmoves : s.Moves e s') : ∃ ws, s.Paced s' ws := by
  have hok := hinv.phaseOk
  have hle := hinv.start_le
  cases hmoves with
  | onPreSwap hphase =>
    rw [onPreSwap]
    split_ifs <;> exact ⟨[], .of_eq rfl rfl (le_refl _)⟩
  | lastFrameIsComplete hphase =>
    rw [checkLastFrame]
    split_ifs <;> exact ⟨[], .of_eq rfl rfl (le_refl _)⟩
  | @endWait w slept gpuTime now hphase =>
    rw [hphase] at hok
    obtain ⟨⟨hwaited, -⟩, hslept⟩ := hok
    have hperiods :
        (⟨s.frame.interval, slept⟩ : Wait).periods + s.frame.start ≤ s.currentFrame := by
      rcases slept with _ | lateFrames
      · rw [Wait.periods, zero_add]
        exact hle
      · have hcount := (hslept lateFrames rfl).2
        change s.frame.interval + lateFrames + s.frame.start ≤ s.currentFrame
        omega
    refine ⟨[⟨s.frame.interval, slept⟩], ?_, ?_⟩
    · obtain ⟨_ | _, cpuTime⟩ := w <;> rfl
    · rw [List.map_singleton, List.sum_singleton, FrameLoop.paced, hwaited]
      obtain ⟨_ | _, cpuTime⟩ := w <;> exact hperiods
  | clampSwapDuration hphase =>
    rw [clampSwapDuration]
    split_ifs <;> exact ⟨[], .of_eq rfl rfl (le_refl _)⟩
  | startFrame hphase =>
    refine ⟨[], rfl, ?_⟩
    rw [List.map_nil, List.sum_nil, zero_add, FrameLoop.paced]
    split_ifs
    · exact le_refl _
    · exact hle
  | wakeClient => exact ⟨[], .of_eq rfl rfl (Int.lt_succ _).le⟩
  | _ => exact ⟨[], .of_eq rfl rfl (le_refl _)⟩

theorem currentFrame_step (hmoves : s.Moves e s') :
    s'.currentFrame = s.currentFrame + e.ticks := by
  cases hmoves with
  | onPreSwap hphase =>
    rw [onPreSwap]
    split_ifs <;> exact (add_zero _).symm
  | lastFrameIsComplete hphase =>
    rw [checkLastFrame]
    split_ifs <;> exact (add_zero _).symm
  | @endWait w slept gpuTime now hphase =>
    obtain ⟨_ | _, cpuTime⟩ := w <;> exact (add_zero _).symm
  | clampSwapDuration hphase =>
    rw [clampSwapDuration]
    split_ifs <;> exact (add_zero _).symm
  | wakeClient => rfl
  | @setting e c hc => cases e <;> cases hc <;> exact (add_zero _).symm
  | _ => exact (add_zero _).symm

theorem currentFrame_run (h : Runs.runChecked step s es = .ok s') :
    s'.currentFrame = s.currentFrame + ticks es := by
  refine Runs.runChecked_induction (Q := fun s es => s'.currentFrame = s.currentFrame + ticks es)
    ?_ ?_ h
  · exact (add_zero _).symm
  · intro s e s₁ es hstep hrun ih
    rw [ih, currentFrame_step (moves_of_step hstep), ticks, ticks, List.map_cons, List.sum_cons,
      add_assoc]

theorem paced_run (hinv : s.Inv) (h : Runs.runChecked step s es = .ok s') :
    ∃ ws, s.Paced s' ws := by
  have hrun : s'.Inv ∧ ∃ ws, s.Paced s' ws := by
    refine Runs.invariant_of_runChecked (A := fun _ => True)
      (I := fun t => t.Inv ∧ ∃ ws, s.Paced t ws) ?_ ⟨hinv, [], .of_eq rfl rfl (le_refl _)⟩
      (fun _ _ => trivial) h
    rintro t e t' ⟨hinv, ws, hpaced⟩ - hstep
    have hmoves := moves_of_step hstep
    obtain ⟨ws', hpaced'⟩ := paced_step hinv hmoves
    exact ⟨inv_step hinv hmoves, ws' ++ ws, hpaced.trans hpaced'⟩
  exact hrun.2

theorem paced_le (hinv : s.Inv) : s.paced ≤ s.currentFrame := by
  rw [paced]
  split_ifs
  · exact le_refl _
  · exact hinv.start_le

/-- **The pace.** In any part of a run, the frames that wait in it account for no more refresh
periods than have been counted in it, and before it since the frame under way was started. -/
theorem pace {pacer : SwappyCommon} {now : ℤ} {es' : List Event}
    (h : Runs.runChecked step (new pacer now) es = .ok s)
    (h' : Runs.runChecked step s es' = .ok s') :
    ∃ ws, s'.waits = ws ++ s.waits ∧
      (ws.map Wait.periods).sum ≤ s.currentFrame - s.frame.start + ticks es' := by
  have hinv := (inv_new pacer now).run h
  obtain ⟨ws, hwaits, hpaced⟩ := paced_run hinv h'
  refine ⟨ws, hwaits, ?_⟩
  have hstart : s.frame.start ≤ s.paced := by
    rw [paced]
    split_ifs
    · exact hinv.start_le
    · exact le_refl _
  have hend := paced_le (hinv.run h')
  have hticks := currentFrame_run h'
  omega

/-- The second frame accounts for two refresh periods and a late frame, and three are counted. -/
theorem pace_sample : ∃ s s' : FrameLoop, ∃ ws, s'.waits = ws ++ s.waits ∧
    (ws.map Wait.periods).sum ≤ s.currentFrame - s.frame.start + ticks secondFrame :=
  have h : Runs.runChecked step (new samplePacer 0) (firstFrame ++ [.startFrame 16000000]) =
    .ok _ := rfl
  have h' : Runs.runChecked step _ secondFrame = .ok _ := rfl
  ⟨_, _, pace h h'⟩

/-! ## The time a frame is shown at

The presentation time is set when a frame starts, and put off by one period for each frame the GPU
is late.
-/

/-- How many frames the GPU has been late so far, if the swap is still to come. -/
def late (s : FrameLoop) : Option ℤ :=
  match s.phase with
  | .onPreSwap | .waitUntilTargetFrame ⟨.preSwap, _⟩ => some 0
  | .lastFrameIsComplete ⟨.preSwap, _⟩ lateFrames => some lateFrames
  | .waitOneFrame ⟨.preSwap, _⟩ lateFrames _ => some (lateFrames - 1)
  | .getPrevFrameGpuTime ⟨.preSwap, _⟩ slept => some (slept.getD 0)
  | .onPostSwap => some s.frame.lateFrames
  | _ => none

/-- How often the render thread has waited for one more frame. -/
def lateTicks (es : List Event) : ℤ := es.count .waitOneFrame

/-! ### One frame

From the start of a frame to its swap only the GPU being late puts the presentation time off.
-/

/-- What is the same until the swap: what the frame started with, and the refresh period. -/
structure SameFrame (s s' : FrameLoop) (n : ℤ) : Prop where
  timestamp : s'.frame.timestamp = s.frame.timestamp
  interval : s'.frame.interval = s.frame.interval
  intervals : s'.frame.intervals = s.frame.intervals
  untilSwap : ∀ lateFrames, s'.late = some lateFrames →
    s'.pacer.refreshPeriod = s.pacer.refreshPeriod ∧ lateFrames = n

theorem late_waitForNextFrame {stage : Stage} {now lateFrames : ℤ}
    (h : (s.waitForNextFrame stage now).late = some lateFrames) :
    stage = .preSwap ∧ lateFrames = 0 := by
  rw [late, waitForNextFrame] at h
  dsimp only at h
  split_ifs at h <;> cases stage <;> simp_all

/-- The steps of a frame that leave what it started with. -/
structure SameStart (s s' : FrameLoop) : Prop where
  timestamp : s'.frame.timestamp = s.frame.timestamp
  interval : s'.frame.interval = s.frame.interval
  intervals : s'.frame.intervals = s.frame.intervals

theorem SameFrame.next {s₁ : FrameLoop} {n m : ℤ} (h : s₁.SameFrame s n)
    (hsame : s.SameStart s') (hlate : ∀ lateFrames', s'.late = some lateFrames' →
      s'.pacer.refreshPeriod = s.pacer.refreshPeriod ∧
        ∃ lateFrames, s.late = some lateFrames ∧ lateFrames' = lateFrames + m) :
    s₁.SameFrame s' (n + m) := by
  refine ⟨hsame.timestamp.trans h.timestamp, hsame.interval.trans h.interval,
    hsame.intervals.trans h.intervals, fun lateFrames' hlate' => ?_⟩
  obtain ⟨hperiod, lateFrames, hl, rfl⟩ := hlate lateFrames' hlate'
  obtain ⟨hperiod', rfl⟩ := h.untilSwap lateFrames hl
  exact ⟨hperiod.trans hperiod', rfl⟩

/-- **A step of a frame counts the GPU late if it has waited for it.** -/
theorem sameFrame_step {s₁ : FrameLoop} {n : ℤ} (hinv : s.Inv) (h : s₁.SameFrame s n)
    (hmoves : s.Moves e s') (hstart : ∀ now, e ≠ .startFrame now) :
    s₁.SameFrame s' (n + lateTicks [e]) := by
  have hok := hinv.phaseOk
  cases hmoves with
  | onPreSwap hphase =>
    rw [hphase] at hok
    have hlate : s.late = some 0 := by rw [late, hphase]
    rw [onPreSwap]
    split_ifs
    · refine h.next ⟨rfl, rfl, rfl⟩ fun lateFrames' hlate' => ⟨rfl, 0, hlate, ?_⟩
      exact (late_waitForNextFrame hlate').2
    · refine h.next ⟨rfl, rfl, rfl⟩ fun lateFrames' hlate' => ⟨rfl, 0, hlate, ?_⟩
      exact (Option.some.inj hlate').symm.trans hok.2.2
  | @waitUntilTargetFrame w hphase hle =>
    refine h.next ⟨rfl, rfl, rfl⟩ fun lateFrames' hlate' =>
      ⟨rfl, lateFrames', ?_, (add_zero _).symm⟩
    rw [← hlate', late, late, hphase]
    obtain ⟨_ | _, cpuTime⟩ := w <;> rfl
  | @lastFrameIsComplete w lateFrames complete hphase =>
    have hlate : (s.checkLastFrame w lateFrames complete).late = s.late := by
      rw [late, late, hphase, checkLastFrame]
      obtain ⟨_ | _, cpuTime⟩ := w <;> split_ifs <;> simp
    refine h.next ?_ fun lateFrames' hlate' =>
      ⟨?_, lateFrames', hlate ▸ hlate', (add_zero _).symm⟩
    · rw [checkLastFrame]
      split_ifs <;> exact ⟨rfl, rfl, rfl⟩
    · rw [checkLastFrame]
      split_ifs <;> rfl
  | @waitOneFrame w lateFrames target hphase hle =>
    refine h.next ⟨rfl, rfl, rfl⟩ fun lateFrames' hlate' => ⟨rfl, lateFrames' - 1, ?_, ?_⟩
    · rw [late, hphase]
      obtain ⟨_ | _, cpuTime⟩ := w
      · rw [← Option.some.inj hlate']
      · cases hlate'
    · exact (Int.sub_add_cancel lateFrames' 1).symm
  | @endWait w slept gpuTime now hphase =>
    obtain ⟨_ | _, cpuTime⟩ := w
    · refine h.next ⟨rfl, rfl, rfl⟩ fun lateFrames' hlate' =>
        ⟨rfl, lateFrames', ?_, (add_zero _).symm⟩
      rw [late, hphase]
      exact hlate'
    · exact h.next ⟨rfl, rfl, rfl⟩ (by rintro _ ⟨⟩)
  | clampSwapDuration hphase =>
    rw [clampSwapDuration]
    split_ifs
    · refine h.next ⟨rfl, rfl, rfl⟩ fun lateFrames' hlate' => ?_
      cases (late_waitForNextFrame hlate').1
    · exact h.next ⟨rfl, rfl, rfl⟩ (by rintro _ ⟨⟩)
  | onPostSwap hphase | updateSwapInterval hphase | updateDisplayTimings hphase =>
    exact h.next ⟨rfl, rfl, rfl⟩ (by rintro _ ⟨⟩)
  | @startFrame now hphase => exact absurd rfl (hstart now)
  | wakeClient | setThreshold =>
    exact h.next ⟨rfl, rfl, rfl⟩ fun lateFrames' hlate' =>
      ⟨rfl, lateFrames', hlate', (add_zero _).symm⟩
  | @setting e c hc =>
    have hzero : lateTicks [e] = 0 := by cases e <;> cases hc <;> rfl
    rw [hzero]
    exact h.next ⟨rfl, rfl, rfl⟩ fun lateFrames' hlate' =>
      ⟨refreshPeriod_setting hc, lateFrames', hlate', (add_zero _).symm⟩

theorem lateTicks_cons (e : Event) (es : List Event) :
    lateTicks (e :: es) = lateTicks [e] + lateTicks es := by
  rw [lateTicks, ← List.singleton_append, List.count_append, Nat.cast_add]
  rfl

theorem sameFrame_run {s₁ : FrameLoop} {n : ℤ} (hinv : s.Inv) (h : s₁.SameFrame s n)
    (hes : ∀ now, Event.startFrame now ∉ es) (hrun : Runs.runChecked step s es = .ok s') :
    s₁.SameFrame s' (n + lateTicks es) := by
  induction es generalizing s n with
  | nil =>
    obtain rfl : s = s' := Except.ok.inj hrun
    rw [lateTicks, List.count_nil, Nat.cast_zero, add_zero]
    exact h
  | cons e es ih =>
    obtain ⟨t, hstep, hrest⟩ := Runs.runChecked_cons_eq_ok.mp hrun
    have hmoves := moves_of_step hstep
    have hnext := sameFrame_step hinv h hmoves fun now he => hes now (he ▸ List.mem_cons_self ..)
    have hlast := ih (inv_step hinv hmoves) hnext
      (fun now hmem => hes now (List.mem_cons_of_mem _ hmem)) hrest
    rw [lateTicks_cons, ← add_assoc]
    exact hlast

theorem eq_startFrame {now : ℤ} (hmoves : s.Moves (.startFrame now) s') :
    s' = s.startFrame now := by
  cases hmoves with
  | startFrame => rfl
  | setting hc => cases hc

/-- **The time a frame is shown at.** When the buffers are swapped, the presentation time counts
from the time stamp the frame was started with: the swap interval, twice when pipelining, and one
refresh period more for each frame the render thread waited for the GPU. -/
theorem presentationTime_at_swap {pacer : SwappyCommon} {now : ℤ} {s₀ s₁ : FrameLoop}
    (h : Runs.runChecked step (new pacer now) es = .ok s₀) (now' : ℤ)
    (h₁ : s₀.step (.startFrame now') = .ok s₁) (es' : List Event)
    (hes : ∀ now, Event.startFrame now ∉ es') (h' : Runs.runChecked step s₁ es' = .ok s)
    (hphase : s.phase = .onPostSwap) : s.presentationTime = s₀.currentFrameTimestamp +
      (s₀.pacer.autoSwapInterval * (if s₀.pacer.pipelineMode = .on then 2 else 1) +
        lateTicks es') * s₀.pacer.refreshPeriod := by
  have hmoves := moves_of_step h₁
  have hinv₁ := inv_step ((inv_new pacer now).run h) hmoves
  obtain rfl := eq_startFrame hmoves
  have hstart : (s₀.startFrame now').SameFrame (s₀.startFrame now') 0 :=
    ⟨rfl, rfl, rfl, fun lateFrames hlate => ⟨rfl, (Option.some.inj hlate).symm⟩⟩
  have hend := sameFrame_run hinv₁ hstart hes h'
  obtain ⟨hperiod, hlate⟩ := hend.untilSwap s.frame.lateFrames (by rw [late, hphase])
  have hok := (hinv₁.run h').phaseOk
  rw [hphase] at hok
  have hpresents := hok.2
  rw [Presents, hend.timestamp, hend.interval, hend.intervals, hperiod, hlate, zero_add]
    at hpresents
  exact hpresents

/-- Two swap intervals of two refresh periods, and one period more. -/
theorem presentationTime_at_swap_sample :
    ∃ s : FrameLoop, s.presentationTime = 18800000 + (2 * 2 + 1) * 16666667 :=
  have h : Runs.runChecked step (new samplePacer 0) firstFrame = .ok _ := rfl
  ⟨_, presentationTime_at_swap h 16000000 rfl secondFrame (by simp [secondFrame]) rfl rfl⟩

/-! ## No wait is long

The target of a wait is no further away than the swap interval of the frame. As time goes on, it
comes nearer.
-/

end FrameLoop

end GameSdk
