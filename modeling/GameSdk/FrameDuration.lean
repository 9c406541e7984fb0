import Mathlib.Algebra.Order.BigOperators.Group.List
import Mathlib.Algebra.Order.Ring.Int

/-!
# Frame durations (`SwappyCommon::FrameDuration`)

How long the CPU and the GPU worked on a frame, and the sliding window of the last
frames with its running sum. Durations are whole nanoseconds and do not overflow.

The structure `FrameDurations` carries what holds of the window: it is never longer than it may be,
each duration is capped, and the sum is that of the durations.

The average is what the pacer looks at, and only of a full window. A window of equal durations has
their duration as its average, which is how the pacer is seen to settle.
-/

namespace GameSdk

/-- Whether the CPU works on the next frame while the GPU works on this one. -/
inductive PipelineMode where
  | off | on
  deriving DecidableEq, Repr

/-- How long the CPU and the GPU took. -/
structure FrameDuration where
  cpuTime : ℤ
  gpuTime : ℤ
  deriving DecidableEq, Repr

namespace FrameDuration

/-- 100 ms. -/
def maxDuration : ℤ := 100000000

/-- The constructor of a measured duration, which caps it. -/
def new (cpuTime gpuTime : ℤ) : FrameDuration :=
  ⟨min cpuTime maxDuration, min gpuTime maxDuration⟩

/-- The CPU and the GPU take turns, or overlap when pipelining. -/
def getTime (d : FrameDuration) : PipelineMode → ℤ
  | .on => max d.cpuTime d.gpuTime
  | .off => d.cpuTime + d.gpuTime

/-- Both times are added. -/
def add (d other : FrameDuration) : FrameDuration :=
  ⟨d.cpuTime + other.cpuTime, d.gpuTime + other.gpuTime⟩

/-- Both times are subtracted. -/
def sub (d other : FrameDuration) : FrameDuration :=
  ⟨d.cpuTime - other.cpuTime, d.gpuTime - other.gpuTime⟩

/-- Both times are divided, rounding toward zero. -/
def div (lhs : FrameDuration) (rhs : ℤ) : FrameDuration :=
  ⟨lhs.cpuTime.tdiv rhs, lhs.gpuTime.tdiv rhs⟩

/-- At most the cap, both times. -/
def Capped (d : FrameDuration) : Prop := d.cpuTime ≤ maxDuration ∧ d.gpuTime ≤ maxDuration

/-- The constructor caps both times. -/
theorem capped_new (cpuTime gpuTime : ℤ) : (new cpuTime gpuTime).Capped :=
  ⟨min_le_right _ _, min_le_right _ _⟩

end FrameDuration

/-! ## The window

`FrameDurations` is the deque of the source with its running sum. What holds of them is part of
the structure, so each operation proves it for what it returns.
-/

/-- 5 seconds at 60 Hz. -/
def frameDurationSamples : ℕ := 300

/-- `mFrameDurations` and `mFrameDurationsSum`, which is their sum. -/
structure FrameDurations where
  durations : List FrameDuration
  sum : FrameDuration
  length_le : durations.length ≤ frameDurationSamples
  capped : ∀ d ∈ durations, d.Capped
  cpuTime_sum : sum.cpuTime = (durations.map fun d => d.cpuTime).sum
  gpuTime_sum : sum.gpuTime = (durations.map fun d => d.gpuTime).sum

namespace FrameDurations

/-- Two windows with the same frames are the same. -/
@[ext] theorem ext {w w' : FrameDurations} (h : w.durations = w'.durations) : w = w' := by
  obtain ⟨ds, ⟨c, g⟩, _, _, hc, hg⟩ := w
  obtain ⟨ds', ⟨c', g'⟩, _, _, hc', hg'⟩ := w'
  obtain rfl : ds = ds' := h
  obtain rfl : c = c' := hc.trans hc'.symm
  obtain rfl : g = g' := hg.trans hg'.symm
  rfl

/-- The empty window. -/
def clear : FrameDurations where
  durations := []
  sum := ⟨0, 0⟩
  length_le := Nat.zero_le _
  capped := fun _ h => (nomatch h)
  cpuTime_sum := rfl
  gpuTime_sum := rfl

/-- Without its first frame the sum is that of the rest. -/
theorem sum_tail {α : Type} (f : α → ℤ) {l : List α} (h : l ≠ []) (d : α) :
    (l.map f).sum - f (l.headD d) = (l.tail.map f).sum := by
  rcases l with _ | ⟨x, l⟩
  · exact absurd rfl h
  · simp

/-- The oldest frame goes when the window is full. -/
def makeRoom (w : FrameDurations) : FrameDurations :=
  if h : w.durations.length = frameDurationSamples then
    have hne : w.durations ≠ [] := fun hnil => by rw [hnil] at h; cases h
    { durations := w.durations.tail
      sum := w.sum.sub (w.durations.headD ⟨0, 0⟩)
      length_le := by
        rw [List.length_tail]
        exact Nat.sub_le_of_le_add (Nat.le_succ_of_le w.length_le)
      capped := fun d hd => w.capped d (List.mem_of_mem_tail hd)
      cpuTime_sum := by rw [← sum_tail _ hne ⟨0, 0⟩, ← w.cpuTime_sum, FrameDuration.sub]
      gpuTime_sum := by rw [← sum_tail _ hne ⟨0, 0⟩, ← w.gpuTime_sum, FrameDuration.sub] }
  else w

/-- The oldest duration goes if the window is full. -/
theorem durations_makeRoom (w : FrameDurations) :
    w.makeRoom.durations =
      if w.durations.length = frameDurationSamples then w.durations.tail else w.durations := by
  rw [makeRoom]
  split <;> rfl

/-- Then there is room for one more. -/
theorem length_makeRoom_lt (w : FrameDurations) :
    w.makeRoom.durations.length < frameDurationSamples := by
  have hle := w.length_le
  have hpos : 0 < frameDurationSamples := by decide
  rw [durations_makeRoom]
  split
  · rw [List.length_tail]
    omega
  · omega

/-- `addFrameDuration`. -/
def push (w : FrameDurations) (cpuTime gpuTime : ℤ) : FrameDurations where
  durations := w.makeRoom.durations ++ [FrameDuration.new cpuTime gpuTime]
  sum := w.makeRoom.sum.add (FrameDuration.new cpuTime gpuTime)
  length_le := by
    rw [List.length_append, List.length_singleton]
    exact w.length_makeRoom_lt
  capped := fun d hd => by
    rcases List.mem_append.mp hd with hd | hd
    · exact w.makeRoom.capped d hd
    · rw [List.mem_singleton.mp hd]
      exact FrameDuration.capped_new ..
  cpuTime_sum := by rw [FrameDuration.add, w.makeRoom.cpuTime_sum]; simp
  gpuTime_sum := by rw [FrameDuration.add, w.makeRoom.gpuTime_sum]; simp

/-- The window after one more frame. -/
theorem durations_push (w : FrameDurations) (cpuTime gpuTime : ℤ) :
    (w.push cpuTime gpuTime).durations =
      (if w.durations.length = frameDurationSamples then w.durations.tail else w.durations) ++
        [FrameDuration.new cpuTime gpuTime] :=
  congrArg (· ++ [FrameDuration.new cpuTime gpuTime]) w.durations_makeRoom

/-- The average, in whole nanoseconds. -/
def average (w : FrameDurations) : FrameDuration := w.sum.div w.durations.length

/-- `mFrameDurations.size() >= mFrameDurationSamples`. -/
def Full (w : FrameDurations) : Prop := frameDurationSamples ≤ w.durations.length

instance (w : FrameDurations) : Decidable w.Full := inferInstanceAs (Decidable (_ ≤ _))

/-- A sum of numbers, each at most `m`. -/
theorem sum_map_le {α : Type} {f : α → ℤ} {l : List α} {m : ℤ} (h : ∀ x ∈ l, f x ≤ m) :
    (l.map f).sum ≤ l.length * m := by
  have := List.sum_le_card_nsmul (l.map f) m (List.forall_mem_map.mpr h)
  rwa [List.length_map, nsmul_eq_mul] at this

/-- An average of capped durations is capped. -/
theorem capped_average {w : FrameDurations} (h : w.Full) : w.average.Capped := by
  have hpos : (0 : ℤ) < w.durations.length := by
    rw [Full, frameDurationSamples] at h
    omega
  have hdiv {x m : ℤ} (hx : x ≤ w.durations.length * m) : x.tdiv w.durations.length ≤ m :=
    (Int.tdiv_le_tdiv hpos hx).trans_eq (Int.mul_tdiv_cancel_left m hpos.ne')
  exact ⟨hdiv (w.cpuTime_sum ▸ sum_map_le fun d hd => (w.capped d hd).1),
    hdiv (w.gpuTime_sum ▸ sum_map_le fun d hd => (w.capped d hd).2)⟩

/-- The average of equal frames is what one of them took. -/
theorem average_replicate {w : FrameDurations} {d : FrameDuration}
    (h : w.durations = List.replicate frameDurationSamples d) : w.average = d := by
  have hne : (frameDurationSamples : ℤ) ≠ 0 := by decide
  have hcpu := w.cpuTime_sum
  have hgpu := w.gpuTime_sum
  rw [h, List.map_replicate, List.sum_replicate, nsmul_eq_mul] at hcpu hgpu
  rw [average, FrameDuration.div, hcpu, hgpu, h, List.length_replicate,
    Int.mul_tdiv_cancel_left _ hne, Int.mul_tdiv_cancel_left _ hne]

end FrameDurations

end GameSdk
