import GameSdk.Checked
import GameSdk.Runs
import Mathlib.Algebra.BigOperators.Group.List.Basic
import Mathlib.Algebra.Order.Ring.Int
import Mathlib.Algebra.Ring.Int.Defs
import Mathlib.Tactic.NormNum

/-!
# Frame statistics (`FrameStatistics.cpp`)

`capture` is called once for every swap. It asks EGL for the timestamps of the oldest frame
that waits for them, and counts the refresh periods between them in four histograms of
`MAX_FRAME_BUCKETS` entries.

Timestamps are 64-bit numbers of nanoseconds; differences wrap, and the quotient is cut to
32 bits.

The arrays have six entries and one call adds one to an entry of each, or of three of them.
`SumsOk` is what the counts are for, and `CountsOk` the condition on a call under which no index is
past the end.
-/

namespace GameSdk

/-- How many entries an array has. -/
def maxFrameBuckets : ℕ := 6

/-- How many frames the oldest one may be behind. -/
def maxFrameLag : UInt64 := 10

/-- The arrays of `SwappyStats`. -/
inductive StatArray where
  | idleFrames | lateFrames | offsetFromPreviousFrame | latencyFrames
  deriving DecidableEq, Repr

/-- The entries of one array of `SwappyStats`. They are `uint64_t` counters, and natural numbers
here: at one frame in each nanosecond they would wrap after centuries. -/
structure FrameBuckets where
  counts : List ℕ
  length_counts : counts.length = maxFrameBuckets
  deriving DecidableEq, Repr

namespace FrameBuckets

/-- Nothing has been counted. -/
def zero : FrameBuckets := ⟨List.replicate maxFrameBuckets 0, rfl⟩

/-- `stat[i]++`. -/
def increment (array : StatArray) (b : FrameBuckets) (i : ℕ) :
    Except (Fault StatArray) FrameBuckets :=
  match h : Checked.modify array b.counts i (· + 1) with
  | .ok counts =>
    .ok ⟨counts, by rw [(Checked.modify_eq_ok h).2, List.length_modify, b.length_counts]⟩
  | .error e => .error e

/-- The sum of the entries. -/
def total (b : FrameBuckets) : ℕ := b.counts.sum

/-- One more in one entry is one more in the sum. -/
theorem sum_modify_succ {counts : List ℕ} {i : ℕ} (h : i < counts.length) :
    (counts.modify i (· + 1)).sum = counts.sum + 1 := by
  induction counts generalizing i with
  | nil => exact absurd h (Nat.not_lt_zero i)
  | cons n counts ih =>
    rcases i with _ | i
    · rw [List.modify_zero_cons, List.sum_cons, List.sum_cons]
      omega
    · rw [List.modify_succ_cons, List.sum_cons, List.sum_cons, ih (Nat.lt_of_succ_lt_succ h)]
      omega

/-- What an increment does. -/
theorem increment_eq_ok {array : StatArray} {b b' : FrameBuckets} {i : ℕ}
    (h : b.increment array i = .ok b') : i < maxFrameBuckets ∧ b'.total = b.total + 1 := by
  rw [increment] at h
  split at h
  · next counts hmodify =>
    obtain ⟨hlt, hcounts⟩ := Checked.modify_eq_ok hmodify
    obtain rfl := Except.ok.inj h
    exact ⟨b.length_counts ▸ hlt, (congrArg List.sum hcounts).trans (sum_modify_succ hlt)⟩
  · cases h

/-- An increment within the array ends well. -/
theorem exists_increment (array : StatArray) (b : FrameBuckets) {i : ℕ}
    (h : i < maxFrameBuckets) : ∃ b', b.increment array i = .ok b' := by
  rcases hincrement : b.increment array i with e | b'
  · rw [increment] at hincrement
    split at hincrement
    · cases hincrement
    · next hmodify =>
      rw [Checked.modify, if_pos (b.length_counts ▸ h)] at hmodify
      cases hmodify
  · exact ⟨b', rfl⟩

end FrameBuckets

/-- What the statistics count: the swaps, and for each of four quantities how many frames had it
how often. As in the arrays, a `uint64_t` counter is a natural number. -/
structure SwappyStats where
  totalFrames : ℕ
  idleFrames : FrameBuckets
  lateFrames : FrameBuckets
  offsetFromPreviousFrame : FrameBuckets
  latencyFrames : FrameBuckets
  deriving DecidableEq, Repr

/-- The timestamps of one frame. -/
structure FrameTimestamps where
  requested : Int64
  renderingCompleted : Int64
  compositionLatched : Int64
  presented : Int64
  deriving DecidableEq, Repr

/-- A frame that waits for its timestamps. -/
structure EGLFrame where
  dpy : UInt64
  surface : UInt64
  id : UInt64
  startFrameTime : Int64
  deriving DecidableEq, Repr

/-- The members of the class. -/
structure FrameStatistics where
  pendingFrames : List EGLFrame
  prevFrameTime : Int64
  stats : SwappyStats
  deriving DecidableEq, Repr

/-- What a call of `capture` is given, and what the calls in it return. -/
structure Capture where
  dpy : UInt64
  surface : UInt64
  frameStartTime : Int64
  /-- of `getNextFrameId`, if it succeeds -/
  nextFrameId : Option UInt64
  /-- what `eglGetFrameTimestampsANDROID` stores, if it succeeds -/
  timestamps : Option FrameTimestamps
  refreshPeriod : Int64
  refreshPeriod_pos : 0 < refreshPeriod

namespace FrameStatistics

/-- `EGL_TIMESTAMP_PENDING_ANDROID` -/
def eglTimestampPending : Int64 := -2

/-- A null pointer if the call fails or a timestamp is pending. -/
def getFrameTimestamps (c : Capture) : Option FrameTimestamps :=
  c.timestamps.filter fun t =>
    eglTimestampPending ∉ [t.requested, t.renderingCompleted, t.compositionLatched, t.presented]

/-- The constructor. -/
def new : FrameStatistics where
  pendingFrames := []
  prevFrameTime := 0
  stats := ⟨0, .zero, .zero, .zero, .zero⟩

/-- The refresh periods from `start` to `finish`. -/
def numFrames (refreshPeriod start finish : Int64) : UInt32 :=
  ((finish - start).toUInt64 / refreshPeriod.toUInt64).toUInt32

/-- `std::min(numFrames, MAX_FRAME_BUCKETS)` -/
def clamp (numFrames : UInt32) : UInt32 :=
  if .ofNat maxFrameBuckets < numFrames then .ofNat maxFrameBuckets else numFrames

/-- The number of periods between two timestamps is counted. -/
def updateFrames (array : StatArray) (refreshPeriod start finish : Int64) (stat : FrameBuckets) :
    Except (Fault StatArray) FrameBuckets :=
  stat.increment array (clamp (numFrames refreshPeriod start finish)).toNat

variable (s : FrameStatistics)

/-- From the end of rendering to the composition. -/
def updateIdleFrames (refreshPeriod : Int64) (t : FrameTimestamps) :
    Except (Fault StatArray) FrameBuckets :=
  updateFrames .idleFrames refreshPeriod t.renderingCompleted t.compositionLatched
    s.stats.idleFrames

/-- From the start of the frame to its presentation. -/
def updateLatencyFrames (refreshPeriod : Int64) (t : FrameTimestamps) (frameStartTime : Int64) :
    Except (Fault StatArray) FrameBuckets :=
  updateFrames .latencyFrames refreshPeriod frameStartTime t.presented s.stats.latencyFrames

/-- From the time that was asked for to the presentation. -/
def updateLateFrames (refreshPeriod : Int64) (t : FrameTimestamps) :
    Except (Fault StatArray) FrameBuckets :=
  updateFrames .lateFrames refreshPeriod t.requested t.presented s.stats.lateFrames

/-- From one presentation to the next. -/
def updateOffsetFromPreviousFrame (refreshPeriod : Int64) (t : FrameTimestamps) :
    Except (Fault StatArray) FrameBuckets :=
  if s.prevFrameTime ≠ 0 then
    updateFrames .offsetFromPreviousFrame refreshPeriod s.prevFrameTime t.presented
      s.stats.offsetFromPreviousFrame
  else .ok s.stats.offsetFromPreviousFrame

/-- The part of `capture` under the lock. -/
def update (refreshPeriod : Int64) (frame : EGLFrame) (t : FrameTimestamps) :
    Except (Fault StatArray) FrameStatistics := do
  let idleFrames ← s.updateIdleFrames refreshPeriod t
  let lateFrames ← s.updateLateFrames refreshPeriod t
  let offsetFromPreviousFrame ← s.updateOffsetFromPreviousFrame refreshPeriod t
  let latencyFrames ← s.updateLatencyFrames refreshPeriod t frame.startFrameTime
  .ok { s with
    prevFrameTime := t.presented
    stats := { idleFrames, lateFrames, offsetFromPreviousFrame, latencyFrames
               totalFrames := s.stats.totalFrames + 1 } }

/-- The next frame is put behind the pending ones. -/
def push (c : Capture) : FrameStatistics :=
  match c.nextFrameId with
  | some id =>
    { s with
      pendingFrames := s.pendingFrames ++ [⟨c.dpy, c.surface, id, c.frameStartTime⟩] }
  | none => s

/-- If the oldest frame lags too much behind the next one, only the last is kept. -/
def dropLag (c : Capture) : FrameStatistics :=
  match s.pendingFrames, c.nextFrameId with
  | frame :: _, some id =>
    if id - frame.id > maxFrameLag then
      { s with
        pendingFrames := s.pendingFrames.drop (s.pendingFrames.length - 1)
        prevFrameTime := 0 }
    else s
  | _, _ => s

/-- The oldest frame is counted and removed, if it has its timestamps. -/
def captureFront (c : Capture) : Except (Fault StatArray) FrameStatistics :=
  match s.pendingFrames, getFrameTimestamps c with
  | frame :: rest, some t =>
    (s.update c.refreshPeriod frame t).map fun s => { s with pendingFrames := rest }
  | _, _ => .ok s

/-- `capture`, once for every swap. -/
def capture (c : Capture) : Except (Fault StatArray) FrameStatistics :=
  ((s.push c).dropLag c).captureFront c

/-! ## The sums

What should hold of the counts, and when a call keeps it.
-/

/-- Every frame is counted once in three of the histograms, and at most once in the
fourth. -/
structure SumsOk : Prop where
  idleFrames : s.stats.idleFrames.total = s.stats.totalFrames
  lateFrames : s.stats.lateFrames.total = s.stats.totalFrames
  latencyFrames : s.stats.latencyFrames.total = s.stats.totalFrames
  offsetFromPreviousFrame : s.stats.offsetFromPreviousFrame.total ≤ s.stats.totalFrames

/-- The call makes no access out of range, and the sums are right after it. -/
def CaptureOk (c : Capture) : Prop := ∃ s', s.capture c = .ok s' ∧ s'.SumsOk

/-- The number of whole refresh periods in the difference of two timestamps, as 64-bit and
32-bit numbers have it, is the index of an entry. -/
def FewPeriods (refreshPeriod start finish : Int64) : Prop :=
  (finish.toInt - start.toInt) % 2 ^ 64 / refreshPeriod.toInt % 2 ^ 32 < maxFrameBuckets

/-- The differences that a frame with its timestamps counts are few periods. -/
structure TimesOk (refreshPeriod : Int64) (frame : EGLFrame) (t : FrameTimestamps) : Prop where
  idleFrames : FewPeriods refreshPeriod t.renderingCompleted t.compositionLatched
  lateFrames : FewPeriods refreshPeriod t.requested t.presented
  offsetFromPreviousFrame :
    s.prevFrameTime ≠ 0 → FewPeriods refreshPeriod s.prevFrameTime t.presented
  latencyFrames : FewPeriods refreshPeriod frame.startFrameTime t.presented

/-- The condition on a call: if the oldest frame gets its timestamps, they are few periods
apart. -/
def FrontOk (c : Capture) : Prop :=
  ∀ frame ∈ s.pendingFrames.head?, ∀ t ∈ getFrameTimestamps c, s.TimesOk c.refreshPeriod frame t

/-- The condition on a call: what it counts are less than six periods. -/
def CountsOk (c : Capture) : Prop := ((s.push c).dropLag c).FrontOk c

/-! ## One array

The number of periods is cut to the number of entries, which is one too many for an index.
-/

/-- The bits of a signed number as an unsigned one. -/
theorem toNat_toUInt64 (x : Int64) : (x.toUInt64.toNat : ℤ) = x.toInt % 2 ^ 64 := by
  have hmod : x.toInt % ((2 ^ 64 : ℕ) : ℤ) = (x.toUInt64.toNat : ℤ) % ((2 ^ 64 : ℕ) : ℤ) := by
    rw [Int64.toInt, BitVec.toInt_eq_toNat_bmod, Int.bmod_emod]
    rfl
  have hlt := x.toUInt64.toNat_lt
  omega

/-- The quotient, as the conversions have it. -/
theorem numFrames_eq {refreshPeriod : Int64} (hpos : 0 < refreshPeriod) (start finish : Int64) :
    ((numFrames refreshPeriod start finish).toNat : ℤ) =
      (finish.toInt - start.toInt) % 2 ^ 64 / refreshPeriod.toInt % 2 ^ 32 := by
  have hperiod : 0 < refreshPeriod.toInt := Int64.lt_iff_toInt_lt.mp hpos
  have hlt := refreshPeriod.toInt_lt
  have hdelta : ((finish - start).toUInt64.toNat : ℤ) =
      (finish.toInt - start.toInt) % 2 ^ 64 := by
    rw [toNat_toUInt64, Int64.toInt_sub]
    exact Int.bmod_emod
  have hunsigned : (refreshPeriod.toUInt64.toNat : ℤ) = refreshPeriod.toInt := by
    rw [toNat_toUInt64]
    exact Int.emod_eq_of_lt hperiod.le (by omega)
  rw [numFrames, UInt64.toNat_toUInt32, UInt64.toNat_div, Int.natCast_emod, Int.natCast_ediv,
    hdelta, hunsigned]
  norm_cast

/-- What is clamped is out of range. -/
theorem clamp_lt_iff (n : UInt32) :
    (clamp n).toNat < maxFrameBuckets ↔ n.toNat < maxFrameBuckets := by
  rw [clamp]
  split
  · next hlt =>
    have hle : maxFrameBuckets ≤ n.toNat := Nat.le_of_lt (UInt32.lt_iff_toNat_lt.mp hlt)
    exact iff_of_false (Nat.lt_irrefl _) (Nat.not_lt.mpr hle)
  · rfl

theorem clamp_numFrames_lt_iff {refreshPeriod : Int64} (hpos : 0 < refreshPeriod)
    (start finish : Int64) :
    (clamp (numFrames refreshPeriod start finish)).toNat < maxFrameBuckets ↔
      FewPeriods refreshPeriod start finish := by
  rw [clamp_lt_iff, FewPeriods, ← numFrames_eq hpos, Int.ofNat_lt]

theorem updateFrames_eq_ok {array : StatArray} {refreshPeriod start finish : Int64}
    {stat stat' : FrameBuckets} (hpos : 0 < refreshPeriod)
    (h : updateFrames array refreshPeriod start finish stat = .ok stat') :
    FewPeriods refreshPeriod start finish ∧ stat'.total = stat.total + 1 := by
  obtain ⟨hlt, htotal⟩ := FrameBuckets.increment_eq_ok h
  exact ⟨(clamp_numFrames_lt_iff hpos start finish).mp hlt, htotal⟩

theorem exists_updateFrames (array : StatArray) {refreshPeriod start finish : Int64}
    (stat : FrameBuckets) (hpos : 0 < refreshPeriod)
    (h : FewPeriods refreshPeriod start finish) :
    ∃ stat', updateFrames array refreshPeriod start finish stat = .ok stat' :=
  FrameBuckets.exists_increment array stat ((clamp_numFrames_lt_iff hpos start finish).mpr h)

/-! ## One call

A call counts a frame or leaves the arrays alone.
-/

variable {s : FrameStatistics}

theorem updateOffset_eq_ok {refreshPeriod : Int64} (hpos : 0 < refreshPeriod)
    {t : FrameTimestamps} {offset : FrameBuckets}
    (h : s.updateOffsetFromPreviousFrame refreshPeriod t = .ok offset) :
    (s.prevFrameTime ≠ 0 → FewPeriods refreshPeriod s.prevFrameTime t.presented) ∧
      offset.total ≤ s.stats.offsetFromPreviousFrame.total + 1 := by
  rw [updateOffsetFromPreviousFrame] at h
  split at h
  · obtain ⟨htime, htotal⟩ := updateFrames_eq_ok hpos h
    exact ⟨fun _ => htime, htotal.le⟩
  · next hprev =>
    obtain rfl := Except.ok.inj h
    exact ⟨fun hne => absurd hne hprev, Nat.le_succ _⟩

theorem exists_updateOffset {refreshPeriod : Int64} (hpos : 0 < refreshPeriod)
    {t : FrameTimestamps}
    (h : s.prevFrameTime ≠ 0 → FewPeriods refreshPeriod s.prevFrameTime t.presented) :
    ∃ offset, s.updateOffsetFromPreviousFrame refreshPeriod t = .ok offset := by
  rw [updateOffsetFromPreviousFrame]
  split
  · next hprev => exact exists_updateFrames _ _ hpos (h hprev)
  · exact ⟨_, rfl⟩

/-- An update counts the frame, and everything it counts is in range. -/
theorem update_eq_ok {refreshPeriod : Int64} (hpos : 0 < refreshPeriod) {frame : EGLFrame}
    {t : FrameTimestamps} {s' : FrameStatistics} (hs : s.SumsOk)
    (h : s.update refreshPeriod frame t = .ok s') :
    s.TimesOk refreshPeriod frame t ∧ s'.SumsOk := by
  obtain ⟨idle, hidle, h⟩ := Checked.bind_eq_ok.mp h
  obtain ⟨late, hlate, h⟩ := Checked.bind_eq_ok.mp h
  obtain ⟨offset, hoffset, h⟩ := Checked.bind_eq_ok.mp h
  obtain ⟨latency, hlatency, h⟩ := Checked.bind_eq_ok.mp h
  obtain rfl := Except.ok.inj h
  obtain ⟨hidleTime, hidle⟩ := updateFrames_eq_ok hpos hidle
  obtain ⟨hlateTime, hlate⟩ := updateFrames_eq_ok hpos hlate
  obtain ⟨hoffsetTime, hoffset⟩ := updateOffset_eq_ok hpos hoffset
  obtain ⟨hlatencyTime, hlatency⟩ := updateFrames_eq_ok hpos hlatency
  refine ⟨⟨hidleTime, hlateTime, hoffsetTime, hlatencyTime⟩, ?_, ?_, ?_, ?_⟩
  · exact hidle.trans (congrArg (· + 1) hs.idleFrames)
  · exact hlate.trans (congrArg (· + 1) hs.lateFrames)
  · exact hlatency.trans (congrArg (· + 1) hs.latencyFrames)
  · exact hoffset.trans (Nat.succ_le_succ hs.offsetFromPreviousFrame)

theorem exists_update {refreshPeriod : Int64} (hpos : 0 < refreshPeriod) {frame : EGLFrame}
    {t : FrameTimestamps} (h : s.TimesOk refreshPeriod frame t) :
    ∃ s', s.update refreshPeriod frame t = .ok s' := by
  obtain ⟨idle, hidle⟩ := exists_updateFrames .idleFrames s.stats.idleFrames hpos h.idleFrames
  obtain ⟨late, hlate⟩ := exists_updateFrames .lateFrames s.stats.lateFrames hpos h.lateFrames
  obtain ⟨offset, hoffset⟩ := exists_updateOffset hpos h.offsetFromPreviousFrame
  obtain ⟨latency, hlatency⟩ :=
    exists_updateFrames .latencyFrames s.stats.latencyFrames hpos h.latencyFrames
  rw [update]
  simp only [updateIdleFrames, updateLateFrames, updateLatencyFrames, hidle, hlate, hoffset,
    hlatency, Checked.ok_bind]
  exact ⟨_, rfl⟩

theorem captureFront_eq_ok {c : Capture} {s' : FrameStatistics} (hs : s.SumsOk)
    (h : s.captureFront c = .ok s') : s.FrontOk c ∧ s'.SumsOk := by
  rw [captureFront] at h
  split at h
  · next frame rest t hpending htimes =>
    obtain ⟨s₁, hupdate, rfl⟩ := Checked.map_eq_ok.mp h
    obtain ⟨htimesOk, hsums⟩ := update_eq_ok c.refreshPeriod_pos hs hupdate
    refine ⟨?_, hsums.1, hsums.2, hsums.3, hsums.4⟩
    intro frame' hframe t' ht
    rw [hpending, List.head?_cons, Option.mem_some_iff] at hframe
    rw [htimes, Option.mem_some_iff] at ht
    exact hframe ▸ ht ▸ htimesOk
  · next hnone =>
    obtain rfl := Except.ok.inj h
    refine ⟨fun frame hframe t ht => ?_, hs⟩
    obtain ⟨rest, hpending⟩ := List.head?_eq_some_iff.mp hframe
    exact (hnone frame rest t hpending ht).elim

theorem exists_captureFront {c : Capture} (h : s.FrontOk c) :
    ∃ s', s.captureFront c = .ok s' := by
  rw [captureFront]
  split
  · next frame rest t hpending htimes =>
    have htimesOk := h frame (by rw [hpending]; rfl) t htimes
    obtain ⟨s', hs'⟩ := exists_update c.refreshPeriod_pos htimesOk
    exact ⟨_, by rw [hs']; rfl⟩
  · exact ⟨s, rfl⟩

theorem sumsOk_dropLag (hs : s.SumsOk) (c : Capture) : ((s.push c).dropLag c).SumsOk := by
  have hstats : ((s.push c).dropLag c).stats = s.stats := by
    have hpush : (s.push c).stats = s.stats := by
      rw [push]
      split <;> rfl
    rw [← hpush]
    rw [dropLag]
    split
    · split <;> rfl
    · rfl
  exact ⟨by rw [hstats, hs.1], by rw [hstats, hs.2], by rw [hstats, hs.3],
    by rw [hstats]; exact hs.4⟩

theorem captureOk_iff (hs : s.SumsOk) (c : Capture) : s.CaptureOk c ↔ s.CountsOk c := by
  constructor
  · rintro ⟨s', h, -⟩
    exact (captureFront_eq_ok (sumsOk_dropLag hs c) h).1
  · intro h
    obtain ⟨s', hs'⟩ := exists_captureFront h
    exact ⟨s', hs', (captureFront_eq_ok (sumsOk_dropLag hs c) hs').2⟩

/-! ## Every run

The sums are right after any number of calls, if each of them meets the condition.
-/

theorem sumsOk_new : new.SumsOk := ⟨rfl, rfl, rfl, Nat.le_refl _⟩

/-- **The calls of a run access the histograms in range and keep their sums right exactly
when the timestamps they count are few periods apart.** -/
theorem captureOk_iff_countsOk (cs : List Capture) :
    Runs.ChecksOk capture CaptureOk new cs ↔ Runs.ChecksOk capture CountsOk new cs :=
  Runs.checksOk_congr (fun (s : FrameStatistics) c _ (hs : s.SumsOk) h =>
      (captureFront_eq_ok (sumsOk_dropLag hs c) h).2)
    (fun _ c hs => captureOk_iff hs c) sumsOk_new cs

/-- A frame that is presented six refresh periods after the requested time. -/
theorem not_captureOk_late :
    ¬ Runs.ChecksOk capture CaptureOk new
      [⟨1, 1, 0, some 1, some ⟨1, 1, 1, 61⟩, 10, by decide⟩] := by
  rintro ⟨⟨s', h, -⟩, -⟩
  exact (nomatch h : False)

end FrameStatistics

end GameSdk
