import GameSdk.Runs
import GameSdk.SwappySteps

/-!
# Settings reaching the frame pacer (`Settings.cpp`, `SwappyCommon.cpp`)

A setter writes its field under the lock of `Settings`, and then notifies: the
listener of `SwappyCommon` takes `mFrameDurationsMutex`, reads the display timings
and the swap interval, each under the lock of `Settings`, and stores what it read as
the next timing settings. The render thread applies those under the same mutex.

The steps are the sections between the locks, on any number of threads. Of the
members of `SwappyCommon` only those that the settings go through are kept here;
`timings_step` ties them to the pacer.

When no setter is under way, what the pacer has stored is what the settings hold, and the settings
hold the last written value of each field.
-/

namespace GameSdk

/-- The part of the settings that the display determines. -/
structure DisplayTimings where
  refreshPeriod : ℤ
  appOffset : ℤ
  sfOffset : ℤ
  deriving DecidableEq, Repr

/-- The fields of `Settings`. -/
structure SwappySettings where
  displayTimings : DisplayTimings
  swapIntervalNS : UInt64
  useAffinity : Bool
  deriving DecidableEq, Repr

/-- What a setter writes. -/
inductive SwappySettings.Write where
  | displayTimings (displayTimings : DisplayTimings)
  | swapIntervalNS (swap_ns : UInt64)
  | useAffinity (tf : Bool)
  deriving DecidableEq, Repr

/-- A field is written. -/
def SwappySettings.write (s : SwappySettings) : Write → SwappySettings
  | .displayTimings displayTimings => { s with displayTimings }
  | .swapIntervalNS swap_ns => { s with swapIntervalNS := swap_ns }
  | .useAffinity tf => { s with useAffinity := tf }

/-- `SwappyCommon::TimingSettings`, whatever the setters wrote. -/
structure Timings where
  refreshPeriod : ℤ
  swapIntervalNS : ℤ
  deriving DecidableEq, Repr

/-- The conversion to `std::chrono::nanoseconds`. -/
def nanoseconds (ns : UInt64) : ℤ := ns.toInt64.toInt

/-- `TimingSettings::from`. -/
def Timings.ofSettings (s : SwappySettings) : Timings :=
  ⟨s.displayTimings.refreshPeriod, nanoseconds s.swapIntervalNS⟩

/-! ### The part of the pacer

The members that settings go through, and the functions that take part.
-/

/-- The members of `SwappyCommon` that the settings go through. -/
structure PacerTimings where
  refreshPeriod : ℤ
  swapIntervalNS : ℤ
  nextTimingSettings : Timings
  timingSettingsNeedUpdate : Bool
  deriving DecidableEq, Repr

namespace PacerTimings

variable (p : PacerTimings)

/-- The timings in force. -/
def current : Timings := ⟨p.refreshPeriod, p.swapIntervalNS⟩

/-- `onSettingsChanged`, once it has read the settings. -/
def onSettingsChanged (timingSettings : Timings) : PacerTimings :=
  if timingSettings ≠ p.nextTimingSettings then
    { p with nextTimingSettings := timingSettings, timingSettingsNeedUpdate := true }
  else p

/-- After this the function only reads these members; it divides by the new refresh
period. -/
def updateDisplayTimings : PacerTimings :=
  if p.timingSettingsNeedUpdate = false then p
  else
    let p := { p with timingSettingsNeedUpdate := false }
    if p.refreshPeriod = p.nextTimingSettings.refreshPeriod ∧
        p.swapIntervalNS = p.nextTimingSettings.swapIntervalNS then p
    else
      { p with
        refreshPeriod := p.nextTimingSettings.refreshPeriod
        swapIntervalNS := p.nextTimingSettings.swapIntervalNS }

/-- The constructor: it reads the refresh period of the display, leaves the swap
interval uninitialized, and sets the display timings, which calls its listener. -/
def new (settings : SwappySettings) (swapIntervalNS : ℤ) : PacerTimings :=
  onSettingsChanged ⟨settings.displayTimings.refreshPeriod, swapIntervalNS, ⟨0, 0⟩, false⟩
    (.ofSettings settings)

end PacerTimings

/-! ## The steps of the setters

A setter is in one of a few phases, each of which is a step. A thread that waits for a mutex takes
no step.
-/

/-- Where a thread is in a setter. -/
inductive Setter where
  /-- in none, or out of the notification -/
  | idle
  /-- has written its field -/
  | written
  /-- in `onSettingsChanged`, with the mutex -/
  | locked
  /-- has read the display timings -/
  | readDisplayTimings (refreshPeriod : ℤ)
  /-- has read the swap interval as well -/
  | readSettings (timingSettings : Timings)
  deriving DecidableEq, Repr

/-- The setters that hold `mFrameDurationsMutex`. -/
def Setter.HoldsMutex : Setter → Prop
  | .idle | .written => False
  | .locked | .readDisplayTimings _ | .readSettings _ => True

/-- The settings, the pacer, and the threads that are in a setter. -/
structure SettingsSystem where
  settings : SwappySettings
  pacer : PacerTimings
  setter : ℕ → Setter
  /-- the thread that holds `mFrameDurationsMutex` -/
  mutex : Option ℕ

namespace SettingsSystem

/-- One thing that happens. -/
inductive Event where
  /-- a thread enters a setter and writes its field -/
  | set (thread : ℕ) (write : SwappySettings.Write)
  /-- it enters `onSettingsChanged`, if it can -/
  | lock (thread : ℕ)
  | getDisplayTimings (thread : ℕ)
  | getSwapIntervalNS (thread : ℕ)
  /-- it stores what it read and leaves -/
  | unlock (thread : ℕ)
  | updateDisplayTimings
  deriving DecidableEq, Repr

variable (s : SettingsSystem)

/-- A thread moves on. -/
def move (thread : ℕ) (setter : Setter) : ℕ → Setter :=
  fun t => if t = thread then setter else s.setter t

/-- A step that the thread cannot take leaves everything as it is. -/
def step : Event → SettingsSystem
  | .set thread write =>
    if s.setter thread = .idle then
      { s with settings := s.settings.write write, setter := s.move thread .written }
    else s
  | .lock thread =>
    if s.setter thread = .written ∧ s.mutex = none then
      { s with setter := s.move thread .locked, mutex := some thread }
    else s
  | .getDisplayTimings thread =>
    if s.setter thread = .locked then
      { s with
        setter := s.move thread (.readDisplayTimings s.settings.displayTimings.refreshPeriod) }
    else s
  | .getSwapIntervalNS thread =>
    match s.setter thread with
    | .readDisplayTimings refreshPeriod =>
      { s with
        setter := s.move thread
          (.readSettings ⟨refreshPeriod, nanoseconds s.settings.swapIntervalNS⟩) }
    | _ => s
  | .unlock thread =>
    match s.setter thread with
    | .readSettings timingSettings =>
      { s with
        pacer := s.pacer.onSettingsChanged timingSettings
        setter := s.move thread .idle
        mutex := none }
    | _ => s
  | .updateDisplayTimings =>
    if s.mutex = none then { s with pacer := s.pacer.updateDisplayTimings } else s

/-- One fully constructed `SwappyCommon`, and no setter under way. -/
def new (settings : SwappySettings) (swapIntervalNS : ℤ) : SettingsSystem where
  settings := settings
  pacer := .new settings swapIntervalNS
  setter _ := .idle
  mutex := none

/-- No setter is between its write and the end of its notification. -/
def Quiet : Prop := ∀ thread, s.setter thread = .idle

/-! ## Why no update is lost

The thread that holds the mutex may have read something old, but then somebody has
written since and is still to notify. So once no thread has that ahead of it, what
was read and what was stored is what the settings hold.
-/

end SettingsSystem

/-- What a setter has read is what the settings hold. -/
def Setter.Fresh (settings : SwappySettings) : Setter → Prop
  | .readDisplayTimings refreshPeriod => refreshPeriod = settings.displayTimings.refreshPeriod
  | .readSettings timingSettings => timingSettings = .ofSettings settings
  | .idle | .written | .locked => True

namespace PacerTimings

variable (p : PacerTimings)

/-- Without a pending update the timings in force are the next ones. -/
def Applied : Prop := p.timingSettingsNeedUpdate = false → p.current = p.nextTimingSettings

theorem nextTimingSettings_onSettingsChanged (timingSettings : Timings) :
    (p.onSettingsChanged timingSettings).nextTimingSettings = timingSettings := by
  rw [onSettingsChanged]
  split_ifs with h
  · rfl
  · exact (not_ne_iff.mp h).symm

theorem applied_onSettingsChanged {p : PacerTimings} (h : p.Applied) (timingSettings : Timings) :
    (p.onSettingsChanged timingSettings).Applied := by
  rw [onSettingsChanged]
  split_ifs
  · intro hneed
    cases hneed
  · exact h

theorem nextTimingSettings_updateDisplayTimings :
    p.updateDisplayTimings.nextTimingSettings = p.nextTimingSettings := by
  simp only [updateDisplayTimings]
  split_ifs <;> rfl

theorem timingSettingsNeedUpdate_updateDisplayTimings :
    p.updateDisplayTimings.timingSettingsNeedUpdate = false := by
  simp only [updateDisplayTimings]
  split_ifs with hneed
  · exact hneed
  · rfl
  · rfl

theorem current_updateDisplayTimings {p : PacerTimings} (h : p.Applied) :
    p.updateDisplayTimings.current = p.nextTimingSettings := by
  simp only [updateDisplayTimings]
  split_ifs with hneed heq
  · exact h hneed
  · rw [current, heq.1, heq.2]
  · rfl

theorem applied_updateDisplayTimings {p : PacerTimings} (h : p.Applied) :
    p.updateDisplayTimings.Applied := by
  intro _
  rw [current_updateDisplayTimings h, nextTimingSettings_updateDisplayTimings]

/-- A real display has a refresh period, so the first notification is not missed. -/
theorem applied_new {settings : SwappySettings}
    (hperiod : 0 < settings.displayTimings.refreshPeriod) (swapIntervalNS : ℤ) :
    (new settings swapIntervalNS).Applied := by
  have hne : Timings.ofSettings settings ≠ ⟨0, 0⟩ := by
    intro h
    have : settings.displayTimings.refreshPeriod = 0 := congrArg Timings.refreshPeriod h
    omega
  intro hneed
  rw [new, onSettingsChanged, if_pos hne] at hneed
  cases hneed

end PacerTimings

namespace SettingsSystem

variable {s : SettingsSystem}

@[simp] theorem move_self (thread : ℕ) (setter : Setter) : s.move thread setter thread = setter :=
  if_pos rfl

theorem move_of_ne {thread t : ℕ} (h : t ≠ thread) (setter : Setter) :
    s.move thread setter t = s.setter t := if_neg h

/-! ### The invariant

While no thread is between its write and its notification, every thread that has read has read what
is there now.
-/

/-- Nobody has a notification ahead. -/
def NoneWritten (s : SettingsSystem) : Prop := ∀ thread, s.setter thread ≠ .written

/-- What holds between the steps. -/
structure Inv (s : SettingsSystem) : Prop where
  mutex : ∀ thread, (s.setter thread).HoldsMutex ↔ s.mutex = some thread
  fresh : s.NoneWritten → ∀ thread, (s.setter thread).Fresh s.settings
  stored : s.NoneWritten → s.mutex = none →
    s.pacer.nextTimingSettings = .ofSettings s.settings
  applied : s.pacer.Applied

theorem inv_new {settings : SwappySettings} (hperiod : 0 < settings.displayTimings.refreshPeriod)
    (swapIntervalNS : ℤ) : (new settings swapIntervalNS).Inv where
  mutex thread := by simp [new, Setter.HoldsMutex]
  fresh _ _ := trivial
  stored _ _ := PacerTimings.nextTimingSettings_onSettingsChanged _ _
  applied := PacerTimings.applied_new hperiod swapIntervalNS

theorem Setter.fresh_of_not_holdsMutex {setter : Setter} (h : ¬ setter.HoldsMutex)
    (settings : SwappySettings) : setter.Fresh settings := by
  cases setter with
  | idle | written | locked => trivial
  | readDisplayTimings | readSettings => exact absurd trivial h

theorem holdsMutex_move {thread : ℕ} {setter : Setter}
    (h : setter.HoldsMutex ↔ (s.setter thread).HoldsMutex) (t : ℕ) :
    (s.move thread setter t).HoldsMutex ↔ (s.setter t).HoldsMutex := by
  by_cases ht : t = thread
  · rw [ht, move_self, h]
  · rw [move_of_ne ht]

theorem noneWritten_of_move {thread : ℕ} {setter : Setter} (hthread : s.setter thread ≠ .written)
    (h : ∀ t, s.move thread setter t ≠ .written) : s.NoneWritten := by
  intro t
  by_cases ht : t = thread
  · rw [ht]
    exact hthread
  · have := h t
    rwa [move_of_ne ht] at this

/-! ### One step

A write makes all that was read before stale, but its thread is to notify afterwards. The last
thread that notifies reads what is there.
-/

theorem inv_set (hinv : s.Inv) (thread : ℕ) (write : SwappySettings.Write) :
    (s.step (.set thread write)).Inv := by
  simp only [step]
  split_ifs with hidle
  · have hwritten : ¬ ∀ t, s.move thread .written t ≠ .written := by
      intro h
      exact h thread (move_self thread .written)
    refine ⟨?_, fun h => absurd h hwritten, fun h => absurd h hwritten, hinv.applied⟩
    intro t
    have hmove := @holdsMutex_move s thread .written (by rw [hidle]; rfl) t
    exact hmove.trans (hinv.mutex t)
  · exact hinv

/-- Nobody else is in the listener, so nobody has read anything yet. -/
theorem inv_lock (hinv : s.Inv) (thread : ℕ) : (s.step (.lock thread)).Inv := by
  simp only [step]
  split_ifs with hlock
  · obtain ⟨-, hmutex⟩ := hlock
    have hnone (t : ℕ) : ¬ (s.setter t).HoldsMutex := by
      rw [hinv.mutex t, hmutex]
      exact nofun
    refine ⟨?_, ?_, ?_, hinv.applied⟩
    · intro t
      by_cases ht : t = thread
      · simp [ht, Setter.HoldsMutex]
      · have hne : thread ≠ t := fun h => ht h.symm
        simp [move_of_ne ht, hnone t, hne]
    · intro _ t
      by_cases ht : t = thread
      · simp [ht, Setter.Fresh]
      · simpa [move_of_ne ht] using Setter.fresh_of_not_holdsMutex (hnone t) s.settings
    · intro _ hmutex'
      cases hmutex'
  · exact hinv

/-- The holder of the mutex reads on. -/
theorem inv_read (hinv : s.Inv) {thread : ℕ} {setter : Setter}
    (hholds : (s.setter thread).HoldsMutex) (hreads : setter.HoldsMutex)
    (hfresh : (s.setter thread).Fresh s.settings → setter.Fresh s.settings) :
    Inv { s with setter := s.move thread setter } := by
  have hthread : s.setter thread ≠ .written := by
    intro h
    rw [h] at hholds
    exact hholds
  refine ⟨?_, ?_, ?_, hinv.applied⟩
  · intro t
    have hmove := holdsMutex_move (iff_of_true hreads hholds) t
    exact hmove.trans (hinv.mutex t)
  · intro hnone t
    have hold := hinv.fresh (noneWritten_of_move hthread hnone)
    by_cases ht : t = thread
    · simpa [ht] using hfresh (hold thread)
    · simpa [move_of_ne ht] using hold t
  · intro hnone
    exact hinv.stored (noneWritten_of_move hthread hnone)

theorem inv_unlock (hinv : s.Inv) (thread : ℕ) : (s.step (.unlock thread)).Inv := by
  simp only [step]
  split
  · next timingSettings hreads =>
    have hthread : s.setter thread ≠ .written := by
      rw [hreads]
      exact nofun
    have hholder : s.mutex = some thread := by
      rw [← hinv.mutex, hreads]
      trivial
    refine ⟨?_, ?_, ?_, PacerTimings.applied_onSettingsChanged hinv.applied _⟩
    · intro t
      by_cases ht : t = thread
      · simp [ht, Setter.HoldsMutex]
      · have hne : thread ≠ t := fun h => ht h.symm
        simp [move_of_ne ht, hinv.mutex t, hholder, hne]
    · intro hnone t
      by_cases ht : t = thread
      · simp [ht, Setter.Fresh]
      · simpa [move_of_ne ht] using hinv.fresh (noneWritten_of_move hthread hnone) t
    · intro hnone _
      have hfresh := hinv.fresh (noneWritten_of_move hthread hnone) thread
      rw [hreads] at hfresh
      exact (PacerTimings.nextTimingSettings_onSettingsChanged _ _).trans hfresh
  · exact hinv

theorem inv_updateDisplayTimings (hinv : s.Inv) : (s.step .updateDisplayTimings).Inv := by
  simp only [step]
  split_ifs
  · refine ⟨hinv.mutex, hinv.fresh, ?_, PacerTimings.applied_updateDisplayTimings hinv.applied⟩
    intro hnone hmutex
    exact (PacerTimings.nextTimingSettings_updateDisplayTimings _).trans
      (hinv.stored hnone hmutex)
  · exact hinv

theorem inv_step (hinv : s.Inv) (e : Event) : (s.step e).Inv := by
  cases e with
  | set thread write => exact inv_set hinv thread write
  | lock thread => exact inv_lock hinv thread
  | getDisplayTimings thread =>
    simp only [step]
    split_ifs with hlocked
    · exact inv_read hinv (by rw [hlocked]; trivial) trivial fun _ => rfl
    · exact hinv
  | getSwapIntervalNS thread =>
    simp only [step]
    split
    · next refreshPeriod hread =>
      refine inv_read hinv (by rw [hread]; trivial) trivial ?_
      intro hfresh
      rw [hread] at hfresh
      rw [Setter.Fresh, Timings.ofSettings, ← hfresh]
    · exact hinv
  | unlock thread => exact inv_unlock hinv thread
  | updateDisplayTimings => exact inv_updateDisplayTimings hinv

/-! ### When nobody is in a setter

Then nobody is between a write and a notification, so what was stored last is what the settings
hold.
-/

theorem mutex_of_quiet (hinv : s.Inv) (hquiet : s.Quiet) : s.mutex = none := by
  rcases hmutex : s.mutex with _ | thread
  · rfl
  · have hholds := (hinv.mutex thread).mpr hmutex
    rw [hquiet thread] at hholds
    exact hholds.elim

theorem noneWritten_of_quiet (hquiet : s.Quiet) : s.NoneWritten := by
  intro thread
  rw [hquiet thread]
  exact nofun

/-- The invariant holds in every state of a run. -/
theorem inv_of_run {settings : SwappySettings}
    (hperiod : 0 < settings.displayTimings.refreshPeriod) (swapIntervalNS : ℤ) (es : List Event) :
    ∀ s ∈ Runs.states step (new settings swapIntervalNS) es, s.Inv :=
  @Runs.forall_mem_states _ _ step Inv (fun _ e h => inv_step h e) _
    (inv_new hperiod swapIntervalNS) es

/-- **No settings update is lost**: in every state of every run in which all setters are
done, the next timing settings are what the settings hold, and `updateDisplayTimings`
puts these in force and clears the flag. -/
theorem quiet_updates {settings : SwappySettings}
    (hperiod : 0 < settings.displayTimings.refreshPeriod) (swapIntervalNS : ℤ) (es : List Event) :
    ∀ s ∈ Runs.states step (new settings swapIntervalNS) es, s.Quiet →
      s.pacer.nextTimingSettings = .ofSettings s.settings ∧
        (s.step .updateDisplayTimings).pacer.current = .ofSettings s.settings ∧
        (s.step .updateDisplayTimings).pacer.timingSettingsNeedUpdate = false := by
  intro s hs hquiet
  have hinv := inv_of_run hperiod swapIntervalNS es s hs
  have hmutex := mutex_of_quiet hinv hquiet
  have hstored := hinv.stored (noneWritten_of_quiet hquiet) hmutex
  simp only [step, if_pos hmutex]
  refine ⟨hstored, ?_, PacerTimings.timingSettingsNeedUpdate_updateDisplayTimings _⟩
  rw [PacerTimings.current_updateDisplayTimings hinv.applied, hstored]

/-! ### What the settings hold

A write takes effect when its thread is in no setter. The settings are then those that these
writes, in their order, leave behind: each field has the value that was written last, or the one
it had at first. -/

/-- What a step writes. -/
def written (s : SettingsSystem) : Event → List SwappySettings.Write
  | .set thread write => if s.setter thread = .idle then [write] else []
  | .lock _ | .getDisplayTimings _ | .getSwapIntervalNS _ | .unlock _ | .updateDisplayTimings => []

/-- The writes of a run, in order. -/
def writes (s : SettingsSystem) : List Event → List SwappySettings.Write
  | [] => []
  | e :: es => s.written e ++ writes (s.step e) es

/-- A step writes what it is to write, and no other step changes the settings. -/
theorem settings_step (s : SettingsSystem) (e : Event) :
    (s.step e).settings = (s.written e).foldl SwappySettings.write s.settings := by
  cases e with
  | set thread write =>
    rw [step, written]
    by_cases hidle : s.setter thread = .idle
    · rw [if_pos hidle, if_pos hidle]
      rfl
    · rw [if_neg hidle, if_neg hidle]
      rfl
  | lock | getDisplayTimings | getSwapIntervalNS | unlock | updateDisplayTimings =>
    rw [step, written]
    split <;> rfl

theorem settings_foldl (s : SettingsSystem) (es : List Event) :
    (es.foldl step s).settings = (s.writes es).foldl SwappySettings.write s.settings := by
  induction es generalizing s with
  | nil => rfl
  | cons e es ih => rw [List.foldl_cons, ih, settings_step, writes, List.foldl_append]

end SettingsSystem

namespace SwappySettings

/-- The display timings that are written, if they are. -/
def Write.displayTimings? : Write → Option DisplayTimings
  | .displayTimings timings => some timings
  | .swapIntervalNS _ | .useAffinity _ => none

/-- The swap interval that is written. -/
def Write.swapIntervalNS? : Write → Option UInt64
  | .swapIntervalNS swap_ns => some swap_ns
  | .displayTimings _ | .useAffinity _ => none

/-- The affinity that is written. -/
def Write.useAffinity? : Write → Option Bool
  | .useAffinity tf => some tf
  | .displayTimings _ | .swapIntervalNS _ => none

/-- The settings with the value of each field that was written last. -/
def lastWritten (s : SwappySettings) (ws : List Write) : SwappySettings where
  displayTimings := (ws.filterMap Write.displayTimings?).getLastD s.displayTimings
  swapIntervalNS := (ws.filterMap Write.swapIntervalNS?).getLastD s.swapIntervalNS
  useAffinity := (ws.filterMap Write.useAffinity?).getLastD s.useAffinity

theorem foldl_write (s : SwappySettings) (ws : List Write) :
    ws.foldl write s = s.lastWritten ws := by
  induction ws generalizing s with
  | nil => rfl
  | cons w ws ih =>
    rw [List.foldl_cons, ih]
    cases w <;>
      simp only [lastWritten, write, List.filterMap_cons, Write.displayTimings?,
        Write.swapIntervalNS?, Write.useAffinity?, List.getLastD_cons]

end SwappySettings

namespace SettingsSystem

/-- **The settings hold what was written last.** -/
theorem settings_lastWritten (s : SettingsSystem) (es : List Event) :
    (es.foldl step s).settings = s.settings.lastWritten (s.writes es) :=
  (settings_foldl s es).trans (SwappySettings.foldl_write _ _)

/-- So does the pacer, as its next timing settings, when all setters are done. -/
theorem nextTimingSettings_lastWritten {settings : SwappySettings}
    (hperiod : 0 < settings.displayTimings.refreshPeriod) (swapIntervalNS : ℤ) {es : List Event}
    (hquiet : (es.foldl step (new settings swapIntervalNS)).Quiet) :
    (es.foldl step (new settings swapIntervalNS)).pacer.nextTimingSettings =
      .ofSettings (settings.lastWritten ((new settings swapIntervalNS).writes es)) := by
  have hinv := inv_of_run hperiod swapIntervalNS es _ (Runs.foldl_mem_states step _ es)
  rw [hinv.stored (noneWritten_of_quiet hquiet) (mutex_of_quiet hinv hquiet),
    settings_lastWritten]
  rfl

/-- Two threads whose setters overlap: the second one writes while the listener of the
first is between its two reads. -/
def overlap : List Event :=
  [.set 0 (.displayTimings ⟨8333333, 0, 0⟩), .lock 0, .getDisplayTimings 0,
    .set 1 (.swapIntervalNS 20000000), .getSwapIntervalNS 0, .lock 1, .unlock 0, .lock 1,
    .getDisplayTimings 1, .updateDisplayTimings, .getSwapIntervalNS 1, .unlock 1]

/-- At 60 Hz. -/
def sixtyHertz : SwappySettings := ⟨⟨16666667, 0, 0⟩, 16666667, true⟩

theorem quiet_overlap : (overlap.foldl step (new sixtyHertz 0)).Quiet := by
  intro thread
  by_cases h₀ : thread = 0
  · subst h₀
    rfl
  by_cases h₁ : thread = 1
  · subst h₁
    rfl
  · simp [overlap, new, step, move, h₀, h₁]

theorem quiet_updates_overlap :
    (overlap.foldl step (new sixtyHertz 0)).pacer.nextTimingSettings =
        .ofSettings (overlap.foldl step (new sixtyHertz 0)).settings ∧
      ((overlap.foldl step (new sixtyHertz 0)).step .updateDisplayTimings).pacer.current =
        .ofSettings (overlap.foldl step (new sixtyHertz 0)).settings ∧
      ((overlap.foldl step (new sixtyHertz 0)).step
        .updateDisplayTimings).pacer.timingSettingsNeedUpdate = false :=
  quiet_updates (by decide) 0 overlap _ (Runs.foldl_mem_states step _ overlap) quiet_overlap

end SettingsSystem

/-! ## The pacer

`SwappyCommon` does with these members what `PacerTimings` says.
-/

/-- The settings of the pacer, with the proof that the period is real left out. -/
def TimingSettings.timings (t : TimingSettings) : Timings := ⟨t.refreshPeriod, t.swapIntervalNS⟩

theorem TimingSettings.timings_inj {t t' : TimingSettings} :
    t.timings = t'.timings ↔ t = t' := by
  cases t
  cases t'
  simp [timings]

namespace SwappyCommon

/-- The members of the pacer that the settings go through. -/
def timings (s : SwappyCommon) : PacerTimings where
  refreshPeriod := s.refreshPeriod
  swapIntervalNS := s.swapIntervalNS
  nextTimingSettings := s.nextTimingSettings.timings
  timingSettingsNeedUpdate := s.timingSettingsNeedUpdate

variable (s : SwappyCommon)

theorem timings_new {settings : SwappySettings} {t : TimingSettings}
    (ht : t.timings = .ofSettings settings) (hasDisplayManager : Bool) (u : Uninitialized) :
    (new t hasDisplayManager u).timings = .new settings u.swapIntervalNS := by
  have hperiod : settings.displayTimings.refreshPeriod = t.refreshPeriod :=
    (congrArg Timings.refreshPeriod ht).symm
  have hne : Timings.ofSettings settings ≠ ⟨0, 0⟩ := by
    intro h
    have hzero : t.refreshPeriod = 0 := congrArg Timings.refreshPeriod (ht.trans h)
    have := t.refreshPeriod_pos
    omega
  rw [PacerTimings.new, PacerTimings.onSettingsChanged, if_pos hne, hperiod, ← ht]
  rfl

theorem timings_onSettingsChanged (t : TimingSettings) :
    (s.onSettingsChanged t).timings = s.timings.onSettingsChanged t.timings := by
  have hiff : t.timings ≠ s.timings.nextTimingSettings ↔ t ≠ s.nextTimingSettings :=
    not_congr TimingSettings.timings_inj
  rw [onSettingsChanged, PacerTimings.onSettingsChanged]
  simp only [hiff]
  split_ifs <;> rfl

theorem timings_updateDisplayTimings (supported : RefreshRateMap) :
    (s.updateDisplayTimings supported).timings = s.timings.updateDisplayTimings := by
  by_cases hpending : s.SettingsPending
  · obtain ⟨rates, modeId, durations, heq⟩ := s.updateDisplayTimings_of_pending hpending supported
    have hneed : s.timings.timingSettingsNeedUpdate ≠ false := by
      rw [timings, hpending.1]
      exact nofun
    have hchanged : ¬ (s.timings.refreshPeriod = s.timings.nextTimingSettings.refreshPeriod ∧
        s.timings.swapIntervalNS = s.timings.nextTimingSettings.swapIntervalNS) := hpending.2
    rw [heq, PacerTimings.updateDisplayTimings, if_neg hneed]
    simp only [hchanged, if_false]
    rfl
  · obtain ⟨rates, heq⟩ := s.updateDisplayTimings_of_not hpending supported
    rw [heq, PacerTimings.updateDisplayTimings]
    by_cases hneed : s.timingSettingsNeedUpdate = false
    · have hneed' : s.timings.timingSettingsNeedUpdate = false := hneed
      rw [if_pos hneed', timings, timings, hneed]
    · have hneed' : s.timings.timingSettingsNeedUpdate ≠ false := hneed
      have hsame : s.timings.refreshPeriod = s.timings.nextTimingSettings.refreshPeriod ∧
          s.timings.swapIntervalNS = s.timings.nextTimingSettings.swapIntervalNS :=
        not_not.mp fun h => hpending ⟨by simpa using hneed, h⟩
      rw [if_neg hneed']
      dsimp only
      rw [if_pos hsame]
      rfl

theorem timings_updateSwapInterval : s.updateSwapInterval.2.timings = s.timings := by
  by_cases h : s.autoSwapIntervalEnabled = true ∧ s.frameDurations.Full
  · obtain ⟨_, _, _, _, _, _, -, heq, -⟩ := updateSwapInterval_eq h.1 h.2
    rw [heq]
    rfl
  · rw [updateSwapInterval_of_not h]

/-- **Every call of the pacer does with its timings what `PacerTimings` says, or leaves
them alone.** -/
theorem timings_step (e : Event) :
    (s.step e).timings =
      match e with
      | .onSettingsChanged t => s.timings.onSettingsChanged t.timings
      | .updateDisplayTimings _ => s.timings.updateDisplayTimings
      | .updateSwapInterval | .addFrameDuration _ _ | .setAutoSwapInterval _
      | .setAutoPipelineMode _ => s.timings := by
  cases e with
  | addFrameDuration | setAutoSwapInterval | setAutoPipelineMode => rfl
  | updateSwapInterval => exact s.timings_updateSwapInterval
  | updateDisplayTimings supported => exact s.timings_updateDisplayTimings supported
  | onSettingsChanged t => exact s.timings_onSettingsChanged t

end SwappyCommon

end GameSdk
