import GameSdk.Safety
import GameSdk.SampleKeys

/-!
# The traces of Swappy (`tuningfork_extra.cpp`)

Swappy tells the tuning fork when it waits and when it swaps: before it does, a
callback starts a trace, and after it another one ends the trace. The wrapper keeps
the handles of the two traces and takes 0 for "no trace". But 0 is a handle: that of
the first key under the first annotation. A trace with this handle is never ended.

A `TracePair` is where a pair of callbacks stands. `PairsTraced` is the property of a step, that
the end of a pair adds its one sample and no trace is left live. `StartOk` is the condition on the
callbacks that start a trace: its handle is not 0, and the clock does not read the time that stands
for none.

The tuning fork is the one of the other modules, with its faults. The callbacks come from the render
thread, and the calls of the game from the same one, so a run is a sequence of both.
-/

namespace GameSdk

/-- What the wrapper traces. -/
inductive SwappyTrace where
  | wait | swap
  deriving DecidableEq, Repr

/-- `TFTICK_SYSCPU` -/
def tickSysCpu : InstrumentationKey := 64000

/-- `TFTICK_SYSGPU` -/
def tickSysGpu : InstrumentationKey := 64001

/-- `TFTICK_SWAPPY_WAIT_TIME` and `TFTICK_SWAPPY_SWAP_TIME` -/
def SwappyTrace.key : SwappyTrace → InstrumentationKey
  | .wait => 64002
  | .swap => 64003

/-- ghost: where a pair of callbacks is. -/
inductive TracePair where
  | closed
  /-- `TuningFork_startTrace` returned an error -/
  | failed
  /-- it returned a handle, under this annotation id -/
  | started (annotationId : AnnotationId)
  deriving DecidableEq, Repr

/-- Whether a call starts or ends a trace. -/
def Call.traces : Call → Bool
  | .startTrace .. | .endTrace .. => true
  | _ => false

/-- The wrapper, and the tuning fork that it calls. -/
structure TuningForkTraceWrapper where
  impl : TuningForkImpl
  /-- `waitTraceHandle_` and `swapTraceHandle_` -/
  traceHandle : SwappyTrace → TraceHandle
  pair : SwappyTrace → TracePair

namespace TuningForkTraceWrapper

/-- The calls of the wrapper by Swappy, those of the tuning fork by the game (the frame
callback of `startFrame` is the game's: its calls come before it), and the steps of the
upload thread. -/
inductive Event where
  | startFrame (t : TimePoint)
  | preWait (now : TimePoint)
  | postWait (now t : TimePoint)
  | preSwapBuffers (now : TimePoint)
  | postSwapBuffers (now : TimePoint)
  | game (c : Call)
  | upload (glEsVersion : UInt32)
  deriving DecidableEq, Repr

/-- No pair has been started. -/
def start (s : TuningForkImpl) : TuningForkTraceWrapper where
  impl := s
  traceHandle _ := 0
  pair _ := .closed

variable (sqrt : ℚ → ℚ) (w : TuningForkTraceWrapper)

/-- `TuningFork_startTrace`, given the address of the handle: an error leaves the handle
as it is. -/
def startTrace (t : SwappyTrace) (now : TimePoint) :
    Except (Fault Vec) TuningForkTraceWrapper := do
  match ← w.impl.startTrace t.key now with
  | (_, none, impl) => .ok { w with impl, pair := Function.update w.pair t .failed }
  | (_, some handle, impl) =>
    .ok { impl
          traceHandle := Function.update w.traceHandle t handle
          pair := Function.update w.pair t (.started w.impl.currentAnnotationId) }

/-- The `if` of the two callbacks that end a trace. -/
def endTrace (t : SwappyTrace) (now : TimePoint) :
    Except (Fault Vec) TuningForkTraceWrapper :=
  if w.traceHandle t ≠ 0 then do
    let (_, impl) ← w.impl.endTrace sqrt (w.traceHandle t) now
    .ok { impl
          traceHandle := Function.update w.traceHandle t 0
          pair := Function.update w.pair t .closed }
  else .ok { w with pair := Function.update w.pair t .closed }

/-- A call that is not the wrapper's, or whose result the wrapper only logs. -/
def call (c : Call) : Except (Fault Vec) TuningForkTraceWrapper :=
  (w.impl.call sqrt c).map fun impl => { w with impl }

/-- A frame starts, which is a tick. -/
def swappyStartFrameCallback (t : TimePoint) := w.call sqrt (.frameTick tickSysCpu t)

/-- The wait begins. -/
def swappyPreWaitCallback (now : TimePoint) := w.startTrace .wait now

/-- The wait ends, which is a tick as well. -/
def swappyPostWaitCallback (now t : TimePoint) : Except (Fault Vec) TuningForkTraceWrapper := do
  let w ← w.endTrace sqrt .wait now
  w.call sqrt (.frameTick tickSysGpu t)

/-- The swap begins. -/
def swappyPreSwapBuffersCallback (now : TimePoint) := w.startTrace .swap now

/-- The swap ends. -/
def swappyPostSwapBuffersCallback (now : TimePoint) := w.endTrace sqrt .swap now

/-- One event, on the state in which it happens. -/
def step : Event → Except (Fault Vec) TuningForkTraceWrapper
  | .startFrame t => w.swappyStartFrameCallback sqrt t
  | .preWait now => w.swappyPreWaitCallback now
  | .postWait now t => w.swappyPostWaitCallback sqrt now t
  | .preSwapBuffers now => w.swappyPreSwapBuffersCallback now
  | .postSwapBuffers now => w.swappyPostSwapBuffersCallback sqrt now
  | .game c => w.call sqrt c
  | .upload glEsVersion => .ok { w with impl := w.impl.upload glEsVersion }

/-! ## What a pair does

The two callbacks of a pair, as steps of the tuning fork.
-/

/-- The trace that an event starts, and when. -/
def Event.starts : Event → Option (SwappyTrace × TimePoint)
  | .preWait now => some (.wait, now)
  | .preSwapBuffers now => some (.swap, now)
  | _ => none

/-- The trace that an event ends, and when. -/
def Event.ends : Event → Option (SwappyTrace × TimePoint)
  | .postWait now _ => some (.wait, now)
  | .postSwapBuffers now => some (.swap, now)
  | _ => none

end TuningForkTraceWrapper

/-! ### What should hold of a pair

The end of a pair is to add one sample to the prong of its key and of the annotation that was set at
the start.
-/

/-- One more sample in one prong of the current cache, the one for the key under the
annotation id; nothing else is new, and the trace of the prong is not live. -/
def TuningForkImpl.AddsSample (s s' : TuningForkImpl) (o : Origin) : Prop :=
  ∃ i p p' d, o.LandsIn s.keys i ∧ s.current.prongs[i]? = some p ∧
    s'.current.prongs = s.current.prongs.set i p' ∧
    p'.histogram.recorded = p.histogram.recorded ++ [d] ∧
    (s'.prongCaches !s.currentProngCache) = s.prongCaches !s.currentProngCache ∧
    s'.added = s.added ++ [(i, d)] ∧ s'.liveTraces[i]? = some TimePoint.min

namespace TuningForkTraceWrapper

/-- The live traces are those of the pairs under way. -/
def OnlyUnderWay (w : TuningForkTraceWrapper) : Prop :=
  ∀ i x, w.impl.liveTraces[i]? = some x → x ≠ TimePoint.min →
    ∃ t a, w.pair t = .started a ∧ Origin.LandsIn w.impl.keys i ⟨t.key, a⟩

/-- The start of a trace adds no sample, its end adds one to the prong of the key, and no
live trace is left behind. -/
structure PairsTraced (w : TuningForkTraceWrapper) (sqrt : ℚ → ℚ) (e : Event)
    (w' : TuningForkTraceWrapper) : Prop where
  start : ∀ t now, e.starts = some (t, now) → w'.impl.added = w.impl.added
  finish : ∀ t now a, e.ends = some (t, now) → w.pair t = .started a →
    ∃ w₁, w.endTrace sqrt t now = .ok w₁ ∧ w.impl.AddsSample w₁.impl ⟨t.key, a⟩
  onlyUnderWay : w'.OnlyUnderWay

/-- A pair may start when the one before it is closed, under a valid annotation. -/
def MayStart (w : TuningForkTraceWrapper) (t : SwappyTrace) : Prop :=
  w.pair t = .closed ∧
    (TuningForkImpl.HasIndex w.impl.keys t.key → w.impl.AnnotationInRange)

/-- The callbacks come in pairs, and no one else traces. -/
def Allowed (w : TuningForkTraceWrapper) : Event → Prop
  | .preWait _ => w.MayStart .wait
  | .preSwapBuffers _ => w.MayStart .swap
  | .game c => c.traces = false ∧ w.impl.StepOk (.call c)
  | _ => True

/-- The key is not the first of the table, or the annotation id is not 0; and the clock
does not read the time that stands for none. -/
def HandleOk (w : TuningForkTraceWrapper) (t : SwappyTrace) (now : TimePoint) : Prop :=
  TuningForkImpl.HasIndex w.impl.keys t.key → now ≠ TimePoint.min ∧
    (w.impl.currentAnnotationId = 0 →
      0 < w.impl.keys.nextIkey ∧ w.impl.keys.ikeys[0]? ≠ some t.key)

/-- The condition on the callbacks that start a trace. -/
def StartOk (w : TuningForkTraceWrapper) : Event → Prop
  | .preWait now => w.HandleOk .wait now
  | .preSwapBuffers now => w.HandleOk .swap now
  | _ => True

end TuningForkTraceWrapper

/-! ## The layout of a state

Which prong a handle stands for, and that it stays so while the key table grows.
-/

namespace TuningForkImpl

/-- What every state of a run has in common, whatever the settings. -/
structure LaidOut (s : TuningForkImpl) : Prop where
  keys : s.keys.Wf
  length_ikeys : s.keys.ikeys.length = s.settings.maxInstrumentationKeys.toNat
  length_prongs : ∀ c, (s.prongCaches c).prongs.length = s.liveTraces.length
  caches : ∀ c, (s.prongCaches c).Wf
  annotationId : s.currentAnnotationId =
    if s.decodeAnnotationSerialization s.currentAnnotation = kAnnotationError then 0
    else s.decodeAnnotationSerialization s.currentAnnotation

variable {sqrt : ℚ → ℚ} {s s' : TuningForkImpl}

theorem LaidOut.setKeys (h : s.LaidOut) {key : InstrumentationKey} {r : Option ℕ}
    {keys : InstrumentKeys} (hkeys : s.keys.getOrCreateInstrumentKeyIndex key = .ok (r, keys)) :
    LaidOut { s with keys } := by
  obtain ⟨hwf, hext, -⟩ := InstrumentKeys.getOrCreate_eq_ok h.keys hkeys
  exact ⟨hwf, hext.length_eq.trans h.length_ikeys, h.length_prongs, h.caches, h.annotationId⟩

theorem LaidOut.setLiveTraces (h : s.LaidOut) (i : ℕ) (t : TimePoint) :
    LaidOut { s with liveTraces := s.liveTraces.set i t } :=
  ⟨h.keys, h.length_ikeys, fun c => (h.length_prongs c).trans (List.length_set ..).symm, h.caches,
    h.annotationId⟩

/-- A cache may be replaced by one of the same length. -/
theorem LaidOut.setCache (h : s.LaidOut) {c : ProngCache} (b : Bool)
    (hlen : c.prongs.length = s.liveTraces.length) (hwf : c.Wf) :
    LaidOut { s with prongCaches := Function.update s.prongCaches b c } where
  keys := h.keys
  length_ikeys := h.length_ikeys
  length_prongs := forall_update (P := fun c => c.prongs.length = s.liveTraces.length)
    h.length_prongs hlen
  caches := forall_update h.caches hwf
  annotationId := h.annotationId

theorem LaidOut.putProng (h : s.LaidOut) (id : UInt64) {p : Prong} (hp : p.histogram.Wf)
    (ds : List Sample) : (s.putProng id p ds).LaidOut := by
  have hset := h.setCache s.currentProngCache (c := s.current.put id p)
    ((List.length_set ..).trans (h.length_prongs _)) (ProngCache.wf_put (h.caches _) hp)
  exact ⟨hset.keys, hset.length_ikeys, hset.length_prongs, hset.caches, hset.annotationId⟩

theorem LaidOut.prong (h : s.LaidOut) {i : ℕ} {p : Prong} (hp : s.current.prongs[i]? = some p) :
    p.histogram.Wf := h.caches _ p (List.mem_of_getElem? hp)

theorem laidOut_change (h : s.LaidOut) (hchange : Change sqrt s s') : s'.LaidOut := by
  cases hchange with
  | quiet hquiet =>
    cases hquiet with
    | keys hkeys => exact h.setKeys hkeys
    | trace hp htrace =>
      obtain ⟨histogram, hadd, rfl⟩ := Prong.trace_eq_ok htrace
      exact h.putProng _ (Histogram.recorded_add (h.prong hp) hadd).1 _
    | liveTraces i t => exact h.setLiveTraces i t
  | tick hp htick =>
    rcases Prong.tick_eq_ok htick with ⟨-, rfl⟩ | ⟨-, histogram, hadd, rfl⟩
    · have hwf := h.prong hp
      refine h.putProng _ ?_ _
      exact hwf
    · exact h.putProng _ (Histogram.recorded_add (h.prong hp) hadd).1 _
  | annotate ann =>
    rw [annotated_eq]
    exact ⟨h.keys, h.length_ikeys, h.length_prongs, h.caches, rfl⟩

theorem laidOut_step {e : Event} (h : s.LaidOut) (hstep : s.step sqrt e = .ok s') :
    s'.LaidOut := by
  refine step_preserves (fun _ _ => laidOut_change) (fun s s' h hprepare => ?_)
    (fun s t h _ => ?_) (fun s t h _ => ?_) (fun s v h => ?_) h hstep
  · obtain ⟨cache, hcache, rfl⟩ := prepareFlush_eq_ok hprepare
    have hprongs := (ProngCache.withoutKeys_setInstrumentKeys hcache).1
    refine h.setCache _ ?_ ((ProngCache.samples_eq_of_withoutKeys hprongs).2.2 (h.caches _))
    exact (ProngCache.length_eq_of_withoutKeys hprongs).trans (h.length_prongs _)
  · have hset := h.setCache (!s.currentProngCache) (c := (s.prongCaches !s.currentProngCache).clear)
      ((List.length_map ..).trans (h.length_prongs _)) (ProngCache.wf_clear (h.caches _))
    exact ⟨hset.keys, hset.length_ikeys, hset.length_prongs, hset.caches, hset.annotationId⟩
  · exact ⟨h.keys, h.length_ikeys, h.length_prongs, h.caches, h.annotationId⟩
  · exact ⟨h.keys, h.length_ikeys, h.length_prongs, h.caches, h.annotationId⟩

theorem laidOut_new {st : Settings} {info : ExtraUploadInfo} {now : TimePoint}
    (hnew : new st info now = .ok s) : s.LaidOut := by
  have htick := (Traced.inv_start hnew).tick
  have hwf := (accounted_new hnew).wf
  obtain ⟨histograms, keys, ps, -, hps, rfl⟩ := new_eq_ok hnew
  refine ⟨htick.keys, htick.length_ikeys, fun c => ?_, hwf, ?_⟩
  · exact (ProngCache.allocate_eq_ok hps).1.trans (List.length_replicate ..).symm
  · rw [decodeAnnotationSerialization_nil]
    rfl

/-- The id of a valid annotation is a multiple of the number of keys, and there is room
for the key indices after it. -/
theorem LaidOut.whole (h : s.LaidOut) (hrange : s.AnnotationInRange) (key : InstrumentationKey) :
    Origin.Whole s.keys.ikeys.length ⟨key, s.currentAnnotationId⟩ := by
  have hk := UInt32.toNat_lt s.settings.maxInstrumentationKeys
  have hid := h.annotationId
  have hzero : Origin.Whole s.keys.ikeys.length ⟨key, 0⟩ := by
    refine ⟨Nat.dvd_zero _, ?_⟩
    rw [h.length_ikeys]
    change 0 + _ ≤ _
    omega
  rw [decodeAnnotationSerialization] at hid
  rcases hrange with hlt | ⟨hone, herr⟩
  · generalize GameSdk.decodeAnnotationSerialization s.currentAnnotation s.annotationRadixMult = d
      at hlt hid
    split at hid
    · rw [hid]
      exact hzero
    · have hradix := UInt32.toNat_lt (s.annotationRadixMult.getLastD 0)
      have hroom : (d.toNat + 1) * s.settings.maxInstrumentationKeys.toNat ≤
          (2 ^ 32 - 1) * 2 ^ 32 := Nat.mul_le_mul (by omega) (Nat.le_of_lt hk)
      rw [Nat.add_mul, Nat.one_mul] at hroom
      have hmul : s.currentAnnotationId.toNat =
          d.toNat * s.settings.maxInstrumentationKeys.toNat := by
        rw [hid, UInt64.toNat_mul, UInt32.toNat_toUInt64, Nat.mod_eq_of_lt (by omega)]
      rw [Origin.Whole, h.length_ikeys, hmul]
      exact ⟨Nat.dvd_mul_left .., by omega⟩
  · rw [hone, herr] at hid
    rw [hid]
    exact hzero

/-! ### Ending a trace

The end of a live trace adds the duration since its start to the prong of its handle, and frees the
slot.
-/

/-- On a prong that there is, a trace comes down to its histogram. -/
theorem traceNanos_eq {id : UInt64} {p : Prong} (hp : s.current.prongs[id.toNat]? = some p)
    (dt : Duration) :
    s.traceNanos sqrt id dt = (p.trace sqrt dt s.added.length).map fun p' =>
      (some p', s.putProng id p' [Prong.sample dt s.added.length]) := by
  obtain ⟨hlt, -⟩ := List.getElem?_eq_some_iff.mp hp
  have hget : s.current.get id = .ok (some p) := by
    rw [ProngCache.get, if_neg (Nat.not_le.mpr hlt), Checked.read_eq_ok_iff.mpr hp, Checked.ok_bind]
  rw [traceNanos, hget, Checked.ok_bind]
  cases htrace : p.trace sqrt dt s.added.length with
  | error e => simp only [htrace, Except.map]; rfl
  | ok p' => simp only [htrace, Checked.ok_bind, Except.map]

/-- So does the end of a live trace. -/
theorem LaidOut.endTrace_eq (h : s.LaidOut) {handle : TraceHandle} {t : TimePoint}
    (hlive : s.liveTraces[handle.toNat]? = some t) (hmin : t ≠ TimePoint.min) (now : TimePoint) :
    ∃ p, s.current.prongs[handle.toNat]? = some p ∧
      s.endTrace sqrt handle now = (p.trace sqrt (now - t) s.added.length).map fun p' =>
        (.ok, { s.putProng handle p' [Prong.sample (now - t) s.added.length] with
          liveTraces := s.liveTraces.set handle.toNat TimePoint.min }) := by
  obtain ⟨hlt, -⟩ := List.getElem?_eq_some_iff.mp hlive
  have hlt' : handle.toNat < s.current.prongs.length := (h.length_prongs _).symm ▸ hlt
  have hp := List.getElem?_eq_getElem hlt'
  refine ⟨_, hp, ?_⟩
  rw [endTrace, if_neg (Nat.not_le.mpr hlt), Checked.read_eq_ok_iff.mpr hlive, Checked.ok_bind,
    if_pos hmin, traceNanos_eq hp]
  cases s.current.prongs[handle.toNat].trace sqrt (now - t) s.added.length with
  | error e => rfl
  | ok p' =>
    have hwrite : Checked.write Vec.liveTraces s.liveTraces handle.toNat TimePoint.min =
        .ok (s.liveTraces.set handle.toNat TimePoint.min) := Checked.write_of_lt hlt
    simp only [Except.map, Checked.ok_bind]
    exact congrArg (fun x => x >>= _) hwrite

/-- What it does when it returns: the prong records the time, and the trace is not live. -/
theorem LaidOut.endTrace_eq_ok (h : s.LaidOut) {handle : TraceHandle} {t now : TimePoint}
    (hlive : s.liveTraces[handle.toNat]? = some t) (hmin : t ≠ TimePoint.min)
    {r : TFErrorCode × TuningForkImpl} (hend : s.endTrace sqrt handle now = .ok r) :
    ∃ p p', s.current.prongs[handle.toNat]? = some p ∧ p'.histogram.Wf ∧
      p'.histogram.recorded =
        p.histogram.recorded ++ [Prong.sample (now - t) s.added.length] ∧
      r = (.ok, { s.putProng handle p' [Prong.sample (now - t) s.added.length] with
        liveTraces := s.liveTraces.set handle.toNat TimePoint.min }) := by
  obtain ⟨p, hp, heq⟩ : ∃ p, _ ∧ s.endTrace sqrt handle now = _ := h.endTrace_eq hlive hmin now
  rw [heq] at hend
  obtain ⟨p', htrace, rfl⟩ := Checked.map_eq_ok.mp hend
  obtain ⟨histogram, hadd, rfl⟩ := Prong.trace_eq_ok htrace
  obtain ⟨hwf, hrecorded⟩ := Histogram.recorded_add (h.prong hp) hadd
  exact ⟨p, _, hp, hwf, hrecorded, rfl⟩

theorem addsSample_putProng {handle : TraceHandle} {o : Origin} {p p' : Prong} {d : Sample}
    (hlands : o.LandsIn s.keys handle.toNat) (hp : s.current.prongs[handle.toNat]? = some p)
    (hrecorded : p'.histogram.recorded = p.histogram.recorded ++ [d])
    (hlt : handle.toNat < s.liveTraces.length) :
    s.AddsSample { s.putProng handle p' [d] with
      liveTraces := s.liveTraces.set handle.toNat TimePoint.min } o :=
  ⟨handle.toNat, p, p', d, hlands, hp,
    congrArg ProngCache.prongs (current_putProng s handle p' [d]), hrecorded,
    prongCaches_putProng (Bool.not_ne_self _) handle p' [d], rfl, List.getElem?_set_self hlt⟩

/-- What the traces rely on: the indices of the keys and the live traces. -/
structure SameTraces (s s' : TuningForkImpl) : Prop where
  keys : InstrumentKeys.Extends s.keys s'.keys
  liveTraces : s'.liveTraces = s.liveTraces

theorem SameTraces.refl (s : TuningForkImpl) : SameTraces s s := ⟨.refl _, rfl⟩

theorem sameTraces_checkForSubmit {s₁ : TuningForkImpl} {due : Option TimePoint}
    {err : TFErrorCode} (h : SameTraces s s₁) (hflush : s₁.checkForSubmit due = .ok (err, s')) :
    SameTraces s s' := by
  refine flush_preserves (fun s₁ s₂ h hprepare => ?_) (fun _ _ h _ => ⟨h.keys, h.liveTraces⟩)
    (fun _ _ h _ => ⟨h.keys, h.liveTraces⟩) h hflush
  obtain ⟨cache, -, rfl⟩ := prepareFlush_eq_ok hprepare
  exact ⟨h.keys, h.liveTraces⟩

/-- A call that is not about traces leaves them alone. -/
theorem LaidOut.sameTraces (h : s.LaidOut) {c : Call} (hc : c.traces = false)
    (hcall : s.call sqrt c = .ok s') : SameTraces s s' := by
  obtain ⟨due, s₁, err, hbody, hflush⟩ := call_eq_ok hcall
  refine sameTraces_checkForSubmit ⟨(follows_of_callBody h.keys hbody).2.2.1, ?_⟩ hflush
  cases c with
  | setCurrentAnnotation ann =>
    cases hbody
    rw [annotated_eq]
  | frameTick key t =>
    obtain ⟨⟨err, r⟩, htick, rfl⟩ := Checked.map_eq_ok.mp hbody
    obtain ⟨r, keys, -, ⟨rfl, -⟩ | ⟨i, p, p', -, -, -, rfl⟩⟩ := frameTickBody_eq_ok htick <;> rfl
  | frameDeltaTimeNanos key dt now =>
    obtain ⟨⟨err, r⟩, hdelta, rfl⟩ := Checked.map_eq_ok.mp hbody
    obtain ⟨r, keys, -, ⟨rfl, -⟩ | ⟨i, p, p', -, -, -, rfl⟩⟩ :=
      frameDeltaTimeNanosBody_eq_ok hdelta <;> rfl
  | startTrace key now => cases hc
  | endTrace handle now => cases hc
  | flush t =>
    cases hbody
    rfl

end TuningForkImpl

/-! ## The pairs under way

A pair that was started is a live trace, until its end.
-/

namespace Origin

/-- A key under an annotation id has one prong number. -/
theorem LandsIn.unique {t : InstrumentKeys} {i i' : ℕ} {o : Origin} (h : o.LandsIn t i)
    (h' : o.LandsIn t i') : i = i' := by
  obtain ⟨j, hj, rfl⟩ := h
  obtain ⟨j', hj', rfl⟩ := h'
  rw [hj] at hj'
  cases hj'
  rfl

end Origin

theorem SwappyTrace.key_inj {t t' : SwappyTrace} (h : t.key = t'.key) : t = t' := by
  cases t <;> cases t' <;> first | rfl | exact absurd h (by decide)

namespace TuningForkTraceWrapper

/-- A pair under way has a handle that the wrapper can tell from "no trace"; it is the
number of the prong of its key, and its trace is live. -/
structure UnderWay (s : TuningForkImpl) (handle : TraceHandle) (o : Origin) : Prop where
  handle_ne : handle ≠ 0
  landsIn : o.LandsIn s.keys handle.toNat
  whole : o.Whole s.keys.ikeys.length
  live : ∃ x, s.liveTraces[handle.toNat]? = some x ∧ x ≠ TimePoint.min

/-- What holds between the callbacks. -/
structure Inv (w : TuningForkTraceWrapper) : Prop where
  laidOut : w.impl.LaidOut
  idle : ∀ t, (∀ a, w.pair t ≠ .started a) → w.traceHandle t = 0
  underWay : ∀ t a, w.pair t = .started a → UnderWay w.impl (w.traceHandle t) ⟨t.key, a⟩
  onlyUnderWay : w.OnlyUnderWay

variable {sqrt : ℚ → ℚ} {w w' : TuningForkTraceWrapper}

theorem UnderWay.sameTraces {s s' : TuningForkImpl} {handle : TraceHandle} {o : Origin}
    (h : UnderWay s handle o) (hs : s.LaidOut) (hs' : s'.LaidOut)
    (hsame : TuningForkImpl.SameTraces s s') : UnderWay s' handle o where
  handle_ne := h.handle_ne
  landsIn := h.landsIn.extends hs.keys hs'.keys hsame.keys
  whole := hsame.keys.length_eq.symm ▸ h.whole
  live := hsame.liveTraces.symm ▸ h.live

/-- The handles of the pairs under way differ. -/
theorem Inv.trace_eq (hinv : w.Inv) {t t' : SwappyTrace} {a a' : AnnotationId}
    (ht : w.pair t = .started a) {i : ℕ} (hi : i = (w.traceHandle t).toNat)
    (ht' : w.pair t' = .started a') (hlands : Origin.LandsIn w.impl.keys i ⟨t'.key, a'⟩) :
    t = t' := by
  subst hi
  have h := hinv.underWay t a ht
  have h' := hinv.underWay t' a' ht'
  have horigin := h.landsIn.inj hinv.laidOut.keys h.whole hlands h'.whole
  exact SwappyTrace.key_inj (congrArg Origin.key horigin)

/-- What leaves the traces alone. -/
theorem Inv.quiet (hinv : w.Inv) {s : TuningForkImpl} (hs : s.LaidOut)
    (hsame : TuningForkImpl.SameTraces w.impl s) : Inv { w with impl := s } where
  laidOut := hs
  idle := hinv.idle
  underWay t a ht := (hinv.underWay t a ht).sameTraces hinv.laidOut hs hsame
  onlyUnderWay i x hx hmin := by
    rw [hsame.liveTraces] at hx
    obtain ⟨t, a, ht, hlands⟩ := hinv.onlyUnderWay i x hx hmin
    exact ⟨t, a, ht, hlands.extends hinv.laidOut.keys hs.keys hsame.keys⟩

theorem inv_call (hinv : w.Inv) {c : Call} (hc : c.traces = false)
    (h : w.call sqrt c = .ok w') : w'.Inv := by
  obtain ⟨s, hs, rfl⟩ := Checked.map_eq_ok.mp h
  have hlaid : s.LaidOut := TuningForkImpl.laidOut_step (e := .call c) hinv.laidOut hs
  exact hinv.quiet hlaid (hinv.laidOut.sameTraces hc hs)

/-- A pair that is not under way may fail, or be closed. -/
theorem Inv.setPair (hinv : w.Inv) {t : SwappyTrace} {pair : TracePair}
    (ht : ∀ a, w.pair t ≠ .started a) (hpair : ∀ a, pair ≠ .started a) :
    Inv { w with pair := Function.update w.pair t pair } := by
  have hold {t' : SwappyTrace} {a : AnnotationId}
      (h : Function.update w.pair t pair t' = .started a) : w.pair t' = .started a := by
    rw [Function.update_apply] at h
    split at h
    · exact absurd h (hpair a)
    · exact h
  refine ⟨hinv.laidOut, fun t' h => ?_, fun t' a h => hinv.underWay t' a (hold h), ?_⟩
  · by_cases heq : t' = t
    · exact hinv.idle t' (heq ▸ ht)
    · simp only [Function.update_of_ne heq] at h
      exact hinv.idle t' h
  · intro i x hx hmin
    obtain ⟨t', a, ht', hlands⟩ := hinv.onlyUnderWay i x hx hmin
    have hne : t' ≠ t := by
      rintro rfl
      exact ht a ht'
    exact ⟨t', a, (Function.update_of_ne hne ..).trans ht', hlands⟩

/-! ### Starting a pair

Handles are positions of prongs, so the handle is 0 for the first key under the first annotation
only.
-/

/-- The handle 0 is that of the first key of the table, under the annotation id 0. -/
theorem handle_ne_zero {t t' : InstrumentKeys} (hwf : t'.Wf) (hext : InstrumentKeys.Extends t t')
    {o : Origin} {handle : TraceHandle} (hlands : o.LandsIn t' handle.toNat)
    (hwhole : o.Whole t'.ikeys.length)
    (hfirst : o.annotationId = 0 → 0 < t.nextIkey ∧ t.ikeys[0]? ≠ some o.key) : handle ≠ 0 := by
  rintro rfl
  obtain ⟨hindex, hid⟩ := hlands.eq_of_whole hwf hwhole
  simp only [UInt64.toNat_zero, Nat.zero_mod, Nat.zero_div, Nat.zero_mul] at hindex hid
  obtain ⟨hpos, hother⟩ := hfirst (UInt64.toNat_inj.mp hid)
  have hget := ((InstrumentKeys.keyIndex_eq_some_iff hwf).mp hindex).2
  exact hother ((hext.getElem?_eq 0 hpos).symm.trans hget)

/-- Another prong is given a live trace. -/
theorem UnderWay.setLiveTrace {s : TuningForkImpl} {handle : TraceHandle} {o : Origin}
    (h : UnderWay s handle o) {i : ℕ} (hne : i ≠ handle.toNat) (now : TimePoint) :
    UnderWay { s with liveTraces := s.liveTraces.set i now } handle o := by
  obtain ⟨x, hx, hmin⟩ := h.live
  exact ⟨h.handle_ne, h.landsIn, h.whole, x, (List.getElem?_set_ne hne).trans hx, hmin⟩

/-- A trace that starts under a valid annotation, with a handle that is not 0. -/
theorem Inv.start (hinv : w.Inv) {t : SwappyTrace} {now : TimePoint} (ht : w.pair t = .closed)
    {i : ℕ} {keys : InstrumentKeys}
    (hkeys : w.impl.keys.getOrCreateInstrumentKeyIndex t.key = .ok (some i, keys))
    (hrange : w.impl.AnnotationInRange) (hnow : now ≠ TimePoint.min)
    (hfirst : w.impl.currentAnnotationId = 0 →
      0 < w.impl.keys.nextIkey ∧ w.impl.keys.ikeys[0]? ≠ some t.key) {handle : TraceHandle}
    (hhandle : handle = UInt64.ofNat i + w.impl.currentAnnotationId)
    (hlt : handle.toNat < w.impl.liveTraces.length) :
    Inv { impl := { w.impl with keys, liveTraces := w.impl.liveTraces.set handle.toNat now }
          traceHandle := Function.update w.traceHandle t handle
          pair := Function.update w.pair t (.started w.impl.currentAnnotationId) } := by
  have hlaid := hinv.laidOut
  have hkeyed := hlaid.setKeys hkeys
  obtain ⟨hwf, hext, -⟩ := InstrumentKeys.getOrCreate_eq_ok hlaid.keys hkeys
  have hlands : Origin.LandsIn keys handle.toNat ⟨t.key, w.impl.currentAnnotationId⟩ :=
    ⟨i, (InstrumentKeys.keyIndex_getOrCreate hlaid.keys hkeys).1, hhandle ▸ rfl⟩
  have hwhole : Origin.Whole keys.ikeys.length ⟨t.key, w.impl.currentAnnotationId⟩ :=
    hext.length_eq.symm ▸ hlaid.whole hrange t.key
  refine ⟨hkeyed.setLiveTraces handle.toNat now, fun t' h => ?_, fun t' a h => ?_,
    fun j x hx hmin => ?_⟩
  · by_cases heq : t' = t
    · subst heq
      exact absurd (Function.update_self ..) (h w.impl.currentAnnotationId)
    · simp only [Function.update_of_ne heq] at h ⊢
      exact hinv.idle t' h
  · -- the others under way have other keys, and so other prongs
    by_cases heq : t' = t
    · subst heq
      simp only [Function.update_self, TracePair.started.injEq] at h ⊢
      subst h
      have hne := handle_ne_zero hwf hext hlands hwhole hfirst
      exact ⟨hne, hlands, hwhole, now, List.getElem?_set_self hlt, hnow⟩
    · simp only [Function.update_of_ne heq] at h ⊢
      have hold := (hinv.underWay t' a h).sameTraces hlaid hkeyed ⟨hext, rfl⟩
      refine hold.setLiveTrace (fun hsame => heq ?_) now
      have horigin := hold.landsIn.inj hwf hold.whole (hsame ▸ hlands) hwhole
      exact SwappyTrace.key_inj (congrArg Origin.key horigin)
  · -- the only trace that is new is this one
    by_cases heq : handle.toNat = j
    · subst heq
      exact ⟨t, _, Function.update_self .., hlands⟩
    · simp only [List.getElem?_set_ne heq] at hx
      obtain ⟨t', a, ht', hlands'⟩ := hinv.onlyUnderWay j x hx hmin
      have hne : t' ≠ t := by
        rintro rfl
        rw [ht] at ht'
        cases ht'
      exact ⟨t', a, (Function.update_of_ne hne ..).trans ht', hlands'.extends hlaid.keys hwf hext⟩

theorem inv_startTrace (hinv : w.Inv) {t : SwappyTrace} {now : TimePoint}
    (hmay : w.MayStart t) (hok : w.HandleOk t now) (h : w.startTrace t now = .ok w') :
    w'.Inv ∧ w'.impl.added = w.impl.added := by
  obtain ⟨hclosed, hrange⟩ := hmay
  have hidle : ∀ a, w.pair t ≠ .started a := by simp [hclosed]
  obtain ⟨⟨err, r, s⟩, hstart, h⟩ := Checked.bind_eq_ok.mp h
  obtain ⟨i, keys, hkeys, hr, ⟨rfl, rfl⟩ | ⟨handle, rfl, rfl⟩⟩ :=
    TuningForkImpl.startTrace_eq_ok hstart
  · cases h
    obtain ⟨-, hext, -⟩ := InstrumentKeys.getOrCreate_eq_ok hinv.laidOut.keys hkeys
    have hquiet := hinv.quiet (hinv.laidOut.setKeys hkeys) ⟨hext, rfl⟩
    exact ⟨hquiet.setPair hidle (by simp), rfl⟩
  · cases h
    obtain ⟨i, rfl, rfl⟩ := Option.map_eq_some_iff.mp hr.symm
    have hindex := TuningForkImpl.hasIndex_of_getOrCreate hinv.laidOut.keys hkeys
    obtain ⟨hnow, hfirst⟩ := hok hindex
    have hlt := TuningForkImpl.handleOk_step w.impl (.call (.startTrace t.key now)) w.impl t.key now
      err _ _ rfl hstart
    exact ⟨hinv.start hclosed hkeys (hrange hindex) hnow hfirst rfl hlt, rfl⟩

/-! ### Ending a pair

The handle was kept since the start, so the slot is still that of the pair.
-/

/-- The end of a pair under way. -/
theorem Inv.finish (hinv : w.Inv) {t : SwappyTrace} {a : AnnotationId}
    (ht : w.pair t = .started a) {s : TuningForkImpl} (hs : s.LaidOut)
    (hkeys : s.keys = w.impl.keys)
    (hlive : s.liveTraces =
      w.impl.liveTraces.set (w.traceHandle t).toNat TimePoint.min) :
    Inv { impl := s
          traceHandle := Function.update w.traceHandle t 0
          pair := Function.update w.pair t .closed } := by
  have hold {t' : SwappyTrace} {a' : AnnotationId}
      (h : Function.update w.pair t TracePair.closed t' = .started a') :
      t' ≠ t ∧ w.pair t' = .started a' := by
    rw [Function.update_apply] at h
    split at h
    · cases h
    · exact ⟨by assumption, h⟩
  refine ⟨hs, fun t' h => ?_, fun t' a' h => ?_, fun j x hx hmin => ?_⟩
  · by_cases heq : t' = t
    · exact heq ▸ Function.update_self ..
    · simp only [Function.update_of_ne heq] at h ⊢
      exact hinv.idle t' h
  · obtain ⟨hne, ht'⟩ := hold h
    have hway := hinv.underWay t' a' ht'
    simp only [Function.update_of_ne hne]
    refine ⟨hway.handle_ne, hkeys.symm ▸ hway.landsIn, hkeys.symm ▸ hway.whole, ?_⟩
    have hdiff : (w.traceHandle t).toNat ≠ (w.traceHandle t').toNat := fun hsame =>
      hne (hinv.trace_eq ht hsame.symm ht' hway.landsIn).symm
    rw [hlive, List.getElem?_set_ne hdiff]
    exact hway.live
  · -- the trace that ends is live no more
    simp only [hlive, List.getElem?_set] at hx
    split at hx
    · obtain ⟨-, hx⟩ := Option.ite_none_right_eq_some.mp hx
      exact absurd (Option.some.inj hx).symm hmin
    · next hdiff =>
      obtain ⟨t', a', ht', hlands⟩ := hinv.onlyUnderWay j x hx hmin
      have hne : t' ≠ t := by
        rintro rfl
        rw [ht] at ht'
        cases ht'
        exact hdiff ((hinv.underWay t' a ht).landsIn.unique hlands)
      exact ⟨t', a', (Function.update_of_ne hne ..).trans ht', hkeys.symm ▸ hlands⟩

theorem inv_endTrace (hinv : w.Inv) {t : SwappyTrace} {now : TimePoint}
    (h : w.endTrace sqrt t now = .ok w') :
    w'.Inv ∧ ∀ a, w.pair t = .started a → w.impl.AddsSample w'.impl ⟨t.key, a⟩ := by
  by_cases ht : ∃ a, w.pair t = .started a
  · obtain ⟨a, ht⟩ := ht
    have hway := hinv.underWay t a ht
    obtain ⟨x, hx, hmin⟩ := hway.live
    rw [endTrace, if_pos hway.handle_ne] at h
    obtain ⟨r, hend, h⟩ := Checked.bind_eq_ok.mp h
    obtain ⟨p, p', hp, hwf, hrecorded, rfl⟩ := hinv.laidOut.endTrace_eq_ok hx hmin hend
    obtain ⟨hlt, -⟩ := List.getElem?_eq_some_iff.mp hx
    cases h
    refine ⟨hinv.finish ht ?_ rfl rfl, fun a' ha' => ?_⟩
    · exact (hinv.laidOut.putProng (w.traceHandle t) hwf _).setLiveTraces _ _
    · obtain rfl : a = a' := TracePair.started.inj (ht.symm.trans ha')
      exact TuningForkImpl.addsSample_putProng hway.landsIn hp hrecorded hlt
  · -- nothing was started, so there is no handle
    have hidle : ∀ a, w.pair t ≠ .started a := fun a ha => ht ⟨a, ha⟩
    rw [endTrace, if_neg (not_not.mpr (hinv.idle t hidle))] at h
    cases h
    exact ⟨hinv.setPair hidle (by simp), fun a ha => absurd ha (hidle a)⟩

theorem Inv.pairsTraced {e : Event} (hinv : w'.Inv) (hstarts : e.starts = none)
    (hends : e.ends = none) : w.PairsTraced sqrt e w' where
  start t now h := by simp [hstarts] at h
  finish t now a h := by simp [hends] at h
  onlyUnderWay := hinv.onlyUnderWay

theorem pairsTraced_of_start {e : Event} {t : SwappyTrace} {now : TimePoint} (hinv : w.Inv)
    (hends : e.ends = none) (hmay : w.MayStart t) (hok : w.HandleOk t now)
    (h : w.startTrace t now = .ok w') : w'.Inv ∧ w.PairsTraced sqrt e w' := by
  obtain ⟨hinv', hadded⟩ := inv_startTrace hinv hmay hok h
  refine ⟨hinv', fun _ _ _ => hadded, fun t now a hends' => ?_, hinv'.onlyUnderWay⟩
  rw [hends] at hends'
  cases hends'

/-- What comes after the end of the trace has nothing to do with it. -/
theorem pairsTraced_of_end {e : Event} {t : SwappyTrace} {now : TimePoint} (hinv : w.Inv)
    (hstarts : e.starts = none) (hends : e.ends = some (t, now)) {w₁ : TuningForkTraceWrapper}
    (h : w.endTrace sqrt t now = .ok w₁) (hinv' : w'.Inv) : w.PairsTraced sqrt e w' := by
  refine ⟨fun t now h => ?_, fun t' now' a hends' ht => ?_, hinv'.onlyUnderWay⟩
  · rw [hstarts] at h
    cases h
  · rw [hends] at hends'
    cases hends'
    exact ⟨w₁, h, (inv_endTrace hinv h).2 a ht⟩

theorem inv_frameTick (hinv : w.Inv) {key : InstrumentationKey} {t : TimePoint}
    (h : w.call sqrt (.frameTick key t) = .ok w') : w'.Inv :=
  inv_call hinv rfl h

theorem pairsTraced_step {e : Event} (hinv : w.Inv) (hok : w.Allowed e ∧ w.StartOk e)
    (h : w.step sqrt e = .ok w') : w'.Inv ∧ w.PairsTraced sqrt e w' := by
  obtain ⟨hallowed, hok⟩ := hok
  cases e with
  | startFrame t =>
    have hinv' := inv_frameTick hinv h
    exact ⟨hinv', hinv'.pairsTraced rfl rfl⟩
  | preWait now => exact pairsTraced_of_start hinv rfl hallowed hok h
  | postWait now t =>
    obtain ⟨w₁, hend, htick⟩ := Checked.bind_eq_ok.mp h
    have hinv' := inv_frameTick (inv_endTrace hinv hend).1 htick
    exact ⟨hinv', pairsTraced_of_end hinv rfl rfl hend hinv'⟩
  | preSwapBuffers now => exact pairsTraced_of_start hinv rfl hallowed hok h
  | postSwapBuffers now =>
    have hinv' := (inv_endTrace hinv h).1
    exact ⟨hinv', pairsTraced_of_end hinv rfl rfl h hinv'⟩
  | game c =>
    have hinv' := inv_call hinv hallowed.1 h
    exact ⟨hinv', hinv'.pairsTraced rfl rfl⟩
  | upload v =>
    cases h
    have hupload : w.impl.step sqrt (.upload v) = .ok (w.impl.upload v) := rfl
    have hlaid := TuningForkImpl.laidOut_step hinv.laidOut hupload
    have hinv' := hinv.quiet hlaid ⟨.refl _, rfl⟩
    exact ⟨hinv', hinv'.pairsTraced rfl rfl⟩

theorem inv_start {st : Settings} {info : ExtraUploadInfo} {now : TimePoint} {s : TuningForkImpl}
    (hnew : TuningForkImpl.new st info now = .ok s) : (start s).Inv := by
  have hlaid := TuningForkImpl.laidOut_new hnew
  obtain ⟨histograms, keys, ps, -, -, rfl⟩ := TuningForkImpl.new_eq_ok hnew
  refine ⟨hlaid, fun _ _ => rfl, fun t a h => ?_, fun i x hx hmin => ?_⟩
  · cases h
  · exact absurd (List.eq_of_mem_replicate (List.mem_of_getElem? hx)) hmin

/-! ## Faults

The callbacks cause none, if the handle is within the vector.
-/

/-- Steps of the tuning fork. -/
abbrev ImplSteps (sqrt : ℚ → ℚ) : TuningForkImpl → TuningForkImpl → Prop :=
  Relation.ReflTransGen fun s s' => ∃ e, TuningForkImpl.step sqrt s e = .ok s'

theorem implSteps_call {c : Call} (h : w.call sqrt c = .ok w') : ImplSteps sqrt w.impl w'.impl := by
  obtain ⟨s, hs, rfl⟩ := Checked.map_eq_ok.mp h
  exact .single ⟨.call c, hs⟩

theorem implSteps_startTrace {t : SwappyTrace} {now : TimePoint}
    (h : w.startTrace t now = .ok w') : ImplSteps sqrt w.impl w'.impl := by
  obtain ⟨⟨err, r, s⟩, hs, h⟩ := Checked.bind_eq_ok.mp h
  refine .single ⟨.call (.startTrace t.key now), Checked.map_eq_ok.mpr ⟨_, hs, ?_⟩⟩
  cases r <;> cases h <;> rfl

theorem implSteps_endTrace {t : SwappyTrace} {now : TimePoint}
    (h : w.endTrace sqrt t now = .ok w') : ImplSteps sqrt w.impl w'.impl := by
  rw [endTrace] at h
  split at h
  · obtain ⟨r, hs, h⟩ := Checked.bind_eq_ok.mp h
    cases h
    exact .single ⟨.call (.endTrace (w.traceHandle t) now), Checked.map_eq_ok.mpr ⟨_, hs, rfl⟩⟩
  · cases h
    exact .refl

/-- A step of the wrapper is made of steps of the tuning fork. -/
theorem implSteps {e : Event} (h : w.step sqrt e = .ok w') : ImplSteps sqrt w.impl w'.impl := by
  cases e with
  | startFrame t => exact implSteps_call h
  | preWait now => exact implSteps_startTrace h
  | postWait now t =>
    obtain ⟨w₁, hend, htick⟩ := Checked.bind_eq_ok.mp h
    exact (implSteps_endTrace hend).trans (implSteps_call htick)
  | preSwapBuffers now => exact implSteps_startTrace h
  | postSwapBuffers now => exact implSteps_endTrace h
  | game c => exact implSteps_call h
  | upload v =>
    cases h
    exact .single ⟨.upload v, rfl⟩

theorem inv_of_implSteps {s s' : TuningForkImpl} (hinv : s.Inv) (h : ImplSteps sqrt s s') :
    s'.Inv :=
  Runs.invariant_of_reachable (P := TuningForkImpl.Inv)
    (fun _ _ hinv ⟨_, hstep⟩ => TuningForkImpl.inv_step hinv hstep) hinv h

theorem safe_call (hinv : w.impl.Inv) {c : Call} (hok : w.impl.StepOk (.call c)) :
    Checked.Safe Bad (w.call sqrt c) :=
  Checked.safe_map.mpr (TuningForkImpl.safe_step (e := .call c) hinv hok)

theorem safe_startTrace (hinv : w.impl.Inv) {t : SwappyTrace} (hmay : w.MayStart t)
    (now : TimePoint) : Checked.Safe Bad (w.startTrace t now) := by
  rw [startTrace, Checked.safe_bind]
  refine ⟨TuningForkImpl.safe_startTrace hinv hmay.2 now, ?_⟩
  rintro ⟨err, _ | handle, s⟩ -
  · exact Checked.safe_ok _
  · exact Checked.safe_ok _

theorem safe_endTrace (hinv : w.impl.Inv) (t : SwappyTrace) (now : TimePoint) :
    Checked.Safe Bad (w.endTrace sqrt t now) := by
  rw [endTrace]
  split
  · rw [Checked.safe_bind]
    exact ⟨TuningForkImpl.safe_endTrace hinv _ now, fun _ _ => Checked.safe_ok _⟩
  · exact Checked.safe_ok _

theorem safe_step {e : Event} (hinv : w.impl.Inv) (hallowed : w.Allowed e) :
    Checked.Safe Bad (w.step sqrt e) := by
  cases e with
  | startFrame t => exact safe_call hinv trivial
  | preWait now => exact safe_startTrace hinv hallowed now
  | postWait now t =>
    rw [step, swappyPostWaitCallback, Checked.safe_bind]
    refine ⟨safe_endTrace hinv _ now, fun w₁ hend => ?_⟩
    exact safe_call (inv_of_implSteps hinv (implSteps_endTrace hend)) trivial
  | preSwapBuffers now => exact safe_startTrace hinv hallowed now
  | postSwapBuffers now => exact safe_endTrace hinv _ now
  | game c => exact safe_call hinv hallowed.2
  | upload v => exact Checked.safe_ok _

/-! ## Runs

The invariant after every run, and a run of one frame.
-/

/-- **Each pair of callbacks whose trace started adds one sample to its prong and leaves
no live trace**, in runs whose traces start with handles other than 0; and with settings
that the tuning fork can work with, such a run has no faults. -/
theorem pairs_traced (sqrt : ℚ → ℚ) {st : Settings} {info : ExtraUploadInfo} {now : TimePoint}
    {s : TuningForkImpl} (hnew : TuningForkImpl.new st info now = .ok s) {es : List Event}
    (hok : Runs.ChecksOk (step sqrt) (fun w e => w.Allowed e ∧ w.StartOk e) (start s) es) :
    Runs.EachStep (step sqrt) (fun w e w' => w.PairsTraced sqrt e w') (start s) es ∧
      (st.Ok → Checked.Safe Bad (Runs.runChecked (step sqrt) (start s) es)) := by
  constructor
  · exact Runs.eachStep_of_checksOk (fun _ _ _ => pairsTraced_step) (inv_start hnew) hok
  · intro hst
    have hinv : ∀ (w : TuningForkTraceWrapper) e w', w.impl.Inv → step sqrt w e = .ok w' →
        w'.impl.Inv := fun w e w' hinv h => inv_of_implSteps hinv (implSteps h)
    exact Runs.not_bad_of_checksOk hinv (fun w e f hinv hok => safe_step hinv hok.1 f)
      ((TuningForkImpl.new_spec hst info now).2 s hnew) hok

instance (t : InstrumentKeys) (key : InstrumentationKey) :
    Decidable (TuningForkImpl.HasIndex t key) := inferInstanceAs (Decidable (_ ∨ _))

instance (s : TuningForkImpl) : Decidable s.AnnotationInRange :=
  inferInstanceAs (Decidable (_ ∨ _))

instance (s : TuningForkImpl) (e : GameSdk.Event) : Decidable (s.StepOk e) := by
  unfold TuningForkImpl.StepOk
  split <;> infer_instance

instance (w : TuningForkTraceWrapper) (e : Event) : Decidable (w.Allowed e) := by
  unfold Allowed MayStart
  split <;> infer_instance

instance (w : TuningForkTraceWrapper) (e : Event) : Decidable (w.StartOk e) := by
  unfold StartOk HandleOk
  split <;> infer_instance

end TuningForkTraceWrapper

/-- Room for the keys of the wrapper, and no more; their indices are in the order of the
calls. -/
def fourKeys : Settings := { twoKeys with maxInstrumentationKeys := 4 }

namespace TuningForkTraceWrapper

/-- A frame with both pairs, after a tick. -/
def frame : List Event :=
  [.startFrame 1000000000, .preWait 1000000001, .postWait 1004000001 1004000002,
    .preSwapBuffers 1004000003, .postSwapBuffers 1006000003]

theorem pairs_traced_fourKeys : ∃ s, TuningForkImpl.new fourKeys noExtraInfo 0 = .ok s ∧
    Runs.EachStep (step fun x => x) (fun w e w' => w.PairsTraced (fun x => x) e w') (start s)
        frame ∧
      Checked.Safe Bad (Runs.runChecked (step fun x => x) (start s) frame) := by
  have hok : (TuningForkImpl.new fourKeys noExtraInfo 0).map (fun s =>
      decide (Runs.ChecksOk (step fun x => x) (fun w e => w.Allowed e ∧ w.StartOk e) (start s)
        frame)) = .ok true := by
    decide +kernel
  obtain ⟨s, hs, hok⟩ := Checked.map_eq_ok.mp hok
  have hst : fourKeys.Ok := ⟨by decide, fun hs hmem => (nomatch hmem)⟩
  obtain ⟨hall, hsafe⟩ := pairs_traced (fun x => x) hs (of_decide_eq_true hok)
  exact ⟨s, hs, hall, hsafe hst⟩

/-- The first callback is `preWait`: its trace has the handle 0, is not ended, and adds
no sample. -/
theorem not_pairsTraced : ∃ s w w', TuningForkImpl.new fourKeys noExtraInfo 0 = .ok s ∧
    Runs.ChecksOk (step fun x => x) Allowed (start s)
      [.preWait 1000000001, .postWait 1004000001 1004000002] ∧
    (start s).step (fun x => x) (.preWait 1000000001) = .ok w ∧
    w.step (fun x => x) (.postWait 1004000001 1004000002) = .ok w' ∧
    w.pair .wait = .started 0 ∧ w'.pair .wait = .closed ∧ w'.impl.added = [] ∧
    w'.impl.liveTraces[0]? = some 1000000001 ∧
    ¬ w.PairsTraced (fun x => x) (.postWait 1004000001 1004000002) w' := by
  have hrun : (do
      let s ← TuningForkImpl.new fourKeys noExtraInfo 0
      let w ← (start s).step (fun x => x) (.preWait 1000000001)
      let w' ← w.step (fun x => x) (.postWait 1004000001 1004000002)
      .ok (decide (Runs.ChecksOk (step fun x => x) Allowed (start s)
          [.preWait 1000000001, .postWait 1004000001 1004000002] ∧ w.pair .wait = .started 0 ∧
          w'.pair .wait = .closed ∧ w'.pair .swap = .closed ∧ w'.impl.added = []),
        w'.impl.liveTraces[0]?) : Except (Fault Vec) (Bool × Option TimePoint)) =
      .ok (true, some 1000000001) := by
    decide +kernel
  obtain ⟨s, hs, hrun⟩ := Checked.bind_eq_ok.mp hrun
  obtain ⟨w, hw, hrun⟩ := Checked.bind_eq_ok.mp hrun
  obtain ⟨w', hw', hrun⟩ := Checked.bind_eq_ok.mp hrun
  simp only [Except.ok.injEq, Prod.mk.injEq, decide_eq_true_eq] at hrun
  obtain ⟨⟨hallowed, hstarted, hclosed, hswap, hadded⟩, hlive⟩ := hrun
  refine ⟨s, w, w', hs, hallowed, hw, hw', hstarted, hclosed, hadded, hlive, fun htraced => ?_⟩
  -- the live trace belongs to no pair under way
  obtain ⟨t, a, ht, -⟩ := htraced.onlyUnderWay 0 _ hlive (by decide)
  cases t with
  | wait => simp [hclosed] at ht
  | swap => simp [hswap] at ht

end TuningForkTraceWrapper

end GameSdk
