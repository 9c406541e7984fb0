import GameSdk.UploadThread
import Mathlib.Logic.Function.Basic

/-!
# The tuning fork (`tuningfork.cpp`)

The operations of `TuningForkImpl` as functions on its state. Each clock reading is
an argument. An operation that may flush is split at the call of `Flush(t_ns)`:
its `…Body` returns the time to flush at, if any, and `checkForSubmit` flushes.
`sqrt` is the C library's.

The copy that `CopySettings` makes of the settings is the argument of `new`. Accesses to
the vectors are checked, so that a run which leaves one ends in a `Fault`. `added` is a ghost: it
lists the samples in the order in which they were recorded, each with the index of its prong.
-/

namespace GameSdk

/-- The results of the interface. -/
inductive TFErrorCode where
  | ok | noSettings | noSwappy | invalidDefaultFidelityParams | noFidelityParams
  | tuningforkNotInitialized | invalidAnnotation | invalidInstrumentKey | invalidTraceHandle
  | timeout | badParameter | b64EncodeFailed | jniBadVersion | jniBadThread | jniBadEnv
  | jniException | jniBadJvm | noClearcut | noFidelityParamsInApk | couldntSaveOrDeleteFps
  | previousUploadPending | uploadTooFrequent
  deriving DecidableEq, Repr

/-- What makes an upload due: the time, or the ticks of a prong. -/
inductive Submission where
  | tickBased | timeBased
  deriving DecidableEq, Repr

/-- The settings as the constructor gets them. -/
structure Settings where
  method : Submission
  intervalmsOrCount : UInt32
  maxInstrumentationKeys : UInt32
  annotationEnumSize : List UInt32
  histograms : List TFHistogram
  deriving DecidableEq, Repr

/-- The handle of a trace is its compound id. -/
abbrev TraceHandle : Type := UInt64

/-! ## Instrument keys

`ikeys_` has room for as many keys as the settings allow, and is filled from the front.
-/

/-- The members `ikeys_` and `next_ikey_`. -/
structure InstrumentKeys where
  ikeys : List InstrumentationKey
  nextIkey : ℕ
  deriving DecidableEq, Repr

namespace InstrumentKeys

/-- The search of `GetOrCreateInstrumentKeyIndex`: `n` more entries from `i` on. -/
def find (key : InstrumentationKey) (ikeys : List InstrumentationKey) :
    ℕ → ℕ → Except (Fault Vec) (Option ℕ)
  | 0, _ => .ok none
  | n + 1, i => do
    let k ← Checked.read .ikeys ikeys i
    if k = key then .ok (some i) else find key ikeys n (i + 1)

/-- `none` is `TFERROR_INVALID_INSTRUMENT_KEY`. -/
def getOrCreateInstrumentKeyIndex (t : InstrumentKeys) (key : InstrumentationKey) :
    Except (Fault Vec) (Option ℕ × InstrumentKeys) := do
  match ← find key t.ikeys t.nextIkey 0 with
  | some i => .ok (some i, t)
  | none =>
    -- `next_ikey_++`, taken back when the table is full
    if t.nextIkey < t.ikeys.length then do
      let ikeys ← Checked.write .ikeys t.ikeys t.nextIkey key
      .ok (some t.nextIkey, ⟨ikeys, t.nextIkey + 1⟩)
    else .ok (none, t)

end InstrumentKeys

/-! ## The state and its constructor

The constructor makes two caches of the same size. Both have a prong for each key and each
annotation, in the order of the compound ids.
-/

/-- The state of the one instance, as the game thread sees it. -/
structure TuningForkImpl where
  settings : Settings
  prongCaches : Bool → ProngCache
  currentProngCache : Bool
  lastSubmitTimeNs : TimePoint
  liveTraces : List TimePoint
  uploadThread : UploadThread
  currentAnnotation : SerializedAnnotation
  annotationRadixMult : List UInt32
  currentAnnotationId : AnnotationId
  keys : InstrumentKeys
  /-- ghost: every sample given to a histogram, with the index of its prong -/
  added : List (ℕ × Sample)

namespace TuningForkImpl

/-- The histogram of a key that the settings do not mention. -/
def defaultHistogram : TFHistogram where
  instrumentKey := -1
  bucketMin := 10
  bucketMax := 40
  nBuckets := Histogram.kDefaultNumBuckets

/-- The loop of `InitHistogramSettings`: `n` more keys from `i` on. -/
def initHistogramSettings : ℕ → ℕ → List TFHistogram → InstrumentKeys →
    Except (Fault Vec) (List TFHistogram × InstrumentKeys)
  | 0, _, histograms, keys => .ok (histograms, keys)
  | n + 1, i, histograms, keys =>
    match histograms[i]? with
    | none => initHistogramSettings n (i + 1) (histograms ++ [defaultHistogram]) keys
    | some h => do
      let (_, keys) ← keys.getOrCreateInstrumentKeyIndex h.instrumentKey.toUInt32.toUInt16
      initHistogramSettings n (i + 1) histograms keys

/-- The bytes of the annotation in a compound id. -/
def serializeAnnotationId (maxInstrumentationKeys : UInt32) (radixMult : List UInt32)
    (id : AnnotationId) : Except (Fault Vec) SerializedAnnotation :=
  if maxInstrumentationKeys = 0 then .error .zeroDivisor
  else GameSdk.serializeAnnotationId (id / maxInstrumentationKeys.toUInt64) [] radixMult

/-- An `int` times a `uint32_t`, in 32 bits. -/
def maxNumProngs (maxInstrumentationKeys : UInt32) (radixMult : List UInt32) : ℕ :=
  if radixMult.length = 0 ∨ maxInstrumentationKeys = 0 then 0
  else (maxInstrumentationKeys * radixMult.getLastD 0).toNat

/-- The constructor, from the settings and the time. -/
def new (settings : Settings) (extraUploadInfo : ExtraUploadInfo) (now : TimePoint) :
    Except (Fault Vec) TuningForkImpl := do
  let maxKeys := settings.maxInstrumentationKeys
  let (histograms, keys) ← initHistogramSettings maxKeys.toNat 0 settings.histograms
    ⟨List.replicate maxKeys.toNat 0, 0⟩
  let radixMult := setUpAnnotationRadixes settings.annotationEnumSize
  let size := maxNumProngs maxKeys radixMult
  let serializeId := fun i => serializeAnnotationId maxKeys radixMult (UInt64.ofNat i)
  -- both caches are built in the same way
  let prongCache ← ProngCache.new size maxKeys.toInt32 histograms serializeId
  .ok { settings := { settings with histograms }
        prongCaches := fun _ => prongCache
        currentProngCache := false
        lastSubmitTimeNs := now
        liveTraces := List.replicate size TimePoint.min
        uploadThread := UploadThread.new extraUploadInfo
        currentAnnotation := []
        annotationRadixMult := radixMult
        currentAnnotationId := 0
        keys
        added := [] }

/-! ## Operations

The parts that the calls of the game share: compound ids, ticks and traces of a prong, and whether
an upload is due.
-/

variable (sqrt : ℚ → ℚ) (s : TuningForkImpl)

/-- Shift over to leave room for the instrument id. -/
def decodeAnnotationSerialization (ser : SerializedAnnotation) : AnnotationId :=
  GameSdk.decodeAnnotationSerialization ser s.annotationRadixMult *
    s.settings.maxInstrumentationKeys.toUInt64

/-- The set annotation id, or -1 if it could not be set. -/
def setCurrentAnnotation (ann : SerializedAnnotation) : UInt64 × TuningForkImpl :=
  let s := { s with currentAnnotation := ann }
  let id := s.decodeAnnotationSerialization ann
  if id = kAnnotationError then (kAnnotationError, { s with currentAnnotationId := 0 })
  else (id, { s with currentAnnotationId := id })

/-- What the call leaves behind, whatever it returns. -/
def annotated (ann : SerializedAnnotation) : TuningForkImpl := s.setCurrentAnnotation ann |>.2

/-- The compound id of a key under an annotation; `none` if there is no room for
the key. -/
def makeCompoundId (k : InstrumentationKey) (a : AnnotationId) :
    Except (Fault Vec) (Option UInt64 × TuningForkImpl) := do
  match ← s.keys.getOrCreateInstrumentKeyIndex k with
  | (none, keys) => .ok (none, { s with keys })
  | (some keyIndex, keys) => .ok (some (UInt64.ofNat keyIndex + a), { s with keys })

/-- The cache that samples go to. -/
def current : ProngCache := s.prongCaches s.currentProngCache

/-- Write a prong of the current cache back; `samples` is what it was given. -/
def putProng (id : UInt64) (p : Prong) (samples : List Sample) : TuningForkImpl :=
  { s with
    prongCaches := Function.update s.prongCaches s.currentProngCache (s.current.put id p)
    added := s.added ++ samples.map fun d => (id.toNat, d) }

/-- `TickNanos`: a tick of the prong with this id, and the prong afterwards. -/
def tickNanos (compoundId : UInt64) (t : TimePoint) :
    Except (Fault Vec) (Option Prong × TuningForkImpl) := do
  match ← s.current.get compoundId with
  | none => .ok (none, s)
  | some p =>
    let p' ← p.tick sqrt t s.added.length
    let samples := if p.lastTimeNs ≠ TimePoint.min then
      [Prong.sample (t - p.lastTimeNs) s.added.length] else []
    .ok (some p', s.putProng compoundId p' samples)

/-- `TraceNanos`: a duration for the prong with this id, and the prong afterwards. -/
def traceNanos (compoundId : UInt64) (dt : Duration) :
    Except (Fault Vec) (Option Prong × TuningForkImpl) := do
  match ← s.current.get compoundId with
  | none => .ok (none, s)
  | some h =>
    let h' ← h.trace sqrt dt s.added.length
    .ok (some h', s.putProng compoundId h' [Prong.sample dt s.added.length])

/-- `ShouldSubmit`: whether an upload is due after a change of this prong. -/
def shouldSubmit (tNs : TimePoint) (prong : Prong) : Bool :=
  match s.settings.method with
  | .timeBased => s.settings.intervalmsOrCount.toNat * 1000000 ≤ tNs - s.lastSubmitTimeNs
  | .tickBased => s.settings.intervalmsOrCount.toNat ≤ prong.count

/-- When `CheckForSubmit` is to flush; it is not called without a prong. -/
def submitTime (tNs : TimePoint) : Option Prong → Option TimePoint
  | none => none
  | some p => if s.shouldSubmit tNs p then some tNs else none

/-! ## Flushing

`Flush` writes the keys into the cache, hands it to the upload thread, and swaps the caches if the
thread took it.
-/

/-- The keys in use are written into the cache before it is handed on. -/
def prepareFlush : Except (Fault Vec) TuningForkImpl := do
  let cache ← s.current.setInstrumentKeys s.keys.ikeys
  .ok { s with prongCaches := Function.update s.prongCaches s.currentProngCache cache }

/-- The submit went through: clear the other cache and make it the current one. -/
def swapCaches (tNs : TimePoint) : TuningForkImpl :=
  { s with
    prongCaches :=
      Function.update s.prongCaches (!s.currentProngCache)
        (s.prongCaches !s.currentProngCache).clear
    currentProngCache := !s.currentProngCache
    lastSubmitTimeNs := tNs }

/-- `Flush(t_ns)`. -/
def flushAt (tNs : TimePoint) : Except (Fault Vec) (TFErrorCode × TuningForkImpl) := do
  let s ← s.prepareFlush
  let (submitted, uploadThread) := s.uploadThread.submit s.currentProngCache
  let s := { s with uploadThread }
  if submitted then .ok (.ok, s.swapCaches tNs)
  else .ok (.previousUploadPending, { s with lastSubmitTimeNs := tNs })

/-- A flush, if one is due. -/
def checkForSubmit : Option TimePoint → Except (Fault Vec) (TFErrorCode × TuningForkImpl)
  | none => .ok (.ok, s)
  | some tNs => s.flushAt tNs

/-! ## The calls of the game

What the functions of `tuningfork.h` do when there is an instance.
-/

/-- `StartTrace`: the time is remembered under the handle. -/
def startTrace (key : InstrumentationKey) (now : TimePoint) :
    Except (Fault Vec) (TFErrorCode × Option TraceHandle × TuningForkImpl) := do
  match ← s.makeCompoundId key s.currentAnnotationId with
  | (none, s) => .ok (.invalidInstrumentKey, none, s)
  | (some handle, s) =>
    let liveTraces ← Checked.write .liveTraces s.liveTraces handle.toNat now
    .ok (.ok, some handle, { s with liveTraces })

/-- `EndTrace`: the duration since the start goes to the prong of the handle. -/
def endTrace (h : TraceHandle) (now : TimePoint) :
    Except (Fault Vec) (TFErrorCode × TuningForkImpl) :=
  if s.liveTraces.length ≤ h.toNat then .ok (.invalidTraceHandle, s)
  else do
    let i ← Checked.read .liveTraces s.liveTraces h.toNat
    if i ≠ TimePoint.min then do
      let (_, s) ← s.traceNanos sqrt h (now - i)
      let liveTraces ← Checked.write .liveTraces s.liveTraces h.toNat TimePoint.min
      .ok (.ok, { s with liveTraces })
    else .ok (.invalidTraceHandle, s)

/-- `FrameTick` up to its flush. -/
def frameTickBody (key : InstrumentationKey) (t : TimePoint) :
    Except (Fault Vec) (TFErrorCode × Option TimePoint × TuningForkImpl) := do
  match ← s.makeCompoundId key s.currentAnnotationId with
  | (none, s) => .ok (.invalidInstrumentKey, none, s)
  | (some compoundId, s) =>
    let (p, s) ← s.tickNanos sqrt compoundId t
    .ok (.ok, s.submitTime t p, s)

/-- `FrameTick`: one more frame under this key. -/
def frameTick (key : InstrumentationKey) (t : TimePoint) :
    Except (Fault Vec) (TFErrorCode × TuningForkImpl) := do
  let (err, due, s) ← s.frameTickBody sqrt key t
  let (_, s) ← s.checkForSubmit due
  .ok (err, s)

/-- `FrameDeltaTimeNanos` up to its flush. -/
def frameDeltaTimeNanosBody (key : InstrumentationKey) (dt : Duration) (now : TimePoint) :
    Except (Fault Vec) (TFErrorCode × Option TimePoint × TuningForkImpl) := do
  match ← s.makeCompoundId key s.currentAnnotationId with
  | (none, s) => .ok (.invalidInstrumentKey, none, s)
  | (some compoundId, s) =>
    let (p, s) ← s.traceNanos sqrt compoundId dt
    .ok (.ok, s.submitTime now p, s)

/-- `FrameDeltaTimeNanos`: a duration that the game measured. -/
def frameDeltaTimeNanos (key : InstrumentationKey) (dt : Duration) (now : TimePoint) :
    Except (Fault Vec) (TFErrorCode × TuningForkImpl) := do
  let (err, due, s) ← s.frameDeltaTimeNanosBody sqrt key dt now
  let (_, s) ← s.checkForSubmit due
  .ok (err, s)

/-- Only allow manual submission a maximum of once per minute. -/
def flushTime (t : TimePoint) : Option TimePoint :=
  if t - s.lastSubmitTimeNs > 60 * 1000000000 then some t else none

/-- `Flush`: refused when the last one was less than a minute ago. -/
def flush (t : TimePoint) : Except (Fault Vec) (TFErrorCode × TuningForkImpl) :=
  match s.flushTime t with
  | none => .ok (.uploadTooFrequent, s)
  | some tNs => s.flushAt tNs

/-- What the loader returns and stores. -/
structure LoadedParams where
  result : TFErrorCode
  paramsSer : List UInt8
  experimentId : ByteString
  deriving DecidableEq, Repr

/-- `loader` is what `loader_` does, `none` a null pointer. -/
def getFidelityParameters (loader : Option LoadedParams) : TFErrorCode × TuningForkImpl :=
  match loader with
  | none => (.tuningforkNotInitialized, s)
  | some loaded =>
    (loaded.result, { s with
      uploadThread :=
        s.uploadThread.setCurrentFidelityParams loaded.paramsSer loaded.experimentId })

/-- One step of the upload thread. -/
def upload (glEsVersion : UInt32) : TuningForkImpl :=
  { s with uploadThread := s.uploadThread.run s.prongCaches glEsVersion }

end TuningForkImpl

/-! ## The global instance

Before `TuningFork_init` every function returns an error and does nothing.
-/

/-- `tuningfork::SetCurrentAnnotation`, on `s_impl`. -/
def setCurrentAnnotation (sImpl : Option TuningForkImpl) (ann : SerializedAnnotation) :
    TFErrorCode × Option TuningForkImpl :=
  match sImpl with
  | none => (.tuningforkNotInitialized, none)
  | some s =>
    let r := s.setCurrentAnnotation ann
    -- compared with the literal -1, converted to `uint64_t`
    let err := if r.1 = 0xffffffffffffffff then TFErrorCode.invalidAnnotation else .ok
    (err, some r.2)

/-! ## Runs

The calls of the game and the steps of the upload thread, one after the other.
-/

/-- The calls the game thread makes, with what they read from the clock. -/
inductive Call where
  | setCurrentAnnotation (ann : SerializedAnnotation)
  | frameTick (key : InstrumentationKey) (t : TimePoint)
  | frameDeltaTimeNanos (key : InstrumentationKey) (dt : Duration) (now : TimePoint)
  | startTrace (key : InstrumentationKey) (now : TimePoint)
  | endTrace (h : TraceHandle) (now : TimePoint)
  | flush (t : TimePoint)
  deriving DecidableEq, Repr

/-- A call runs to its end, or the upload thread takes a step. -/
inductive Event where
  | call (c : Call)
  | upload (glEsVersion : UInt32)
  deriving DecidableEq, Repr

namespace TuningForkImpl

variable (sqrt : ℚ → ℚ)

/-- One call of the game. -/
def call (s : TuningForkImpl) : Call → Except (Fault Vec) TuningForkImpl
  | Call.setCurrentAnnotation ann => .ok (s.annotated ann)
  | .frameTick key t => (s.frameTick sqrt key t).map fun r => r.2
  | .frameDeltaTimeNanos key dt now => (s.frameDeltaTimeNanos sqrt key dt now).map fun r => r.2
  | .startTrace key now => (s.startTrace key now).map fun r => r.2.2
  | .endTrace h now => (s.endTrace sqrt h now).map fun r => r.2
  | .flush t => (s.flush t).map fun r => r.2

/-- One event, on the state in which it happens. -/
def step (s : TuningForkImpl) : Event → Except (Fault Vec) TuningForkImpl
  | .call c => s.call sqrt c
  | .upload glEsVersion => .ok (s.upload glEsVersion)

end TuningForkImpl

end GameSdk
