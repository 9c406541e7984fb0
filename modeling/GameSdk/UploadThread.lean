import GameSdk.Prong

/-!
# The upload thread (`uploadthread.cpp`, `clearcutserializer.cpp`)

The game hands a whole cache to the upload thread by a pointer, `ready_`; null
means that the previous upload is done. The two caches are named by a `Bool`. An
event is the message `SerializeEvent` encodes; it is recorded in `processed` when
it goes to `Backend::Process`.

The thread has nothing of its own but this pointer and what is needed to make an event. The
parameters and the device information that go with a cache are those of the moment at which it is
serialized.
-/

namespace GameSdk

/-- The bytes of a `std::string`. -/
abbrev ByteString : Type := List UInt8

/-- What is sent along about the device and the app. -/
structure ExtraUploadInfo where
  experimentId : ByteString
  sessionId : ByteString
  totalMemoryBytes : UInt64
  glEsVersion : UInt32
  buildFingerprint : ByteString
  buildVersionSdk : ByteString
  cpuMaxFreqHz : List UInt64
  apkPackageName : ByteString
  apkVersionCode : UInt32
  tuningforkVersion : UInt32
  deriving DecidableEq, Repr

/-- A `TuningForkHistogram` message. -/
structure ClearcutHistogram where
  instrumentId : InstrumentationKey
  annotation : SerializedAnnotation
  counts : List UInt32
  /-- ghost: the index of the prong it was filled from -/
  prong : ℕ
  /-- ghost: the samples that were counted -/
  held : List Sample
  deriving DecidableEq, Repr

/-- One upload. -/
structure TuningForkLogEvent where
  fidelityParams : List UInt8
  histograms : List ClearcutHistogram
  info : ExtraUploadInfo
  deriving DecidableEq, Repr

namespace ClearcutSerializer

/-- The message of one prong. -/
def fill (p : Prong) (index : ℕ) : ClearcutHistogram where
  instrumentId := p.instrumentationKey
  annotation := p.annotation
  counts := p.histogram.buckets.take p.histogram.numBuckets.toNat
  prong := index
  held := p.histogram.held

/-- Prongs that have counted nothing are left out. -/
def writeHistograms (c : ProngCache) : List ClearcutHistogram :=
  c.prongs.zipIdx.filterMap fun (p, i) => if p.count > 0 then some (fill p i) else none

/-- `SerializeEvent`: the event of a cache. -/
def serializeEvent (c : ProngCache) (fidelityParams : List UInt8) (info : ExtraUploadInfo) :
    TuningForkLogEvent :=
  ⟨fidelityParams, writeHistograms c, info⟩

end ClearcutSerializer

/-- The state of the upload thread. -/
structure UploadThread where
  /-- the cache that waits to be uploaded -/
  ready : Option Bool
  currentFidelityParams : List UInt8
  extraInfo : ExtraUploadInfo
  /-- what has gone to `Backend::Process` -/
  processed : List TuningForkLogEvent
  deriving DecidableEq, Repr

namespace UploadThread

/-- A thread with nothing to upload. -/
def new (extraInfo : ExtraUploadInfo) : UploadThread where
  ready := none
  currentFidelityParams := []
  extraInfo := extraInfo
  processed := []

/-- The body of the loop of `Run`, under the mutex. -/
def run (u : UploadThread) (caches : Bool → ProngCache) (glEsVersion : UInt32) : UploadThread :=
  match u.ready with
  | none => u
  | some c =>
    let extraInfo := { u.extraInfo with glEsVersion }
    { u with
      ready := none
      extraInfo
      processed := u.processed ++
        [ClearcutSerializer.serializeEvent (caches c) u.currentFidelityParams extraInfo] }

/-- The parameters to be sent with what is uploaded from now on. -/
def setCurrentFidelityParams (u : UploadThread) (fp : List UInt8) (experimentId : ByteString) :
    UploadThread :=
  { u with currentFidelityParams := fp, extraInfo := { u.extraInfo with experimentId } }

/-- Whether we submitted, or are waiting for a previous submit to complete. -/
def submit (u : UploadThread) (prongs : Bool) : Bool × UploadThread :=
  if u.ready = none then (true, { u with ready := some prongs }) else (false, u)

end UploadThread

end GameSdk
