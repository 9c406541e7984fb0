import GameSdk.Nanopb
import GameSdk.SampleAccounting

/-!
# The bytes of an event (`clearcutserializer.cpp`)

`SerializeEvent` fills the structures that nanopb generates from the messages; most of
their fields are callbacks, which write the field when its turn comes. A message in a
field is encoded twice, first to a stream that only counts, for its length.

Reading the bytes back gives what was to be logged.

The proof goes by way of records. `eventRecords` are those of a cache; reading them gives the
message, and the encoder writes their bytes. Both sides follow the structure of the message.
-/

namespace GameSdk

namespace Nano

/-! ## The generated structures

A field is a value with a flag, or a callback that is given the field.
-/

/-- The generated structure of a histogram. -/
structure ClearcutHistogram where
  hasInstrumentId : Bool
  instrumentId : Int32
  annotation : Field → Encoder
  counts : Field → Encoder

/-- The generated structure of the device information. -/
structure DeviceInfo where
  hasTotalMemoryBytes : Bool
  totalMemoryBytes : Int64
  hasGlEsVersion : Bool
  glEsVersion : Int32
  buildFingerprint : Field → Encoder
  buildVersionSdk : Field → Encoder
  cpuMaxFreqHz : Field → Encoder

/-- The generated structure of an event. -/
structure TuningForkLogEvent where
  fidelityparams : Field → Encoder
  experimentId : Field → Encoder
  histograms : Field → Encoder
  sessionId : Field → Encoder
  hasDeviceInfo : Bool
  deviceInfo : DeviceInfo
  apkPackageName : Field → Encoder
  hasApkVersionCode : Bool
  apkVersionCode : Int32
  hasTuningforkVersion : Bool
  tuningforkVersion : Int32

/-! ### Their fields

The fields of each structure in the order of the file, which is the order in which they are written.
-/

/-- With `logs_proto_tuningfork_TuningForkHistogram_fields`. -/
def ClearcutHistogram.members (h : ClearcutHistogram) : List Member :=
  [.int32 ⟨1, .int32⟩ h.hasInstrumentId h.instrumentId,
    .callback ⟨2, .bytes⟩ h.annotation,
    .callback ⟨3, .int32⟩ h.counts]

/-- With `logs_proto_tuningfork_DeviceInfo_fields`. -/
def DeviceInfo.members (di : DeviceInfo) : List Member :=
  [.int64 ⟨1, .int64⟩ di.hasTotalMemoryBytes di.totalMemoryBytes,
    .int32 ⟨2, .int32⟩ di.hasGlEsVersion di.glEsVersion,
    .callback ⟨3, .string⟩ di.buildFingerprint,
    .callback ⟨4, .string⟩ di.buildVersionSdk,
    .callback ⟨5, .int64⟩ di.cpuMaxFreqHz]

/-- With `logs_proto_tuningfork_TuningForkLogEvent_fields`. -/
def TuningForkLogEvent.members (evt : TuningForkLogEvent) : List Member :=
  [.callback ⟨1, .bytes⟩ evt.fidelityparams,
    .callback ⟨2, .string⟩ evt.experimentId,
    .callback ⟨3, .message⟩ evt.histograms,
    .callback ⟨4, .string⟩ evt.sessionId,
    .message ⟨5, .message⟩ evt.hasDeviceInfo evt.deviceInfo.members,
    .callback ⟨6, .string⟩ evt.apkPackageName,
    .int32 ⟨7, .int32⟩ evt.hasApkVersionCode evt.apkVersionCode,
    .int32 ⟨8, .int32⟩ evt.hasTuningforkVersion evt.tuningforkVersion]

/-! ## The serializer

The functions of the source, each an encoder.
-/

section Serializer

variable (lib : Library)

/-- `logs_proto_tuningfork_TuningForkHistogram_counts_tag` -/
def countsTag : ℕ := 3

/-- The loop that gets the length of the data. -/
def sizeCounts : List UInt32 → Encoder
  | [] => .done
  | n :: ns => (lib.encodeVarint n.toNat).followedBy (sizeCounts ns)

/-- The loop that encodes each item. -/
def writeCounts : List UInt32 → Encoder
  | [] => .done
  | n :: ns => (lib.encodeVarint n.toNat).andThen (writeCounts ns)

/-- The counter of the loops, an `int`, is a natural number. -/
def writeCountArray (h : Histogram) (_field : Field) : Encoder :=
  let counts := h.buckets.take h.numBuckets.toNat
  (lib.encodeTag wtString countsTag).andThen <|
    (lib.encodeVarint (sizeCounts lib counts).size).andThen <|
      -- without the type, since it's packed
      writeCounts lib counts

/-- The maximal frequency of each CPU, one field each. -/
def writeCpuFreqs : List UInt64 → Field → Encoder
  | [], _ => .done
  | v :: vs, field =>
    (lib.encodeTagForField field).followedBy <|
      (lib.encodeVarint v.toNat).followedBy (writeCpuFreqs vs field)

/-- A field that is left out when there are no bytes. -/
def writeNonempty (bytes : List UInt8) (field : Field) : Encoder :=
  if bytes.length > 0 then
    (lib.encodeTagForField field).followedBy ((lib.encodeString bytes).followedBy .done)
  else .done

/-- The annotation of a prong, unless it is empty. -/
def writeAnnotation (p : Prong) : Field → Encoder := writeNonempty lib p.annotation

/-- The fidelity parameters, unless they are empty. -/
def writeFidelityParams (fp : List UInt8) : Field → Encoder := writeNonempty lib fp

/-- A string field. -/
def writeString (str : ByteString) (field : Field) : Encoder :=
  (lib.encodeTagForField field).andThen (lib.encodeString str)

/-- `Fill` for a prong and its histogram, which sets all members. -/
def fillProng (p : Prong) : ClearcutHistogram where
  hasInstrumentId := true
  instrumentId := p.instrumentationKey.toUInt32.toInt32
  annotation := writeAnnotation lib p
  counts := writeCountArray lib p.histogram

/-- `Fill` for the device info. -/
def fillDeviceInfo (tdi : ExtraUploadInfo) : DeviceInfo where
  hasTotalMemoryBytes := true
  totalMemoryBytes := tdi.totalMemoryBytes.toInt64
  hasGlEsVersion := true
  glEsVersion := tdi.glEsVersion.toInt32
  buildFingerprint := writeString lib tdi.buildFingerprint
  buildVersionSdk := writeString lib tdi.buildVersionSdk
  cpuMaxFreqHz := writeCpuFreqs lib tdi.cpuMaxFreqHz

/-- Get size, then fill object. -/
def writeHistograms : List Prong → Field → Encoder
  | [], _ => .done
  | p :: ps, field =>
    if p.count > 0 then
      let h := lib.encode (fillProng lib p).members
      (lib.encodeTagForField field).followedBy <|
        (lib.encodeVarint h.size).followedBy <| h.followedBy (writeHistograms ps field)
    else writeHistograms ps field

/-- Not used by `SerializeEvent`, where the library does the same. -/
def writeDeviceInfo (tdi : ExtraUploadInfo) (field : Field) : Encoder :=
  let di := lib.encode (fillDeviceInfo lib tdi).members
  (lib.encodeTagForField field).followedBy <|
    (lib.encodeVarint di.size).followedBy <| di.followedBy .done

/-- The event as `SerializeEvent` fills it, with `FillHistograms` and `FillExtras`. -/
def fillEvent (pc : ProngCache) (fidelityParams : List UInt8) (deviceInfo : ExtraUploadInfo) :
    TuningForkLogEvent where
  fidelityparams := writeFidelityParams lib fidelityParams
  experimentId := writeString lib deviceInfo.experimentId
  histograms := writeHistograms lib pc.prongs
  sessionId := writeString lib deviceInfo.sessionId
  hasDeviceInfo := true
  deviceInfo := fillDeviceInfo lib deviceInfo
  apkPackageName := writeString lib deviceInfo.apkPackageName
  hasApkVersionCode := true
  apkVersionCode := deviceInfo.apkVersionCode.toInt32
  hasTuningforkVersion := true
  tuningforkVersion := deviceInfo.tuningforkVersion.toInt32

/-- The vector `evt_ser` after the call. -/
def serializeEvent (pc : ProngCache) (fidelityParams : List UInt8) (deviceInfo : ExtraUploadInfo)
    (evtSer : List UInt8) : List UInt8 :=
  let stream := (lib.encode (fillEvent lib pc fidelityParams deviceInfo).members ⟨some evtSer, 0⟩).2
  stream.vec.getD []

end Serializer

end Nano

namespace ClearcutLog

/-! ## What is to be logged

The messages that a reader should get.
-/

/-- A field that is absent when there are no bytes. -/
def nonempty (bytes : List UInt8) : Option (List UInt8) := if bytes = [] then none else some bytes

/-- The histogram of a prong: its key, its annotation and all its counts. -/
def histogramOf (p : Prong) : TuningForkHistogram where
  instrumentId := some p.instrumentationKey.toUInt32.toInt32
  annotation := nonempty p.annotation
  counts := p.histogram.buckets.map UInt32.toInt32

/-- The device information that is to be logged. -/
def deviceInfoOf (info : ExtraUploadInfo) : DeviceInfo where
  totalMemoryBytes := some info.totalMemoryBytes.toInt64
  glEsVersion := some info.glEsVersion.toInt32
  buildFingerprint := some info.buildFingerprint
  buildVersionSdk := some info.buildVersionSdk
  cpuMaxFreqHz := info.cpuMaxFreqHz.map UInt64.toInt64

/-- An event: the prongs that have counted something, in their order. -/
def eventOf (pc : ProngCache) (fidelityParams : List UInt8) (info : ExtraUploadInfo) :
    TuningForkLogEvent where
  fidelityparams := nonempty fidelityParams
  experimentId := some info.experimentId
  histograms := (pc.prongs.filter fun p => p.count > 0).map histogramOf
  sessionId := some info.sessionId
  deviceInfo := some (deviceInfoOf info)
  apkPackageName := some info.apkPackageName
  apkVersionCode := some info.apkVersionCode.toInt32
  tuningforkVersion := some info.tuningforkVersion.toInt32

/-! ## As records

The same messages as records of the wire format.
-/

/-- A field that is left out when it is empty. -/
def nonemptyRecords (number : ℕ) (bytes : List UInt8) : List Wire.Record :=
  if bytes = [] then [] else [⟨number, .delimited bytes⟩]

/-- The records of a prong. -/
def histogramRecords (p : Prong) : List Wire.Record :=
  ⟨1, .varint (ofInt32 p.instrumentationKey.toUInt32.toInt32)⟩ ::
    nonemptyRecords 2 p.annotation ++
      [⟨3, .delimited (Wire.packed (p.histogram.buckets.map UInt32.toNat))⟩]

/-- The records of the device information. -/
def deviceInfoRecords (info : ExtraUploadInfo) : List Wire.Record :=
  [⟨1, .varint (ofInt64 info.totalMemoryBytes.toInt64)⟩,
    ⟨2, .varint (ofInt32 info.glEsVersion.toInt32)⟩,
    ⟨3, .delimited info.buildFingerprint⟩, ⟨4, .delimited info.buildVersionSdk⟩] ++
    info.cpuMaxFreqHz.map fun v => ⟨5, .varint v.toNat⟩

/-- One record for each prong with samples. -/
def histogramsRecords (ps : List Prong) : List Wire.Record :=
  (ps.filter fun p => p.count > 0).map fun p =>
    ⟨3, .delimited (Wire.encode (histogramRecords p))⟩

/-- The records of an event. -/
def eventRecords (pc : ProngCache) (fidelityParams : List UInt8) (info : ExtraUploadInfo) :
    List Wire.Record :=
  nonemptyRecords 1 fidelityParams ++ [⟨2, .delimited info.experimentId⟩] ++
    histogramsRecords pc.prongs ++
    [⟨4, .delimited info.sessionId⟩, ⟨5, .delimited (Wire.encode (deviceInfoRecords info))⟩,
      ⟨6, .delimited info.apkPackageName⟩, ⟨7, .varint (ofInt32 info.apkVersionCode.toInt32)⟩,
      ⟨8, .varint (ofInt32 info.tuningforkVersion.toInt32)⟩]

/-! ## Reading the records

A reader of the records gets the messages.
-/

/-- Such a field can be written. -/
theorem fits_nonemptyRecords {number : ℕ} (h : number < 2 ^ 29) (bytes : List UInt8) :
    ∀ r ∈ nonemptyRecords number bytes, r.Fits := by
  rw [nonemptyRecords]
  split
  · simp
  · simpa [Wire.Record.Fits] using h

/-- So can the records of a prong. -/
theorem fits_histogramRecords (p : Prong) : ∀ r ∈ histogramRecords p, r.Fits := by
  have hid := ofInt32_lt p.instrumentationKey.toUInt32.toInt32
  simp only [histogramRecords, List.forall_mem_append, List.forall_mem_cons]
  refine ⟨⟨⟨by decide, hid⟩, fits_nonemptyRecords (by decide) _⟩, ?_, by simp⟩
  exact (by decide : 3 < 2 ^ 29)

/-- Reading the records of a prong. -/
theorem decode_histogramRecords (p : Prong) :
    Wire.decode TuningForkHistogram.add {} (Wire.encode (histogramRecords p)) =
      some (histogramOf p) := by
  have hcounts : Wire.parsePacked (Wire.packed (p.histogram.buckets.map UInt32.toNat)) =
      some (p.histogram.buckets.map UInt32.toNat) := by
    refine Wire.parsePacked_packed (List.forall_mem_map.mpr fun n _ => ?_)
    exact Nat.lt_trans n.toNat_lt (by decide)
  rw [Wire.decode_encode _ _ (fits_histogramRecords p)]
  by_cases hann : p.annotation = [] <;>
    simp [histogramRecords, nonemptyRecords, hann, TuningForkHistogram.add, hcounts, histogramOf,
      nonempty, Function.comp_def, int32_toNat]

/-- Reading the frequencies. -/
theorem foldlM_cpuFreqs (vs : List UInt64) (m : DeviceInfo) :
    (vs.map fun v => (⟨5, .varint v.toNat⟩ : Wire.Record)).foldlM DeviceInfo.add m =
      some { m with cpuMaxFreqHz := m.cpuMaxFreqHz ++ vs.map UInt64.toInt64 } := by
  induction vs generalizing m with
  | nil => simp
  | cons v vs ih => simp [DeviceInfo.add, ih, int64_toNat]

/-- The records of the device information can be written. -/
theorem fits_deviceInfoRecords (info : ExtraUploadInfo) :
    ∀ r ∈ deviceInfoRecords info, r.Fits := by
  have hmemory := ofInt64_lt info.totalMemoryBytes.toInt64
  have hversion := ofInt32_lt info.glEsVersion.toInt32
  simp only [deviceInfoRecords, List.forall_mem_append, List.forall_mem_cons, List.forall_mem_map]
  refine ⟨⟨⟨by decide, hmemory⟩, ⟨by decide, hversion⟩, ?_, ?_, by simp⟩,
    fun v _ => ⟨by decide, v.toNat_lt⟩⟩
  · exact (by decide : 3 < 2 ^ 29)
  · exact (by decide : 4 < 2 ^ 29)

/-- Reading the records of the device information. -/
theorem decode_deviceInfoRecords (info : ExtraUploadInfo) :
    Wire.decode DeviceInfo.add {} (Wire.encode (deviceInfoRecords info)) =
      some (deviceInfoOf info) := by
  rw [Wire.decode_encode _ _ (fits_deviceInfoRecords info), deviceInfoRecords, List.foldlM_append]
  simp [DeviceInfo.add, foldlM_cpuFreqs, deviceInfoOf]

/-- Reading the histograms. -/
theorem foldlM_histograms (ps : List Prong) (m : TuningForkLogEvent) :
    (histogramsRecords ps).foldlM TuningForkLogEvent.add m = some { m with
      histograms := m.histograms ++ (ps.filter fun p => p.count > 0).map histogramOf } := by
  rw [histogramsRecords]
  induction ps.filter fun p => p.count > 0 generalizing m with
  | nil => simp
  | cons p ps ih => simp [TuningForkLogEvent.add, decode_histogramRecords, ih]

/-- The records of an event can be written. -/
theorem fits_eventRecords (pc : ProngCache) (fidelityParams : List UInt8)
    (info : ExtraUploadInfo) : ∀ r ∈ eventRecords pc fidelityParams info, r.Fits := by
  have hcode := ofInt32_lt info.apkVersionCode.toInt32
  have hversion := ofInt32_lt info.tuningforkVersion.toInt32
  have hdelimited {number : ℕ} (h : number < 2 ^ 29) (bytes : List UInt8) :
      Wire.Record.Fits ⟨number, .delimited bytes⟩ := h
  simp only [eventRecords, histogramsRecords, List.forall_mem_append, List.forall_mem_cons,
    List.forall_mem_map]
  refine ⟨⟨⟨fits_nonemptyRecords (by decide) _, hdelimited (by decide) _, by simp⟩,
    fun p _ => hdelimited (by decide) _⟩, hdelimited (by decide) _, hdelimited (by decide) _,
    hdelimited (by decide) _, ⟨by decide, hcode⟩, ⟨by decide, hversion⟩, by simp⟩

/-- **Reading the records** of an event gives the message. -/
theorem decode_eventRecords (pc : ProngCache) (fidelityParams : List UInt8)
    (info : ExtraUploadInfo) :
    TuningForkLogEvent.decode (Wire.encode (eventRecords pc fidelityParams info)) =
      some (eventOf pc fidelityParams info) := by
  have hparams : (nonemptyRecords 1 fidelityParams).foldlM TuningForkLogEvent.add {} =
      some { fidelityparams := nonempty fidelityParams } := by
    by_cases hnil : fidelityParams = [] <;>
      simp [nonemptyRecords, nonempty, hnil, TuningForkLogEvent.add]
  rw [TuningForkLogEvent.decode, Wire.decode_encode _ _ (fits_eventRecords pc fidelityParams info)]
  simp [eventRecords, List.foldlM_append, hparams, foldlM_histograms, TuningForkLogEvent.add,
    decode_deviceInfoRecords, eventOf]

end ClearcutLog

namespace Nano

open ClearcutLog

/-! ## The bytes are those of the records

One lemma for each callback, and then for each message that is made of them.
-/

variable {lib : Library}

/-- The first pass over the counts, for their length. -/
theorem writes_sizeCounts (hlib : lib.Lawful) (counts : List UInt32) :
    Writes (sizeCounts lib counts) (Wire.packed (counts.map UInt32.toNat)) := by
  induction counts with
  | nil => exact .done
  | cons n ns ih => exact (hlib.encodeVarint _).followedBy ih

/-- The counts, packed. -/
theorem writes_writeCounts (hlib : lib.Lawful) (counts : List UInt32) :
    Writes (writeCounts lib counts) (Wire.packed (counts.map UInt32.toNat)) := by
  induction counts with
  | nil => exact .done
  | cons n ns ih => exact (hlib.encodeVarint _).andThen ih

/-- The field of the counts. -/
theorem writes_writeCountArray (hlib : lib.Lawful) {h : Histogram} (hsized : h.Sized)
    (field : Field) :
    Writes (writeCountArray lib h field)
      (Wire.encode [⟨3, .delimited (Wire.packed (h.buckets.map UInt32.toNat))⟩]) := by
  have hall : h.buckets.take h.numBuckets.toNat = h.buckets :=
    List.take_of_length_le (Nat.le_of_eq hsized)
  rw [writeCountArray]
  simp only [hall, (writes_sizeCounts hlib _).size]
  refine Writes.of_eq ((hlib.encodeTag wtString countsTag).andThen
    ((hlib.encodeVarint _).andThen (writes_writeCounts hlib h.buckets))) ?_
  simp [Wire.Record.encode, Wire.delimited, wtString, countsTag]

/-- The fields of the frequencies. -/
theorem writes_writeCpuFreqs (hlib : lib.Lawful) (vs : List UInt64) :
    Writes (writeCpuFreqs lib vs ⟨5, .int64⟩)
      (Wire.encode (vs.map fun v => ⟨5, .varint v.toNat⟩)) := by
  induction vs with
  | nil => exact .done
  | cons v vs ih =>
    rw [writeCpuFreqs]
    refine Writes.of_eq ((hlib.encodeTagForField ⟨5, .int64⟩).followedBy
      ((hlib.encodeVarint v.toNat).followedBy ih)) ?_
    simp [Wire.Record.encode, Field.tagBytes, PbType.wireType]

/-- Bytes in a field of the wire type for bytes. -/
theorem encode_delimited {field : Field} (htype : field.type.wireType = 2) (bytes : List UInt8) :
    Wire.encode [⟨field.tag, .delimited bytes⟩] = field.tagBytes ++ Wire.delimited bytes := by
  simp [Wire.Record.encode, Field.tagBytes, htype]

/-- A field that is left out when it is empty. -/
theorem writes_writeNonempty (hlib : lib.Lawful) {field : Field}
    (htype : field.type.wireType = 2) (bytes : List UInt8) :
    Writes (writeNonempty lib bytes field) (Wire.encode (nonemptyRecords field.tag bytes)) := by
  rw [writeNonempty, nonemptyRecords]
  by_cases hnil : bytes = []
  · rw [if_neg (by simp [hnil]), if_pos hnil]
    exact .done
  · rw [if_pos (List.length_pos_iff.mpr hnil), if_neg hnil, encode_delimited htype]
    refine Writes.of_eq ((hlib.encodeTagForField field).followedBy
      ((hlib.encodeString bytes).followedBy .done)) ?_
    rw [List.append_nil]

/-- A string field. -/
theorem writes_writeString (hlib : lib.Lawful) {field : Field}
    (htype : field.type.wireType = 2) (str : ByteString) :
    Writes (writeString lib str field) (Wire.encode [⟨field.tag, .delimited str⟩]) := by
  rw [encode_delimited htype]
  exact (hlib.encodeTagForField field).andThen (hlib.encodeString str)

/-! ### The messages

A message is the records of its fields, one after the other; a message in a field is the record of
its bytes.
-/

/-- The message of a prong. -/
theorem writes_fillProng (hlib : lib.Lawful) {p : Prong} (hsized : p.histogram.Sized) :
    Writes (lib.encode (fillProng lib p).members) (Wire.encode (histogramRecords p)) := by
  have hannotation := @writes_writeNonempty lib hlib ⟨2, .bytes⟩ rfl p.annotation
  have hcounts := writes_writeCountArray hlib hsized ⟨3, .int32⟩
  refine Writes.of_eq (hlib.encode (fillProng lib p).members _ (.cons rfl
    (.cons hannotation (.cons hcounts .nil)))) ?_
  simp [histogramRecords, Wire.Record.encode, Field.tagBytes, PbType.wireType, fillProng]

/-- The messages of all prongs with samples. -/
theorem writes_writeHistograms (hlib : lib.Lawful) {ps : List Prong}
    (hsized : ∀ p ∈ ps, p.histogram.Sized) :
    Writes (writeHistograms lib ps ⟨3, .message⟩) (Wire.encode (histogramsRecords ps)) := by
  induction ps with
  | nil => exact .done
  | cons p ps ih =>
    obtain ⟨hp, hps⟩ := List.forall_mem_cons.mp hsized
    rw [writeHistograms]
    by_cases hcount : p.count > 0
    · have hbody := writes_fillProng hlib hp
      simp only [if_pos hcount, hbody.size]
      refine Writes.of_eq ((hlib.encodeTagForField ⟨3, .message⟩).followedBy
        ((hlib.encodeVarint _).followedBy (hbody.followedBy (ih hps)))) ?_
      simp [histogramsRecords, hcount, Wire.Record.encode, Wire.delimited, Field.tagBytes,
        PbType.wireType]
    · rw [if_neg hcount]
      refine Writes.of_eq (ih hps) ?_
      simp [histogramsRecords, hcount]

/-- The message of the device information. -/
theorem writes_fillDeviceInfo (hlib : lib.Lawful) (info : ExtraUploadInfo) :
    Writes (lib.encode (fillDeviceInfo lib info).members)
      (Wire.encode (deviceInfoRecords info)) := by
  have hfingerprint : Writes (writeString lib info.buildFingerprint ⟨3, .string⟩)
      (Wire.encode [⟨3, .delimited info.buildFingerprint⟩]) := writes_writeString hlib rfl _
  have hsdk : Writes (writeString lib info.buildVersionSdk ⟨4, .string⟩)
      (Wire.encode [⟨4, .delimited info.buildVersionSdk⟩]) := writes_writeString hlib rfl _
  have hfreqs := writes_writeCpuFreqs hlib info.cpuMaxFreqHz
  refine Writes.of_eq (hlib.encode (fillDeviceInfo lib info).members _ (.cons rfl (.cons rfl
    (.cons hfingerprint (.cons hsdk (.cons hfreqs .nil)))))) ?_
  simp [deviceInfoRecords, Wire.Record.encode, Field.tagBytes, PbType.wireType, fillDeviceInfo]

/-- The callback for the device info writes what the library does for the field. -/
theorem writes_writeDeviceInfo (hlib : lib.Lawful) (info : ExtraUploadInfo) :
    Writes (writeDeviceInfo lib info ⟨5, .message⟩)
      (Wire.encode [⟨5, .delimited (Wire.encode (deviceInfoRecords info))⟩]) := by
  have hbody := writes_fillDeviceInfo hlib info
  simp only [writeDeviceInfo, hbody.size]
  refine Writes.of_eq ((hlib.encodeTagForField ⟨5, .message⟩).followedBy
    ((hlib.encodeVarint _).followedBy (hbody.followedBy .done))) ?_
  simp [Wire.Record.encode, Wire.delimited, Field.tagBytes, PbType.wireType]

/-- The message of an event. -/
theorem writes_fillEvent (hlib : lib.Lawful) {pc : ProngCache}
    (hsized : ∀ p ∈ pc.prongs, p.histogram.Sized) (fidelityParams : List UInt8)
    (info : ExtraUploadInfo) :
    Writes (lib.encode (fillEvent lib pc fidelityParams info).members)
      (Wire.encode (eventRecords pc fidelityParams info)) := by
  have hparams : Writes (writeFidelityParams lib fidelityParams ⟨1, .bytes⟩)
      (Wire.encode (nonemptyRecords 1 fidelityParams)) := writes_writeNonempty hlib rfl _
  have hstring {number : ℕ} (str : ByteString) :
      Writes (writeString lib str ⟨number, .string⟩) (Wire.encode [⟨number, .delimited str⟩]) :=
    writes_writeString hlib rfl _
  have hhistograms := writes_writeHistograms hlib hsized
  have hdeviceInfo : lib.WritesMember
      (.message ⟨5, .message⟩ true (fillDeviceInfo lib info).members) _ :=
    ⟨_, writes_fillDeviceInfo hlib info, rfl⟩
  refine Writes.of_eq (hlib.encode (fillEvent lib pc fidelityParams info).members _
    (.cons hparams (.cons (hstring _) (.cons hhistograms (.cons (hstring _)
      (.cons hdeviceInfo (.cons (hstring _) (.cons rfl (.cons rfl .nil))))))))) ?_
  simp [eventRecords, Wire.Record.encode, Field.tagBytes, PbType.wireType, fillEvent]

/-- **The bytes** of an event are those of its records. -/
theorem serializeEvent_eq (hlib : lib.Lawful) {pc : ProngCache}
    (hsized : ∀ p ∈ pc.prongs, p.histogram.Sized) (fidelityParams : List UInt8)
    (info : ExtraUploadInfo) (evtSer : List UInt8) :
    serializeEvent lib pc fidelityParams info evtSer =
      evtSer ++ Wire.encode (eventRecords pc fidelityParams info) := by
  rw [serializeEvent, writes_fillEvent hlib hsized fidelityParams info]
  simp [OStream.push, VectorStream.write_eq]

/-- **What is read back is what was to be logged.** -/
theorem decode_serializeEvent (hlib : lib.Lawful) {pc : ProngCache}
    (hsized : ∀ p ∈ pc.prongs, p.histogram.Sized) (fidelityParams : List UInt8)
    (info : ExtraUploadInfo) (evtSer : List UInt8) :
    ∃ bytes, serializeEvent lib pc fidelityParams info evtSer = evtSer ++ bytes ∧
      ClearcutLog.TuningForkLogEvent.decode bytes = some (eventOf pc fidelityParams info) := by
  exact ⟨_, serializeEvent_eq hlib hsized fidelityParams info evtSer,
    decode_eventRecords pc fidelityParams info⟩

/-- One prong that has counted three samples, one that has counted none. -/
def twoProngs : ProngCache where
  prongs :=
    [⟨7, [8, 1], ⟨10, 40, 15, 4, [0, 2, 1, 0], [], 0, false, 3, []⟩, TimePoint.min⟩,
      ⟨8, [], ⟨10, 40, 15, 4, [0, 0, 0, 0], [], 0, false, 0, []⟩, TimePoint.min⟩]
  maxNumInstrumentationKeys := 2

/-- A device with two CPUs. -/
def someInfo : ExtraUploadInfo where
  experimentId := [101]
  sessionId := []
  totalMemoryBytes := 0x100000000
  glEsVersion := 0x30002
  buildFingerprint := [102, 112]
  buildVersionSdk := [50, 56]
  cpuMaxFreqHz := [1800000, 2400000]
  apkPackageName := [97, 46, 98]
  apkVersionCode := 1
  tuningforkVersion := 0xffffffff

/-- An event of two prongs, one of them without samples. -/
theorem decode_serializeEvent_twoProngs :
    ∃ bytes, serializeEvent wireLibrary twoProngs [] someInfo [] = [] ++ bytes ∧
      ClearcutLog.TuningForkLogEvent.decode bytes = some (eventOf twoProngs [] someInfo) :=
  decode_serializeEvent lawful_wireLibrary (by decide) [] someInfo []

end Nano

/-! ## The events of a run

The caches of a run have all their buckets, so their events are read back.
-/

namespace ClearcutLog

/-- The histogram of an event as a message. -/
def ofHistogram (h : ClearcutHistogram) : TuningForkHistogram where
  instrumentId := some h.instrumentId.toUInt32.toInt32
  annotation := nonempty h.annotation
  counts := h.counts.map UInt32.toInt32

/-- The message for an event. -/
def ofEvent (e : GameSdk.TuningForkLogEvent) : TuningForkLogEvent where
  fidelityparams := nonempty e.fidelityParams
  experimentId := some e.info.experimentId
  histograms := e.histograms.map ofHistogram
  sessionId := some e.info.sessionId
  deviceInfo := some (deviceInfoOf e.info)
  apkPackageName := some e.info.apkPackageName
  apkVersionCode := some e.info.apkVersionCode.toInt32
  tuningforkVersion := some e.info.tuningforkVersion.toInt32

/-- The histograms of an event are those that are logged. -/
theorem map_writeHistograms {ps : List Prong} (hsized : ∀ p ∈ ps, p.histogram.Sized) (k : ℕ) :
    ((ps.zipIdx k).filterMap fun (p, i) =>
        if p.count > 0 then some (ClearcutSerializer.fill p i) else none).map ofHistogram =
      (ps.filter fun p => p.count > 0).map histogramOf := by
  induction ps generalizing k with
  | nil => rfl
  | cons p ps ih =>
    obtain ⟨hp, hps⟩ := List.forall_mem_cons.mp hsized
    have hhead : ofHistogram (ClearcutSerializer.fill p k) = histogramOf p := by
      have hall : p.histogram.buckets.take p.histogram.numBuckets.toNat = p.histogram.buckets :=
        List.take_of_length_le (Nat.le_of_eq hp)
      rw [ofHistogram, ClearcutSerializer.fill, hall]
      rfl
    rw [List.zipIdx_cons, List.filterMap_cons, List.filter_cons]
    by_cases hcount : p.count > 0
    · simp only [hcount, if_true, decide_true, List.map_cons, hhead, ih hps]
    · simp only [hcount, if_false, decide_false, ih hps]
      rfl

/-- The event that goes to the backend says what was to be logged. -/
theorem ofEvent_serializeEvent {pc : ProngCache} (hsized : ∀ p ∈ pc.prongs, p.histogram.Sized)
    (fidelityParams : List UInt8) (info : ExtraUploadInfo) :
    ofEvent (ClearcutSerializer.serializeEvent pc fidelityParams info) =
      eventOf pc fidelityParams info := by
  rw [ofEvent, eventOf]
  congr 1
  exact map_writeHistograms hsized 0

end ClearcutLog

/-- All histograms have as many buckets as they should. -/
theorem System.sized_of_run {sqrt : ℚ → ℚ} {st : Settings} {info : ExtraUploadInfo}
    {now : TimePoint} {s : TuningForkImpl} (hnew : TuningForkImpl.new st info now = .ok s)
    {σ : System} (hrun : Relation.ReflTransGen (Step sqrt) ⟨s, .between⟩ σ) :
    σ.impl.Each Histogram.Sized :=
  Runs.invariant_of_reachable (P := fun σ => σ.impl.Each Histogram.Sized)
    (fun _ _ hs h => each_step (fun _ _ _ => Histogram.sized_add) (fun _ => Histogram.sized_clear)
      hs h)
    (TuningForkImpl.each_new (fun _ _ => Histogram.sized_ofSettings) hnew) hrun

/-- **What the upload thread sends can be read back**: in any run of the two threads, the
bytes made of the ready cache are a message for the event that is recorded as handed on. -/
theorem System.decode_upload {lib : Nano.Library} (hlib : lib.Lawful) {sqrt : ℚ → ℚ} {st : Settings}
    {info : ExtraUploadInfo} {now : TimePoint} {s : TuningForkImpl}
    (hnew : TuningForkImpl.new st info now = .ok s) {σ : System}
    (hrun : Relation.ReflTransGen (Step sqrt) ⟨s, .between⟩ σ) {c : Bool}
    (hready : σ.impl.uploadThread.ready = some c) (glEsVersion : UInt32) :
    ∃ e, (σ.impl.upload glEsVersion).uploadThread.processed =
        σ.impl.uploadThread.processed ++ [e] ∧
      ClearcutLog.TuningForkLogEvent.decode (Nano.serializeEvent lib (σ.impl.prongCaches c)
        σ.impl.uploadThread.currentFidelityParams
        { σ.impl.uploadThread.extraInfo with glEsVersion } []) =
          some (ClearcutLog.ofEvent e) := by
  have hsized := sized_of_run hnew hrun
  refine ⟨ClearcutSerializer.serializeEvent (σ.impl.prongCaches c) _ _,
    by rw [TuningForkImpl.uploadThread_upload hready], ?_⟩
  rw [Nano.serializeEvent_eq hlib (hsized c), List.nil_append, ClearcutLog.decode_eventRecords,
    ClearcutLog.ofEvent_serializeEvent (hsized c)]

end GameSdk
