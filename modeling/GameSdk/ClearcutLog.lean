import GameSdk.UploadThread
import GameSdk.WireFormat

/-!
# The messages of the log (`tuningfork_clearcut_log.proto`)

What a reader gets from the bytes of an event. An optional field is an `Option`, a
repeated one a list. Fields that are not known are skipped; of an optional field the
last value counts, and a message that comes twice is merged.

The numbers of the fields are those of the file. A reader is made of `Wire.decode` and one function
for each message, `add`, which says what becomes of the next record.
-/

namespace GameSdk

namespace ClearcutLog

/-! ## Integers

An `int32` is written as 64 bits with its sign, and read from the lower 32.
-/

/-- A varint as a signed number of 64 bits. -/
def int64 (n : ℕ) : Int64 := (UInt64.ofNat n).toInt64

/-- A varint as a signed number of 32 bits; the bits above are dropped. -/
def int32 (n : ℕ) : Int32 := (UInt32.ofNat n).toInt32

/-- The varint of a signed number. -/
def ofInt64 (v : Int64) : ℕ := v.toUInt64.toNat

/-- The varint of a signed number of 32 bits, which is written with 64. -/
def ofInt32 (v : Int32) : ℕ := ofInt64 v.toInt64

/-- It has 64 bits. -/
theorem ofInt64_lt (v : Int64) : ofInt64 v < 2 ^ 64 := v.toUInt64.toNat_lt

/-- So has this one. -/
theorem ofInt32_lt (v : Int32) : ofInt32 v < 2 ^ 64 := ofInt64_lt _

/-- A signed number is read back. -/
@[simp] theorem int64_ofInt64 (v : Int64) : int64 (ofInt64 v) = v := by
  rw [int64, ofInt64, UInt64.ofNat_toNat]
  rfl

/-- So is one of 32 bits. -/
@[simp] theorem int32_ofInt32 (v : Int32) : int32 (ofInt32 v) = v := by
  have hsign : (v.toBitVec.signExtend 64).toInt = v.toInt :=
    BitVec.toInt_signExtend_of_le (by decide)
  have hdvd : 2 ^ 32 ∣ 2 ^ 64 := Nat.pow_dvd_pow 2 (by decide)
  have hlow := Int.bmod_bmod_of_dvd (a := (v.toBitVec.signExtend 64).toNat) hdvd
  rw [BitVec.toInt_eq_toNat_bmod] at hsign
  rw [hsign] at hlow
  apply Int32.toInt_inj.mp
  calc (int32 (ofInt32 v)).toInt = ((v.toBitVec.signExtend 64).toNat : ℤ).bmod (2 ^ 32) := by
        rw [int32, ofInt32, ofInt64, UInt32.toInt32_ofNat', Int32.toInt_ofNat']
        rfl
    _ = v.toInt.bmod (2 ^ 32) := hlow.symm
    _ = v.toInt := BitVec.toInt_bmod_cancel _

/-- Read as a signed number of 64 bits, an unsigned one keeps its bits. -/
theorem int64_toNat (x : UInt64) : int64 x.toNat = x.toInt64 := by
  rw [int64, UInt64.ofNat_toNat]

/-- So does one of 32 bits. -/
theorem int32_toNat (x : UInt32) : int32 x.toNat = x.toInt32 := by
  rw [int32, UInt32.ofNat_toNat]

/-! ## Messages

Each message is a structure of its fields with a function that adds a record to it.
-/

/-- The counts of one key and one annotation. -/
structure TuningForkHistogram where
  instrumentId : Option Int32 := none
  annotation : Option (List UInt8) := none
  counts : List Int32 := []
  deriving DecidableEq, Repr

/-- What is known about the device. -/
structure DeviceInfo where
  totalMemoryBytes : Option Int64 := none
  glEsVersion : Option Int32 := none
  buildFingerprint : Option ByteString := none
  buildVersionSdk : Option ByteString := none
  cpuMaxFreqHz : List Int64 := []
  deriving DecidableEq, Repr

/-- The message of an upload. -/
structure TuningForkLogEvent where
  fidelityparams : Option (List UInt8) := none
  experimentId : Option ByteString := none
  histograms : List TuningForkHistogram := []
  sessionId : Option ByteString := none
  deviceInfo : Option DeviceInfo := none
  apkPackageName : Option ByteString := none
  apkVersionCode : Option Int32 := none
  tuningforkVersion : Option Int32 := none
  deriving DecidableEq, Repr

/-- Take in one field. The counts are packed, but need not be. -/
def TuningForkHistogram.add (m : TuningForkHistogram) : Wire.Record → Option TuningForkHistogram
  | ⟨1, .varint n⟩ => some { m with instrumentId := some (int32 n) }
  | ⟨2, .delimited bytes⟩ => some { m with annotation := some bytes }
  | ⟨3, .varint n⟩ => some { m with counts := m.counts ++ [int32 n] }
  | ⟨3, .delimited bytes⟩ => do
    let ns ← Wire.parsePacked bytes
    some { m with counts := m.counts ++ ns.map int32 }
  | _ => some m

/-- One record of the device message. -/
def DeviceInfo.add (m : DeviceInfo) : Wire.Record → Option DeviceInfo
  | ⟨1, .varint n⟩ => some { m with totalMemoryBytes := some (int64 n) }
  | ⟨2, .varint n⟩ => some { m with glEsVersion := some (int32 n) }
  | ⟨3, .delimited bytes⟩ => some { m with buildFingerprint := some bytes }
  | ⟨4, .delimited bytes⟩ => some { m with buildVersionSdk := some bytes }
  | ⟨5, .varint n⟩ => some { m with cpuMaxFreqHz := m.cpuMaxFreqHz ++ [int64 n] }
  | ⟨5, .delimited bytes⟩ => do
    let ns ← Wire.parsePacked bytes
    some { m with cpuMaxFreqHz := m.cpuMaxFreqHz ++ ns.map int64 }
  | _ => some m

/-- One record of the event; a message in it is read at once. -/
def TuningForkLogEvent.add (m : TuningForkLogEvent) : Wire.Record → Option TuningForkLogEvent
  | ⟨1, .delimited bytes⟩ => some { m with fidelityparams := some bytes }
  | ⟨2, .delimited bytes⟩ => some { m with experimentId := some bytes }
  | ⟨3, .delimited bytes⟩ => do
    let histogram ← Wire.decode TuningForkHistogram.add {} bytes
    some { m with histograms := m.histograms ++ [histogram] }
  | ⟨4, .delimited bytes⟩ => some { m with sessionId := some bytes }
  | ⟨5, .delimited bytes⟩ => do
    let deviceInfo ← Wire.decode DeviceInfo.add (m.deviceInfo.getD {}) bytes
    some { m with deviceInfo := some deviceInfo }
  | ⟨6, .delimited bytes⟩ => some { m with apkPackageName := some bytes }
  | ⟨7, .varint n⟩ => some { m with apkVersionCode := some (int32 n) }
  | ⟨8, .varint n⟩ => some { m with tuningforkVersion := some (int32 n) }
  | _ => some m

/-- The event in some bytes, if they are one. -/
def TuningForkLogEvent.decode (bytes : List UInt8) : Option TuningForkLogEvent :=
  Wire.decode TuningForkLogEvent.add {} bytes

end ClearcutLog

end GameSdk
