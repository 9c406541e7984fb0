import GameSdk.TuningForkSteps

/-!
# Setting the annotation

`SetCurrentAnnotation` looks for the error value after the decoded id has been
multiplied by the number of instrument keys. The product is the error value for
other reasons too, and the error value times two or more is not.

The multiplication is of 64-bit numbers. With one instrument key the product of the error value is
the error value again, and only then; which valid ids run into it depends on the settings.
-/

namespace GameSdk

/-- What a caller is told: the call is refused exactly when the bytes do not
decode, and leaves the empty annotation's id behind then, else the decoded one. -/
def ReportsAnnotation (s : TuningForkImpl) (ann : SerializedAnnotation) : Prop :=
  let id := decodeAnnotationSerialization ann s.annotationRadixMult
  let r := setCurrentAnnotation (some s) ann
  ∃ s', r.2 = some s' ∧ (r.1 = TFErrorCode.invalidAnnotation ↔ id = kAnnotationError) ∧
    (id = kAnnotationError → s'.currentAnnotationId = 0) ∧
    (id ≠ kAnnotationError → r.1 = .ok ∧
      s'.currentAnnotationId = s.settings.maxInstrumentationKeys.toUInt64 * id)

/-- The error value is recognized only if there is one key. -/
theorem kAnnotationError_mul_eq_iff (k : UInt32) :
    kAnnotationError * k.toUInt64 = kAnnotationError ↔ k = 1 := by
  have hneg : kAnnotationError = -1 := rfl
  rw [hneg, UInt64.neg_mul, UInt64.one_mul, UInt64.neg_inj, ← UInt64.toNat_inj, ← UInt32.toNat_inj,
    UInt32.toNat_toUInt64]
  rfl

/-- The code and the id that the call ends with, by the product. -/
theorem setCurrentAnnotation_eq (s : TuningForkImpl) (ann : SerializedAnnotation) :
    setCurrentAnnotation (some s) ann =
      if s.decodeAnnotationSerialization ann = kAnnotationError then
        Prod.mk TFErrorCode.invalidAnnotation
          (some { s with currentAnnotation := ann, currentAnnotationId := 0 })
      else (.ok, some { s with
        currentAnnotation := ann
        currentAnnotationId := s.decodeAnnotationSerialization ann }) := by
  have hlit : (0xffffffffffffffff : UInt64) = kAnnotationError := rfl
  unfold setCurrentAnnotation
  simp only [TuningForkImpl.setCurrentAnnotation_eq, hlit]
  by_cases h : s.decodeAnnotationSerialization ann = kAnnotationError
  · simp only [if_pos h, if_true]
  · simp only [if_neg h]

/-- **The call reports as it should exactly with a single instrument key, or when the
bytes decode and the product with the number of keys is not the error value.** -/
theorem reportsAnnotation_iff (s : TuningForkImpl) (ann : SerializedAnnotation) :
    ReportsAnnotation s ann ↔ s.settings.maxInstrumentationKeys = 1 ∨
      (decodeAnnotationSerialization ann s.annotationRadixMult ≠ kAnnotationError ∧
        decodeAnnotationSerialization ann s.annotationRadixMult *
          s.settings.maxInstrumentationKeys.toUInt64 ≠ kAnnotationError) := by
  unfold ReportsAnnotation
  rw [setCurrentAnnotation_eq, TuningForkImpl.decodeAnnotationSerialization]
  generalize decodeAnnotationSerialization ann s.annotationRadixMult = id
  generalize s.settings.maxInstrumentationKeys = k
  by_cases herr : id * k.toUInt64 = kAnnotationError
  · simp only [if_pos herr]
    constructor
    · -- the refusal is right only if the bytes did not decode, and then `k` is one
      rintro ⟨s', -, hcode, -⟩
      have hid : id = kAnnotationError := hcode.mp trivial
      rw [hid, kAnnotationError_mul_eq_iff] at herr
      exact Or.inl herr
    · rintro (rfl | ⟨-, hne⟩)
      · have hid : id = kAnnotationError := by
          rwa [show (1 : UInt32).toUInt64 = 1 from rfl, UInt64.mul_one] at herr
        exact ⟨_, rfl, iff_of_true trivial hid, fun _ => rfl, fun h => absurd hid h⟩
      · exact absurd herr hne
  · simp only [if_neg herr]
    constructor
    · rintro ⟨s', -, hcode, -⟩
      exact Or.inr ⟨fun hid => (nomatch hcode.mpr hid), herr⟩
    · intro h
      have hid : id ≠ kAnnotationError := by
        rintro rfl
        rcases h with rfl | ⟨hne, -⟩
        · exact herr ((kAnnotationError_mul_eq_iff 1).mpr rfl)
        · exact hne rfl
      exact ⟨_, rfl, iff_of_false (fun h => (nomatch h)) hid, fun h => absurd h hid,
        fun _ => ⟨trivial, UInt64.mul_comm ..⟩⟩

/-- Two instrument keys, no annotations and the default histograms. -/
def twoKeys : Settings where
  method := .tickBased
  intervalmsOrCount := 100
  maxInstrumentationKeys := 2
  annotationEnumSize := []
  histograms := []

/-- Two keys, and an annotation with one value. -/
def twoKeysOneValue : Settings := { twoKeys with annotationEnumSize := [1] }

/-- Nothing known about the device. -/
def noExtraInfo : ExtraUploadInfo where
  experimentId := []
  sessionId := []
  totalMemoryBytes := 0
  glEsVersion := 0
  buildFingerprint := []
  buildVersionSdk := []
  cpuMaxFreqHz := []
  apkPackageName := []
  apkVersionCode := 0
  tuningforkVersion := 0

/-- An instance with two keys and no annotations. -/
theorem new_twoKeys : ∃ s, TuningForkImpl.new twoKeys noExtraInfo 0 = .ok s ∧
    s.annotationRadixMult = [1] ∧ s.settings.maxInstrumentationKeys = 2 ∧
    s.currentAnnotation = [] := by
  have hnew : (TuningForkImpl.new twoKeys noExtraInfo 0).map (fun s => (s.annotationRadixMult,
      s.settings.maxInstrumentationKeys, s.currentAnnotation)) = .ok ([1], 2, []) := by
    decide +kernel
  rcases h : TuningForkImpl.new twoKeys noExtraInfo 0 with e | s
  · rw [h] at hnew
    cases hnew
  · rw [h] at hnew
    simp only [Except.map, Except.ok.injEq, Prod.mk.injEq] at hnew
    exact ⟨s, rfl, hnew⟩

/-- With two keys a byte that is no tag is accepted, and sets the id `2 ^ 64 - 2`. -/
theorem not_reportsAnnotation_two_keys :
    ∃ s, TuningForkImpl.new twoKeys noExtraInfo 0 = .ok s ∧
      setCurrentAnnotation (some s) [1] = (.ok, some { s with
        currentAnnotation := [1], currentAnnotationId := 0xfffffffffffffffe }) ∧
      ¬ ReportsAnnotation s [1] := by
  obtain ⟨s, hs, hradix, hkeys, -⟩ := new_twoKeys
  have hdecode : GameSdk.decodeAnnotationSerialization [1] [1] = kAnnotationError := by
    decide +kernel
  have hset : setCurrentAnnotation (some s) [1] = (.ok, some { s with
      currentAnnotation := [1], currentAnnotationId := 0xfffffffffffffffe }) := by
    rw [setCurrentAnnotation_eq, TuningForkImpl.decodeAnnotationSerialization, hradix, hkeys,
      hdecode]
    rfl
  refine ⟨s, hs, hset, ?_⟩
  rintro ⟨s', -, hcode, -⟩
  rw [hset, hradix, hdecode] at hcode
  exact nomatch hcode.mpr rfl

end GameSdk
