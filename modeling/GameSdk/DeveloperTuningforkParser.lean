import GameSdk.ValidationUtil

/-!
# The settings of a developer (`DeveloperTuningforkParser.java`)

The tool compiles the proto file of an app, checks its messages, parses the settings text
and saves the settings in binary form. Where a check has failed, the step is to skip what
comes after it; it logs that it does, and goes on. Here is the tool from the compiled
descriptors to the step that saves the settings. `TextFormat.merge` of the protocol
buffer library is a parameter, which is `none` where it throws a `ParseException`.

The tool collects errors, and so does the model, with the texts of the source. An unchecked
exception is the error of an `Outcome`, which has the errors recorded so far as well. The main
result says for which input the step does what it is to do.
-/

namespace GameSdk

namespace DeveloperTuningforkParser

/-! ## Errors

Errors are in three groups. Whether a group has errors is the only thing that is asked of them.
-/

/-- What an error is about. -/
inductive ErrorGroup where
  | annotations | fidelity | settings
  deriving DecidableEq

/-- The types of error that are added up to the step; those of the annotation are
`ErrorType`. -/
inductive ParserErrorType where
  | annotationError (errorType : ErrorType)
  | fidelityParamsEmpty | fidelityParamsComplex | fidelityParamsType
  | settingsParsing | histogramEmpty | aggregationEmpty | aggregationInstrumentationKey
  | aggregationAnnotations
  deriving DecidableEq

/-- The group of an error. -/
def ParserErrorType.getGroup : ParserErrorType → ErrorGroup
  | annotationError _ => .annotations
  | fidelityParamsEmpty | fidelityParamsComplex | fidelityParamsType => .fidelity
  | settingsParsing | histogramEmpty | aggregationEmpty | aggregationInstrumentationKey
  | aggregationAnnotations => .settings

/-- All types of error. -/
def ParserErrorType.values : List ParserErrorType :=
  [.annotationError .annotationEmpty, .annotationError .annotationComplex,
    .annotationError .annotationType, fidelityParamsEmpty, fidelityParamsComplex,
    fidelityParamsType, settingsParsing, histogramEmpty, aggregationEmpty,
    aggregationInstrumentationKey, aggregationAnnotations]

/-- `ParserErrorCollector`: the errors in the order they were added. -/
abbrev ParserErrors : Type := List (ParserErrorType × String)

/-- Errors are collected, in their order. -/
def ParserErrors.addError (errors : ParserErrors) (errorType : ParserErrorType)
    (message : String) : ParserErrors := errors ++ [(errorType, message)]

/-- Whether there is an error of this group. -/
def ParserErrors.hasErrors (errors : ParserErrors) (group : ErrorGroup) : Bool :=
  ParserErrorType.values.any fun errorType =>
    errorType.getGroup = group ∧ errors.any fun e => e.1 = errorType

/-- The unchecked exceptions: a null reference, and the value of an empty `Optional`. -/
inductive Unchecked where
  | nullPointer | noSuchElement
  deriving DecidableEq

/-- What a call comes to, and the errors that have been recorded by then. -/
structure Outcome (α : Type) where
  result : Except Unchecked α
  errors : ParserErrors

/-! ## Settings

What the tool reads of the parsed settings, and the checks of it.
-/

/-- The part of the settings that the annotation has to agree with. -/
structure AggregationStrategy where
  maxInstrumentationKeys : Option ℤ
  annotationEnumSize : List ℤ
  deriving DecidableEq

/-- What the tool reads of the settings. -/
structure Settings where
  aggregationStrategy : Option AggregationStrategy
  histogramsCount : ℕ
  deriving DecidableEq

/-- `MAX_INTSTRUMENTATION_KEYS` -/
def maxIntstrumentationKeys : ℤ := 256

/-- There is at least one histogram. -/
def validateSettingsHistograms (settings : Settings) (errors : ParserErrors) : ParserErrors :=
  if settings.histogramsCount = 0 then
    errors.addError .histogramEmpty
      "\tuningfork_settings.bin\" should contains at least one histogram"
  else errors

/-- The loop of `validateSettingsAggregation` over sizes that are as many. -/
def annotationSizesLoop (errors : ParserErrors) : List ℤ → List ℕ → ParserErrors
  | annSize :: annSizes, enumSize :: enumSizes =>
    annotationSizesLoop
      (if annSize ≠ enumSize then
        errors.addError .aggregationAnnotations
          ("\"tuningfork_settings.bin\" should contains same annotations as " ++
            "\"dev_tuningfork.proto\", expected " ++ toString enumSize ++ ", but was " ++
            toString annSize)
      else errors) annSizes enumSizes
  | _, _ => errors

/-- The sizes are null when the annotation is not valid. A field that is not set is zero. -/
def validateSettingsAggregation (settings : Settings) (enumSizes : Option (List ℕ))
    (errors : ParserErrors) : Outcome Unit :=
  match settings.aggregationStrategy with
  | none => ⟨.ok (), errors.addError .aggregationEmpty "Aggregation message is null"⟩
  | some aggregation =>
    let errors :=
      if aggregation.maxInstrumentationKeys = none then
        errors.addError .aggregationInstrumentationKey
          "Aggregation strategy doesn't have max_instrumentation_key field"
      else errors
    let maxKey := aggregation.maxInstrumentationKeys.getD 0
    let errors :=
      if maxKey < 1 ∨ maxKey > maxIntstrumentationKeys then
        errors.addError .aggregationInstrumentationKey
          ("max_instrumentation_keys should be between 1 and " ++
            toString maxIntstrumentationKeys ++ ", current value is " ++ toString maxKey)
      else errors
    match enumSizes with
    | none => ⟨.error .nullPointer, errors⟩
    | some enumSizes =>
      if aggregation.annotationEnumSize.length ≠ enumSizes.length then
        ⟨.ok (), errors.addError .aggregationAnnotations
          ("\"tuningfork_settings.bin\" should contains same number of annotations" ++
            " as \"dev_tuningfork.proto\"")⟩
      else ⟨.ok (), annotationSizesLoop errors aggregation.annotationEnumSize enumSizes⟩

section

variable (merge : String → Option Settings)

/-- The text is parsed, and what it says is checked. -/
def validateSettings (enumSizes : Option (List ℕ)) (settingsTextProto : String)
    (errors : ParserErrors) : Outcome (Option Settings) :=
  match merge settingsTextProto with
  | none => ⟨.ok none, errors.addError .settingsParsing "Parsing tuningfork_settings.txt"⟩
  | some settings =>
    let aggregation := validateSettingsAggregation settings enumSizes errors
    match aggregation.result with
    | .error e => ⟨.error e, aggregation.errors⟩
    | .ok () => ⟨.ok (some settings), validateSettingsHistograms settings aggregation.errors⟩

/-- The settings that the file holds afterwards, if it is written. An `IOException` is
caught. -/
def saveBinarySettings (writable : Bool) (settings : Settings) : Option Settings :=
  if writable then some settings else none

/-- The step. It returns what it has written. -/
def validateAndSaveBinarySettings (writable : Bool) (tuningforkSettings : Option String)
    (enumSizes : Option (List ℕ)) (errors : ParserErrors) : Outcome (Option Settings) :=
  match tuningforkSettings with
  | none => ⟨.error .noSuchElement, errors⟩
  | some settingsTextProto =>
    -- with errors of the annotation it logs that it skips the check
    let settings := validateSettings merge enumSizes settingsTextProto errors
    match settings.result with
    | .error e => ⟨.error e, settings.errors⟩
    -- with errors of the settings, or without settings, it logs that it skips saving
    | .ok none => ⟨.error .noSuchElement, settings.errors⟩
    | .ok (some s) => ⟨.ok (saveBinarySettings writable s), settings.errors⟩

end

/-! ## Messages

The checks of the two messages, and the tool from there to the step.
-/

/-- What a fidelity parameter may be. -/
def allowedFidelityParamsTypes : List FieldType := [.enum, .float, .int32]

/-- The check of the fidelity parameters message. -/
def validateFidelityParams (fidelityParamsDesc : Option Descriptor) (errors : ParserErrors) :
    ParserErrors :=
  match fidelityParamsDesc with
  | none => errors.addError .fidelityParamsEmpty "FidelityParams descriptor is not exist"
  | some fidelityParamsDesc =>
    if fidelityParamsDesc.oneofs ≠ [] then
      errors.addError .fidelityParamsComplex "FidelityParams too complex - has oneof field"
    else if fidelityParamsDesc.nestedTypes ≠ [] then
      errors.addError .fidelityParamsComplex "FidelityParams too complex - has nested types"
    else if fidelityParamsDesc.extensions ≠ [] then
      errors.addError .fidelityParamsComplex "FidelityParams too complex - has extensions"
    else fidelityParamsDesc.fields.foldl (fun errors field =>
      if field.type ∉ allowedFidelityParamsTypes then
        errors.addError .fidelityParamsType
          ("FidelityParams can only be of type FLOAT, INT32 or ENUM, " ++ field.name ++
            " field has type " ++ field.type.toString)
      else errors) errors

/-- The check of the annotation, which adds to the errors that there are. -/
def validateAnnotationField (annotationField : Option Descriptor) (errors : ParserErrors) :
    Option (List ℕ) × ParserErrors :=
  let (enumSizes, added) := validateAnnotationAndGetEnumSizes annotationField []
  (enumSizes, errors ++ added.map fun e => (.annotationError e.1, e.2))

/-- `validate`, up to the step. The messages are logged before it, and a null message
cannot be. -/
def validate (merge : String → Option Settings) (writable : Bool)
    (annotationField fidelityField : Option Descriptor) (tuningforkSettings : Option String)
    (errors : ParserErrors) : Outcome (Option Settings) :=
  let (enumSizes, errors) := validateAnnotationField annotationField errors
  let errors := validateFidelityParams fidelityField errors
  match annotationField, fidelityField with
  | some _, some _ =>
    validateAndSaveBinarySettings merge writable tuningforkSettings enumSizes errors
  | _, _ => ⟨.error .nullPointer, errors⟩

/-! ## What each check records

For each check, when it adds an error to a group. A check that has recorded nothing has found its
part in order.
-/

namespace ParserErrors

variable {errors : ParserErrors} {group : ErrorGroup}

/-- A group has errors if one of them is of this group. -/
theorem hasErrors_iff : errors.hasErrors group = true ↔ ∃ e ∈ errors, e.1.getGroup = group := by
  have hmem (t : ParserErrorType) : t ∈ ParserErrorType.values := by
    rcases t with e | _
    · cases e <;> decide
    all_goals decide
  rw [hasErrors, List.any_eq_true]
  constructor
  · rintro ⟨t, -, ht⟩
    obtain ⟨hgroup, e, he, rfl⟩ : t.getGroup = group ∧ ∃ e ∈ errors, e.1 = t := by
      simpa using ht
    exact ⟨e, he, hgroup⟩
  · rintro ⟨e, he, hgroup⟩
    refine ⟨e.1, hmem e.1, decide_eq_true ⟨hgroup, ?_⟩⟩
    exact List.any_eq_true.mpr ⟨e, he, decide_eq_true rfl⟩

/-- Errors of two lists. -/
theorem hasErrors_append (added : ParserErrors) :
    hasErrors (errors ++ added) group = true ↔
      errors.hasErrors group = true ∨ added.hasErrors group = true := by
  simp only [hasErrors_iff, List.mem_append, or_and_right, exists_or]

/-- One more error. -/
@[simp] theorem hasErrors_addError (t : ParserErrorType) (message : String) :
    (errors.addError t message).hasErrors group = true ↔
      errors.hasErrors group = true ∨ t.getGroup = group := by
  rw [addError, hasErrors_append]
  exact or_congr_right (hasErrors_iff.trans (by simp))

end ParserErrors

/-! ### What is in order

The conditions of the checks, as properties of what is checked.
-/

/-- The keys are in the range, and the sizes are those of the annotation. -/
structure AggregationStrategy.Ok (a : AggregationStrategy) (enumSizes : List ℕ) : Prop where
  keys : ∃ k, a.maxInstrumentationKeys = some k ∧ 1 ≤ k ∧ k ≤ maxIntstrumentationKeys
  sizes : a.annotationEnumSize = enumSizes.map Nat.cast

/-- The settings are in order for these sizes. -/
structure Settings.Ok (settings : Settings) (enumSizes : List ℕ) : Prop where
  aggregation : ∃ a, settings.aggregationStrategy = some a ∧ a.Ok enumSizes
  histograms : settings.histogramsCount ≠ 0

/-- Only enums, and nothing that is complex. -/
structure AnnotationOk (d : Descriptor) : Prop where
  oneofs : d.oneofs = []
  nestedTypes : d.nestedTypes = []
  extensions : d.extensions = []
  enums : ∀ field ∈ d.fields, field.type = .enum

/-- The sizes of the enums of a message. -/
def enumSizesOf (d : Descriptor) : List ℕ := d.fields.map fun field => field.enumType.length

section

variable {errors : ParserErrors} {group : ErrorGroup} {settings : Settings} {enumSizes : List ℕ}

/-! ### The checks of the settings

Each lemma says for every group whether it has errors after the check, since the step looks at all
three.
-/

/-- An error is recorded if there are no histograms. -/
theorem hasErrors_validateSettingsHistograms :
    (validateSettingsHistograms settings errors).hasErrors group = true ↔
      errors.hasErrors group = true ∨ .settings = group ∧ settings.histogramsCount = 0 := by
  rw [validateSettingsHistograms]
  by_cases h : settings.histogramsCount = 0
  · simp [h, ParserErrorType.getGroup]
  · simp [h]

/-- An error is recorded if a size is another one. -/
theorem hasErrors_annotationSizesLoop {annSizes : List ℤ}
    (h : annSizes.length = enumSizes.length) :
    (annotationSizesLoop errors annSizes enumSizes).hasErrors group = true ↔
      errors.hasErrors group = true ∨ .settings = group ∧ annSizes ≠ enumSizes.map Nat.cast := by
  induction annSizes generalizing errors enumSizes with
  | nil =>
    obtain rfl := List.length_eq_zero_iff.mp h.symm
    simp [annotationSizesLoop]
  | cons annSize annSizes ih =>
    obtain ⟨enumSize, enumSizes, rfl⟩ := List.exists_cons_of_length_eq_add_one h.symm
    rw [annotationSizesLoop, ih (by simpa using h)]
    by_cases hsize : annSize = enumSize
    · simp [hsize]
    · simp only [ne_eq, hsize, not_false_eq_true, if_true, ParserErrors.hasErrors_addError,
        ParserErrorType.getGroup, List.map_cons, List.cons.injEq, false_and, and_true]
      exact or_iff_left_of_imp fun hadded => Or.inr hadded.1

/-- The two checks of the keys are one. -/
theorem not_keys_iff (a : AggregationStrategy) :
    (¬ ∃ k, a.maxInstrumentationKeys = some k ∧ 1 ≤ k ∧ k ≤ maxIntstrumentationKeys) ↔
      a.maxInstrumentationKeys = none ∨ a.maxInstrumentationKeys.getD 0 < 1 ∨
        a.maxInstrumentationKeys.getD 0 > maxIntstrumentationKeys := by
  rcases a.maxInstrumentationKeys with _ | k
  · simp
  · simp only [Option.some.injEq, exists_eq_left', reduceCtorEq, Option.getD_some, false_or]
    omega

/-- What a check adds when its condition holds. -/
theorem hasErrors_ite_addError (c : Prop) [Decidable c] (t : ParserErrorType) (message : String) :
    (if c then errors.addError t message else errors).hasErrors group = true ↔
      errors.hasErrors group = true ∨ t.getGroup = group ∧ c := by
  by_cases h : c
  · simp [h]
  · simp [h]

/-- With sizes the check of the aggregation returns. -/
theorem result_validateSettingsAggregation :
    (validateSettingsAggregation settings (some enumSizes) errors).result = .ok () := by
  rw [validateSettingsAggregation]
  rcases settings.aggregationStrategy with _ | a
  · rfl
  · dsimp only
    split <;> rfl

/-- It records what is not right. -/
theorem hasErrors_validateSettingsAggregation :
    (validateSettingsAggregation settings (some enumSizes) errors).errors.hasErrors group = true ↔
      errors.hasErrors group = true ∨ .settings = group ∧
        ¬ ∃ a, settings.aggregationStrategy = some a ∧ a.Ok enumSizes := by
  rw [validateSettingsAggregation]
  rcases settings.aggregationStrategy with _ | a
  · simp [ParserErrorType.getGroup]
  · have hok : a.Ok enumSizes ↔
        (∃ k, a.maxInstrumentationKeys = some k ∧ 1 ≤ k ∧ k ≤ maxIntstrumentationKeys) ∧
          a.annotationEnumSize = enumSizes.map Nat.cast :=
      ⟨fun h => ⟨h.keys, h.sizes⟩, fun h => ⟨h.1, h.2⟩⟩
    have hkeys := not_keys_iff a
    by_cases hlength : a.annotationEnumSize.length = enumSizes.length
    · simp only [hlength, ne_eq, not_true_eq_false, if_false, hasErrors_annotationSizesLoop hlength,
        hasErrors_ite_addError, ParserErrorType.getGroup, Option.some.injEq, exists_eq_left', hok,
        not_and_or, hkeys, and_or_left, or_assoc]
    · have hsizes : a.annotationEnumSize ≠ enumSizes.map Nat.cast := by
        intro h
        rw [h, List.length_map] at hlength
        exact hlength rfl
      simp only [hlength, ne_eq, not_false_eq_true, if_true, ParserErrors.hasErrors_addError,
        hasErrors_ite_addError, ParserErrorType.getGroup, Option.some.injEq, exists_eq_left', hok,
        hsizes, and_false, not_false_eq_true, and_true, or_assoc]
      rw [← or_assoc (c := ErrorGroup.settings = group), ← and_or_left,
        or_iff_right_of_imp And.left]

/-- Without sizes the errors stay that there were. -/
theorem hasErrors_validateSettingsAggregation_none (h : errors.hasErrors group = true) :
    (validateSettingsAggregation settings none errors).errors.hasErrors group = true := by
  rw [validateSettingsAggregation]
  rcases settings.aggregationStrategy with _ | a
  · exact ParserErrors.hasErrors_addError .. |>.mpr (Or.inl h)
  · simp [hasErrors_ite_addError, h]

variable {merge : String → Option Settings} {text : String}

/-- With sizes the check of the settings returns what was parsed. -/
theorem result_validateSettings :
    (validateSettings merge (some enumSizes) text errors).result = .ok (merge text) := by
  rw [validateSettings]
  rcases merge text with _ | settings
  · rfl
  · simp only [result_validateSettingsAggregation]

/-- **The check of the settings** records an error unless they are in order. -/
theorem hasErrors_validateSettings :
    (validateSettings merge (some enumSizes) text errors).errors.hasErrors group = true ↔
      errors.hasErrors group = true ∨ .settings = group ∧
        ¬ ∃ settings, merge text = some settings ∧ settings.Ok enumSizes := by
  rw [validateSettings]
  rcases merge text with _ | settings
  · simp [ParserErrorType.getGroup]
  · have hok : settings.Ok enumSizes ↔
        (∃ a, settings.aggregationStrategy = some a ∧ a.Ok enumSizes) ∧
          settings.histogramsCount ≠ 0 :=
      ⟨fun h => ⟨h.aggregation, h.histograms⟩, fun h => ⟨h.1, h.2⟩⟩
    simp only [result_validateSettingsAggregation, hasErrors_validateSettingsHistograms,
      hasErrors_validateSettingsAggregation, Option.some.injEq, exists_eq_left', hok]
    rw [or_assoc, ← and_or_left, not_and_or, ne_eq, not_not]

/-- Without sizes the errors stay that there were, whatever the text says. -/
theorem hasErrors_validateSettings_none (h : errors.hasErrors group = true) :
    (validateSettings merge none text errors).errors.hasErrors group = true := by
  rw [validateSettings]
  rcases merge text with _ | settings
  · exact ParserErrors.hasErrors_addError .. |>.mpr (Or.inl h)
  · have hadded : (validateSettingsAggregation settings none errors).errors.hasErrors group =
        true := hasErrors_validateSettingsAggregation_none h
    dsimp only
    generalize validateSettingsAggregation settings none errors = aggregation at hadded
    obtain ⟨result | result, added⟩ := aggregation
    · exact hadded
    · exact hasErrors_validateSettingsHistograms.mpr (Or.inl hadded)

/-- The check of the parameters records errors of its own group only. -/
theorem hasErrors_validateFidelityParams (fidelityParamsDesc : Option Descriptor)
    (hgroup : group ≠ .fidelity) :
    (validateFidelityParams fidelityParamsDesc errors).hasErrors group = true ↔
      errors.hasErrors group = true := by
  have hadd {t : ParserErrorType} (ht : t.getGroup = .fidelity) (errors : ParserErrors)
      (message : String) : (errors.addError t message).hasErrors group = true ↔
        errors.hasErrors group = true := by
    rw [ParserErrors.hasErrors_addError, ht, or_iff_left hgroup.symm]
  rcases fidelityParamsDesc with _ | d
  · exact hadd rfl ..
  · rw [validateFidelityParams]
    split
    · exact hadd rfl ..
    split
    · exact hadd rfl ..
    split
    · exact hadd rfl ..
    · refine List.foldlRecOn (motive := fun added : ParserErrors =>
        added.hasErrors group = true ↔ errors.hasErrors group = true) d.fields _ Iff.rfl ?_
      intro added hadded field _
      split
      · exact (hadd rfl ..).trans hadded
      · exact hadded

end

/-! ## The annotation

The check of the annotation comes with the sizes that the settings are compared with. Without them
the comparison throws.
-/

/-- The sizes of all fields, or one error. -/
theorem enumSizesLoop_cases (sizes : List ℕ) (fields : List FieldDescriptor) :
    (∀ field ∈ fields, field.type = .enum) ∧ enumSizesLoop [] sizes fields =
        (some (sizes ++ fields.map fun field => field.enumType.length), []) ∨
      (¬ ∀ field ∈ fields, field.type = .enum) ∧
        ∃ e, enumSizesLoop [] sizes fields = (none, [e]) := by
  induction fields generalizing sizes with
  | nil => exact Or.inl ⟨by simp, by simp [enumSizesLoop]⟩
  | cons field fields ih =>
    rw [enumSizesLoop]
    by_cases htype : field.type = .enum
    · rw [if_neg (not_not.mpr htype)]
      rcases ih (sizes ++ [field.enumType.length]) with ⟨hall, heq⟩ | ⟨hnot, heq⟩
      · exact Or.inl ⟨List.forall_mem_cons.mpr ⟨htype, hall⟩, by simp [heq]⟩
      · exact Or.inr ⟨fun h => hnot (List.forall_mem_cons.mp h).2, heq⟩
    · rw [if_pos htype]
      exact Or.inr ⟨fun h => htype (List.forall_mem_cons.mp h).1, _, rfl⟩

/-- The check returns the sizes or records one error. -/
theorem validateAnnotationAndGetEnumSizes_cases (d : Descriptor) :
    AnnotationOk d ∧ validateAnnotationAndGetEnumSizes (some d) [] = (some (enumSizesOf d), []) ∨
      ¬ AnnotationOk d ∧ ∃ e, validateAnnotationAndGetEnumSizes (some d) [] = (none, [e]) := by
  rw [validateAnnotationAndGetEnumSizes]
  by_cases honeofs : d.oneofs = []
  · by_cases hnested : d.nestedTypes = []
    · by_cases hextensions : d.extensions = []
      · simp only [honeofs, hnested, hextensions, ne_eq, not_true_eq_false, if_false]
        rcases enumSizesLoop_cases [] d.fields with ⟨henums, heq⟩ | ⟨hnot, heq⟩
        · exact Or.inl ⟨⟨honeofs, hnested, hextensions, henums⟩, heq⟩
        · exact Or.inr ⟨fun h => hnot h.enums, heq⟩
      · simp only [honeofs, hnested, hextensions, ne_eq, not_true_eq_false, not_false_eq_true,
          if_false, if_true]
        exact Or.inr ⟨fun h => hextensions h.extensions, _, rfl⟩
    · simp only [honeofs, hnested, ne_eq, not_true_eq_false, not_false_eq_true, if_false, if_true]
      exact Or.inr ⟨fun h => hnested h.nestedTypes, _, rfl⟩
  · simp only [honeofs, ne_eq, not_false_eq_true, if_true]
    exact Or.inr ⟨fun h => honeofs h.oneofs, _, rfl⟩

/-- The errors of the check are added to any that there are. -/
theorem enumSizesLoop_append (errors : ErrorCollector) (sizes : List ℕ)
    (fields : List FieldDescriptor) :
    enumSizesLoop errors sizes fields =
      ((enumSizesLoop [] sizes fields).1, errors ++ (enumSizesLoop [] sizes fields).2) := by
  induction fields generalizing sizes with
  | nil => simp [enumSizesLoop]
  | cons field fields ih =>
    rw [enumSizesLoop, enumSizesLoop]
    split
    · rfl
    · exact ih _

/-- `validateAnnotationField` says what the check does to any collector. -/
theorem validateAnnotationAndGetEnumSizes_append (d : Option Descriptor)
    (errors : ErrorCollector) :
    validateAnnotationAndGetEnumSizes d errors =
      ((validateAnnotationAndGetEnumSizes d []).1,
        errors ++ (validateAnnotationAndGetEnumSizes d []).2) := by
  rcases d with _ | d
  · rfl
  · rw [validateAnnotationAndGetEnumSizes, validateAnnotationAndGetEnumSizes]
    split
    · rfl
    split
    · rfl
    split
    · rfl
    · exact enumSizesLoop_append errors [] d.fields

/-- The check of a good annotation. -/
theorem validateAnnotationField_of_ok {d : Descriptor} (h : AnnotationOk d)
    (errors : ParserErrors) :
    validateAnnotationField (some d) errors = (some (enumSizesOf d), errors) := by
  rcases validateAnnotationAndGetEnumSizes_cases d with ⟨-, heq⟩ | ⟨hnot, -⟩
  · simp [validateAnnotationField, heq]
  · exact absurd h hnot

/-- The check of a bad one. -/
theorem validateAnnotationField_of_not {d : Descriptor} (h : ¬ AnnotationOk d)
    (errors : ParserErrors) :
    (validateAnnotationField (some d) errors).1 = none ∧
      (validateAnnotationField (some d) errors).2.hasErrors .annotations = true := by
  rcases validateAnnotationAndGetEnumSizes_cases d with ⟨hok, -⟩ | ⟨-, e, heq⟩
  · exact absurd hok h
  · simp only [validateAnnotationField, heq, List.map_cons, List.map_nil, true_and]
    rw [ParserErrors.hasErrors_append]
    exact Or.inr (ParserErrors.hasErrors_iff.mpr ⟨_, List.mem_singleton_self _, rfl⟩)

/-! ## The step

The step is to write the settings if no check has failed and to skip them otherwise. As its tests
only log, it is right if there is nothing to skip.
-/

/-- **What the step is to do**, whether or not the file can be written. -/
structure StepIsRight (merge : String → Option Settings)
    (annotationField fidelityField : Option Descriptor) (tuningforkSettings : Option String)
    (errors : ParserErrors) : Prop where
  /-- no unchecked exception -/
  completes : ∀ writable, ∃ saved, (validate merge writable annotationField fidelityField
    tuningforkSettings errors).result = .ok saved
  /-- an annotation that is not valid is recorded -/
  recordsAnnotationErrors : ∀ writable, (∃ d, annotationField = some d ∧ AnnotationOk d) ∨
    (validate merge writable annotationField fidelityField tuningforkSettings
      errors).errors.hasErrors .annotations = true
  /-- settings that do not fit a valid annotation are recorded -/
  recordsSettingsErrors : ∀ writable d, annotationField = some d → AnnotationOk d →
    (∃ text settings, tuningforkSettings = some text ∧ merge text = some settings ∧
      settings.Ok (enumSizesOf d)) ∨
    (validate merge writable annotationField fidelityField tuningforkSettings
      errors).errors.hasErrors .settings = true
  /-- the file is written only without errors -/
  written : ∀ writable settings, (validate merge writable annotationField fidelityField
      tuningforkSettings errors).result = .ok (some settings) →
    (validate merge writable annotationField fidelityField tuningforkSettings
      errors).errors.hasErrors .annotations = false ∧
    (validate merge writable annotationField fidelityField tuningforkSettings
      errors).errors.hasErrors .settings = false

/-- There is nothing to skip: the messages are there and the annotation is valid, the text
parses to settings that fit it, and no such error was there before. -/
structure NothingToSkip (merge : String → Option Settings)
    (annotationField fidelityField : Option Descriptor) (tuningforkSettings : Option String)
    (errors : ParserErrors) : Prop where
  annotationOk : ∃ d, annotationField = some d ∧ AnnotationOk d ∧
    ∃ text settings, tuningforkSettings = some text ∧ merge text = some settings ∧
      settings.Ok (enumSizesOf d)
  fidelity : fidelityField ≠ none
  noAnnotationErrors : errors.hasErrors .annotations = false
  noSettingsErrors : errors.hasErrors .settings = false

section

variable {merge : String → Option Settings} {writable : Bool}
  {annotationField fidelityField : Option Descriptor} {tuningforkSettings : Option String}
  {enumSizes : Option (List ℕ)} {errors : ParserErrors}

/-- The step saves what it has parsed. -/
theorem validateAndSaveBinarySettings_of_ok {text : String} {settings : Settings}
    (h : (validateSettings merge enumSizes text errors).result = .ok (some settings)) :
    validateAndSaveBinarySettings merge writable (some text) enumSizes errors =
      ⟨.ok (saveBinarySettings writable settings),
        (validateSettings merge enumSizes text errors).errors⟩ := by
  rw [validateAndSaveBinarySettings]
  simp only [h]

/-- The step returns when there are settings, and then it saves them. -/
theorem validateAndSaveBinarySettings_eq_ok {saved : Option Settings}
    (h : (validateAndSaveBinarySettings merge writable tuningforkSettings enumSizes
      errors).result = .ok saved) :
    ∃ text settings, tuningforkSettings = some text ∧ saved = saveBinarySettings writable settings ∧
      (validateSettings merge enumSizes text errors).result = .ok (some settings) ∧
      (validateAndSaveBinarySettings merge writable tuningforkSettings enumSizes errors).errors =
        (validateSettings merge enumSizes text errors).errors := by
  rcases tuningforkSettings with _ | text
  · cases h
  · rcases hresult : (validateSettings merge enumSizes text errors).result with e | _ | settings
    · rw [validateAndSaveBinarySettings] at h
      simp only [hresult] at h
      cases h
    · rw [validateAndSaveBinarySettings] at h
      simp only [hresult] at h
      cases h
    · have hsaves : validateAndSaveBinarySettings merge writable (some text) enumSizes errors = _ :=
        validateAndSaveBinarySettings_of_ok hresult
      rw [hsaves] at h ⊢
      exact ⟨text, settings, rfl, (Except.ok.inj h).symm, hresult, rfl⟩

/-- A run that returns has found both messages. -/
theorem exists_of_validate_eq_ok {saved : Option Settings}
    (h : (validate merge writable annotationField fidelityField tuningforkSettings
      errors).result = .ok saved) :
    ∃ d f, annotationField = some d ∧ fidelityField = some f := by
  rw [validate] at h
  rcases annotationField with _ | d
  · cases h
  · rcases fidelityField with _ | f
    · cases h
    · exact ⟨d, f, rfl, rfl⟩

/-- A step that is right has nothing to skip. -/
theorem nothingToSkip_of_stepIsRight
    (h : StepIsRight merge annotationField fidelityField tuningforkSettings errors) :
    NothingToSkip merge annotationField fidelityField tuningforkSettings errors := by
  obtain ⟨saved, hsaved⟩ := h.completes true
  obtain ⟨d, f, rfl, rfl⟩ := exists_of_validate_eq_ok hsaved
  have hstep : validate merge true (some d) (some f) tuningforkSettings errors =
      validateAndSaveBinarySettings merge true tuningforkSettings
        (validateAnnotationField (some d) errors).1
        (validateFidelityParams (some f) (validateAnnotationField (some d) errors).2) := rfl
  rw [hstep] at hsaved
  obtain ⟨text, settings, rfl, rfl, hsettings, herrors⟩ :=
    validateAndSaveBinarySettings_eq_ok hsaved
  -- the file is written, so nothing may have been recorded
  obtain ⟨hclean, hnone⟩ := h.written true settings (by rw [hstep, hsaved]; rfl)
  rw [hstep, herrors] at hclean hnone
  by_cases hok : AnnotationOk d
  · rw [validateAnnotationField_of_ok hok] at hsettings hclean hnone
    have hmerge : merge text = some settings :=
      Except.ok.inj (result_validateSettings.symm.trans hsettings)
    have hkept {group : ErrorGroup} (hgroup : group ≠ .fidelity) :
        (validateFidelityParams (some f) errors).hasErrors group = true ↔
          errors.hasErrors group = true := hasErrors_validateFidelityParams (some f) hgroup
    rw [← Bool.not_eq_true, hasErrors_validateSettings, hkept (by decide), not_or] at hclean hnone
    refine ⟨⟨d, rfl, hok, text, settings, rfl, hmerge, ?_⟩, Option.some_ne_none f,
      Bool.not_eq_true _ ▸ hclean.1, Bool.not_eq_true _ ▸ hnone.1⟩
    by_contra hnot
    refine hnone.2 ⟨rfl, ?_⟩
    rintro ⟨settings', hmerge', hsettings'⟩
    obtain rfl := Option.some.inj (hmerge.symm.trans hmerge')
    exact hnot hsettings'
  · obtain ⟨hsizes, hadded⟩ := validateAnnotationField_of_not hok errors
    rw [hsizes] at hclean
    have hkept := (hasErrors_validateFidelityParams (some f) (by decide)).mpr hadded
    rw [hasErrors_validateSettings_none hkept] at hclean
    cases hclean

/-- With nothing to skip the step is right. -/
theorem stepIsRight_of_nothingToSkip
    (h : NothingToSkip merge annotationField fidelityField tuningforkSettings errors) :
    StepIsRight merge annotationField fidelityField tuningforkSettings errors := by
  obtain ⟨⟨d, rfl, hok, text, settings, rfl, hmerge, hsettings⟩, hfidelity, hclean, hnone⟩ := h
  obtain ⟨f, rfl⟩ := Option.ne_none_iff_exists'.mp hfidelity
  have hresult : (validateSettings merge (some (enumSizesOf d)) text
      (validateFidelityParams (some f) errors)).result = .ok (some settings) :=
    result_validateSettings.trans (congrArg _ hmerge)
  have hvalidate (writable : Bool) : validate merge writable (some d) (some f) (some text) errors =
      ⟨.ok (saveBinarySettings writable settings), (validateSettings merge (some (enumSizesOf d))
        text (validateFidelityParams (some f) errors)).errors⟩ := by
    rw [validate, validateAnnotationField_of_ok hok]
    exact validateAndSaveBinarySettings_of_ok hresult
  have herrors {group : ErrorGroup} (hgroup : group ≠ .fidelity)
      (hfalse : errors.hasErrors group = false) :
      (validateSettings merge (some (enumSizesOf d)) text
        (validateFidelityParams (some f) errors)).errors.hasErrors group = false := by
    rw [← Bool.not_eq_true, hasErrors_validateSettings,
      hasErrors_validateFidelityParams (some f) hgroup, hfalse]
    rintro (hcases | ⟨-, hnot⟩)
    · cases hcases
    · exact hnot ⟨settings, hmerge, hsettings⟩
  exact {
    completes := fun writable => ⟨_, by rw [hvalidate]⟩
    recordsAnnotationErrors := fun writable => Or.inl ⟨d, rfl, hok⟩
    recordsSettingsErrors := by
      rintro writable d' hd -
      obtain rfl := Option.some.inj hd
      exact Or.inl ⟨text, settings, rfl, hmerge, hsettings⟩
    written := by
      intro writable _ _
      rw [hvalidate]
      exact ⟨herrors (by decide) hclean, herrors (by decide) hnone⟩ }

end

/-- **The step is right exactly when there is nothing to skip**: none of its tests ends it. -/
theorem stepIsRight_iff (merge : String → Option Settings)
    (annotationField fidelityField : Option Descriptor) (tuningforkSettings : Option String)
    (errors : ParserErrors) :
    StepIsRight merge annotationField fidelityField tuningforkSettings errors ↔
      NothingToSkip merge annotationField fidelityField tuningforkSettings errors :=
  ⟨nothingToSkip_of_stepIsRight, stepIsRight_of_nothingToSkip⟩

/-- An empty text gives empty settings, and text that is no field is refused: two errors
are recorded and the file is written, or one and the step throws. -/
def mergeEmpty (text : String) : Option Settings := if text = "" then some ⟨none, 0⟩ else none

/-- Settings with errors are written, and a text that cannot be parsed ends in an exception. -/
theorem not_stepIsRight :
    ((validate mergeEmpty true (some twoLevels) (some twoLevels) (some "") []).result =
        .ok (some ⟨none, 0⟩) ∧
      (validate mergeEmpty true (some twoLevels) (some twoLevels) (some "") []).errors.hasErrors
        .settings = true ∧
      ¬ StepIsRight mergeEmpty (some twoLevels) (some twoLevels) (some "") []) ∧
    (validate mergeEmpty true (some twoLevels) (some twoLevels) (some "\x7d") []).result =
        .error .noSuchElement ∧
      ¬ StepIsRight mergeEmpty (some twoLevels) (some twoLevels) (some "\x7d") [] := by
  have hwritten : (validate mergeEmpty true (some twoLevels) (some twoLevels) (some "")
      []).result = .ok (some ⟨none, 0⟩) := rfl
  have herrors : (validate mergeEmpty true (some twoLevels) (some twoLevels) (some "")
      []).errors.hasErrors .settings = true := rfl
  have hthrows : (validate mergeEmpty true (some twoLevels) (some twoLevels) (some "\x7d")
      []).result = .error .noSuchElement := rfl
  refine ⟨⟨hwritten, herrors, fun h => ?_⟩, hthrows, fun h => ?_⟩
  · have hnone := (h.written true _ hwritten).2
    rw [herrors] at hnone
    cases hnone
  · obtain ⟨saved, hsaved⟩ := h.completes true
    rw [hthrows] at hsaved
    cases hsaved

end DeveloperTuningforkParser

end GameSdk
