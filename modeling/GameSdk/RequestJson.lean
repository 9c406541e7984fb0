import GameSdk.FPDownload
import GameSdk.JsonRoundTrip

/-!
# The request for fidelity parameters, and its response (`fpdownload.cpp`)

`RequestJson` describes the device in a JSON object. A server that reads it has the application
from the name, and the fields of the device; the body is different for different devices, as far
as a `double` can tell their numbers apart.

`DecodeResponse` reads the answer. With the parser of `json11` in its place, it succeeds on the
texts of objects that have the two strings, in whatever form they are written.

`DecodeResponse` has a parser as a parameter in the module about it. Here the parser is the one of
`json11`, and the characterization of the texts it accepts says for which responses it succeeds.
-/

namespace GameSdk

namespace FPDownload

open Json11

section

variable {δ : Type} (D : Doubles δ)

/-! ## The request

The functions that put the request together, and reading it back.
-/

/-- `GetPartialURL`: the name of the application. -/
def getPartialURL (requestInfo : ExtraUploadInfo) : ByteString :=
  text "applications/" ++ requestInfo.apkPackageName ++ text "/apks/" ++
    decimalNat requestInfo.apkVersionCode.toNat

/-- The two halves of the version number. -/
def glesVersion (requestInfo : ExtraUploadInfo) : Json11.Json δ :=
  .object (ofEntries [
    (text "major", .int (requestInfo.glEsVersion >>> 16).toNat),
    (text "minor", .int (requestInfo.glEsVersion &&& 0xffff).toNat)])

/-- The description of the device. -/
def deviceSpec (requestInfo : ExtraUploadInfo) : Json11.Json δ :=
  .object (ofEntries [
    (text "fingerprint", .string requestInfo.buildFingerprint),
    (text "total_memory_bytes", .double (D.ofInt requestInfo.totalMemoryBytes.toNat)),
    (text "build_version", .string requestInfo.buildVersionSdk),
    (text "gles_version", glesVersion requestInfo),
    (text "cpu_core_freqs_hz",
      .array (requestInfo.cpuMaxFreqHz.map fun freq => .double (D.ofInt freq.toNat)))])

/-- The request as a value. -/
def request (requestInfo : ExtraUploadInfo) : Json11.Json δ :=
  .object (ofEntries [
    (text "name", .string (getPartialURL requestInfo)),
    (text "device_spec", deviceSpec D requestInfo)])

/-- `RequestJson`: the body of the request. -/
def requestJson (requestInfo : ExtraUploadInfo) : ByteString := dump D (request D requestInfo)

/-- What a reader of the request finds in it. -/
structure Describes (v : Json11.Json δ) (requestInfo : ExtraUploadInfo) : Prop where
  name : stringValue (item v (text "name")) = getPartialURL requestInfo
  fingerprint : stringValue (item (item v (text "device_spec")) (text "fingerprint")) =
    requestInfo.buildFingerprint
  buildVersion : stringValue (item (item v (text "device_spec")) (text "build_version")) =
    requestInfo.buildVersionSdk
  major : item (item (item v (text "device_spec")) (text "gles_version")) (text "major") =
    .int (requestInfo.glEsVersion >>> 16).toNat
  minor : item (item (item v (text "device_spec")) (text "gles_version")) (text "minor") =
    .int (requestInfo.glEsVersion &&& 0xffff).toNat
  memory : D.eq (numberValueOf D (item (item v (text "device_spec")) (text "total_memory_bytes")))
    (D.ofInt requestInfo.totalMemoryBytes.toNat) = true
  freqs : List.Forall₂
    (fun v freq => D.eq (numberValueOf D v) (D.ofInt (UInt64.toNat freq)) = true)
    (arrayItems (item (item v (text "device_spec")) (text "cpu_core_freqs_hz")))
    requestInfo.cpuMaxFreqHz

/-- The conversion of 64 bits is finite. -/
def FiniteInts : Prop := ∀ n : UInt64, D.isFinite (D.ofInt n.toNat) = true

variable {D} {requestInfo requestInfo' : ExtraUploadInfo}

theorem glesVersion_eq : (glesVersion requestInfo : Json11.Json δ) =
    .object [(text "major", .int (requestInfo.glEsVersion >>> 16).toNat),
      (text "minor", .int (requestInfo.glEsVersion &&& 0xffff).toNat)] := rfl

theorem deviceSpec_eq : deviceSpec D requestInfo =
    .object [(text "build_version", .string requestInfo.buildVersionSdk),
      (text "cpu_core_freqs_hz",
        .array (requestInfo.cpuMaxFreqHz.map fun freq => .double (D.ofInt freq.toNat))),
      (text "fingerprint", .string requestInfo.buildFingerprint),
      (text "gles_version", glesVersion requestInfo),
      (text "total_memory_bytes", .double (D.ofInt requestInfo.totalMemoryBytes.toNat))] := rfl

theorem request_eq : request D requestInfo =
    .object [(text "device_spec", deviceSpec D requestInfo),
      (text "name", .string (getPartialURL requestInfo))] := rfl

theorem toNat_major_lt (v : UInt32) : (v >>> 16).toNat < 10 ^ 5 := by
  have hlt := v.toNat_lt
  have hmod : (v >>> 16).toNat = v.toNat / 2 ^ 16 := by
    rw [UInt32.toNat_shiftRight, Nat.shiftRight_eq_div_pow]
    rfl
  rw [hmod]
  omega

theorem toNat_minor_lt (v : UInt32) : (v &&& 0xffff).toNat < 10 ^ 5 := by
  rw [UInt32.toNat_and]
  exact Nat.lt_of_le_of_lt Nat.and_le_right (by decide)

/-! ### Reading it back

The request is a value that can be written and read, three levels deep at most, and its fields are
found again under their names.
-/

theorem wf_object_ofEntries {kvs : List (ByteString × Json11.Json δ)}
    (h : ∀ kv ∈ kvs, Wf kv.2) : Wf (.object (ofEntries kvs)) :=
  .object (fun kv hkv => h kv (mem_ofEntries hkv)) (sorted_ofEntries kvs)

theorem wf_glesVersion : Wf (glesVersion requestInfo : Json11.Json δ) := by
  have hmajor := toNat_major_lt requestInfo.glEsVersion
  have hminor := toNat_minor_lt requestInfo.glEsVersion
  apply wf_object_ofEntries
  simp only [List.forall_mem_cons]
  exact ⟨.int (by omega) (by omega), .int (by omega) (by omega), by simp⟩

theorem wf_deviceSpec : Wf (deviceSpec D requestInfo) := by
  apply wf_object_ofEntries
  simp only [List.forall_mem_cons]
  refine ⟨.string _, .double _, .string _, wf_glesVersion, .array ?_, by simp⟩
  rw [List.forall_mem_map]
  intro freq _
  exact .double _

theorem wf_request : Wf (request D requestInfo) := by
  apply wf_object_ofEntries
  simp only [List.forall_mem_cons]
  exact ⟨.string _, wf_deviceSpec, by simp⟩

theorem nesting_request_le : nesting (request D requestInfo) ≤ 3 := by
  rw [request_eq, nesting_object_le]
  simp only [List.forall_mem_cons]
  refine ⟨Nat.lt_succ_of_le ?_, Nat.succ_pos _, by simp⟩
  rw [deviceSpec_eq, nesting_object_le]
  simp only [List.forall_mem_cons]
  refine ⟨Nat.succ_pos _, Nat.lt_succ_of_le ?_, Nat.succ_pos _, Nat.lt_succ_of_le ?_,
    Nat.succ_pos _, by simp⟩
  · rw [nesting_array_le, List.forall_mem_map]
    intro freq _
    exact Nat.zero_lt_one
  · rw [glesVersion_eq, nesting_object_le]
    simp only [List.forall_mem_cons]
    exact ⟨Nat.succ_pos _, Nat.succ_pos _, by simp⟩

/-- An `int` of few digits is read as it was written. -/
theorem reread_int {n : ℕ} (hn : n < 10 ^ 5) : reread D (.int n) = .int n := by
  have hlen : (decimal n).length ≤ digits10 := by
    rw [decimal, if_neg (by omega), decimalNat, List.length_map]
    exact ((Nat.length_toDigits_le_iff (by decide) (by decide)).mpr hn).trans (by decide)
  have hall : (decimal n).all (fun ch => isDigit ch || ch = minus) = true := by
    rw [decimal, if_neg (by omega), List.all_eq_true]
    intro ch hch
    rw [digits_decimalNat _ ch hch, Bool.true_or]
  rw [reread, numberValue, isInt, hall, Bool.true_and, if_pos (decide_eq_true hlen), atoi_decimal]

/-- A number is read as one that is equal to it. -/
theorem eq_numberValueOf_reread (hD : D.Lawful) {d : δ} (hd : D.isFinite d = true) :
    D.eq (numberValueOf D (reread D (.double d))) d = true := by
  have h := eq_numberValue hD (hD.print_text d hd) (hD.strtod_print d hd)
  rw [reread, if_pos hd]
  split at h
  · next heq => rw [heq]; exact h
  · next heq => rw [heq]; exact h
  · exact h.elim

theorem describes_reread (hD : D.Lawful) (hfinite : FiniteInts D)
    (requestInfo : ExtraUploadInfo) :
    Describes D (reread D (request D requestInfo)) requestInfo := by
  have hdevice : item (reread D (request D requestInfo)) (text "device_spec") =
      reread D (deviceSpec D requestInfo) := rfl
  have hgles : item (reread D (deviceSpec D requestInfo)) (text "gles_version") =
      reread D (glesVersion requestInfo) := rfl
  constructor
  · rfl
  · rw [hdevice]
    rfl
  · rw [hdevice]
    rfl
  · rw [hdevice, hgles]
    exact reread_int (toNat_major_lt _)
  · rw [hdevice, hgles]
    exact reread_int (toNat_minor_lt _)
  · rw [hdevice]
    exact eq_numberValueOf_reread hD (hfinite _)
  · rw [hdevice]
    change List.Forall₂ _ (rereadValues D (requestInfo.cpuMaxFreqHz.map _)) _
    rw [rereadValues_eq_map, List.map_map, List.forall₂_map_left_iff, List.forall₂_same]
    intro freq _
    exact eq_numberValueOf_reread hD (hfinite freq)

/-! ### What the body tells apart

The body is read back, so two devices with the same body have the same fields, numbers as `double`s.
-/

theorem append_slash_inj {s s' ds ds' : ByteString} (hds : Digits ds) (hds' : Digits ds')
    (h : s ++ slash :: ds = s' ++ slash :: ds') : s = s' ∧ ds = ds' := by
  have hnot {ds a ds' : ByteString} (hds : Digits ds) (h : slash :: ds = a ++ slash :: ds') :
      a = [] ∧ ds = ds' := by
    cases a with
    | nil => exact ⟨rfl, (List.cons.inj h).2⟩
    | cons ch a =>
      have hmem : slash ∈ ds := by
        rw [(List.cons.inj h).2]
        exact List.mem_append_right _ List.mem_cons_self
      exact absurd (hds slash hmem) (by decide)
  rcases List.append_eq_append_iff.mp h with ⟨a, rfl, ha⟩ | ⟨a, rfl, ha⟩
  · obtain ⟨rfl, rfl⟩ := hnot hds ha
    exact ⟨(List.append_nil s).symm, rfl⟩
  · obtain ⟨rfl, rfl⟩ := hnot hds' ha
    exact ⟨List.append_nil s', rfl⟩

theorem decimalNat_injective : Function.Injective decimalNat :=
  Function.LeftInverse.injective (g := digitsValue) digitsValue_decimalNat

/-- **A partial URL is that of one version of one application.** -/
theorem getPartialURL_inj (h : getPartialURL requestInfo = getPartialURL requestInfo') :
    requestInfo.apkPackageName = requestInfo'.apkPackageName ∧
      requestInfo.apkVersionCode = requestInfo'.apkVersionCode := by
  have hsplit (info : ExtraUploadInfo) : getPartialURL info =
      (text "applications/" ++ info.apkPackageName ++ text "/apks") ++
        slash :: decimalNat info.apkVersionCode.toNat := by
    have happend : text "/apks/" = text "/apks" ++ [slash] := rfl
    rw [getPartialURL, happend, ← List.append_assoc, List.append_assoc _ [slash],
      List.singleton_append]
  rw [hsplit, hsplit] at h
  obtain ⟨hname, hversion⟩ := append_slash_inj (digits_decimalNat _) (digits_decimalNat _) h
  rw [List.append_left_inj, List.append_right_inj] at hname
  exact ⟨hname, UInt32.toNat_inj.mp (decimalNat_injective hversion)⟩

theorem glEsVersion_inj {v v' : UInt32} (hmajor : (v >>> 16).toNat = (v' >>> 16).toNat)
    (hminor : (v &&& 0xffff).toNat = (v' &&& 0xffff).toNat) : v = v' := by
  have hhigh (v : UInt32) : (v >>> 16).toNat = v.toNat / 2 ^ 16 := by
    rw [UInt32.toNat_shiftRight, Nat.shiftRight_eq_div_pow]
    rfl
  have hlow (v : UInt32) : (v &&& 0xffff).toNat = v.toNat % 2 ^ 16 := by
    rw [UInt32.toNat_and]
    exact Nat.and_two_pow_sub_one_eq_mod v.toNat 16
  rw [hhigh, hhigh] at hmajor
  rw [hlow, hlow] at hminor
  rw [← UInt32.toNat_inj]
  omega

/-- The same application on devices that are described alike; numbers are compared as `double`. -/
structure SameRequest (D : Doubles δ) (requestInfo requestInfo' : ExtraUploadInfo) : Prop where
  package : requestInfo.apkPackageName = requestInfo'.apkPackageName
  version : requestInfo.apkVersionCode = requestInfo'.apkVersionCode
  fingerprint : requestInfo.buildFingerprint = requestInfo'.buildFingerprint
  buildVersion : requestInfo.buildVersionSdk = requestInfo'.buildVersionSdk
  gles : requestInfo.glEsVersion = requestInfo'.glEsVersion
  memory : D.eq (D.ofInt requestInfo.totalMemoryBytes.toNat)
    (D.ofInt requestInfo'.totalMemoryBytes.toNat) = true
  freqs : List.Forall₂
    (fun freq freq' => D.eq (D.ofInt (UInt64.toNat freq)) (D.ofInt (UInt64.toNat freq')) = true)
    requestInfo.cpuMaxFreqHz requestInfo'.cpuMaxFreqHz

theorem Describes.sameRequest (hD : D.Lawful) {v : Json11.Json δ}
    (h : Describes D v requestInfo) (h' : Describes D v requestInfo') :
    SameRequest D requestInfo requestInfo' := by
  obtain ⟨hpackage, hversion⟩ := getPartialURL_inj (h.name.symm.trans h'.name)
  have hmajor := h.major.symm.trans h'.major
  have hminor := h.minor.symm.trans h'.minor
  rw [Json11.Json.int.injEq, Nat.cast_inj] at hmajor hminor
  refine ⟨hpackage, hversion, h.fingerprint.symm.trans h'.fingerprint,
    h.buildVersion.symm.trans h'.buildVersion, glEsVersion_inj hmajor hminor,
    hD.eq_trans _ _ _ (hD.eq_symm _ _ h.memory) h'.memory, ?_⟩
  -- both lists are compared with the one that was read
  have htrans : ∀ {vs : List (Json11.Json δ)} {freqs freqs' : List UInt64},
      List.Forall₂ (fun v freq => D.eq (numberValueOf D v) (D.ofInt (UInt64.toNat freq)) = true)
        vs freqs →
      List.Forall₂ (fun v freq => D.eq (numberValueOf D v) (D.ofInt (UInt64.toNat freq)) = true)
        vs freqs' →
      List.Forall₂ (fun freq freq' =>
        D.eq (D.ofInt (UInt64.toNat freq)) (D.ofInt (UInt64.toNat freq')) = true) freqs freqs' := by
    intro vs freqs freqs' hvs hvs'
    induction hvs generalizing freqs' with
    | nil =>
      cases hvs'
      exact .nil
    | cons hv _ ih =>
      cases hvs' with
      | cons hv' hvs' => exact .cons (hD.eq_trans _ _ _ (hD.eq_symm _ _ hv) hv') (ih hvs')
  exact htrans h.freqs h'.freqs

/-- **The body of the request is read back** as the device it was written for, and two requests
have the same body only if they are for the same application and devices alike. -/
theorem parse_requestJson (hD : D.Lawful) (hfinite : FiniteInts D)
    (requestInfo : ExtraUploadInfo) :
    (∃ v, parse D (requestJson D requestInfo) = .ok v ∧ Describes D v requestInfo) ∧
      ∀ requestInfo', requestJson D requestInfo = requestJson D requestInfo' →
        SameRequest D requestInfo requestInfo' := by
  have hread (info : ExtraUploadInfo) :
      parse D (requestJson D info) = .ok (reread D (request D info)) :=
    (parse_dump hD wf_request).mpr ⟨rfl, nesting_request_le.trans (by decide)⟩
  refine ⟨⟨_, hread requestInfo, describes_reread hD hfinite requestInfo⟩, ?_⟩
  intro requestInfo' hsame
  have hread' := hread requestInfo'
  rw [← hsame, hread requestInfo] at hread'
  have hvalue := Except.ok.inj hread'
  have h := describes_reread hD hfinite requestInfo
  rw [hvalue] at h
  exact h.sameRequest hD (describes_reread hD hfinite requestInfo')

end

/-- A phone with two cores. -/
def phoneInfo : ExtraUploadInfo where
  experimentId := []
  sessionId := text "s"
  totalMemoryBytes := 6000000000
  glEsVersion := 0x30002
  buildFingerprint := text "google/\"phone\""
  buildVersionSdk := text "28"
  cpuMaxFreqHz := [2500000000, 1766400]
  apkPackageName := text "com.game"
  apkVersionCode := 7
  tuningforkVersion := 1

theorem parse_requestJson_phoneInfo :
    (∃ v, parse intDoubles (requestJson intDoubles phoneInfo) = .ok v ∧
      Describes intDoubles v phoneInfo) ∧
    ∀ requestInfo', requestJson intDoubles phoneInfo = requestJson intDoubles requestInfo' →
      SameRequest intDoubles phoneInfo requestInfo' :=
  parse_requestJson lawful_intDoubles (fun _ => rfl) phoneInfo

/-! ## The response

A text is decoded if it is an object with the two strings.
-/

section

variable {δ : Type} (D : Doubles δ) (value : δ → ℚ)

mutual

/-- What `DecodeResponse` sees of a value. -/
def toResponse : Json11.Json δ → Json
  | .null => .null
  | .int n => .number n
  | .double d => .number (value d)
  | .bool b => .bool b
  | .string s => .string s
  | .array vs => .array (toResponses vs)
  | .object kvs => .object (toMembers kvs)

/-- The values of an array. -/
def toResponses : List (Json11.Json δ) → List Json
  | [] => []
  | v :: vs => toResponse v :: toResponses vs

/-- The entries of an object. -/
def toMembers : List (ByteString × Json11.Json δ) → List (ByteString × Json)
  | [] => []
  | (key, v) :: kvs => (key, toResponse v) :: toMembers kvs

end

/-- `Json::parse`, and then `err.empty()` -/
def jsonParser : Parser := fun response =>
  match parse D response with
  | .ok v => some (toResponse value v)
  | .error e => if e.message = [] then some .null else none

variable {D value}

/-! ### The parser in its place

The two kinds of value differ in their numbers only, and the response has none that matter.
-/

theorem lookup_toMembers (kvs : List (ByteString × Json11.Json δ)) (key : ByteString) :
    (toMembers value kvs).lookup key = (kvs.lookup key).map (toResponse value) := by
  induction kvs with
  | nil => rfl
  | cons kv kvs ih =>
    rw [toMembers, List.lookup_cons, List.lookup_cons, ih]
    split <;> rfl

theorem jsonParser_eq_some {response : ByteString} {j : Json} :
    jsonParser D value response = some j ↔
      ∃ v, parse D response = .ok v ∧ toResponse value v = j := by
  rw [jsonParser]
  rcases parse D response with e | v
  · simp [e.message_ne_nil]
  · simp

theorem toResponse_eq_object {v : Json11.Json δ} {members : List (ByteString × Json)} :
    toResponse value v = .object members ↔
      ∃ kvs, v = .object kvs ∧ toMembers value kvs = members := by
  cases v <;> simp [toResponse]

theorem toResponse_eq_string {v : Json11.Json δ} {s : ByteString} :
    toResponse value v = .string s ↔ v = .string s := by
  cases v <;> simp [toResponse]

/-- An object in which there are the two strings. -/
def HasParameters (v : Json11.Json δ) (experimentId sfps : ByteString) : Prop :=
  ∃ outer inner, v = .object outer ∧ outer.lookup parametersKey = some (.object inner) ∧
    inner.lookup experimentIdKey = some (.string experimentId) ∧
    inner.lookup fidelityParametersKey = some (.string sfps)

theorem members_jsonParser {response id sfps : ByteString} :
    members (jsonParser D value) response = some (id, some sfps) ↔
      ∃ v, parse D response = .ok v ∧ HasParameters v id sfps := by
  rw [members_eq_both]
  constructor
  · rintro ⟨outer, inner, houter, hinner, hid, hsfps⟩
    obtain ⟨v, hparse, hv⟩ := jsonParser_eq_some.mp houter
    obtain ⟨kvs, rfl, rfl⟩ := toResponse_eq_object.mp hv
    rw [lookup_toMembers] at hinner
    obtain ⟨v', hlookup, hv'⟩ := Option.map_eq_some_iff.mp hinner
    obtain ⟨kvs', rfl, rfl⟩ := toResponse_eq_object.mp hv'
    rw [lookup_toMembers] at hid hsfps
    obtain ⟨vid, hid, hvid⟩ := Option.map_eq_some_iff.mp hid
    obtain ⟨vsfps, hsfps, hvsfps⟩ := Option.map_eq_some_iff.mp hsfps
    rw [toResponse_eq_string] at hvid hvsfps
    subst hvid hvsfps
    exact ⟨_, hparse, kvs, kvs', rfl, hlookup, hid, hsfps⟩
  · rintro ⟨v, hparse, kvs, kvs', rfl, hlookup, hid, hsfps⟩
    refine ⟨toMembers value kvs, toMembers value kvs', jsonParser_eq_some.mpr ⟨_, hparse, rfl⟩,
      ?_, ?_, ?_⟩
    · rw [lookup_toMembers, hlookup]
      rfl
    · rw [lookup_toMembers, hid]
      rfl
    · rw [lookup_toMembers, hsfps]
      rfl

/-- **The response is decoded in whatever way it is written**: any text of the grammar with the
two strings, with other members, white space and escapes; and nothing else is. The parameters are
at the front of the buffer, and zeros are after them. -/
theorem decodeResponse_text_iff {modpB64Decode : B64Decode}
    {base64 : ByteString → Option (List UInt8)} (hd : Decodes modpB64Decode base64)
    (response : ByteString) (fps fps' : List UInt8) (experimentId id : ByteString) :
    decodeResponse (jsonParser D value) modpB64Decode response fps experimentId = (.ok, fps', id) ↔
      ∃ t w v sfps params, t ++ w = response ∧ Whitespace w ∧ Text D (maxDepth + 1) t v ∧
        HasParameters v id sfps ∧ base64 sfps = some params ∧
        fps' = params ++ (resize fps (modpB64DecodeLen sfps.length)).drop params.length := by
  have hlen (sfps : ByteString) := length_resize fps (modpB64DecodeLen sfps.length)
  constructor
  · intro h
    rcases hmembers : members (jsonParser D value) response with _ | ⟨id', _ | sfps⟩
    · rw [decodeResponse_of_none hmembers] at h
      cases h
    · rw [decodeResponse_of_id hmembers] at h
      cases h
    · rcases hdecode : modpB64Decode (resize fps (modpB64DecodeLen sfps.length)) sfps
        with ⟨size, fps''⟩
      rw [decodeResponse_of_both hmembers hdecode] at h
      rcases hparams : base64 sfps with _ | params
      · have hfails := hd.fails (resize fps (modpB64DecodeLen sfps.length)) sfps hparams
        rw [hdecode] at hfails
        rw [if_pos hfails] at h
        cases h
      · obtain ⟨v, hparse, hv⟩ := members_jsonParser.mp hmembers
        obtain ⟨t, w, ht, hw, hsplit⟩ := parse_eq_ok_iff.mp hparse
        have hwritten := hd.decode _ sfps params hparams (hlen sfps).ge
        rw [hdecode] at hwritten
        rw [Prod.mk.injEq, Prod.mk.injEq] at h
        obtain ⟨-, rfl, rfl⟩ := h
        exact ⟨t, w, v, sfps, params, hsplit, hw, ht, hv, hparams, (Prod.mk.inj hwritten).2⟩
  · rintro ⟨t, w, v, sfps, params, hsplit, hw, ht, hv, hparams, rfl⟩
    have hparse : parse D response = .ok v := parse_eq_ok_iff.mpr ⟨t, w, ht, hw, hsplit⟩
    rw [decodeResponse_of_both (members_jsonParser.mpr ⟨v, hparse, hv⟩)
      (hd.decode _ sfps params hparams (hlen sfps).ge)]
    simp

end

/-- The id is escaped, a member is given twice, and there is one that nobody asked for. -/
def spacedText : ByteString :=
  text "\x7b\"parameters\" : null,\n\"parameters\": \x7b" ++
    text "\"serializedFidelityParameters\": \"AQID\", \"ttl\": [60, 2.5e3]," ++
    text "\"experimentId\":\"\\u0065\"\x7d\x7d\n"

theorem decodeResponse_spacedText :
    ∃ t w v sfps params, t ++ w = spacedText ∧ Whitespace w ∧
      Text intDoubles (maxDepth + 1) t v ∧ HasParameters v [101] sfps ∧
      base64 sfps = some params ∧
      [1, 2, 3, 0, 0] = params ++ (resize [] (modpB64DecodeLen sfps.length)).drop params.length :=
  (@decodeResponse_text_iff ℤ intDoubles Int.cast _ _ decodes_base64 spacedText []
    [1, 2, 3, 0, 0] [] [101]).mp (by decide +kernel)

end FPDownload

end GameSdk
