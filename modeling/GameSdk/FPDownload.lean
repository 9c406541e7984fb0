import GameSdk.FidelityParams

/-!
# The response of the server (`fpdownload.cpp`)

The server answers with a JSON object. In it is an object `parameters`, which has the id of
the experiment and, in base 64, the fidelity parameters. `DecodeResponse` assigns them to two
variables of its caller: the id as soon as it has it, and the buffer of the parameters is
made as large as they can be, not as large as they are.

The JSON parser and the base 64 decoder are parameters.

`decodeResponse` returns the two variables along with its result, since the caller looks at them in
either case. At the end the two parameters of the model meet the code that stores what was
downloaded.
-/

namespace GameSdk

namespace FPDownload

/-- A `json11::Json`. A map is given by its entries. -/
inductive Json where
  | null
  | number (value : ℚ)
  | bool (value : Bool)
  | string (value : ByteString)
  | array (items : List Json)
  | object (items : List (ByteString × Json))

/-- `Json::parse`, without the text of its error. -/
abbrev Parser : Type := ByteString → Option Json

/-- `modp_b64_decode`: from a buffer and a string, the size it returns, none for -1, and what is
then in the buffer. -/
abbrev B64Decode : Type := List UInt8 → ByteString → Option ℕ × List UInt8

/-- `modp_b64_decode_len`: how many bytes the decoder may write. -/
def modpB64DecodeLen (n : ℕ) : ℕ := n / 4 * 3 + 2

/-- `std::vector::resize` -/
def resize (xs : List UInt8) (n : ℕ) : List UInt8 :=
  xs.take n ++ List.replicate (n - xs.length) 0

/-- The key of the object that has the parameters. -/
def parametersKey : ByteString := "parameters".toUTF8.toList

/-- The key of the id. -/
def experimentIdKey : ByteString := "experimentId".toUTF8.toList

/-- The key of the encoded parameters. -/
def fidelityParametersKey : ByteString := "serializedFidelityParameters".toUTF8.toList

section

variable (parse : Parser) (modpB64Decode : B64Decode)

/-- What it returns, and then `fps` and `experiment_id`. -/
def decodeResponse (response : ByteString) (fps : List UInt8) (experimentId : ByteString) :
    TFErrorCode × List UInt8 × ByteString :=
  match parse response with
  | none => (.noFidelityParams, fps, experimentId)  -- Parsing error
  | some (.object outer) =>
    match outer.lookup parametersKey with
    | none => (.noFidelityParams, fps, experimentId)  -- No parameters
    | some (.object inner) =>
      match inner.lookup experimentIdKey with
      | none => (.noFidelityParams, fps, experimentId)  -- No experimentId
      | some (.string experimentId) =>
        match inner.lookup fidelityParametersKey with
        | none => (.noFidelityParams, fps, experimentId)  -- No serializedFidelityParameters
        | some (.string sfps) =>
          let fps := resize fps (modpB64DecodeLen sfps.length)
          match modpB64Decode fps sfps with
          | (none, fps) => (.noFidelityParams, fps, experimentId)  -- Can't decode base 64 FPs
          | (some _, fps) => (.ok, fps, experimentId)
        -- serializedFidelityParameters is not a string
        | some _ => (.noFidelityParams, fps, experimentId)
      | some _ => (.noFidelityParams, fps, experimentId)  -- experimentId is not a string
    | some _ => (.noFidelityParams, fps, experimentId)  -- parameters not object
  | some _ => (.noFidelityParams, fps, experimentId)  -- Response not object

/-- `DownloadFidelityParams`, from the answer to its request: none if there was an exception. -/
def downloadFidelityParams (answer : Option (ℤ × ByteString)) (fps : List UInt8)
    (experimentId : ByteString) : TFErrorCode × List UInt8 × ByteString :=
  match answer with
  | none => (.jniException, fps, experimentId)
  | some (code, body) =>
    if code = 200 then decodeResponse parse modpB64Decode body fps experimentId
    else (.noFidelityParams, fps, experimentId)

/-! ## What the response has in it

`members` is as much of the response as the function gets to. Its four outcomes are nothing, an id,
and an id with text that is base 64 or not.
-/

/-- The response is an object with an object `parameters`, and in it the two strings. -/
def Carries (base64 : ByteString → Option (List UInt8)) (response : ByteString)
    (experimentId : ByteString) (params : List UInt8) : Prop :=
  ∃ outer inner sfps, parse response = some (.object outer) ∧
    outer.lookup parametersKey = some (.object inner) ∧
    inner.lookup experimentIdKey = some (.string experimentId) ∧
    inner.lookup fidelityParametersKey = some (.string sfps) ∧
    base64 sfps = some params

/-- What a buffer should be for in which base 64 is decoded. The decoder fails on what is not
base 64; else it returns how much it has written to the front of the buffer. -/
structure Decodes (base64 : ByteString → Option (List UInt8)) : Prop where
  length_le : ∀ src params, base64 src = some params →
    params.length ≤ modpB64DecodeLen src.length
  decode : ∀ dest src params, base64 src = some params →
    modpB64DecodeLen src.length ≤ dest.length →
    modpB64Decode dest src = (some params.length, params ++ dest.drop params.length)
  fails : ∀ dest src, base64 src = none → (modpB64Decode dest src).1 = none
  length_eq : ∀ dest src, modpB64DecodeLen src.length ≤ dest.length →
    (modpB64Decode dest src).2.length = dest.length

/-- **What `DecodeResponse` is for**: the parameters and the id if the response has them, or else
an error that changes nothing. -/
def Exact (base64 : ByteString → Option (List UInt8)) (response : ByteString) (fps : List UInt8)
    (experimentId : ByteString) : Prop :=
  (∀ id params, Carries parse base64 response id params →
    decodeResponse parse modpB64Decode response fps experimentId = (.ok, params, id)) ∧
  ((¬ ∃ id params, Carries parse base64 response id params) →
    decodeResponse parse modpB64Decode response fps experimentId =
      (.noFidelityParams, fps, experimentId))

/-- The id, and then the encoded parameters, as far as `DecodeResponse` gets. -/
def members (response : ByteString) : Option (ByteString × Option ByteString) :=
  match parse response with
  | some (.object outer) =>
    match outer.lookup parametersKey with
    | some (.object inner) =>
      match inner.lookup experimentIdKey with
      | some (.string id) =>
        match inner.lookup fidelityParametersKey with
        | some (.string sfps) => some (id, some sfps)
        | _ => some (id, none)
      | _ => none
    | _ => none
  | _ => none

/-- The decoded parameters are as long as they can be. A response that is refused after its id
was read has the id that is known already; and if its parameters were refused, the buffer has
the size it gets, and is left alone by the decoder. -/
def DecodeOk (base64 : ByteString → Option (List UInt8)) (response : ByteString)
    (fps : List UInt8) (experimentId : ByteString) : Prop :=
  match members parse response with
  | none => True
  | some (id, none) => id = experimentId
  | some (id, some sfps) =>
    match base64 sfps with
    | some params => params.length = modpB64DecodeLen sfps.length
    | none => id = experimentId ∧ fps.length = modpB64DecodeLen sfps.length ∧
        (modpB64Decode fps sfps).2 = fps

variable {parse modpB64Decode} {base64 : ByteString → Option (List UInt8)}
  {response experimentId : ByteString} {fps : List UInt8}

/-- A response without an id changes nothing. -/
theorem decodeResponse_of_none (h : members parse response = none) :
    decodeResponse parse modpB64Decode response fps experimentId =
      (.noFidelityParams, fps, experimentId) := by
  unfold members at h
  unfold decodeResponse
  grind

/-- A response with an id only changes the id. -/
theorem decodeResponse_of_id {id : ByteString} (h : members parse response = some (id, none)) :
    decodeResponse parse modpB64Decode response fps experimentId =
      (.noFidelityParams, fps, id) := by
  unfold members at h
  unfold decodeResponse
  grind

/-- When the response has both strings. -/
theorem members_eq_both {id sfps : ByteString} :
    members parse response = some (id, some sfps) ↔
      ∃ outer inner, parse response = some (.object outer) ∧
        outer.lookup parametersKey = some (.object inner) ∧
        inner.lookup experimentIdKey = some (.string id) ∧
        inner.lookup fidelityParametersKey = some (.string sfps) := by
  unfold members
  grind

/-- A response with both. -/
theorem decodeResponse_of_both {id sfps : ByteString} {size : Option ℕ} {fps' : List UInt8}
    (h : members parse response = some (id, some sfps))
    (hdecode : modpB64Decode (resize fps (modpB64DecodeLen sfps.length)) sfps = (size, fps')) :
    decodeResponse parse modpB64Decode response fps experimentId =
      (if size = none then .noFidelityParams else .ok, fps', id) := by
  obtain ⟨outer, inner, houter, hinner, hid, hsfps⟩ := members_eq_both.mp h
  simp only [decodeResponse, houter, hinner, hid, hsfps, hdecode]
  cases size <;> rfl

/-- A response carries parameters if it has both strings and one of them is base 64. -/
theorem carries_iff {id : ByteString} {params : List UInt8} :
    Carries parse base64 response id params ↔
      ∃ sfps, members parse response = some (id, some sfps) ∧ base64 sfps = some params := by
  simp only [Carries, members_eq_both]
  constructor
  · rintro ⟨outer, inner, sfps, houter, hinner, hid, hsfps, hparams⟩
    exact ⟨sfps, ⟨outer, inner, houter, hinner, hid, hsfps⟩, hparams⟩
  · rintro ⟨sfps, ⟨outer, inner, houter, hinner, hid, hsfps⟩, hparams⟩
    exact ⟨outer, inner, sfps, houter, hinner, hid, hsfps, hparams⟩

/-- The size of the buffer. -/
theorem length_resize (xs : List UInt8) (n : ℕ) : (resize xs n).length = n := by
  rw [resize, List.length_append, List.length_take, List.length_replicate]
  omega

/-- A buffer that has the size already. -/
theorem resize_self (xs : List UInt8) : resize xs xs.length = xs := by
  rw [resize, List.take_length, Nat.sub_self, List.replicate_zero, List.append_nil]

/-- The buffer has more than the parameters unless they are as long as they can be. -/
theorem append_drop_eq_iff {xs params : List UInt8} (hle : params.length ≤ xs.length) :
    params ++ xs.drop params.length = params ↔ params.length = xs.length := by
  rw [List.append_right_eq_self, List.drop_eq_nil_iff]
  omega

/-- What is not base 64 leaves the buffer when it has its size already, and the decoder leaves
it. -/
theorem eq_iff_of_not_base64 (hd : Decodes modpB64Decode base64) {sfps : ByteString}
    (hparams : base64 sfps = none) {size : Option ℕ} {fps' : List UInt8}
    (hdecode : modpB64Decode (resize fps (modpB64DecodeLen sfps.length)) sfps = (size, fps')) :
    size = none ∧ (fps' = fps ↔
      fps.length = modpB64DecodeLen sfps.length ∧ (modpB64Decode fps sfps).2 = fps) := by
  have hlen := length_resize fps (modpB64DecodeLen sfps.length)
  have hfails := hd.fails (resize fps (modpB64DecodeLen sfps.length)) sfps hparams
  have hkeeps := hd.length_eq (resize fps (modpB64DecodeLen sfps.length)) sfps hlen.ge
  rw [hdecode] at hfails hkeeps
  refine ⟨hfails, ?_, ?_⟩
  · rintro rfl
    have hsize : fps'.length = modpB64DecodeLen sfps.length := hkeeps.trans hlen
    rw [← hsize, resize_self] at hdecode
    exact ⟨hsize, by rw [hdecode]⟩
  · rintro ⟨hsize, hsame⟩
    rw [← hsize, resize_self] at hdecode
    rwa [hdecode] at hsame

/-! ## Every response

Each outcome, and what is right for it.
-/

/-- **A response is decoded exactly** when its parameters fill the buffer; one without them
when what was assigned before the error is what was there. -/
theorem exact_iff (hd : Decodes modpB64Decode base64) (response : ByteString) (fps : List UInt8)
    (experimentId : ByteString) :
    Exact parse modpB64Decode base64 response fps experimentId ↔
      DecodeOk parse modpB64Decode base64 response fps experimentId := by
  simp only [Exact, carries_iff]
  rcases hmembers : members parse response with _ | ⟨id, _ | sfps⟩
  · simp only [DecodeOk, hmembers, decodeResponse_of_none hmembers]
    simp
  · simp only [DecodeOk, hmembers, decodeResponse_of_id hmembers]
    simp
  · have hlen := length_resize fps (modpB64DecodeLen sfps.length)
    rcases hparams : base64 sfps with _ | params
    · -- not base 64
      rcases hdecode : modpB64Decode (resize fps (modpB64DecodeLen sfps.length)) sfps
        with ⟨size, fps'⟩
      obtain ⟨rfl, hbuffer⟩ := eq_iff_of_not_base64 hd hparams hdecode
      simp only [DecodeOk, hmembers, hparams, decodeResponse_of_both hmembers hdecode]
      rw [← hbuffer]
      simp [hparams, and_comm]
    · -- base 64
      have hle := (hd.length_le sfps params hparams).trans_eq hlen.symm
      have hdecode := hd.decode (resize fps (modpB64DecodeLen sfps.length)) sfps params hparams
        hlen.ge
      simp only [DecodeOk, hmembers, hparams, decodeResponse_of_both hmembers hdecode]
      have hfull := append_drop_eq_iff hle
      rw [hlen] at hfull
      rw [← hfull]
      simp only [Option.some.injEq, Prod.mk.injEq, reduceCtorEq, if_false, true_and]
      constructor
      · rintro ⟨hexact, -⟩
        exact (hexact id params ⟨sfps, ⟨rfl, rfl⟩, hparams⟩).1
      · intro hsame
        refine ⟨?_, fun hnone => absurd ⟨id, params, sfps, ⟨rfl, rfl⟩, hparams⟩ hnone⟩
        rintro id' params' ⟨sfps', ⟨rfl, rfl⟩, hparams'⟩
        obtain rfl := Option.some.inj (hparams.symm.trans hparams')
        exact ⟨hsame, rfl⟩

end

/-! ## Base 64

The standard encoding with padding, as a decoder that meets the assumptions. It always leaves two
bytes of the buffer over, or more.
-/

/-- The six bits of a character. -/
def sextet (c : UInt8) : Option ℕ :=
  if 65 ≤ c ∧ c ≤ 90 then some (c.toNat - 65)
  else if 97 ≤ c ∧ c ≤ 122 then some (c.toNat - 97 + 26)
  else if 48 ≤ c ∧ c ≤ 57 then some (c.toNat - 48 + 52)
  else if c = 43 then some 62
  else if c = 47 then some 63
  else none

/-- Four characters for three bytes; the last group is padded with `=`. -/
def base64 : ByteString → Option (List UInt8)
  | [] => some []
  | a :: b :: c :: d :: rest => do
    let x ← sextet a
    let y ← sextet b
    if rest = [] ∧ d = 61 then
      if c = 61 then some [(x * 4 + y / 16).toUInt8]
      else
        let z ← sextet c
        some [(x * 4 + y / 16).toUInt8, (y * 16 + z / 4).toUInt8]
    else
      let z ← sextet c
      let w ← sextet d
      let bytes ← base64 rest
      some ((x * 4 + y / 16).toUInt8 :: (y * 16 + z / 4).toUInt8 :: (z * 64 + w).toUInt8 :: bytes)
  | _ => none

/-- A decoder that writes nothing when it fails. -/
def decodeBase64 : B64Decode := fun dest src =>
  match base64 src with
  | some bytes => (some bytes.length, bytes ++ dest.drop bytes.length)
  | none => (none, dest)

/-- Three bytes for four characters, at most. -/
theorem length_base64_le {src bytes : List UInt8} (h : base64 src = some bytes) :
    bytes.length ≤ src.length / 4 * 3 := by
  induction src using base64.induct generalizing bytes with
  | case1 =>
    cases h
    exact Nat.zero_le _
  | case2 a b c d rest ih =>
    have hgroup : (a :: b :: c :: d :: rest).length / 4 * 3 = rest.length / 4 * 3 + 3 := by
      simp only [List.length_cons]
      omega
    rw [hgroup]
    simp only [base64, Option.bind_eq_bind, Option.bind_eq_some_iff] at h
    obtain ⟨x, -, y, -, h⟩ := h
    split_ifs at h
    · cases h
      simp
    · obtain ⟨z, -, h⟩ := Option.bind_eq_some_iff.mp h
      cases h
      simp
    · simp only [Option.bind_eq_some_iff] at h
      obtain ⟨z, -, w, -, bytes', hrest, h⟩ := h
      cases h
      simpa using ih hrest
  | case3 src hnil hgroup => simp [base64] at h

/-- **The assumptions hold** of this decoder. -/
theorem decodes_base64 : Decodes decodeBase64 base64 where
  length_le src params h := (length_base64_le h).trans (Nat.le_add_right _ 2)
  decode dest src params h _ := by simp only [decodeBase64, h]
  fails dest src h := by simp only [decodeBase64, h]
  length_eq dest src hle := by
    rcases h : base64 src with _ | bytes
    · simp only [decodeBase64, h]
    · have := (length_base64_le h).trans ((Nat.le_add_right _ 2).trans hle)
      simp only [decodeBase64, h, List.length_append, List.length_drop]
      omega

/-- **Padded base 64 never fills the buffer**, so that no parameters are decoded exactly. -/
theorem not_exact_of_carries {parse : Parser} {response id params : ByteString}
    (h : Carries parse base64 response id params) (fps : List UInt8) (experimentId : ByteString) :
    ¬ Exact parse decodeBase64 base64 response fps experimentId := by
  obtain ⟨sfps, hmembers, hparams⟩ := carries_iff.mp h
  intro hexact
  have hd := hexact.1 id params h
  rw [decodeResponse_of_both hmembers (decodes_base64.decode _ _ _ hparams
    (length_resize _ _).ge), Prod.mk.injEq, Prod.mk.injEq] at hd
  have hle := length_base64_le hparams
  have hlen := (append_drop_eq_iff ((decodes_base64.length_le _ _ hparams).trans_eq
    (length_resize fps _).symm)).mp hd.2.1
  rw [length_resize, modpB64DecodeLen] at hlen
  omega

/-- A response without parameters. -/
def idText : ByteString :=
  "\x7b\"parameters\":\x7b\"experimentId\":\"e\"\x7d\x7d".toUTF8.toList

/-- A response with parameters of three bytes. -/
def fullText : ByteString :=
  ("\x7b\"parameters\":\x7b\"experimentId\":\"e\"," ++
    "\"serializedFidelityParameters\":\"AQID\"\x7d\x7d").toUTF8.toList

/-- The parser on these two. -/
def parseTexts : Parser := fun response =>
  if response = idText then
    some (.object [(parametersKey, .object [(experimentIdKey, .string [101])])])
  else if response = fullText then
    some (.object [(parametersKey, .object [(experimentIdKey, .string [101]),
      (fidelityParametersKey, .string "AQID".toUTF8.toList)])])
  else none

/-- The id is known already, and there are no parameters. -/
theorem exact_idText : Exact parseTexts decodeBase64 base64 idText [7] [101] :=
  (exact_iff decodes_base64 idText [7] [101]).mpr (by
    have hmembers : members parseTexts idText = some ([101], none) := by decide +kernel
    simp only [DecodeOk, hmembers])

/-- It carries them. -/
theorem carries_fullText : Carries parseTexts base64 fullText [101] [1, 2, 3] :=
  carries_iff.mpr ⟨"AQID".toUTF8.toList, by decide +kernel, by decide +kernel⟩

/-- Three bytes of parameters come out as five. -/
theorem not_exact_fullText :
    Carries parseTexts base64 fullText [101] [1, 2, 3] ∧
      decodeResponse parseTexts decodeBase64 fullText [] [] = (.ok, [1, 2, 3, 0, 0], [101]) ∧
      ¬ Exact parseTexts decodeBase64 base64 fullText [] [] :=
  ⟨carries_fullText, by decide +kernel, not_exact_of_carries carries_fullText [] []⟩

/-! ## What a failed download stores

Whoever asked stores the two variables without looking at the result.
-/

/-- `ParamsLoader::GetFidelityParams`, as `TuningFork_getFidelityParameters` calls it: with no
parameters, and no id. -/
def loadedParams (parse : Parser) (modpB64Decode : B64Decode)
    (answer : Option (ℤ × ByteString)) : TuningForkImpl.LoadedParams :=
  let (result, paramsSer, experimentId) := downloadFidelityParams parse modpB64Decode answer [] []
  ⟨result, paramsSer, experimentId⟩

/-- **No answer, or an error from the server, erases what is stored.** -/
theorem failureKeeps_of_no_response {parse : Parser} {modpB64Decode : B64Decode}
    {answer : Option (ℤ × ByteString)} (hanswer : ∀ body, answer ≠ some (200, body))
    (sqrt : ℚ → ℚ) (σ : System) :
    FailureKeeps sqrt σ (loadedParams parse modpB64Decode answer) ↔
      σ.impl.uploadThread.fidelityParams = ⟨[], []⟩ := by
  have hempty : (loadedParams parse modpB64Decode answer).result ≠ .ok ∧
      (loadedParams parse modpB64Decode answer).paramsSer = [] ∧
      (loadedParams parse modpB64Decode answer).experimentId = [] := by
    rcases answer with _ | ⟨code, body⟩
    · exact ⟨nofun, rfl, rfl⟩
    · have hcode : code ≠ 200 := fun h => hanswer body (by rw [h])
      simp [loadedParams, downloadFidelityParams, hcode]
  obtain ⟨hresult, hparams, hid⟩ := hempty
  rw [failureKeeps_iff, hparams, hid, UploadThread.fidelityParams, FidelityParams.mk.injEq]
  constructor
  · exact fun h => ⟨(h hresult).1.symm, (h hresult).2.symm⟩
  · exact fun h _ => ⟨h.1.symm, h.2.symm⟩

end FPDownload

end GameSdk
