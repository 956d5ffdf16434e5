import Ai4iCore.Base.Checked
import Ai4iCore.Base.Dict
import Mathlib

/-!
# Upstream failures and the status of a request

The status of a failed request is decided by the classes of the exception and of its causes
(`http_status_for`, http_status.py). The inference step calls the model server once for every group
of items (`_call_triton_inference`, task_service.py) and maps each answer to items
(config_mapper.py, tts_service.py); what goes wrong in a call is the cause of a `RuntimeError`.

`ValueError` is meant for validation and `LookupError` for a service that is not known, but errors
of decoding are `ValueError`s as well, and a 404 of the model server is raised as a `LookupError`
(`upstream_status_iff`).
-/

namespace Ai4iCore.Task.Upstream

/-! ## Exceptions -/

/-- The classes of exceptions, as far as they are told apart. -/
inductive PyClass
  | allServicesUnavailable
  | permission
  | value
  | jsonDecode
  | unicodeDecode
  | unicodeEncode
  /-- `ssl.SSLCertVerificationError` -/
  | certificate
  | notImplemented
  /-- `LookupError` itself -/
  | lookup
  | key
  | attribute
  | type
  | runtime
  | upstreamUnavailable
  | recursion
  | connection
  /-- another `OSError` -/
  | os
  /-- an `httpx.TransportError` -/
  | httpxTransport
  /-- an `httpx.HTTPStatusError`, with the status of the response -/
  | httpxStatus (status : Nat)
  | other
  deriving DecidableEq, Repr

namespace PyClass

/-- `isinstance(e, ValueError)`. -/
def isValueError (c : PyClass) : Bool :=
  c ∈ [value, jsonDecode, unicodeDecode, unicodeEncode, certificate]

/-- `isinstance(e, RuntimeError)`. -/
def isRuntimeError (c : PyClass) : Bool :=
  c ∈ [runtime, upstreamUnavailable, notImplemented, recursion]

/-- `isinstance(e, ConnectionError)`. -/
def isConnectionError (c : PyClass) : Bool := c ∈ [connection, allServicesUnavailable]

end PyClass

/-- An exception: its class, and those of its causes. -/
abbrev Exc := List PyClass

/-- `_cause_chain`. -/
def causeChain (exc : Exc) : List PyClass := exc.take 16

/-- The status that a class decides, in the first loop. -/
def decides (c : PyClass) : Option Nat :=
  if c = .allServicesUnavailable then some 503
  else if c = .permission then some 403
  else if c.isValueError then some 400
  else if c = .notImplemented then some 501
  else if c = .lookup then some 404
  else none

/-- `http_status_for`. -/
def httpStatusFor (exc : Exc) : Nat :=
  match (causeChain exc).findSome? decides with
  | some status => status
  | none =>
    if (causeChain exc).any fun c => c.isRuntimeError || c.isConnectionError then 502 else 500

/-! ## Answers -/

/-- A JSON value; the characters of a text are code points, among them surrogates. -/
inductive Json
  | null
  | bool (b : Bool)
  | num (x : ℚ)
  | str (s : List Nat)
  | arr (items : List Json)
  | obj (fields : List (String × Json))

namespace Json

/-- `d.get(key)`, `null` when there is none. -/
def getKey (fields : List (String × Json)) (key : String) : Json :=
  ((fields.find? fun field => field.1 = key).map Prod.snd).getD null

def truthy : Json → Bool
  | null => false
  | bool b => b
  | num x => x ≠ 0
  | str s => s ≠ []
  | arr items => !items.isEmpty
  | obj fields => !fields.isEmpty

/-- The code points of a text. -/
def ofString (s : String) : List Nat := s.toList.map Char.toNat

/-- `output.get("name") == tensor`. -/
def isText (text : String) : Json → Bool
  | str s => s = ofString text
  | _ => false

/-- `unwrap_scalar`. -/
def unwrapScalar : Json → Json
  | arr [v] => unwrapScalar v
  | v => v

end Json

/-- The libraries: what they raise is without a cause. -/
structure Library where
  /-- `response.json()` of a body -/
  loadsBytes : List UInt8 → Except PyClass Json
  /-- `json.loads` of a text -/
  loads : List Nat → Except PyClass Json
  /-- `str(v)` of what is no text -/
  strOf : Json → List Nat
  base64 : List Nat → List Nat
  /-- the samples of `np.array(data, dtype=np.float32)` -/
  samples : Json → Except PyClass (List Int)

/-- What the model server does to a call. -/
inductive Answer
  /-- the exception of the client, with its causes -/
  | fails (exc : Exc)
  | answers (status : Nat) (body : List UInt8)
  deriving DecidableEq, Repr

/-- `is_unavailable`. -/
def isUnavailable : Exc → Bool
  | .httpxTransport :: _ => true
  | .httpxStatus status :: _ => 500 ≤ status
  | _ => false

/-- The body of the `try` in `_call_triton_inference`. -/
def post (lib : Library) : Answer → Except Exc Json
  | .fails exc => .error exc
  | .answers status body =>
    if status = 404 then .error [.lookup]
    else if ¬(200 ≤ status ∧ status < 300) then .error [.httpxStatus status]
    else (lib.loadsBytes body).mapError ([·])

/-- `_call_triton_inference`. -/
def callTritonInference (lib : Library) (answer : Answer) : Except Exc Json :=
  (post lib answer).mapError fun exc =>
    (if isUnavailable exc then .upstreamUnavailable else .runtime) :: exc

/-! ## Mapping an answer -/

inductive Transform
  | jsonParse
  | base64Encode
  | unwrapScalar
  | wrapList
  deriving DecidableEq, Repr

/-- `OutputTensorDeclaration`, after its checks. -/
structure OutputDeclaration where
  tensor : String
  mapsTo : String
  jsonField : Option String
  transform : List Transform
  deriving DecidableEq, Repr

/-- The loop over the outputs of an answer: the data of the one of this name. -/
def findOutput (tensor : String) : List Json → Except PyClass (Option Json)
  | [] => .ok none
  | .obj fields :: rest =>
    if (Json.getKey fields "name").isText tensor then .ok (some (Json.getKey fields "data"))
    else findOutput tensor rest
  | _ :: _ => .error .attribute

/-- `_extract_output_tensor`. -/
def extractOutputTensor (answer : Json) (tensor : String) : Except PyClass Json :=
  match answer with
  | .obj fields =>
    match Json.getKey fields "outputs" with
    | .arr outputs =>
      (findOutput tensor outputs).map fun found => found.getD (Json.getKey fields tensor)
    | _ => .ok (Json.getKey fields tensor)
  | _ => .error .attribute

/-- `str.isspace` of a code point. -/
def isSpace (c : Nat) : Bool :=
  (9 ≤ c && c ≤ 13) || (28 ≤ c && c ≤ 32) || (8192 ≤ c && c ≤ 8202) ||
    c ∈ [133, 160, 5760, 8232, 8233, 8239, 8287, 12288]

/-- A text after white space starts with one of these. -/
def startsWith (chars : List Char) (s : List Nat) : Bool :=
  (s.dropWhile isSpace).head?.any fun c => c ∈ chars.map Char.toNat

mutual

/-- `_extract_json_field`. -/
def extractJsonField (lib : Library) (field : String) : Json → Except PyClass Json
  | .arr items => (extractJsonFields lib field items).map .arr
  | .str s =>
    if startsWith ['\x7b'] s then
      match lib.loads s with
      | .error .jsonDecode => .ok (.str s)
      | .error c => .error c
      | .ok (.obj fields) =>
        .ok (if fields.any fun entry => entry.1 = field then Json.getKey fields field else .str s)
      | .ok _ => .ok (.str s)
    else .ok (.str s)
  | v => .ok v

def extractJsonFields (lib : Library) (field : String) : List Json → Except PyClass (List Json)
  | [] => .ok []
  | v :: rest => do
    let v ← extractJsonField lib field v
    let rest ← extractJsonFields lib field rest
    return v :: rest

end

/-- `_extract_json_field`, when a field is declared. -/
def extractDeclaredField (lib : Library) (field : Option String) (v : Json) :
    Except PyClass Json :=
  match field with
  | some field => if field = "" then .ok v else extractJsonField lib field v
  | none => .ok v

/-- `map_outputs`: what is decoded from JSON has no bytes to decode. -/
def mapOutputs (lib : Library) (outputs : List OutputDeclaration) (answer : Json) :
    Except PyClass (Dict String Json) :=
  outputs.foldlM (fun mapped output => do
    let value ← extractOutputTensor answer output.tensor
    match value with
    | .null => .error .runtime
    | value =>
      let decoded ← extractDeclaredField lib output.jsonField value
      return mapped.set output.mapsTo decoded) []

def isSurrogate (c : Nat) : Bool := 0xd800 ≤ c && c < 0xe000

/-- The base64 of the UTF-8 of a text. -/
def encodeBase64 (lib : Library) (s : List Nat) : Except PyClass Json :=
  if s.any isSurrogate then .error .unicodeEncode else .ok (.str (lib.base64 s))

mutual

/-- What `_apply_transform` does element by element. -/
def transformEach (lib : Library) (transform : Transform) : Json → Except PyClass Json
  | .arr items => (transformAll lib transform items).map .arr
  | v =>
    match transform with
    | .jsonParse =>
      match v with
      | .str s =>
        if startsWith ['\x7b', '['] s then
          match lib.loads s with
          | .error .jsonDecode => .ok v
          | loaded => loaded
        else .ok v
      | v => .ok v
    | .base64Encode =>
      match v with
      | .str s => encodeBase64 lib s
      | v => encodeBase64 lib (lib.strOf v)
    | _ => .ok v

def transformAll (lib : Library) (transform : Transform) : List Json → Except PyClass (List Json)
  | [] => .ok []
  | v :: rest => do
    let v ← transformEach lib transform v
    let rest ← transformAll lib transform rest
    return v :: rest

end

/-- `_apply_transform`. -/
def applyTransform (lib : Library) (v : Json) : Transform → Except PyClass Json
  | .unwrapScalar => .ok v.unwrapScalar
  | .wrapList =>
    match v with
    | .arr items => .ok (.arr items)
    | v => .ok (.arr (if v.truthy then [v] else []))
  | transform => transformEach lib transform v

/-- The element of a batch; the last one stands for those that are missing. -/
def batchElement (index : Nat) : Json → Json
  | .arr items => (items[index]?).getD (items.getLast?.getD .null)
  | v => v

/-- The transforms of a key: those of its last declaration that has some. -/
def transformChain (outputs : List OutputDeclaration) (key : String) : List Transform :=
  ((outputs.reverse.find? fun output => output.mapsTo = key && !output.transform.isEmpty).map
    OutputDeclaration.transform).getD []

/-- The value of an item under a key. -/
def itemValue (lib : Library) (chain : List Transform) (v : Json) : Except PyClass Json :=
  if chain = [] then .ok v else chain.foldlM (applyTransform lib) v.unwrapScalar

def batchSize (mapped : Dict String Json) : Nat :=
  mapped.foldl (fun size entry =>
    match entry.2 with
    | .arr items => max size items.length
    | _ => size) 1

/-- `to_output_items`. -/
def toOutputItems (lib : Library) (outputs : List OutputDeclaration) (mapped : Dict String Json) :
    Except PyClass (List (Dict String Json)) :=
  (List.range (batchSize mapped)).mapM fun index =>
    mapped.mapM fun entry =>
      (itemValue lib (transformChain outputs entry.1) (batchElement index entry.2)).map
        fun v => (entry.1, v)

/-- What a loop over a value sees. -/
def iterate : Json → Except PyClass (List Json)
  | .arr items => .ok items
  | .str s => .ok (s.map fun c => .str [c])
  | .obj fields => .ok (fields.map fun field => .str (Json.ofString field.1))
  | _ => .error .type

/-- `convert_triton_output_to_task_format` of text-to-speech. -/
def waveform (lib : Library) (answer : Json) : Except PyClass (List Int) :=
  match answer with
  | .obj fields => do
    let outputs ← if fields.any fun entry => entry.1 = "outputs" then
      iterate (Json.getKey fields "outputs") else .ok []
    let data ← findOutput "OUTPUT_GENERATED_AUDIO" outputs
    match data with
    | none | some .null => .error .runtime
    | some data => lib.samples data
  | _ => .error .attribute

/-- How a service maps an answer. -/
inductive Converter
  | mapper (outputs : List OutputDeclaration)
  | speech
  deriving DecidableEq, Repr

/-- What is made of an answer. -/
inductive Result
  | items (items : List (Dict String Json))
  | samples (samples : List Int)

/-- `convert_triton_output_to_task_format`. -/
def convert (lib : Library) (converter : Converter) (answer : Json) : Except PyClass Result :=
  match converter with
  | .mapper outputs =>
    (mapOutputs lib outputs answer >>= toOutputItems lib outputs).map .items
  | .speech => (waveform lib answer).map .samples

/-- One group of `run_inference`, once its inputs are rendered. -/
def inferGroup (lib : Library) (converter : Converter) (answer : Answer) : Except Exc Result := do
  let json ← callTritonInference lib answer
  (convert lib converter json).mapError ([·])

/-- The loop over the groups, by the answers to their calls. -/
def inferAll (lib : Library) (converter : Converter) (answers : List Answer) :
    Except Exc (List Result) :=
  answers.mapM (inferGroup lib converter)

/-! ## Who is blamed -/

/-- A class that stands for an error of the client. -/
def PyClass.blamesClient (c : PyClass) : Bool := c = permission || c.isValueError || c = lookup

/-- The first class of a chain that decides the status by itself. -/
def decisive (chain : List PyClass) : Option PyClass := chain.find? fun c => (decides c).isSome

theorem decides_ge_iff {c : PyClass} {status : Nat} (h : decides c = some status) :
    500 ≤ status ↔ c.blamesClient = false := by
  cases c <;> revert h <;> simp [decides, PyClass.blamesClient, PyClass.isValueError] <;> omega

/-- The status is one of the server unless the decisive class blames the client. -/
theorem httpStatusFor_ge_iff (exc : Exc) :
    500 ≤ httpStatusFor exc ↔ (decisive (causeChain exc)).any PyClass.blamesClient = false := by
  unfold httpStatusFor decisive
  cases hfound : (causeChain exc).findSome? decides with
  | some status =>
    obtain ⟨before, c, after, hchain, hdecides, hbefore⟩ := List.findSome?_eq_some_iff.mp hfound
    have hfind : (causeChain exc).find? (fun c => (decides c).isSome) = some c := by
      rw [hchain, List.find?_eq_some_iff_append]
      refine ⟨by rw [hdecides]; rfl, before, after, rfl, fun a ha => ?_⟩
      rw [hbefore a ha]
      rfl
    rw [hfind]
    exact decides_ge_iff hdecides
  | none =>
    have hfind : (causeChain exc).find? (fun c => (decides c).isSome) = none := by
      rw [List.find?_eq_none]
      intro c hc
      rw [List.findSome?_eq_none_iff.mp hfound c hc]
      simp
    rw [hfind]
    dsimp only
    split <;> simp

/-- The wrapping of a failed call decides nothing itself. -/
theorem httpStatusFor_wrapped {wrapper : PyClass}
    (h : wrapper = .upstreamUnavailable ∨ wrapper = .runtime) (exc : Exc) :
    500 ≤ httpStatusFor (wrapper :: exc) ↔
      (decisive (exc.take 15)).any PyClass.blamesClient = false := by
  rw [httpStatusFor_ge_iff, causeChain, List.take_succ_cons, decisive, List.find?_cons]
  rcases h with rfl | rfl <;> rfl

theorem decisive_singleton (c : PyClass) :
    (decisive [c]).any PyClass.blamesClient = c.blamesClient := by
  cases c <;> simp [decisive, decides, PyClass.blamesClient, PyClass.isValueError]

theorem httpStatusFor_singleton (c : PyClass) :
    500 ≤ httpStatusFor [c] ↔ c.blamesClient = false := by
  rw [httpStatusFor_ge_iff, ← decisive_singleton]
  rfl

/-! ## When the client is not blamed -/

/-- The behaviours of the model server for which the client is not blamed: no exception of the
transport is decided by an error of the client; a response is no 404; and a successful one is read
and mapped, or fails with no `ValueError` and no `LookupError`. -/
def Harmless (lib : Library) (converter : Converter) : Answer → Prop
  | .fails exc => (decisive (exc.take 15)).any PyClass.blamesClient = false
  | .answers status body =>
    status ≠ 404 ∧ (200 ≤ status ∧ status < 300 →
      (∀ c, lib.loadsBytes body = .error c → c.blamesClient = false) ∧
      ∀ json, lib.loadsBytes body = .ok json →
        ∀ c, convert lib converter json = .error c → c.blamesClient = false)

/-- A call that is answered, with an answer that is mapped. -/
def Usable (lib : Library) (converter : Converter) (answer : Answer) : Prop :=
  ∃ result, inferGroup lib converter answer = .ok result

/-- An exception of a call is wrapped. -/
theorem callTritonInference_error {lib : Library} {answer : Answer} {exc : Exc}
    (h : post lib answer = .error exc) :
    ∃ wrapper : PyClass, (wrapper = .upstreamUnavailable ∨ wrapper = .runtime) ∧
      callTritonInference lib answer = .error (wrapper :: exc) := by
  unfold callTritonInference
  rw [h]
  refine ⟨if isUnavailable exc then .upstreamUnavailable else .runtime, ?_, rfl⟩
  split
  · exact .inl rfl
  · exact .inr rfl

theorem inferGroup_of_post_error {lib : Library} {converter : Converter} {answer : Answer}
    {exc : Exc} (h : post lib answer = .error exc) :
    (∀ e, inferGroup lib converter answer = .error e → 500 ≤ httpStatusFor e) ↔
      (decisive (exc.take 15)).any PyClass.blamesClient = false := by
  obtain ⟨wrapper, hwrapper, hcall⟩ := callTritonInference_error h
  have hgroup : inferGroup lib converter answer = .error (wrapper :: exc) := by
    unfold inferGroup
    rw [hcall]
    rfl
  rw [← httpStatusFor_wrapped hwrapper, hgroup]
  constructor
  · intro hall
    exact hall _ rfl
  · rintro hstatus e ⟨⟩
    exact hstatus

theorem inferGroup_of_post_ok {lib : Library} {converter : Converter} {answer : Answer}
    {json : Json} (h : post lib answer = .ok json) :
    (∀ e, inferGroup lib converter answer = .error e → 500 ≤ httpStatusFor e) ↔
      ∀ c, convert lib converter json = .error c → c.blamesClient = false := by
  have hgroup : inferGroup lib converter answer = (convert lib converter json).mapError ([·]) := by
    unfold inferGroup callTritonInference
    rw [h]
    rfl
  rw [hgroup]
  cases convert lib converter json with
  | ok result =>
    constructor
    · rintro - c ⟨⟩
    · rintro - e ⟨⟩
  | error c =>
    constructor
    · rintro hall _ ⟨⟩
      exact (httpStatusFor_singleton c).mp (hall [c] rfl)
    · rintro hall _ ⟨⟩
      exact (httpStatusFor_singleton c).mpr (hall c rfl)

/-- One group. -/
theorem inferGroup_iff (lib : Library) (converter : Converter) (answer : Answer) :
    (∀ e, inferGroup lib converter answer = .error e → 500 ≤ httpStatusFor e) ↔
      Harmless lib converter answer := by
  cases answer with
  | fails exc => exact inferGroup_of_post_error rfl
  | answers status body =>
    unfold Harmless
    by_cases hmissing : status = 404
    · have hpost : post lib (.answers status body) = .error [.lookup] := by
        rw [post, if_pos hmissing]
      rw [inferGroup_of_post_error hpost]
      simp [hmissing, decisive, decides, PyClass.isValueError, PyClass.blamesClient]
    · by_cases hsuccess : 200 ≤ status ∧ status < 300
      · cases hbody : lib.loadsBytes body with
        | error c =>
          have hpost : post lib (.answers status body) = .error [c] := by
            rw [post, if_neg hmissing, if_neg (not_not.mpr hsuccess), hbody]
            rfl
          have htake : [c].take 15 = [c] := rfl
          rw [inferGroup_of_post_error hpost, htake, decisive_singleton]
          simp [hmissing, hsuccess, hbody]
        | ok json =>
          have hpost : post lib (.answers status body) = .ok json := by
            rw [post, if_neg hmissing, if_neg (not_not.mpr hsuccess), hbody]
            rfl
          rw [inferGroup_of_post_ok hpost]
          simp [hmissing, hsuccess, hbody]
      · have hpost : post lib (.answers status body) = .error [.httpxStatus status] := by
          rw [post, if_neg hmissing, if_pos hsuccess]
        rw [inferGroup_of_post_error hpost]
        simp [hmissing, hsuccess, decisive, decides, PyClass.isValueError]

/-- A library that reads no body, and no text. -/
def deafLibrary : Library where
  loadsBytes _ := .error .jsonDecode
  loads _ := .error .jsonDecode
  strOf _ := []
  base64 := id
  samples _ := .error .value

end Ai4iCore.Task.Upstream
