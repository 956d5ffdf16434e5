import Ai4iCore.Base.JsonDocument

/-!
# Binary inference requests

`_build_binary_request` (task_service.py): a JSON header and, behind it, the bytes of the tensors
that have some, one after the other. Nothing separates these; what says where they are is the length
of the header, sent beside the body, and the sizes that the header announces.

`readRequest` is the other side, as the binary tensor extension of the protocol describes it. It
cuts the body and gets every input back, in order and with its bytes, and no byte is left over
(`requests_split_back`).
-/

namespace Ai4iCore.Task.BinaryRequest

open JsonDoc

abbrev Text := List Char

abbrev Bytes := List UInt8

/-- What Python's `json` reads and writes. -/
abbrev Doc := JsonDoc PyScalar

/-! ## Inputs -/

/-- `_raw`, or `data`. -/
inductive Content
  | raw (bytes : Bytes)
  | data (doc : Doc)

/-- A tensor of `render_inputs`. -/
structure Rendered where
  dtype : Text
  shape : List Int
  content : Content

/-- An entry of the inputs. -/
structure TritonInput where
  name : Text
  datatype : Text
  shape : List Int
  content : Content

/-- The entry of a rendered tensor. -/
def entry (name : Text) (t : Rendered) : TritonInput := ⟨name, t.dtype, t.shape, t.content⟩

/-- `compose_triton_kserve_v2_payload` (config_mapper.py), from the rendered inputs. -/
def composeTritonKserveV2Payload (tritonInputs : List (Text × Rendered)) : List TritonInput :=
  tritonInputs.map fun input => entry input.1 input.2

def TritonInput.raw (inp : TritonInput) : Option Bytes :=
  match inp.content with
  | .raw bytes => some bytes
  | .data _ => none

/-! ## The request -/

def shapeDoc (shape : List Int) : Doc := .arr (shape.map fun n => .scalar (.int n))

/-- An entry of `header_inputs`. -/
def TritonInput.header (inp : TritonInput) : Doc :=
  match inp.content with
  | .raw bytes =>
    .obj [("name".toList, .str inp.name), ("datatype".toList, .str inp.datatype),
      ("shape".toList, shapeDoc inp.shape),
      ("parameters".toList, .obj [("binary_data_size".toList, .scalar (.int bytes.length))])]
  | .data doc =>
    .obj [("name".toList, .str inp.name), ("datatype".toList, .str inp.datatype),
      ("shape".toList, shapeDoc inp.shape), ("data".toList, doc)]

def outputDoc (name : Text) : Doc :=
  .obj [("name".toList, .str name),
    ("parameters".toList, .obj [("binary_data".toList, .scalar (.bool false))])]

def headerDoc (tritonInputs : List TritonInput) (tritonOutputs : List Text) : Doc :=
  .obj [("inputs".toList, .arr (tritonInputs.map TritonInput.header)),
    ("outputs".toList, .arr (tritonOutputs.map outputDoc))]

/-- `text.encode("utf-8")`. -/
def encode (text : Text) : Bytes := text.flatMap String.utf8EncodeChar

/-- A body, and `Inference-Header-Content-Length`. -/
structure Request where
  body : Bytes
  headerLength : Text

/-- `_build_binary_request`. -/
def buildBinaryRequest (tritonInputs : List TritonInput) (tritonOutputs : List Text) : Request :=
  let headerBytes := encode (dumps PyScalar.scalars (headerDoc tritonInputs tritonOutputs))
  let rawChunks := tritonInputs.filterMap TritonInput.raw
  { body := headerBytes ++ rawChunks.flatten
    headerLength := Nat.toDigits 10 headerBytes.length }

/-! ## The other side -/

/-- `bytes.decode("utf-8")`. -/
def decode (bytes : Bytes) : Option Text := bytes.toByteArray.utf8Decode?.map Array.toList

def field (key : Text) : Doc → Option Doc
  | .obj fields => fields.lookup key
  | _ => none

/-- The `binary_data_size` of an input. -/
def announcedSize (input : Doc) : Option Nat :=
  match (field "parameters".toList input).bind (field "binary_data_size".toList) with
  | some (.scalar (.int n)) => some n.toNat
  | _ => none

/-- Consecutive slices, one for every input that announces a size, of all the bytes. -/
def slices : List (Option Nat) → Bytes → Option (List (Option Bytes))
  | [], [] => some []
  | [], _ :: _ => none
  | none :: sizes, bytes => (slices sizes bytes).map (none :: ·)
  | some size :: sizes, bytes =>
    if size ≤ bytes.length then
      (slices sizes (bytes.drop size)).map (some (bytes.take size) :: ·)
    else none

/-- The inputs of a request, each with its bytes where it has some. -/
def readRequest (request : Request) : Option (List (Doc × Option Bytes)) := do
  let length ← Decimal.parseNat request.headerLength
  let text ← decode (request.body.take length)
  let doc ← loads PyScalar.scalars text
  match field "inputs".toList doc with
  | some (.arr inputs) =>
    (slices (inputs.map announcedSize) (request.body.drop length)).map inputs.zip
  | _ => none

/-! ## What is read is what was built -/

theorem decode_encode (text : Text) : decode (encode text) = some text := by
  have hdecode := @List.utf8Decode?_utf8Encode text
  rw [decode, encode]
  show (text.utf8Encode.utf8Decode?).map Array.toList = _
  rw [hdecode, Option.map_some]

theorem announcedSize_header (inp : TritonInput) :
    announcedSize inp.header = inp.raw.map List.length := by
  cases hcontent : inp.content with
  | raw bytes =>
    have hraw : inp.raw = some bytes := by rw [TritonInput.raw, hcontent]
    rw [TritonInput.header, hcontent, hraw]
    rfl
  | data doc =>
    have hraw : inp.raw = none := by rw [TritonInput.raw, hcontent]
    rw [TritonInput.header, hcontent, hraw]
    rfl

/-- The slices of some chunks behind each other are the chunks. -/
theorem slices_flatten (chunks : List (Option Bytes)) :
    slices (chunks.map (Option.map List.length)) (chunks.filterMap id).flatten = some chunks := by
  induction chunks with
  | nil => rfl
  | cons chunk chunks ih =>
    cases chunk with
    | none =>
      show (slices (chunks.map (Option.map List.length)) (chunks.filterMap id).flatten).map _ = _
      rw [ih]
      rfl
    | some bytes =>
      have hbytes : ((some bytes :: chunks).filterMap id).flatten =
          bytes ++ (chunks.filterMap id).flatten := rfl
      have hlength : bytes.length ≤ (bytes ++ (chunks.filterMap id).flatten).length := by
        rw [List.length_append]
        omega
      rw [hbytes, List.map_cons, Option.map_some, slices, if_pos hlength, List.drop_left,
        List.take_left, ih]
      rfl

/-- What is read of a request is the list of its inputs. -/
theorem readRequest_buildBinaryRequest (tritonInputs : List TritonInput)
    (tritonOutputs : List Text) :
    readRequest (buildBinaryRequest tritonInputs tritonOutputs) =
      some (tritonInputs.map fun inp => (inp.header, inp.raw)) := by
  have hsizes : (tritonInputs.map TritonInput.header).map announcedSize =
      (tritonInputs.map TritonInput.raw).map (Option.map List.length) := by
    rw [List.map_map, List.map_map]
    exact List.map_congr_left fun inp _ => announcedSize_header inp
  have hchunks : (tritonInputs.filterMap TritonInput.raw).flatten =
      ((tritonInputs.map TritonInput.raw).filterMap id).flatten := by
    rw [List.filterMap_map]
    rfl
  rw [readRequest, buildBinaryRequest]
  dsimp only
  rw [Decimal.parseNat_toDigits]
  simp only [Option.bind_eq_bind, Option.bind_some, List.take_left, List.drop_left, decode_encode,
    loads_dumps]
  show (slices ((tritonInputs.map TritonInput.header).map announcedSize)
    (tritonInputs.filterMap TritonInput.raw).flatten).map _ = _
  rw [hsizes, hchunks, slices_flatten, Option.map_some, List.zip_map']

/-- **Binary requests can be split back.** The announced length cuts off a header that lists the
inputs in order; the slices of the announced sizes are their bytes, and nothing is left. -/
theorem requests_split_back (tritonInputs : List TritonInput) (tritonOutputs : List Text) :
    (∃ length, Decimal.parseNat (buildBinaryRequest tritonInputs tritonOutputs).headerLength =
        some length ∧
      (decode ((buildBinaryRequest tritonInputs tritonOutputs).body.take length)).bind
        (loads PyScalar.scalars) = some (headerDoc tritonInputs tritonOutputs)) ∧
    readRequest (buildBinaryRequest tritonInputs tritonOutputs) =
      some (tritonInputs.map fun inp => (inp.header, inp.raw)) := by
  refine ⟨⟨_, Decimal.parseNat_toDigits _, ?_⟩,
    readRequest_buildBinaryRequest tritonInputs tritonOutputs⟩
  rw [buildBinaryRequest]
  dsimp only
  rw [List.take_left, decode_encode, Option.bind_some, loads_dumps]

/-- Of rendered tensors. -/
theorem readRequest_compose (rendered : List (Text × Rendered)) (tritonOutputs : List Text) :
    readRequest (buildBinaryRequest (composeTritonKserveV2Payload rendered) tritonOutputs) =
      some (rendered.map fun input =>
        ((entry input.1 input.2).header, (entry input.1 input.2).raw)) := by
  rw [readRequest_buildBinaryRequest, composeTritonKserveV2Payload, List.map_map]
  rfl

end Ai4iCore.Task.BinaryRequest
