import Ai4iCore.Base.Checked
import Ai4iCore.Task.Tokens
import Mathlib.Data.List.SplitOn

/-!
# Task services

`BaseTaskService.process` (services/base/task_service.py) for every class of the registry:
validation, preprocessing, one Triton call per group of items, each inside its ai-inference
span, and postprocessing. The classes differ in what they validate, in how they preprocess and
in how they group; the rest is `runInference`.

What the Triton server does and whether its answer can be used is the outcome of a group.
-/

namespace Ai4iCore.Task

open Checked

/-! ## Requests -/

/-- `config.language`: the codes, under either spelling, when they are not empty. -/
structure Language where
  source : Option Text
  target : Option Text
  deriving DecidableEq, Repr

/-- `config`: the language when it is an object that is not empty, and the other entries. -/
structure Config where
  fields : Item
  language : Option Language
  deriving DecidableEq, Repr

def Config.truthy (c : Config) : Bool := c.fields ≠ [] || c.language.isSome

/-- A request body. A list of items that is missing or no list is empty. -/
structure Payload where
  taskType : Option Value
  serviceId : Option Value
  input : List Item
  audio : List Item
  image : List Item
  config : Config
  deriving DecidableEq, Repr

/-- The exceptions that decide a status; `typeError` stands for those of a bad type. -/
inductive Failure
  | valueError
  | typeError
  | notImplemented
  | lookupError
  | permissionError
  | runtimeError
  /-- `UpstreamUnavailableError`, and `AllServicesUnavailableError` -/
  | unavailable
  deriving DecidableEq, Repr

/-! ## The classes -/

inductive Modality
  | text
  | audio
  | image
  deriving DecidableEq, Repr

inductive TaskClass
  | nmt
  | ner
  | transliteration
  | languageDetection
  | tts
  | asr
  | audioLanguageDetection
  | languageDiarization
  | speakerDiarization
  | ocr
  | pii
  deriving DecidableEq, Repr

namespace TaskClass

/-- `payload_key`; PII has none. -/
def modality : TaskClass → Option Modality
  | nmt | ner | transliteration | languageDetection | tts => some .text
  | asr | audioLanguageDetection | languageDiarization | speakerDiarization => some .audio
  | ocr => some .image
  | pii => none

/-- `REQUIRES_TARGET_LANGUAGE`. -/
def requiresTargetLanguage (cls : TaskClass) : Bool :=
  cls = nmt || cls = transliteration

/-- `TRITON_CALL_MODE` is "per_item". -/
def perItem (cls : TaskClass) : Bool :=
  cls = tts || cls.modality = some .audio

end TaskClass

/-- `TASK_SERVICE_REGISTRY`. -/
def taskServiceRegistry : Dict String TaskClass :=
  [("ASRTaskService", .asr),
    ("AudioLanguageDetectionTaskService", .audioLanguageDetection),
    ("LanguageDetectionTaskService", .languageDetection),
    ("LanguageDiarizationTaskService", .languageDiarization),
    ("NERTaskService", .ner),
    ("NMTTaskService", .nmt),
    ("OCRTaskService", .ocr),
    ("PIITaskService", .pii),
    ("SpeakerDiarizationTaskService", .speakerDiarization),
    ("TransliterationTaskService", .transliteration),
    ("TTSTaskService", .tts),
    ("AudioDefaultModel", .audioLanguageDetection),
    ("ImageDefaultModel", .ocr),
    ("TextDefaultModel", .nmt)]

def Payload.items (p : Payload) : Modality → List Item
  | .text => p.input
  | .audio => p.audio
  | .image => p.image

/-! ## Validation -/

/-- A `source` that is a string and not empty. -/
def hasSource (item : Item) : Bool :=
  match item.get? "source" with
  | some (.str s) => s ≠ []
  | _ => false

/-- The language check of `TextBase.validate_request`. -/
def validateLanguage (requiresTarget : Bool) : Option Language → Bool
  | none => true
  | some language =>
    language.source.isSome &&
      (!requiresTarget || (language.target.isSome && language.source ≠ language.target))

/-- `TextBase.validate_request`. -/
def validateText (cls : TaskClass) (p : Payload) : Except Failure Unit :=
  require (p.input ≠ [] && p.config.truthy && p.input.all hasSource &&
    validateLanguage cls.requiresTargetLanguage p.config.language) .valueError

/-- What `TransliterationTaskService.validate_request` adds. -/
def validateSuggestions (config : Config) : Except Failure Unit :=
  match positive? (field config.fields ["num_suggestions", "numSuggestions"]) with
  | none => .error .typeError
  | some none => .ok ()
  | some (some _) =>
    require (field config.fields ["is_sentence", "isSentence"] = none) .valueError

/-- `_validate_audio_items`. -/
def validateAudio (p : Payload) : Except Failure Unit :=
  require (p.audio ≠ [] && p.audio.all fun item =>
    (field item ["audio_content", "audioContent", "audio_uri", "audioUri"]).isSome) .valueError

/-- `ImageBase.validate_request`. -/
def validateImage (p : Payload) : Except Failure Unit :=
  require (p.image ≠ [] && p.image.all fun item =>
    (field item ["imageContent", "image_content", "imageUri", "image_uri"]).isSome) .valueError

/-- `validate_request`. -/
def validateRequest (cls : TaskClass) (p : Payload) : Except Failure Unit :=
  match cls with
  | .transliteration => do
    validateText cls p
    validateSuggestions p.config
  | .nmt | .ner | .languageDetection | .tts => validateText cls p
  | .asr => do
    validateAudio p
    require (p.config.language.any fun language => language.source.isSome) .valueError
  | .audioLanguageDetection | .languageDiarization | .speakerDiarization => validateAudio p
  | .ocr => validateImage p
  | .pii => .error .notImplemented

/-! ## Preprocessing of text -/

/-- `str.isspace`. -/
def isSpace (c : Char) : Bool :=
  (9 ≤ c.toNat && c.toNat ≤ 13) || (28 ≤ c.toNat && c.toNat ≤ 32) ||
    (8192 ≤ c.toNat && c.toNat ≤ 8202) ||
    c.toNat ∈ [133, 160, 5760, 8232, 8233, 8239, 8287, 12288]

/-- `s.split()`. -/
def words (s : Text) : List Text := (s.splitOnP isSpace).filter (· ≠ [])

/-- `_normalize_text`. -/
def normalizeText (s : Text) : Text := [' '].intercalate (words s)

/-- `_sanitize_source`: line breaks are white space, and nothing becomes one blank. -/
def sanitizeSource (s : Text) : Text :=
  if normalizeText s = [] then [' '] else normalizeText s

def sourceOf (item : Item) : Text :=
  match item.get? "source" with
  | some (.str s) => s
  | _ => []

/-- `TextBase.preprocess_input` on an item. -/
def sanitizeItem (item : Item) : Item := item.set "source" (.str (sanitizeSource (sourceOf item)))

/-- `s.strip()`. -/
def strip (s : Text) : Text := ((s.dropWhile isSpace).reverse.dropWhile isSpace).reverse

theorem strip_eq_self {t : Text} (h : ∀ c ∈ t, isSpace c = false) : strip t = t := by
  have hdrop : ∀ u : Text, (∀ c ∈ u, isSpace c = false) → u.dropWhile isSpace = u := by
    intro u hu
    cases u with
    | nil => rfl
    | cons c u => exact List.dropWhile_cons_of_neg (by rw [hu c List.mem_cons_self]; simp)
  unfold strip
  rw [hdrop t h, hdrop t.reverse fun c hc => h c (List.mem_reverse.mp hc), List.reverse_reverse]

/-- `s.rfind(c, 0, end)`, when it is positive. -/
def rfindPositive (s : Text) (c : Char) (stop : Nat) : Option Nat :=
  ((List.range (min stop s.length)).filter fun i => 0 < i && s[i]? = some c).getLast?

/-- Where `_chunk_text` cuts a text that is too long. -/
def splitPos (s : Text) (maxLength : Nat) : Nat :=
  match ['.', '?', '!', '।', ',', ' '].findSome? fun sep => rfindPositive s sep maxLength with
  | some pos => pos + 1
  | none => maxLength

/-- The loop of `_chunk_text`; every round takes a character, so the length is fuel enough. -/
def chunkLoop (maxLength : Nat) : Nat → Text → List Text
  | 0, text => [text]
  | fuel + 1, text =>
    if text.length ≤ maxLength then [text]
    else
      let pos := splitPos text maxLength
      strip (text.take pos) :: chunkLoop maxLength fuel (strip (text.drop pos))

/-- `_chunk_text`. -/
def chunkText (text : Text) (maxLength : Nat) : List Text :=
  let text := normalizeText text
  if text = [] then [[]]
  else if text.length ≤ maxLength then [text]
  else (chunkLoop maxLength text.length text).filter (· ≠ [])

/-- `_MAX_CHUNK_LENGTH`. -/
def maxChunkLength : Nat := 400

/-- `_validated_duration`: the duration that is asked for, if any. -/
def validatedDuration (engine : Engine) (raw : Option Value) : Except Failure Value :=
  match raw with
  | none => .ok .null
  | some v =>
    let parsed := match v with
      | .str s => engine.floatOf s
      | v => v.number?
    match parsed with
    | some x => if 0 < x ∧ x ≤ 300 then .ok (.num x) else .error .valueError
    | none => .error .valueError

/-- The chunk items of an item in `TTSTaskService.preprocess_input`. -/
def chunkItem (engine : Engine) (config : Config) (index : Nat) (item : Item) :
    Except Failure (List Item) := do
  let duration ← validatedDuration engine (field item ["audioDuration", "audio_duration"])
  return (chunkText (sourceOf item) maxChunkLength).map fun piece =>
    [("source", .str piece),
      ("gender", (config.fields.get? "gender").getD (.str "female".toList)),
      ("language_id", .str ((config.language.bind Language.source).getD [])),
      ("_item_index", .num index),
      ("audioDuration", duration)]

/-- The loop over the items, from a given index on. -/
def chunkItems (engine : Engine) (config : Config) : Nat → List Item → Except Failure (List Item)
  | _, [] => .ok []
  | index, item :: rest => do
    let chunks ← chunkItem engine config index item
    return chunks ++ (← chunkItems engine config (index + 1) rest)

/-! ## Preprocessing of audio and images -/

/-- The body behind a URI, in base64. -/
abbrev Download := Value → Except Failure Value

/-- The content of an item, or the download of its URI. -/
def resolveContent (download : Download) (item : Item) (content uri : List String) :
    Except Failure Value :=
  match field item content, field item uri with
  | some v, _ => .ok v
  | none, some v => download v
  | none, none => .error .valueError

/-- `AudioBase.preprocess_input` on an item. -/
def passThrough (download : Download) (item : Item) : Except Failure Item :=
  match field item ["audio_content", "audioContent"], field item ["audio_uri", "audioUri"] with
  | none, some uri => do
    let content ← download uri
    return item.set "audio_content" content
  | _, _ => .ok item

/-- `TARGET_SAMPLE_RATE`. -/
def targetSampleRate : ℚ := 16000

/-- `ASRTaskService.preprocess_input` on an item. Audio without samples makes `np.max` raise. -/
def decodeItem (engine : Engine) (download : Download) (item : Item) :
    Except Failure Item := do
  let content ← resolveContent download item ["audio_content", "audioContent"]
    ["audio_uri", "audioUri"]
  match engine.readSamples content with
  | none | some 0 => .error .valueError
  | some (n + 1) =>
    return ((item.set "samples" (.compound true)).set "num_samples" (.num (n + 1 : Nat))).set
      "sample_rate" (.num targetSampleRate)

/-- `ImageBase.preprocess_input` on an item. -/
def resolveImage (download : Download) (item : Item) : Except Failure Item := do
  let content ← resolveContent download item ["imageContent", "image_content"]
    ["imageUri", "image_uri"]
  return item.set "image_content" content

/-- `preprocess_input`: the items of the modality. -/
def preprocessInput (engine : Engine) (download : Download) (cls : TaskClass) (p : Payload) :
    Except Failure (List Item) :=
  match cls with
  | .nmt | .ner | .transliteration | .languageDetection => .ok (p.input.map sanitizeItem)
  | .tts => chunkItems engine p.config 0 (p.input.map sanitizeItem)
  | .asr => p.audio.mapM (decodeItem engine download)
  | .audioLanguageDetection | .languageDiarization | .speakerDiarization =>
    p.audio.mapM (passThrough download)
  | .ocr => p.image.mapM (resolveImage download)
  | .pii => .ok []

/-! ## Inference -/

/-- What the orchestrator knows of a service. `taskType` is the type under which it is
registered; nothing here reads it. -/
structure ServiceInfo where
  serviceId : Value
  taskType : Text
  classInstance : String
  /-- `adapter_config["call_mode"]`, empty when there is none -/
  callMode : String
  name : String
  endpoint : String
  isPublished : Bool
  tierIds : List String
  deriving DecidableEq, Repr

/-- How the call for a group goes: its inputs cannot be rendered; the server is unavailable;
the call fails otherwise or its answer cannot be used; it is answered, with what
`count_output_tokens` makes of the answer. -/
inductive GroupOutcome
  | notRendered
  | unavailable
  | failed
  | answered (outputTokens : ℚ)
  deriving DecidableEq, Repr

/-- What happens to a service that processes a payload. -/
structure Outcome where
  download : Download
  group : Nat → GroupOutcome
  postprocessed : Bool

/-- An exported ai-inference span. -/
structure Span where
  serviceId : Value
  inputTokens : ℚ
  outputTokens : ℚ
  deriving DecidableEq, Repr

/-- The spans of a run, the groups it completed, and how it ended. -/
structure Ran (α : Type) where
  spans : List Span
  completedGroups : Nat
  ending : Except Failure α

/-- `call_mode` is "per_item". -/
def callsPerItem (cls : TaskClass) (info : ServiceInfo) : Bool :=
  if info.callMode = "" then cls.perItem else info.callMode = "per_item"

/-- The groups of items that share a call. -/
def groups (cls : TaskClass) (info : ServiceInfo) (items : List Item) : List (List Item) :=
  if callsPerItem cls info then items.map fun item => [item] else [items]

/-- The loop over the groups in `run_inference`. The tokens of a failed call are zeroed. -/
def runGroups (engine : Engine) (serviceId : Value) (unitType : String)
    (outcome : Nat → GroupOutcome) : Nat → List (List Item) → Ran Unit
  | _, [] => ⟨[], 0, .ok ()⟩
  | n, group :: rest =>
    match outcome n with
    | .notRendered => ⟨[], 0, .error .runtimeError⟩
    | .unavailable => ⟨[⟨serviceId, 0, 0⟩], 0, .error .unavailable⟩
    | .failed => ⟨[⟨serviceId, 0, 0⟩], 0, .error .runtimeError⟩
    | .answered outputTokens =>
      let ran := runGroups engine serviceId unitType outcome (n + 1) rest
      { spans := ⟨serviceId, countInputTokens engine group unitType, outputTokens⟩ :: ran.spans
        completedGroups := ran.completedGroups + 1
        ending := ran.ending }

/-- `get_unit_type(payload.get("task_type", ""))`; what is no string raises inside it. -/
def unitTypeOf (catalogue : Catalogue) (p : Payload) : String :=
  match p.taskType with
  | none => getUnitType catalogue []
  | some (.str t) => getUnitType catalogue t
  | some _ => "unknown"

/-- `run_inference`, on the preprocessed items. -/
def runInference (engine : Engine) (catalogue : Catalogue) (cls : TaskClass)
    (info : ServiceInfo) (p : Payload) (items : List Item) (outcome : Outcome) : Ran Unit :=
  if info.name = "" ∨ info.endpoint = "" then ⟨[], 0, .error .runtimeError⟩
  else if items = [] then ⟨[], 0, .error .valueError⟩
  else runGroups engine info.serviceId (unitTypeOf catalogue p) outcome.group 0
    (groups cls info items)

/-- `process`, with the items that were processed. -/
def process (engine : Engine) (catalogue : Catalogue) (cls : TaskClass) (info : ServiceInfo)
    (p : Payload) (outcome : Outcome) : Ran (List Item) :=
  match validateRequest cls p with
  | .error e => ⟨[], 0, .error e⟩
  | .ok () =>
    match preprocessInput engine outcome.download cls p with
    | .error e => ⟨[], 0, .error e⟩
    | .ok items =>
      let ran := runInference engine catalogue cls info p items outcome
      match ran.ending with
      | .error e => ⟨ran.spans, ran.completedGroups, .error e⟩
      | .ok () =>
        ⟨ran.spans, ran.completedGroups,
          if outcome.postprocessed then .ok items else .error .runtimeError⟩

end Ai4iCore.Task
