import Ai4iCore.Base.Dict
import Mathlib.Algebra.Order.Field.Rat

/-!
# Billed units of a task request

`trace/span_attributes.py`: the billing unit comes from the inference-type catalogue
(`get_unit_type`), and `count_input_tokens` counts the input items of a call in that unit —
characters, minutes of audio or images. A count that raises is a count of 0.

Items are the objects of the request body, as preprocessing leaves them. What reads audio
(`soundfile`, with the resampling behind it) and the rounding of floating point are the
parameter `Engine`.
-/

namespace Ai4iCore.Task

abbrev Text := List Char

instance : LawfulBEq Text := inferInstanceAs (LawfulBEq (List Char))

/-! ## Items -/

/-- A JSON value; of a list or an object only whether it is empty. -/
inductive Value
  | null
  | bool (b : Bool)
  | num (x : ℚ)
  | str (s : Text)
  | compound (nonEmpty : Bool)
  deriving DecidableEq, Repr

namespace Value

/-- `bool(v)`. -/
def truthy : Value → Bool
  | null => false
  | bool b => b
  | num x => x ≠ 0
  | str s => s ≠ []
  | compound nonEmpty => nonEmpty

/-- The number in an arithmetic expression; `none` raises. -/
def number? : Value → Option ℚ
  | bool b => some (if b then 1 else 0)
  | num x => some x
  | _ => none

end Value

abbrev Item := Dict String Value

/-- `_field`, and `item.get(a) or item.get(b)`: the first truthy value. -/
def field (item : Item) (names : List String) : Option Value :=
  names.findSome? fun name => (item.get? name).filter Value.truthy

/-- The audio libraries and the arithmetic of doubles. -/
structure Engine where
  /-- rounding of an exact result -/
  fl : ℚ → ℚ
  /-- frames and sample rate in the header of base64 audio; `none` raises -/
  soundfileInfo : Value → Option (Nat × Nat)
  /-- samples of base64 audio, mono at 16 kHz; `none` raises -/
  readSamples : Value → Option Nat
  /-- `float(s)`; `none` raises -/
  floatOf : Text → Option ℚ

/-! ## The unit -/

/-- `str.upper`, as far as it leads to ASCII. -/
def upperChar (c : Char) : Text :=
  if 'a' ≤ c ∧ c ≤ 'z' then [Char.ofNat (c.toNat - 32)]
  else
    match c with
    | 'ı' => ['I']
    | 'ſ' => ['S']
    | 'ß' => ['S', 'S']
    | 'ﬀ' => ['F', 'F']
    | 'ﬁ' => ['F', 'I']
    | 'ﬂ' => ['F', 'L']
    | 'ﬃ' => ['F', 'F', 'I']
    | 'ﬄ' => ['F', 'F', 'L']
    | 'ﬅ' => ['S', 'T']
    | 'ﬆ' => ['S', 'T']
    | c => [c]

def upper (s : Text) : Text := s.flatMap upperChar

/-- `str.lower`, as far as it leads to ASCII. -/
def lowerChar (c : Char) : Char :=
  if 'A' ≤ c ∧ c ≤ 'Z' then Char.ofNat (c.toNat + 32)
  else if c = 'K' then 'k' else c

def lower (s : Text) : Text := s.map lowerChar

/-- `_TASK_TYPE_TO_CATALOGUE_NAME`. -/
def taskTypeToCatalogueName : Dict Text Text :=
  [("audio-language-detection".toList, "audio-lang-detection".toList)]

/-- The catalogue: names with their units. -/
abbrev Catalogue := Dict Text String

/-- `get_unit_type`. -/
def getUnitType (catalogue : Catalogue) (taskType : Text) : String :=
  let normalized := (lower taskType).map fun c => if c = '_' then '-' else c
  let normalized := (taskTypeToCatalogueName.get? normalized).getD normalized
  (catalogue.get? normalized).getD "unknown"

/-! ## The count -/

/-- What an item adds to `_count_text_tokens`. -/
def textLength (item : Item) : Nat :=
  match field item ["source"] with
  | some (.str s) => s.length
  | _ => 0

/-- `_count_text_tokens`. -/
def countTextTokens (items : List Item) : Nat := (items.map textLength).sum

/-- `_decode_audio_duration_seconds`. -/
def decodeAudioDurationSeconds (engine : Engine) (audioContent : Value) : ℚ :=
  match engine.soundfileInfo audioContent with
  | some (frames, rate) => if rate = 0 then 0 else engine.fl (frames / rate)
  | none => 0

/-- `n > 0` for a field that may be missing; `none` raises. -/
def positive? : Option Value → Option (Option ℚ)
  | none => some none
  | some v => v.number?.map fun x => if 0 < x then some x else none

/-- The seconds of an item, for `_count_audio_tokens`; `none` raises. -/
def durationSeconds (engine : Engine) (item : Item) : Option ℚ :=
  let audioContent := field item ["audio_content", "audioContent"]
  let decoded := match audioContent with
    | some v => decodeAudioDurationSeconds engine v
    | none => 0
  match positive? (field item ["num_samples", "numSamples"]) with
  | none => none
  | some none => some decoded
  | some (some samples) =>
    match positive? (field item ["sample_rate", "sampleRate"]) with
    | none => none
    | some none => some decoded
    | some (some rate) => some (engine.fl (samples / engine.fl rate))

/-- The minutes of one more item. -/
def addMinutes (engine : Engine) (total seconds : ℚ) : ℚ :=
  if 0 < seconds then engine.fl (total + engine.fl (seconds / 60)) else total

/-- `_count_audio_tokens`; `none` raises. -/
def countAudioTokens (engine : Engine) (items : List Item) : Option ℚ :=
  items.foldlM (fun total item => (durationSeconds engine item).map (addMinutes engine total)) 0

/-- `count_input_tokens`. -/
def countInputTokens (engine : Engine) (items : List Item) (unitType : String) : ℚ :=
  if items = [] then 0
  else if unitType = "characters" then countTextTokens items
  else if unitType = "audio_minutes" then (countAudioTokens engine items).getD 0
  else if unitType = "images" then items.length
  else 0

end Ai4iCore.Task
