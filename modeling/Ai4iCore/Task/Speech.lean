import Ai4iCore.Base.Rounding
import Ai4iCore.Task.Words

/-!
# Text-to-speech

`TTSTaskService` (tts_service.py) cuts the text of every item into chunks, one call each, and puts
the samples of the chunks of an item together again. The cutting is `chunkText` of the task
services; here is `postprocess_output`, and that nothing of a text is lost on either way
(`speech_complete`).

What scipy and pydub do with samples is `Studio`; arithmetic of doubles is that of `Engine`.
-/

namespace Ai4iCore.Task

/-! ## Postprocessing -/

/-- The samples of a waveform, 16 bits each. -/
abbrev Samples := List Int

/-- `_TRITON_SAMPLE_RATE`. -/
def tritonSampleRate : Nat := 22050

/-- The signal processing and the encoders. -/
structure Studio where
  /-- `int(s)`; `none` raises -/
  intOf : Text → Option Int
  /-- `sps.resample` to a number of samples, as 16 bits -/
  resample : Samples → Nat → Samples
  /-- `_to_audio_bytes` in base64 -/
  audioBytes : Samples → Nat → Text → Except Failure Text

/-- `int(raw)`. -/
def intValue (studio : Studio) : Value → Option Int
  | .str s => studio.intOf s
  | .num x => some (Rounding.down x)
  | .bool b => some (if b then 1 else 0)
  | .null | .compound _ => none

/-- `_validated_sample_rate`. -/
def validatedSampleRate (studio : Studio) (config : Config) : Except Failure Nat :=
  match field config.fields ["samplingRate", "sampling_rate"] with
  | none => .ok tritonSampleRate
  | some raw =>
    match intValue studio raw with
    | none => .error .valueError
    | some rate => if 8000 ≤ rate ∧ rate ≤ 48000 then .ok rate.toNat else .error .valueError

/-- The format that is asked for; a value that is no text has no `lower`. -/
def audioFormat (config : Config) : Except Failure Text :=
  match field config.fields ["audioFormat", "audio_format"] with
  | none => .ok ['w', 'a', 'v']
  | some (.str format) => .ok (lower format)
  | some _ => .error .typeError

/-- `_resample_audio`. -/
def resampleAudio (engine : Engine) (studio : Studio) (audio : Samples) (fromRate toRate : Nat) :
    Samples :=
  if fromRate = toRate then audio
  else studio.resample audio
    (Rounding.halfEven (engine.fl (engine.fl (audio.length * toRate) / fromRate))).toNat

/-- `_stretch_audio`. -/
def stretchAudio (engine : Engine) (studio : Studio) (audio : Samples) (rate : Nat)
    (duration : ℚ) : Samples :=
  studio.resample audio (max 1 (Rounding.down (engine.fl (duration * rate))).toNat)

/-- `_append_silence`. -/
def appendSilence (engine : Engine) (audio : Samples) (rate : Nat) (duration : ℚ) : Samples :=
  audio ++ List.replicate
    ((Rounding.down (engine.fl (duration * rate))).toNat - audio.length) 0

/-- The samples at the duration that is asked for, if any. -/
def fitDuration (engine : Engine) (studio : Studio) (rate : Nat) (audio : Samples)
    (duration : Value) : Samples :=
  match duration with
  | .num wanted =>
    let actual := engine.fl (audio.length / rate)
    if wanted < actual then stretchAudio engine studio audio rate wanted
    else if actual < wanted then appendSilence engine audio rate wanted
    else audio
  | _ => audio

/-- An entry of `audio`; its URI is empty. -/
structure AudioOutput where
  audioContent : Text
  audioDuration : ℚ
  deriving DecidableEq, Repr

/-- The audio of an item from the samples of its chunks, put together. -/
def renderAudio (engine : Engine) (studio : Studio) (rate : Nat) (format : Text)
    (combined : Samples) (duration : Value) : Except Failure AudioOutput :=
  let resampled :=
    if rate = tritonSampleRate then combined
    else resampleAudio engine studio combined tritonSampleRate rate
  let fitted := fitDuration engine studio rate resampled duration
  (studio.audioBytes fitted rate format).map fun content =>
    ⟨content, engine.fl (fitted.length / rate)⟩

/-- The envelope of the response. -/
structure SpeechResponse where
  audio : List AudioOutput
  sourceLanguage : Text
  audioFormat : Text
  samplingRate : Nat
  audioDuration : ℚ
  deriving DecidableEq, Repr

/-- `chunk.get("_item_index", 0)`. -/
def itemIndex (chunk : Item) : ℚ :=
  match chunk.get? "_item_index" with
  | some (.num index) => index
  | _ => 0

/-- `chunk.get("audioDuration")`. -/
def chunkDuration (chunk : Item) : Value := (chunk.get? "audioDuration").getD .null

/-- `postprocess_output` for the chunks and what each of them became. -/
def postprocessOutput (engine : Engine) (studio : Studio) (config : Config) (chunks : List Item)
    (responseData : List Samples) : Except Failure SpeechResponse := do
  let rate ← validatedSampleRate studio config
  let format ← audioFormat config
  let pairs := chunks.zip responseData
  let merged := Dict.extendAll (pairs.map fun p => (itemIndex p.1, [p.2]))
  let durations := Dict.setAll [] (pairs.map fun p => (itemIndex p.1, chunkDuration p.1))
  let audio ← ((merged.map Prod.fst).insertionSort (· ≤ ·)).mapM fun index =>
    renderAudio engine studio rate format ((merged.get? index).getD []).flatten
      ((durations.get? index).getD .null)
  return { audio
           sourceLanguage := (config.language.bind Language.source).getD []
           audioFormat := format
           samplingRate := rate
           audioDuration := (audio.head?.map AudioOutput.audioDuration).getD 0 }

/-! ## Chunks -/

theorem splitPos_bounds (t : Text) {maxLength : Nat} (hmax : 0 < maxLength) :
    0 < splitPos t maxLength ∧ splitPos t maxLength ≤ maxLength := by
  unfold splitPos
  split
  · rename_i pos hpos
    obtain ⟨sep, -, hfind⟩ := List.exists_of_findSome?_eq_some hpos
    have hmem := List.mem_of_getLast? hfind
    rw [List.mem_filter, List.mem_range] at hmem
    have := hmem.1
    omega
  · exact ⟨hmax, le_refl _⟩

/-- The chunks one after the other are the text, but for white space at the cuts. -/
inductive Cut : List Text → Text → Prop
  | last (t : Text) : Cut [t] t
  | cut {chunk w rest : Text} {chunks : List Text} (hw : Blank w) (hrest : Cut chunks rest) :
    Cut (chunk :: chunks) (chunk ++ (w ++ rest))

/-- The loop of `_chunk_text` runs and ends with these chunks. -/
inductive Cuts (maxLength : Nat) : Text → List Text → Prop
  | done {t : Text} (hlength : t.length ≤ maxLength) : Cuts maxLength t [t]
  | round {t : Text} {chunks : List Text} (hlength : maxLength < t.length)
    (hrest : Cuts maxLength (strip (t.drop (splitPos t maxLength))) chunks) :
    Cuts maxLength t (strip (t.take (splitPos t maxLength)) :: chunks)

/-- A round leaves less of the text. -/
theorem length_strip_drop_lt {t : Text} (ht : Trimmed t) {maxLength : Nat} (hmax : 0 < maxLength)
    (hlength : maxLength < t.length) :
    (strip (t.drop (splitPos t maxLength))).length < t.length := by
  have hpos := splitPos_bounds t hmax
  obtain ⟨w, -, heq, -⟩ := strip_drop ht (show splitPos t maxLength < t.length by omega)
  have := congrArg List.length heq
  rw [List.length_append, List.length_drop] at this
  omega

/-- **The loop ends**, before the fuel does. -/
theorem cuts_chunkLoop {maxLength : Nat} (hmax : 0 < maxLength) {fuel : Nat} {t : Text}
    (ht : Trimmed t) (hfuel : t.length ≤ fuel) : Cuts maxLength t (chunkLoop maxLength fuel t) := by
  induction fuel generalizing t with
  | zero => exact .done (by omega)
  | succ fuel ih =>
    unfold chunkLoop
    split
    · exact .done ‹_›
    · rename_i hlong
      have hpos := splitPos_bounds t hmax
      have hlt := length_strip_drop_lt ht hmax (by omega)
      obtain ⟨-, -, -, -, htrimmed⟩ :=
        strip_drop ht (show splitPos t maxLength < t.length by omega)
      exact .round (by omega) (ih htrimmed (by omega))

/-- What the loop makes of a text: chunks that are not empty and not too long, and nothing of the
text is lost but white space at the cuts. -/
theorem Cuts.spec {maxLength : Nat} (hmax : 0 < maxLength) {t : Text} {chunks : List Text}
    (h : Cuts maxLength t chunks) (ht : Trimmed t) (hne : t ≠ []) :
    Cut chunks t ∧ ∀ chunk ∈ chunks, chunk ≠ [] ∧ chunk.length ≤ maxLength := by
  induction h with
  | @done t hlength =>
    refine ⟨.last t, fun chunk hchunk => ?_⟩
    rw [List.mem_singleton.mp hchunk]
    exact ⟨hne, hlength⟩
  | @round t chunks hlength hrest ih =>
    have hpos := splitPos_bounds t hmax
    obtain ⟨w, hw, htake, hstart⟩ := strip_take ht hpos.1 hne
    obtain ⟨w', hw', hdrop, hend, htrimmed⟩ :=
      strip_drop ht (show splitPos t maxLength < t.length by omega)
    obtain ⟨hcut, hchunks⟩ := ih htrimmed hend
    constructor
    · have htext : t = strip (t.take (splitPos t maxLength)) ++
          ((w ++ w') ++ strip (t.drop (splitPos t maxLength))) := by
        rw [List.append_assoc, ← hdrop, ← List.append_assoc, ← htake, List.take_append_drop]
      have hblank : Blank (w ++ w') := fun c hc =>
        (List.mem_append.mp hc).elim (hw c) (hw' c)
      have hall : Cut (strip (t.take (splitPos t maxLength)) :: chunks)
          (strip (t.take (splitPos t maxLength)) ++
            ((w ++ w') ++ strip (t.drop (splitPos t maxLength)))) := .cut hblank hcut
      rwa [← htext] at hall
    · intro chunk hchunk
      rcases List.mem_cons.mp hchunk with rfl | hchunk
      · refine ⟨hstart, ?_⟩
        have := congrArg List.length htake
        rw [List.length_append, List.length_take] at this
        omega
      · exact hchunks chunk hchunk

/-! ## Normalised texts -/

/-- Sanitizing does not change what the words are. -/
theorem normalizeText_sanitizeSource (t : Text) :
    normalizeText (sanitizeSource t) = normalizeText t := by
  have hwords : words (normalizeText t) = words t :=
    words_intercalate fun _ hu => isWord_of_mem_words hu
  unfold sanitizeSource
  split
  · rename_i hempty
    rw [hempty, normalizeText, words_cons_space (by decide), words_nil]
    rfl
  · rw [normalizeText, hwords]
    rfl

theorem trimmed_normalizeText (t : Text) : Trimmed (normalizeText t) :=
  trimmed_intercalate fun _ hu => isWord_of_mem_words hu

/-- The chunks of an item of a request, which is sanitized first. -/
def pieces (item : Item) : List Text := chunkText (sanitizeSource (sourceOf item)) maxChunkLength

/-- What is asked of the chunks of a text: one empty chunk for a blank one, else chunks that are
not empty and not too long, together the normalised text but for white space at the cuts. -/
structure Spoken (source : Text) (chunks : List Text) : Prop where
  blank : normalizeText source = [] → chunks = [[]]
  cut : normalizeText source ≠ [] → Cut chunks (normalizeText source)
  chunk : normalizeText source ≠ [] → ∀ chunk ∈ chunks, chunk ≠ [] ∧ chunk.length ≤ 400
  ends : 400 < (normalizeText source).length → Cuts 400 (normalizeText source) chunks

theorem chunkText_of_long {t : Text} {maxLength : Nat} (hmax : 0 < maxLength)
    (h : maxLength < (normalizeText t).length) :
    chunkText t maxLength = chunkLoop maxLength (normalizeText t).length (normalizeText t) := by
  have hne : normalizeText t ≠ [] := List.ne_nil_of_length_pos (by omega)
  have hspec := (cuts_chunkLoop hmax (trimmed_normalizeText t) (le_refl _)).spec hmax
    (trimmed_normalizeText t) hne
  unfold chunkText
  dsimp only
  rw [if_neg hne, if_neg (by omega), List.filter_eq_self]
  exact fun chunk hchunk => by simpa using (hspec.2 chunk hchunk).1

/-- **The chunks of a text.** -/
theorem spoken_pieces (item : Item) : Spoken (sourceOf item) (pieces item) := by
  have htext := normalizeText_sanitizeSource (sourceOf item)
  set t := normalizeText (sourceOf item) with ht
  have htrimmed : Trimmed t := trimmed_normalizeText _
  have hpieces : pieces item = if t = [] then [[]] else if t.length ≤ 400 then [t] else
      chunkLoop 400 t.length t := by
    rcases Nat.lt_or_ge 400 t.length with hlong | hshort
    · have hne : t ≠ [] := List.ne_nil_of_length_pos (by omega)
      rw [if_neg hne, if_neg (by omega), pieces, maxChunkLength,
        chunkText_of_long (by decide) (by rw [htext]; exact hlong), htext]
    · have hle : t.length ≤ maxChunkLength := hshort
      rw [if_pos hshort, pieces, chunkText, htext]
      simp only [if_pos hle]
  have hcuts : t ≠ [] → Cuts 400 t (pieces item) := by
    intro hne
    rw [hpieces, if_neg hne]
    split
    · exact .done ‹_›
    · exact cuts_chunkLoop (by decide) htrimmed (le_refl _)
  refine ⟨fun hempty => ?_, fun hne => ?_, fun hne => ?_, fun hlong => ?_⟩
  · rw [hpieces, if_pos hempty]
  · exact ((hcuts hne).spec (by decide) htrimmed hne).1
  · exact ((hcuts hne).spec (by decide) htrimmed hne).2
  · exact hcuts (List.ne_nil_of_length_pos (Nat.zero_lt_of_lt hlong))

/-! ## The chunk items -/

/-- A chunk item. -/
def chunkOf (config : Config) (index : Nat) (duration : Value) (piece : Text) : Item :=
  [("source", .str piece),
    ("gender", (config.fields.get? "gender").getD (.str "female".toList)),
    ("language_id", .str ((config.language.bind Language.source).getD [])),
    ("_item_index", .num index),
    ("audioDuration", duration)]

/-- The duration that is asked for an item. -/
def requestedDuration (engine : Engine) (item : Item) : Except Failure Value :=
  validatedDuration engine (field item ["audioDuration", "audio_duration"])

/-- The chunk items of the items from `index` on, at these durations. -/
def chunksFrom (config : Config) : Nat → List (Item × Value) → List Item
  | _, [] => []
  | index, (item, duration) :: rest =>
    (pieces item).map (chunkOf config index duration) ++ chunksFrom config (index + 1) rest

theorem sourceOf_sanitizeItem (item : Item) :
    sourceOf (sanitizeItem item) = sanitizeSource (sourceOf item) := by
  unfold sanitizeItem
  rw [sourceOf, Dict.get?_set, if_pos rfl]

theorem field_sanitizeItem (item : Item) :
    field (sanitizeItem item) ["audioDuration", "audio_duration"] =
      field item ["audioDuration", "audio_duration"] := by
  simp [field, sanitizeItem, Dict.get?_set, List.findSome?]

theorem chunkItem_sanitizeItem (engine : Engine) (config : Config) (index : Nat) (item : Item) :
    chunkItem engine config index (sanitizeItem item) =
      (requestedDuration engine item).map fun duration =>
        (pieces item).map (chunkOf config index duration) := by
  unfold chunkItem requestedDuration
  rw [field_sanitizeItem, sourceOf_sanitizeItem]
  cases validatedDuration engine (field item ["audioDuration", "audio_duration"]) <;> rfl

/-- The loop over the items: it raises where a duration is refused. -/
theorem chunkItems_eq (engine : Engine) (config : Config) (index : Nat) (items : List Item) :
    chunkItems engine config index (items.map sanitizeItem) =
      (items.mapM (requestedDuration engine)).map fun durations =>
        chunksFrom config index (items.zip durations) := by
  induction items generalizing index with
  | nil => rfl
  | cons item items ih =>
    rw [List.map_cons, chunkItems, chunkItem_sanitizeItem, ih, List.mapM_cons]
    cases requestedDuration engine item with
    | error e => rfl
    | ok duration =>
      cases items.mapM (requestedDuration engine) <;> rfl

/-! ## The samples of an item -/

section Merge

variable (config : Config)

@[simp] theorem itemIndex_chunkOf (index : Nat) (duration : Value) (piece : Text) :
    itemIndex (chunkOf config index duration piece) = index := by
  simp [itemIndex, chunkOf, Dict.get?]

@[simp] theorem chunkDuration_chunkOf (index : Nat) (duration : Value) (piece : Text) :
    chunkDuration (chunkOf config index duration piece) = duration := by
  simp [chunkDuration, chunkOf, Dict.get?]

/-- An item with its duration, and the samples of its chunks. -/
abbrev Sounded := (Item × Value) × List Samples

/-- Every chunk has its samples. -/
def Complete (sounded : List Sounded) : Prop :=
  ∀ e ∈ sounded, e.2.length = (pieces e.1.1).length

/-- What is read of the chunks, from an item on: its index, its duration and the samples. -/
def readFrom : Nat → List Sounded → List (ℚ × Value × Samples)
  | _, [] => []
  | index, e :: rest =>
    (e.2.map fun samples => ((index : ℚ), e.1.2, samples)) ++ readFrom (index + 1) rest

/-- Chunks and samples are paired within every item. -/
theorem map_zip_chunksFrom (index : Nat) {sounded : List Sounded} (h : Complete sounded) :
    ((chunksFrom config index (sounded.map Prod.fst)).zip (sounded.map Prod.snd).flatten).map
      (fun p => (itemIndex p.1, chunkDuration p.1, p.2)) = readFrom index sounded := by
  induction sounded generalizing index with
  | nil => rfl
  | cons e rest ih =>
    obtain ⟨⟨item, duration⟩, group⟩ := e
    have hlength : group.length = (pieces item).length := h _ List.mem_cons_self
    rw [List.map_cons, List.map_cons, List.flatten_cons, chunksFrom, readFrom,
      List.zip_append (by rw [List.length_map]; exact hlength.symm), List.map_append,
      ih (index + 1) fun e he => h e (List.mem_cons_of_mem _ he)]
    congr 1
    clear ih h
    generalize pieces item = chunks at hlength
    induction group generalizing chunks with
    | nil => rw [List.zip_nil_right]; rfl
    | cons samples group ihgroup =>
      cases chunks with
      | nil => cases hlength
      | cons piece chunks =>
        rw [List.map_cons, List.zip_cons_cons, List.map_cons, List.map_cons,
          ihgroup chunks (Nat.succ.inj hlength), itemIndex_chunkOf, chunkDuration_chunkOf]

theorem mem_readFrom {index : Nat} {sounded : List Sounded} {x : ℚ × Value × Samples}
    (h : x ∈ readFrom index sounded) :
    ∃ j : Nat, index ≤ j ∧ j < index + sounded.length ∧ x.1 = j := by
  induction sounded generalizing index with
  | nil => cases h
  | cons e rest ih =>
    rw [readFrom] at h
    rcases List.mem_append.mp h with h | h
    · obtain ⟨samples, -, rfl⟩ := List.mem_map.mp h
      exact ⟨index, le_refl _, by rw [List.length_cons]; omega, rfl⟩
    · obtain ⟨j, hlow, hhigh, hj⟩ := ih h
      exact ⟨j, by omega, by rw [List.length_cons]; omega, hj⟩

/-- Of one index is read what the item at its place has. -/
theorem filter_readFrom {index j : Nat} {sounded : List Sounded} {e : Sounded}
    (h : sounded[j]? = some e) :
    ((readFrom index sounded).filter fun x => x.1 = ((index + j : Nat) : ℚ)) =
      e.2.map fun samples => (((index + j : Nat) : ℚ), e.1.2, samples) := by
  induction sounded generalizing index j with
  | nil => cases h
  | cons d rest ih =>
    rw [readFrom, List.filter_append]
    cases j with
    | zero =>
      obtain rfl := Option.some.inj h
      have hrest : ((readFrom (index + 1) rest).filter fun x => x.1 = ((index + 0 : Nat) : ℚ)) =
          [] := by
        rw [List.filter_eq_nil_iff]
        intro x hx
        obtain ⟨k, hlow, -, hk⟩ := mem_readFrom hx
        rw [hk]
        have hne : k ≠ index + 0 := by omega
        simpa using fun heq => hne (by exact_mod_cast heq)
      rw [hrest, List.append_nil, List.filter_eq_self.mpr]
      · rfl
      · intro x hx
        obtain ⟨samples, -, rfl⟩ := List.mem_map.mp hx
        simp
    | succ j =>
      have hfirst : ((d.2.map fun samples => ((index : ℚ), d.1.2, samples)).filter
          fun x => x.1 = ((index + (j + 1) : Nat) : ℚ)) = [] := by
        rw [List.filter_eq_nil_iff]
        intro x hx
        obtain ⟨samples, -, rfl⟩ := List.mem_map.mp hx
        have hne : index ≠ index + (j + 1) := by omega
        simpa only [decide_eq_true_eq] using fun heq => hne (by exact_mod_cast heq)
      rw [hfirst, List.nil_append, show index + (j + 1) = index + 1 + j by omega]
      exact ih h

/-- Every item is read, as it has a chunk. -/
theorem mem_map_readFrom_iff {sounded : List Sounded} (h : ∀ e ∈ sounded, e.2 ≠ []) (k : ℚ) :
    k ∈ (readFrom 0 sounded).map Prod.fst ↔ k ∈ (List.range sounded.length).map Nat.cast := by
  constructor
  · intro hk
    obtain ⟨x, hx, rfl⟩ := List.mem_map.mp hk
    obtain ⟨j, -, hhigh, hj⟩ := mem_readFrom hx
    exact List.mem_map.mpr ⟨j, List.mem_range.mpr (by omega), hj.symm⟩
  · intro hk
    obtain ⟨j, hj, rfl⟩ := List.mem_map.mp hk
    obtain ⟨e, he⟩ : ∃ e, sounded[j]? = some e :=
      ⟨_, List.getElem?_eq_getElem (List.mem_range.mp hj)⟩
    obtain ⟨samples, group, hgroup⟩ :=
      List.exists_cons_of_ne_nil (h e (List.mem_of_getElem? he))
    have hmem : ((j : ℚ), e.1.2, samples) ∈ readFrom 0 sounded := by
      have hfilter := @filter_readFrom 0 j sounded e he
      rw [Nat.zero_add, hgroup] at hfilter
      refine List.mem_of_mem_filter (p := fun x => x.1 = (j : ℚ)) ?_
      rw [hfilter]
      exact List.mem_cons_self
    exact List.mem_map.mpr ⟨_, hmem, rfl⟩

/-- The samples that are merged under an index, and its duration. -/
theorem merged_readFrom {sounded : List Sounded} {j : Nat} {e : Sounded}
    (h : sounded[j]? = some e) (hne : e.2 ≠ []) :
    ((Dict.extendAll ((readFrom 0 sounded).map fun x => (x.1, [x.2.2]))).get? (j : ℚ)).getD [] =
        e.2 ∧
      ((Dict.setAll [] ((readFrom 0 sounded).map fun x => (x.1, x.2.1))).get? (j : ℚ)).getD .null =
        e.1.2 := by
  have hfilter := @filter_readFrom 0 j sounded e h
  rw [Nat.zero_add] at hfilter
  constructor
  · rw [Dict.get?_extendAll, List.filter_map]
    have hread : (readFrom 0 sounded).filter
        ((fun x : ℚ × List Samples => decide (x.1 = (j : ℚ))) ∘ fun x => (x.1, [x.2.2])) =
        e.2.map fun samples => ((j : ℚ), e.1.2, samples) := hfilter
    rw [hread]
    simp [List.flatMap_map]
  · rw [Dict.get?_setAll, ← List.map_reverse, List.find?_map]
    have hread : (readFrom 0 sounded).reverse.find?
        ((fun x : ℚ × Value => decide (x.1 = (j : ℚ))) ∘ fun x => (x.1, x.2.1)) =
        ((readFrom 0 sounded).filter fun x => x.1 = (j : ℚ)).reverse.head? := by
      rw [← List.filter_reverse, List.head?_filter]
      rfl
    rw [hread, hfilter]
    obtain ⟨samples, group, hgroup⟩ := List.exists_cons_of_ne_nil (List.reverse_ne_nil_iff.mpr hne)
    rw [← List.map_reverse, hgroup]
    rfl

/-- **The merged samples are in the order of the items.** -/
theorem sorted_readFrom {sounded : List Sounded} (h : ∀ e ∈ sounded, e.2 ≠ []) :
    ((Dict.extendAll ((readFrom 0 sounded).map fun x => (x.1, [x.2.2]))).map
      Prod.fst).insertionSort (· ≤ ·) = (List.range sounded.length).map Nat.cast := by
  have hkeys : ∀ k : ℚ, k ∈ (Dict.extendAll ((readFrom 0 sounded).map fun x =>
      (x.1, [x.2.2]))).map Prod.fst ↔ k ∈ (List.range sounded.length).map Nat.cast := by
    intro k
    rw [Dict.mem_map_fst_extendAll, List.map_map, ← mem_map_readFrom_iff h]
    rfl
  have hnodup : ((List.range sounded.length).map (Nat.cast : ℕ → ℚ)).Nodup :=
    List.Nodup.map Nat.cast_injective List.nodup_range
  have hperm := (List.perm_ext_iff_of_nodup (Dict.nodup_extendAll _) hnodup).mpr hkeys
  have hsorted : ((List.range sounded.length).map (Nat.cast : ℕ → ℚ)).Pairwise (· ≤ ·) := by
    rw [List.pairwise_map]
    exact List.pairwise_le_range.imp fun hle => Nat.cast_le.mpr hle
  exact List.Perm.eq_of_pairwise' (List.pairwise_insertionSort _ _) hsorted
    ((List.perm_insertionSort _ _).trans hperm)

/-- A job for every index is a job for every item. -/
theorem mapM_range {β : Type} {sounded : List Sounded} {render : ℚ → Except Failure β}
    {renderItem : Sounded → Except Failure β} (index : Nat)
    (h : ∀ (j : Nat) (e : Sounded), sounded[j]? = some e →
      render ((index + j : Nat) : ℚ) = renderItem e) :
    ((List.range' index sounded.length).map Nat.cast).mapM render = sounded.mapM renderItem := by
  induction sounded generalizing index with
  | nil => rfl
  | cons e rest ih =>
    have hfirst : render (index : ℚ) = renderItem e := h 0 e rfl
    have hrest := ih (index + 1) fun j e' he' => by
      rw [show index + 1 + j = index + (j + 1) by omega]
      exact h (j + 1) e' he'
    rw [List.length_cons, List.range'_succ, List.map_cons, List.mapM_cons, List.mapM_cons, hfirst,
      hrest]

end Merge

/-! ## The whole of it -/

/-- The audio of an item, from the samples of its chunks in their order. -/
def renderItem (engine : Engine) (studio : Studio) (rate : Nat) (format : Text) (e : Sounded) :
    Except Failure AudioOutput :=
  renderAudio engine studio rate format e.2.flatten e.1.2

/-- The response of the items that have sounded. -/
def respond (engine : Engine) (studio : Studio) (config : Config) (sounded : List Sounded) :
    Except Failure SpeechResponse := do
  let rate ← validatedSampleRate studio config
  let format ← audioFormat config
  let audio ← sounded.mapM (renderItem engine studio rate format)
  return { audio
           sourceLanguage := (config.language.bind Language.source).getD []
           audioFormat := format
           samplingRate := rate
           audioDuration := (audio.head?.map AudioOutput.audioDuration).getD 0 }

theorem pieces_ne_nil (item : Item) : pieces item ≠ [] := by
  have hspoken := spoken_pieces item
  by_cases hempty : normalizeText (sourceOf item) = []
  · rw [hspoken.blank hempty]
    exact List.cons_ne_nil _ _
  · have hcut := hspoken.cut hempty
    intro hnil
    rw [hnil] at hcut
    cases hcut

/-- **Postprocessing puts the samples of every item together.** -/
theorem postprocessOutput_eq (engine : Engine) (studio : Studio) (config : Config)
    {sounded : List Sounded} (h : Complete sounded) :
    postprocessOutput engine studio config (chunksFrom config 0 (sounded.map Prod.fst))
      (sounded.map Prod.snd).flatten = respond engine studio config sounded := by
  have hne : ∀ e ∈ sounded, e.2 ≠ [] := by
    intro e he hnil
    have hlength := h e he
    rw [hnil] at hlength
    exact pieces_ne_nil e.1.1 (List.length_eq_zero_iff.mp hlength.symm)
  have hread := map_zip_chunksFrom config 0 h
  have hmerged := congrArg (List.map fun x : ℚ × Value × Samples => (x.1, [x.2.2])) hread
  have hdurations := congrArg (List.map fun x : ℚ × Value × Samples => (x.1, x.2.1)) hread
  rw [List.map_map] at hmerged hdurations
  have hmapM : ∀ rate format,
      ((List.range sounded.length).map Nat.cast).mapM (fun index : ℚ =>
        renderAudio engine studio rate format
          (((Dict.extendAll ((readFrom 0 sounded).map fun x => (x.1, [x.2.2]))).get?
            index).getD []).flatten
          (((Dict.setAll [] ((readFrom 0 sounded).map fun x => (x.1, x.2.1))).get? index).getD
            .null)) = sounded.mapM (renderItem engine studio rate format) := by
    intro rate format
    rw [List.range_eq_range']
    refine mapM_range 0 fun j e he => ?_
    obtain ⟨hsamples, hduration⟩ := merged_readFrom he (hne e (List.mem_of_getElem? he))
    rw [Nat.zero_add, hsamples, hduration]
    rfl
  unfold postprocessOutput respond
  dsimp only
  dsimp only [Function.comp_def] at hmerged hdurations
  rw [hmerged, hdurations, sorted_readFrom hne]
  simp only [hmapM]

/-- A list is cut into parts of given lengths. -/
theorem exists_flatten {α : Type} (lengths : List Nat) (xs : List α) (h : xs.length = lengths.sum) :
    ∃ parts : List (List α), parts.flatten = xs ∧ parts.map List.length = lengths := by
  induction lengths generalizing xs with
  | nil =>
    refine ⟨[], ?_, rfl⟩
    rw [List.length_eq_zero_iff.mp h]
    rfl
  | cons n lengths ih =>
    rw [List.sum_cons] at h
    obtain ⟨parts, hflatten, hlengths⟩ := ih (xs.drop n) (by rw [List.length_drop]; omega)
    refine ⟨xs.take n :: parts, ?_, ?_⟩
    · rw [List.flatten_cons, hflatten, List.take_append_drop]
    · rw [List.map_cons, hlengths, List.length_take, min_eq_left (by omega)]

theorem length_chunksFrom (config : Config) (index : Nat) (items : List (Item × Value)) :
    (chunksFrom config index items).length = (items.map fun e => (pieces e.1).length).sum := by
  induction items generalizing index with
  | nil => rfl
  | cons e items ih =>
    rw [chunksFrom, List.length_append, List.length_map, ih, List.map_cons, List.sum_cons]

/-- Samples for every chunk are samples for every item. -/
theorem exists_sounded (config : Config) (items : List (Item × Value)) (samples : List Samples)
    (h : samples.length = (chunksFrom config 0 items).length) :
    ∃ sounded : List Sounded, sounded.map Prod.fst = items ∧ Complete sounded ∧
      (sounded.map Prod.snd).flatten = samples := by
  rw [length_chunksFrom] at h
  obtain ⟨parts, hflatten, hlengths⟩ := exists_flatten _ samples h
  have hsame : parts.length = items.length := by
    simpa using congrArg List.length hlengths
  refine ⟨items.zip parts, List.map_fst_zip hsame.ge, ?_, ?_⟩
  · intro e he
    obtain ⟨j, hj, rfl⟩ := List.mem_iff_getElem.mp he
    rw [List.length_zip] at hj
    have hpart : parts[j].length = (pieces items[j].1).length := by
      have := congrArg (fun l => l[j]?) hlengths
      simpa [List.getElem?_eq_getElem (show j < parts.length by omega),
        List.getElem?_eq_getElem (show j < items.length by omega)] using this
    simpa using hpart
  · rw [List.map_snd_zip hsame.le, hflatten]

/-- What a response has: one audio for every item, in their order, made of the samples of its
chunks. -/
theorem respond_ok {engine : Engine} {studio : Studio} {config : Config} {sounded : List Sounded}
    {response : SpeechResponse} (h : respond engine studio config sounded = .ok response) :
    List.Forall₂ (fun e audio =>
      renderItem engine studio response.samplingRate response.audioFormat e = .ok audio)
      sounded response.audio := by
  unfold respond at h
  obtain ⟨rate, -, h⟩ := Checked.bind_ok h
  obtain ⟨format, -, h⟩ := Checked.bind_ok h
  obtain ⟨audio, haudio, h⟩ := Checked.bind_ok h
  cases h
  exact Checked.mapM_ok_iff.mp haudio

/-- **Long texts are spoken completely and in order.** -/
theorem speech_complete (engine : Engine) (studio : Studio) (download : Download) (p : Payload) :
    (∀ item ∈ p.input, Spoken (sourceOf item) (pieces item)) ∧
    preprocessInput engine download .tts p =
      (p.input.mapM (requestedDuration engine)).map (fun durations =>
        chunksFrom p.config 0 (p.input.zip durations)) ∧
    ∀ durations, p.input.mapM (requestedDuration engine) = .ok durations →
      ∀ samples : List Samples,
        samples.length = (chunksFrom p.config 0 (p.input.zip durations)).length →
        ∃ sounded : List Sounded, sounded.map Prod.fst = p.input.zip durations ∧
          Complete sounded ∧ (sounded.map Prod.snd).flatten = samples ∧
          postprocessOutput engine studio p.config (chunksFrom p.config 0 (p.input.zip durations))
            samples = respond engine studio p.config sounded ∧
          ∀ response, respond engine studio p.config sounded = .ok response →
            response.audio.length = p.input.length ∧
            List.Forall₂ (fun e audio =>
              renderItem engine studio response.samplingRate response.audioFormat e = .ok audio)
              sounded response.audio := by
  refine ⟨fun item _ => spoken_pieces item, chunkItems_eq engine p.config 0 p.input,
    fun durations hdurations samples hsamples => ?_⟩
  obtain ⟨sounded, hitems, hcomplete, hflatten⟩ :=
    exists_sounded p.config (p.input.zip durations) samples hsamples
  have hpost := postprocessOutput_eq engine studio p.config hcomplete
  rw [hitems, hflatten] at hpost
  refine ⟨sounded, hitems, hcomplete, hflatten, hpost, fun response hresponse => ?_⟩
  have haudio := respond_ok hresponse
  refine ⟨?_, haudio⟩
  have hlength := (Checked.mapM_ok_iff.mp hdurations).length_eq
  have hsounded := congrArg List.length hitems
  rw [List.length_map, List.length_zip, ← hlength, min_self] at hsounded
  rw [← haudio.length_eq, hsounded]

end Ai4iCore.Task
