import Ai4iCore.Task.ContentBilling

/-!
# When the content fixes the bill

A service is billed by its content alone exactly when the catalogue gives every task type that
the orchestrator accepts a unit that measures the content as the unit of the service's own task
type does, and in which the count reads nothing that the client set beside it
(`bill_fixed_iff`). Where this fails, a request with one small item tells.
-/

namespace Ai4iCore.Task

open Checked

/-- Any two requests that a service answers on the same content are billed the same, the measure
of this content. -/
def FixedBill (env : Env) (info : ServiceInfo) (cls : TaskClass) : Prop :=
  ∀ (default default' : Option Text) (body body' : Body) (outcome outcome' : Nat → Outcome)
    (items items' : List Item),
    (handle env default body outcome).answer = .ok (info, items) →
    (handle env default' body' outcome').answer = .ok (info, items') →
    items.map (contentOf cls) = items'.map (contentOf cls) →
    totalTokens (handle env default body outcome).spans =
        totalTokens (handle env default' body' outcome').spans ∧
      totalTokens (handle env default body outcome).spans =
        due env cls info (items.map (contentOf cls))

/-! ## Small requests -/

/-- Doubles are exact on the integers of their range, and `soundfile` reads a recording of two
minutes. -/
structure TwoMinutes (engine : Engine) (recording : Value) : Prop where
  exact_integers : ∀ n : Nat, n ≤ 2 ^ 53 → engine.fl n = n
  truthy : recording.truthy = true
  header : engine.soundfileInfo recording = some (1920000, 16000)
  samples : engine.readSamples recording = some 1920000

/-- An item with a text of two characters, the recording, or an image. -/
def probe (cls : TaskClass) (recording : Value) (extra : Item) : Item :=
  match cls.modality with
  | some .audio => ("audio_content", recording) :: extra
  | some .image => ("image_content", .str "image".toList) :: extra
  | _ => ("source", .str "ab".toList) :: extra

/-- The length of one minute that a client can claim. -/
def claimedLength : Item := [("num_samples", .num 960000), ("sample_rate", .num 16000)]

/-- Fields that a client can add to an item without changing its content. -/
def claimed (cls : TaskClass) : Item :=
  if cls.modality = some .text then claimedLength
  else ("source", .str "a".toList) :: claimedLength

def probeContent (cls : TaskClass) (recording : Value) : Content :=
  match cls.modality with
  | some .audio => if cls = .asr then .samples 1920000 else .encoded recording
  | some .image => .image (.str "image".toList)
  | _ => .text "ab".toList

/-- A request for a service with one item, under some task type. -/
def probeRequest (cls : TaskClass) (info : ServiceInfo) (recording : Value) (t : Text)
    (extra : Item) : Payload where
  taskType := some (.str t)
  serviceId := none
  input := [probe cls recording extra]
  audio := [probe cls recording extra]
  image := [probe cls recording extra]
  config := ⟨[("serviceId", info.serviceId)], some ⟨some "en".toList, some "hi".toList⟩⟩

section Probe

variable {engine : Engine} {cls : TaskClass} {info : ServiceInfo} {recording : Value} {t : Text}
  {extra : Item}

theorem field_image (hextra : extra.get? "imageContent" = none) (names : List String) :
    field (probe .ocr recording extra) ("imageContent" :: "image_content" :: names) =
      some (.str "image".toList) := by
  have hget : (probe .ocr recording extra).get? "imageContent" = extra.get? "imageContent" := rfl
  rw [field_cons, hget, hextra, Option.filter_none, Option.none_or]
  exact field_head rfl

theorem validateRequest_probe (hpii : cls ≠ .pii) (hrecording : recording.truthy = true)
    (hextra : extra.get? "imageContent" = none) :
    validateRequest cls (probeRequest cls info recording t extra) = .ok () := by
  have haudio : ∀ p : Payload, p.audio = [("audio_content", recording) :: extra] →
      validateAudio p = .ok () := by
    intro p hp
    unfold validateAudio
    rw [hp, List.all_cons, field_head hrecording]
    rfl
  have himage := congrArg Option.isSome
    (@field_image recording extra hextra ["imageUri", "image_uri"])
  cases cls with
  | pii => exact absurd rfl hpii
  | ocr =>
    show require (decide (_ ≠ _) && (Option.isSome _ && true)) _ = _
    rw [himage]
    rfl
  | asr =>
    show validateAudio _ >>= _ = _
    rw [haudio _ rfl]
    rfl
  | audioLanguageDetection | languageDiarization | speakerDiarization => exact haudio _ rfl
  | _ => rfl

/-- Most classes leave the item as it is. -/
theorem preprocessInput_probe (hpii : cls ≠ .pii) (hasr : cls ≠ .asr) (htts : cls ≠ .tts)
    (hrecording : recording.truthy = true) (hextra : extra.get? "imageContent" = none) :
    preprocessInput engine .ok cls (probeRequest cls info recording t extra) =
      .ok [probe cls recording extra] := by
  have haudio : passThrough .ok (("audio_content", recording) :: extra) =
      .ok (("audio_content", recording) :: extra) := by
    unfold passThrough
    rw [field_head hrecording]
  have hsanitized : sanitizeSource "ab".toList = "ab".toList := by decide +kernel
  cases cls with
  | pii => exact absurd rfl hpii
  | asr => exact absurd rfl hasr
  | tts => exact absurd rfl htts
  | ocr =>
    have himage : resolveImage .ok (probe .ocr recording extra) = .ok (probe .ocr recording extra) := by
      unfold resolveImage resolveContent
      rw [field_image hextra]
      rfl
    show ([probe .ocr recording extra].mapM (resolveImage .ok)) = _
    rw [List.mapM_cons, himage]
    rfl
  | audioLanguageDetection | languageDiarization | speakerDiarization =>
    show ([("audio_content", recording) :: extra].mapM (passThrough .ok)) = _
    rw [List.mapM_cons, haudio]
    rfl
  | nmt | ner | languageDetection | transliteration =>
    show Except.ok [("source", Value.str (sanitizeSource "ab".toList)) :: extra] = _
    rw [hsanitized]
    rfl

/-- What a class makes of the probe: its content is that of the probe, with the fields that the
client added, unless ASR or TTS replaced them. -/
structure Processed (engine : Engine) (cls : TaskClass) (info : ServiceInfo) (recording : Value)
    (t : Text) (extra : Item) (item : Item) : Prop where
  items : preprocessInput engine .ok cls (probeRequest cls info recording t extra) = .ok [item]
  content : contentOf cls item = probeContent cls recording
  bare : extra = [] → Bare cls item
  lied : extra = claimed cls → ∀ unitType, cls.readsClient unitType = true →
    countInputTokens engine [item] unitType = 1

/-- Whole minutes are counted without rounding. -/
theorem countInputTokens_minutes (hengine : TwoMinutes engine recording) {item : Item} {m : Nat}
    (hm : m ≤ 2 ^ 53) (hpos : 0 < m) (h : durationSeconds engine item = some (60 * (m : ℚ))) :
    countInputTokens engine [item] "audio_minutes" = m := by
  have hminutes : addMinutes engine 0 (60 * (m : ℚ)) = m := by
    have hseconds : (0 : ℚ) < 60 * m := by simpa using hpos
    rw [addMinutes, if_pos hseconds, mul_div_cancel_left₀ _ (by simp), hengine.exact_integers m hm,
      zero_add, hengine.exact_integers m hm]
  rw [countInputTokens_audioMinutes]
  unfold countAudioTokens
  rw [List.foldlM_cons, h]
  show addMinutes engine 0 (60 * (m : ℚ)) = m
  exact hminutes

theorem fl_seconds (hengine : TwoMinutes engine recording) {samples : ℚ} {m : Nat} (hm : m ≤ 2)
    (h : samples = 960000 * m) : engine.fl (samples / engine.fl 16000) = 60 * m := by
  have hrate : engine.fl 16000 = 16000 := hengine.exact_integers 16000 (by decide)
  have hseconds : samples / 16000 = (60 * m : Nat) := by
    rw [h, mul_div_right_comm, show (960000 : ℚ) / 16000 = (60 : Nat) by decide +kernel,
      Nat.cast_mul]
  rw [hrate, hseconds, hengine.exact_integers _ (by omega)]
  push_cast
  rfl

/-- What the client claims is counted. -/
theorem countInputTokens_claimed {item : Item} (hengine : TwoMinutes engine recording)
    (hsource : cls.modality ≠ some .text → sourceOf item = "a".toList)
    (hsamples : cls ≠ .asr → cls ≠ .tts →
      item.get? "num_samples" = some (.num 960000) ∧ item.get? "sample_rate" = some (.num 16000))
    {unitType : String} (hreads : cls.readsClient unitType = true) :
    countInputTokens engine [item] unitType = 1 := by
  rcases Bool.or_eq_true_iff.mp hreads with h | h
  · obtain ⟨hunit, hmodality⟩ := Bool.and_eq_true_iff.mp h
    obtain rfl := of_decide_eq_true hunit
    rw [countInputTokens_characters, countTextTokens_eq, List.map_singleton,
      hsource (of_decide_eq_true hmodality)]
    rfl
  · obtain ⟨h, htts⟩ := Bool.and_eq_true_iff.mp h
    obtain ⟨hunit, hasr⟩ := Bool.and_eq_true_iff.mp h
    obtain rfl := of_decide_eq_true hunit
    obtain ⟨hnum, hrate⟩ := hsamples (of_decide_eq_true hasr) (of_decide_eq_true htts)
    have hduration : durationSeconds engine item = some (60 * ((1 : Nat) : ℚ)) := by
      unfold durationSeconds
      rw [field_of_num hnum (by simp), field_of_num hrate (by simp), positive?_num (by simp),
        positive?_num (by simp)]
      exact congrArg some (@fl_seconds engine recording hengine 960000 1 (by decide) (by simp))
    simpa using countInputTokens_minutes hengine (by decide) Nat.one_pos hduration

/-- The probe itself, where the class leaves it as it is. -/
theorem processed_probe (hengine : TwoMinutes engine recording) (hpii : cls ≠ .pii)
    (hasr : cls ≠ .asr) (htts : cls ≠ .tts) (hextra : extra = [] ∨ extra = claimed cls) :
    Processed engine cls info recording t extra (probe cls recording extra) where
  items := by
    refine preprocessInput_probe hpii hasr htts hengine.truthy ?_
    rcases hextra with rfl | rfl
    · rfl
    · unfold claimed
      split <;> rfl
  content := by
    rcases modality_cases hpii with h | h | h
    · rw [contentOf_text h]
      unfold probe probeContent
      rw [h]
      rfl
    · rw [contentOf_encoded h hasr]
      unfold probe probeContent
      rw [h]
      dsimp only
      rw [field_head hengine.truthy, if_neg hasr]
      rfl
    · rw [contentOf_image h]
      unfold probe probeContent
      rw [h]
      rfl
  bare := by
    rintro rfl
    unfold probe
    rcases modality_cases hpii with h | h | h
    · rw [h]
      exact ⟨fun hne => absurd h hne, fun _ => rfl, fun _ => rfl⟩
    · rw [h]
      exact ⟨fun _ => rfl, fun hne => absurd h hne, fun _ => rfl⟩
    · rw [h]
      exact ⟨fun _ => rfl, fun _ => rfl, fun _ => rfl⟩
  lied := by
    rintro rfl unitType hreads
    refine countInputTokens_claimed hengine ?_ ?_ hreads
    · intro htext
      unfold probe claimed
      rw [if_neg htext]
      split
      · rfl
      · rfl
      · rcases modality_cases hpii with h | h | h <;> simp_all
    · intro _ _
      unfold probe claimed
      split <;> split <;> exact ⟨rfl, rfl⟩

/-- The probe as ASR decodes it. -/
def decodedProbe (recording : Value) (extra : Item) : Item :=
  ((Dict.set (probe .asr recording extra) "samples" (.compound true)).set "num_samples"
    (.num (1920000 : Nat))).set "sample_rate" (.num targetSampleRate)

theorem processed_asr (hengine : TwoMinutes engine recording)
    (hextra : extra = [] ∨ extra = claimed .asr) :
    Processed engine .asr info recording t extra (decodedProbe recording extra) where
  items := by
    have hdecoded : decodeItem engine .ok (probe .asr recording extra) =
        .ok (decodedProbe recording extra) := by
      show decodeItem engine .ok (("audio_content", recording) :: extra) = _
      unfold decodeItem resolveContent
      rw [field_head hengine.truthy]
      dsimp only [bind, Except.bind]
      rw [hengine.samples]
      rfl
    show [probe .asr recording extra].mapM (decodeItem engine .ok) = _
    rw [List.mapM_cons, hdecoded]
    rfl
  content := by rcases hextra with rfl | rfl <;> rfl
  bare := by
    rintro rfl
    exact ⟨fun _ => rfl, fun hne => absurd rfl hne, fun hne => absurd rfl hne⟩
  lied := by
    rintro rfl unitType hreads
    exact countInputTokens_claimed hengine (fun _ => rfl) (fun hne => absurd rfl hne) hreads

theorem processed_tts (hengine : TwoMinutes engine recording)
    (hextra : extra = [] ∨ extra = claimed .tts) :
    ∃ item, Processed engine .tts info recording t extra item := by
  have hchunks : ∃ item, preprocessInput engine .ok .tts
      (probeRequest .tts info recording t extra) = .ok [item] ∧ sourceOf item = "ab".toList := by
    have hsource : chunkText (sourceOf (sanitizeItem (probe .tts recording extra)))
        maxChunkLength = ["ab".toList] := by
      show chunkText (sanitizeSource "ab".toList) maxChunkLength = _
      decide +kernel
    have hduration : field (sanitizeItem (probe .tts recording extra))
        ["audioDuration", "audio_duration"] = none := by
      rcases hextra with rfl | rfl <;> rfl
    show ∃ item, chunkItems engine _ 0 [sanitizeItem (probe .tts recording extra)] = _ ∧ _
    unfold chunkItems chunkItem
    rw [hduration, hsource]
    exact ⟨_, rfl, rfl⟩
  obtain ⟨item, hitem, hsource⟩ := hchunks
  refine ⟨item, hitem, ?_, ?_, ?_⟩
  · rw [contentOf_text rfl, hsource]
    rfl
  · rintro rfl
    exact chunkItems_bare hitem item List.mem_cons_self
  · rintro rfl unitType hreads
    exact countInputTokens_claimed hengine (fun hne => absurd rfl hne)
      (fun _ hne => absurd rfl hne) hreads

theorem exists_processed (hengine : TwoMinutes engine recording) (hpii : cls ≠ .pii)
    (hextra : extra = [] ∨ extra = claimed cls) :
    ∃ item, Processed engine cls info recording t extra item := by
  by_cases hasr : cls = .asr
  · subst hasr
    exact ⟨_, processed_asr hengine hextra⟩
  · by_cases htts : cls = .tts
    · subst htts
      exact processed_tts hengine hextra
    · exact ⟨_, processed_probe hengine hpii hasr htts hextra⟩

/-! ## The bill of a small request -/

/-- The count of the probe's content by what the unit measures. -/
def Measure.ofProbe : Measure → ℚ
  | .characters => 2
  | .minutes => 2
  | .items => 1
  | .nothing => 0

theorem durationSeconds_probe (hengine : TwoMinutes engine recording)
    (haudio : cls.modality = some .audio) :
    durationSeconds engine (probeContent cls recording).item = some (60 * ((2 : Nat) : ℚ)) := by
  unfold probeContent
  rw [haudio]
  dsimp only
  split
  · have hdecoded : Decoded (Content.samples 1920000).item 1920000 := decoded_item (by simp)
    rw [hdecoded.durationSeconds]
    exact congrArg some (@fl_seconds engine recording hengine 1920000 2 (by decide)
      (by decide +kernel))
  · show durationSeconds engine [("audio_content", recording)] = _
    unfold durationSeconds
    rw [field_head hengine.truthy]
    show some (decodeAudioDurationSeconds engine recording) = _
    unfold decodeAudioDurationSeconds
    rw [hengine.header]
    dsimp only
    rw [if_neg (by decide), show ((1920000 : Nat) : ℚ) / (16000 : Nat) = (120 : Nat) by
      decide +kernel, hengine.exact_integers 120 (by decide)]
    decide +kernel

theorem contentCount_probe (hengine : TwoMinutes engine recording) (unitType : String) :
    contentCount engine [(probeContent cls recording).item] (cls.measures unitType) =
      (cls.measures unitType).ofProbe := by
  unfold TaskClass.measures
  split
  · split
    · rename_i htext
      unfold probeContent
      rw [htext]
      rfl
    · rfl
  · split
    · split
      · rename_i haudio
        have hminutes := countInputTokens_minutes hengine (by decide) (by decide)
          (durationSeconds_probe hengine haudio)
        rw [countInputTokens_audioMinutes] at hminutes
        exact hminutes
      · rfl
    · split <;> rfl

theorem modality_of_characters {unitType : String} (h : cls.measures unitType = .characters) :
    cls.modality = some .text := by
  grind [TaskClass.measures]

theorem modality_of_minutes {unitType : String} (h : cls.measures unitType = .minutes) :
    cls.modality = some .audio := by
  grind [TaskClass.measures]

/-- The probe tells what a unit measures. -/
theorem measures_eq_of_ofProbe {unitType unitType' : String}
    (h : (cls.measures unitType).ofProbe = (cls.measures unitType').ofProbe) :
    cls.measures unitType = cls.measures unitType' := by
  have hcross : ∀ u u', cls.measures u = .characters → cls.measures u' ≠ .minutes := by
    intro u u' hchars hminutes
    have htext := modality_of_characters hchars
    rw [modality_of_minutes hminutes] at htext
    cases htext
  have hne := hcross unitType unitType'
  have hne' := hcross unitType' unitType
  cases hm : cls.measures unitType <;> cases hm' : cls.measures unitType' <;>
    simp_all [Measure.ofProbe]

/-- A unit that reads what the client set never counts items. -/
theorem ofProbe_ne_one {unitType : String} (h : cls.readsClient unitType = true) :
    (cls.measures unitType).ofProbe ≠ 1 := by
  have hitems : cls.measures unitType ≠ .items := by
    grind [TaskClass.measures, TaskClass.readsClient]
  cases hm : cls.measures unitType with
  | items => exact absurd hm hitems
  | _ => simp [Measure.ofProbe]

theorem measure_single (engine : Engine) (unitType : String) (cls : TaskClass)
    (info : ServiceInfo) (item : Item) :
    measure engine unitType (groups cls info [item]) = countInputTokens engine [item] unitType := by
  unfold groups measure
  split <;> simp

end Probe

section Bills

variable {env : Env} {info : ServiceInfo} {cls : TaskClass} {recording : Value} {t : Text}
  {extra : Item} {item : Item}

theorem bill_probe (hopen : Open env info cls) (hengine : TwoMinutes env.engine recording)
    (hpii : cls ≠ .pii) (hextra : extra = [] ∨ extra = claimed cls) (haccepted : accepted t = true)
    (hitem : Processed env.engine cls info recording t extra item) :
    (handle env none ⟨probeRequest cls info recording t extra, false, none⟩
        fun _ => allAnswered).answer = .ok (info, [item]) ∧
      totalTokens (handle env none ⟨probeRequest cls info recording t extra, false, none⟩
        fun _ => allAnswered).spans =
      countInputTokens env.engine [item] (getUnitType env.catalogue t) := by
  have hvalid : validateRequest cls (probeRequest cls info recording t extra) = .ok () := by
    refine validateRequest_probe hpii hengine.truthy ?_
    rcases hextra with rfl | rfl
    · rfl
    · unfold claimed
      split <;> rfl
  have hid : (probeRequest cls info recording t extra).config.serviceId = some info.serviceId :=
    field_head hopen.id_truthy
  have hanswer := handle_answered hopen rfl haccepted hid hvalid
    hitem.items (List.cons_ne_nil _ _)
  refine ⟨hanswer, ?_⟩
  obtain ⟨cls', t', ht', -, hcls', -, htotal⟩ := handle_billed hanswer
  obtain rfl := Except.ok.inj (hopen.registered.symm.trans hcls')
  obtain rfl := Except.ok.inj ht'
  rw [htotal, measure_single]

/-- The content of the probe is counted by what the unit measures. -/
theorem countInputTokens_probeContent (hengine : TwoMinutes env.engine recording)
    (hpii : cls ≠ .pii) (hitem : Processed env.engine cls info recording t extra item)
    (unitType : String) :
    countInputTokens env.engine [(probeContent cls recording).item] unitType =
      (cls.measures unitType).ofProbe := by
  have hcount := @countInputTokens_measures env.engine cls [item] unitType hpii
  rw [List.map_singleton, hitem.content] at hcount
  rw [hcount, contentCount_probe hengine]

/-- Without anything beside its content the probe is counted by it. -/
theorem countInputTokens_bare (hengine : TwoMinutes env.engine recording) (hpii : cls ≠ .pii)
    (hitem : Processed env.engine cls info recording t [] item) (unitType : String) :
    countInputTokens env.engine [item] unitType = (cls.measures unitType).ofProbe := by
  have hcontent := @measure_content env.engine cls info [item] unitType unitType _ _ hpii
    hitem.items ?_ rfl
  · rw [List.map_singleton, List.map_singleton, measure_single, measure_single,
      hitem.content] at hcontent
    rw [hcontent, countInputTokens_probeContent hengine hpii hitem]
  · rintro - item' hitem'
    obtain rfl := List.mem_singleton.mp hitem'
    exact hitem.bare rfl

/-- Exactly when the content fixes the bill of a service: every accepted task type has a unit
that reads nothing else, and that measures the content as the unit of the service's own does. -/
theorem bill_fixed_iff (hopen : Open env info cls) (hengine : TwoMinutes env.engine recording) :
    FixedBill env info cls ↔ cls = .pii ∨ ∀ t, accepted t = true →
      cls.readsClient (getUnitType env.catalogue t) = false ∧
        cls.measures (getUnitType env.catalogue t) =
          cls.measures (getUnitType env.catalogue info.taskType) := by
  constructor
  · intro hfixed
    by_cases hpii : cls = .pii
    · exact .inl hpii
    refine .inr fun t ht => ?_
    obtain ⟨plain, hplain⟩ : ∃ item, Processed env.engine cls info recording t [] item :=
      exists_processed hengine hpii (.inl rfl)
    obtain ⟨lied, hlied⟩ : ∃ item, Processed env.engine cls info recording t (claimed cls) item :=
      exists_processed hengine hpii (.inr rfl)
    obtain ⟨hanswer, htotal⟩ := bill_probe hopen hengine hpii (.inl rfl) ht hplain
    obtain ⟨hanswer', htotal'⟩ := bill_probe hopen hengine hpii (.inr rfl) ht hlied
    have hcontent : [plain].map (contentOf cls) = [lied].map (contentOf cls) := by
      rw [List.map_singleton, List.map_singleton, hplain.content, hlied.content]
    obtain ⟨hsame, hdue⟩ := hfixed _ _ _ _ _ _ _ _ hanswer hanswer' hcontent
    rw [htotal, countInputTokens_bare hengine hpii hplain] at hsame hdue
    constructor
    · refine Bool.eq_false_iff.mpr fun hreads => ofProbe_ne_one hreads ?_
      rw [hsame, htotal', hlied.lied rfl _ hreads]
    · rw [List.map_singleton, hplain.content, due, List.map_singleton, measure_single,
        countInputTokens_probeContent hengine hpii hplain] at hdue
      exact measures_eq_of_ofProbe hdue
  · intro hcond default default' body body' outcome outcome' items items' h h' hcontent
    have hdue : ∀ {default body outcome items},
        (handle env default body outcome).answer = .ok (info, items) →
        totalTokens (handle env default body outcome).spans =
          due env cls info (items.map (contentOf cls)) := by
      intro default body outcome items h
      rcases hcond with rfl | hcond
      · exact billed_pii h hopen.registered
      · obtain ⟨-, t, ht, haccepted, -⟩ := handle_billed h
        obtain ⟨hreads, hsame⟩ := hcond t haccepted
        exact billed_by_content h hopen.registered ht (by simp [hreads]) hsame
    exact ⟨by rw [hdue h, hdue h', hcontent], hdue h⟩

end Bills

/-! ## Two services of the seeded catalogue -/

/-- The names and units that the migrations insert. -/
def seededCatalogue : Catalogue :=
  [("llm".toList, "tokens"), ("asr".toList, "audio_minutes"), ("nmt".toList, "characters"),
    ("tts".toList, "characters"), ("ner".toList, "characters"), ("ocr".toList, "images"),
    ("transliteration".toList, "characters"), ("language-detection".toList, "characters"),
    ("language-diarization".toList, "audio_minutes"),
    ("speaker-diarization".toList, "audio_minutes"),
    ("audio-lang-detection".toList, "audio_minutes"), ("pipeline".toList, "requests")]

def translation : ServiceInfo where
  serviceId := .str "t".toList
  taskType := "nmt".toList
  classInstance := "NMTTaskService"
  callMode := ""
  name := "indictrans"
  endpoint := "triton:8000"
  isPublished := true
  tierIds := []

def diarization : ServiceInfo :=
  { translation with
    serviceId := .str "d".toList
    taskType := "speaker-diarization".toList
    classInstance := "SpeakerDiarizationTaskService"
    name := "diarizer" }

def twoMinuteRecording : Value := .str "UklGRg".toList

/-- A server with both services, without rounding, that reads one recording. -/
def seededEnv : Env where
  resolve id := [translation, diarization].find? fun info => info.serviceId = id
  tierId := ""
  fallbacks _ := []
  catalogue := seededCatalogue
  engine :=
    { fl := fun x => x
      soundfileInfo := fun v => if v = twoMinuteRecording then some (1920000, 16000) else none
      readSamples := fun v => if v = twoMinuteRecording then some 1920000 else none
      floatOf := fun _ => none }

/-- What a service makes of a small request and what it is billed. -/
def billOf (cls : TaskClass) (info : ServiceInfo) (t : Text) (extra : Item) :
    Option (List Content × ℚ) :=
  let served := handle seededEnv none ⟨probeRequest cls info twoMinuteRecording t extra, false, none⟩
    fun _ => allAnswered
  match served.answer with
  | .ok (_, items) => some (items.map (contentOf cls), totalTokens served.spans)
  | .error _ => none

/-- The same text is billed as two characters or as one image, and the same recording as the two
minutes that it has or as the one that the client claims. -/
theorem content_leaves_bill_open :
    billOf .nmt translation "NMT".toList [] = some ([.text "ab".toList], 2) ∧
      billOf .nmt translation "OCR".toList [] = some ([.text "ab".toList], 1) ∧
      billOf .speakerDiarization diarization "SPEAKER_DIARIZATION".toList [] =
        some ([.encoded twoMinuteRecording], 2) ∧
      billOf .speakerDiarization diarization "SPEAKER_DIARIZATION".toList claimedLength =
        some ([.encoded twoMinuteRecording], 1) := by
  decide +kernel

theorem bill_fixed_iff_translation : ¬ FixedBill seededEnv translation .nmt := by
  have hopen : Open seededEnv translation .nmt := ⟨rfl, rfl, rfl, rfl, rfl, by decide, by decide⟩
  have hengine : TwoMinutes seededEnv.engine twoMinuteRecording :=
    ⟨fun _ _ => rfl, rfl, rfl, rfl⟩
  intro hfixed
  rcases (bill_fixed_iff hopen hengine).mp hfixed with hpii | hcond
  · cases hpii
  · have hsame := (hcond "OCR".toList (by decide +kernel)).2
    revert hsame
    decide +kernel

end Ai4iCore.Task
