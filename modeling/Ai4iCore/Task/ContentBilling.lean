import Ai4iCore.Task.Bill

/-!
# The bill and the content

Two requests with which a service gets the same texts, audio or images should be billed the
same: the measure of this content in the unit of the service's own task type. The unit that is
used is that of the request's task type, though, which nothing compares with the service, and
items reach the count with the fields that the client gave them. A `source` next to audio is
counted, and so is a number of samples, which only ASR overwrites and only TTS drops.

So a request is billed its content when the unit of its task type measures it as the unit of the
service's own does, and either the count in this unit reads nothing else or there is nothing
else to read (`billed_by_content`).
-/

namespace Ai4iCore.Task

open Checked

/-! ## Content -/

/-- What a model is given of an item. -/
inductive Content
  | text (s : Text)
  | encoded (v : Value)
  | samples (n : ℚ)
  | image (v : Value)
  deriving DecidableEq, Repr

/-- The content of a preprocessed item. -/
def contentOf (cls : TaskClass) (item : Item) : Content :=
  match cls.modality with
  | some .audio =>
    if cls = .asr then
      .samples (((item.get? "num_samples").bind Value.number?).getD 0)
    else .encoded ((field item ["audio_content", "audioContent"]).getD .null)
  | some .image => .image ((item.get? "image_content").getD .null)
  | _ => .text (sourceOf item)

/-- An item that has its content and no other field. -/
def Content.item : Content → Item
  | text s => [("source", .str s)]
  | encoded v => [("audio_content", v)]
  | samples n => [("num_samples", .num n), ("sample_rate", .num targetSampleRate)]
  | image v => [("image_content", v)]

/-- What a count in some unit measures of a content. -/
inductive Measure
  | characters
  | minutes
  | items
  | nothing
  deriving DecidableEq, Repr

namespace TaskClass

/-- What a unit measures of the content of a class. -/
def measures (cls : TaskClass) (unitType : String) : Measure :=
  if unitType = "characters" then
    if cls.modality = some .text then .characters else .nothing
  else if unitType = "audio_minutes" then
    if cls.modality = some .audio then .minutes else .nothing
  else if unitType = "images" then .items
  else .nothing

/-- A count in this unit reads fields that are not content, and that preprocessing leaves as the
client set them: the text of what is no text, the length of what ASR did not decode. -/
def readsClient (cls : TaskClass) (unitType : String) : Bool :=
  (unitType = "characters" && cls.modality ≠ some .text) ||
    (unitType = "audio_minutes" && cls ≠ asr && cls ≠ tts)

end TaskClass

/-- The measure of a content in the unit of the service's own task type. -/
def due (env : Env) (cls : TaskClass) (info : ServiceInfo) (contents : List Content) : ℚ :=
  measure env.engine (getUnitType env.catalogue info.taskType)
    (groups cls info (contents.map Content.item))

/-! ## What the count reads -/

theorem field_cons (item : Item) (name : String) (names : List String) :
    field item (name :: names) = ((item.get? name).filter Value.truthy).or (field item names) := by
  unfold field
  rw [List.findSome?_cons]
  cases (item.get? name).filter Value.truthy <;> rfl

theorem field_nil (item : Item) : field item [] = none := rfl

/-- A text is counted as it stands, empty or not. -/
theorem textLength_eq (item : Item) : textLength item = (sourceOf item).length := by
  unfold textLength sourceOf
  rw [field_cons, field_nil, Option.or_none]
  cases item.get? "source" with
  | none => rfl
  | some v =>
    cases v with
    | null => rfl
    | bool b => cases b <;> rfl
    | num x => by_cases hx : x = 0 <;> simp [Value.truthy, hx]
    | str s => cases s <;> rfl
    | compound nonEmpty => cases nonEmpty <;> rfl

theorem countTextTokens_eq (items : List Item) :
    countTextTokens items = (items.map fun item => (sourceOf item).length).sum := by
  unfold countTextTokens
  rw [funext textLength_eq]

theorem field_head {item : Item} {name : String} {names : List String} {v : Value}
    (hv : v.truthy = true) : field ((name, v) :: item) (name :: names) = some v := by
  have hget : Dict.get? ((name, v) :: item) name = some v := by simp [Dict.get?]
  rw [field_cons, hget, Option.filter_some, if_pos hv]
  rfl

theorem field_of_num {item : Item} {name : String} {names : List String} {x : ℚ}
    (h : item.get? name = some (.num x)) (hx : 0 < x) :
    field item (name :: names) = some (.num x) := by
  rw [field_cons, h, Option.filter_some, if_pos (by simpa [Value.truthy] using hx.ne')]
  rfl

/-- What a field gives is truthy. -/
theorem truthy_of_field {item : Item} {names : List String} {v : Value}
    (h : field item names = some v) : v.truthy = true := by
  obtain ⟨name, -, hname⟩ := List.exists_of_findSome?_eq_some h
  exact (Option.filter_eq_some_iff.mp hname).2

theorem positive?_num {x : ℚ} (hx : 0 < x) : positive? (some (.num x)) = some (some x) := by
  simp [positive?, Value.number?, hx]

section Units

variable (engine : Engine) (items : List Item)

theorem countInputTokens_characters :
    countInputTokens engine items "characters" = countTextTokens items := by
  unfold countInputTokens
  cases items with
  | nil => rfl
  | cons item items => simp

theorem countInputTokens_audioMinutes :
    countInputTokens engine items "audio_minutes" = (countAudioTokens engine items).getD 0 := by
  unfold countInputTokens
  cases items with
  | nil => rfl
  | cons item items => simp

theorem countInputTokens_other {unitType : String} (hchars : unitType ≠ "characters")
    (hminutes : unitType ≠ "audio_minutes") :
    countInputTokens engine items unitType =
      if unitType = "images" then (items.length : ℚ) else 0 := by
  unfold countInputTokens
  rw [if_neg hchars, if_neg hminutes]
  cases items with
  | nil => simp
  | cons item items => rw [if_neg (List.cons_ne_nil _ _)]

end Units

/-- What ASR makes of an item: its samples, at the target rate. -/
structure Decoded (item : Item) (n : ℚ) : Prop where
  pos : 0 < n
  samples : item.get? "num_samples" = some (.num n)
  rate : item.get? "sample_rate" = some (.num targetSampleRate)

theorem decoded_item {n : ℚ} (hn : 0 < n) : Decoded (Content.samples n).item n :=
  ⟨hn, rfl, rfl⟩

theorem Decoded.durationSeconds {item : Item} {n : ℚ} (h : Decoded item n) (engine : Engine) :
    durationSeconds engine item = some (engine.fl (n / engine.fl targetSampleRate)) := by
  have hrate : 0 < targetSampleRate := by simp [targetSampleRate]
  unfold Task.durationSeconds
  rw [field_of_num h.samples h.pos, field_of_num h.rate hrate, positive?_num h.pos,
    positive?_num hrate]

theorem decodeItem_decoded {engine : Engine} {download : Download} {item item' : Item}
    (h : decodeItem engine download item = .ok item') :
    ∃ n, Decoded item' n ∧ contentOf .asr item' = .samples n := by
  obtain ⟨content, -, h⟩ := bind_ok h
  split at h
  · cases h
  · cases h
  · rename_i n hsamples
    obtain rfl := Except.ok.inj h
    have hdecoded : Decoded (((item.set "samples" (.compound true)).set "num_samples"
        (.num (n + 1 : Nat))).set "sample_rate" (.num targetSampleRate)) (n + 1 : Nat) := by
      refine ⟨Nat.cast_pos.mpr n.succ_pos, ?_, ?_⟩
      · rw [Dict.get?_set, if_neg (by decide), Dict.get?_set, if_pos rfl]
      · rw [Dict.get?_set, if_pos rfl]
    refine ⟨_, hdecoded, ?_⟩
    show Content.samples (((_ : Option Value).bind Value.number?).getD 0) = _
    rw [hdecoded.samples]
    rfl


/-- An item brings nothing that is counted but its content. -/
structure Bare (cls : TaskClass) (item : Item) : Prop where
  text : cls.modality ≠ some .text → sourceOf item = []
  audio : cls.modality ≠ some .audio → field item ["audio_content", "audioContent"] = none
  samples : cls ≠ .asr → field item ["num_samples", "numSamples"] = none

theorem chunkItems_bare {engine : Engine} {config : Config} {index : Nat} {items items' : List Item}
    (h : chunkItems engine config index items = .ok items') : ∀ item ∈ items', Bare .tts item := by
  induction items generalizing index items' with
  | nil =>
    obtain rfl := Except.ok.inj h
    simp
  | cons raw items ih =>
    obtain ⟨chunks, hchunks, h⟩ := bind_ok h
    obtain ⟨rest, hrest, h⟩ := bind_ok h
    obtain rfl := Except.ok.inj h
    obtain ⟨duration, -, hchunks⟩ := bind_ok hchunks
    obtain rfl := Except.ok.inj hchunks
    intro item hitem
    rcases List.mem_append.mp hitem with hchunk | hlater
    · obtain ⟨piece, -, rfl⟩ := List.mem_map.mp hchunk
      exact ⟨fun h => absurd rfl h, fun _ => rfl, fun _ => rfl⟩
    · exact ih hrest item hlater

/-! ## The count of a content -/

theorem modality_cases {cls : TaskClass} (hpii : cls ≠ .pii) :
    cls.modality = some .text ∨ cls.modality = some .audio ∨ cls.modality = some .image := by
  cases cls with
  | pii => exact absurd rfl hpii
  | _ => simp [TaskClass.modality]

section Fields

variable {engine : Engine} {cls : TaskClass}

theorem contentOf_text (h : cls.modality = some .text) (item : Item) :
    contentOf cls item = .text (sourceOf item) := by
  rw [contentOf, h]

theorem contentOf_image (h : cls.modality = some .image) (item : Item) :
    contentOf cls item = .image ((item.get? "image_content").getD .null) := by
  rw [contentOf, h]

theorem contentOf_encoded (h : cls.modality = some .audio) (hasr : cls ≠ .asr) (item : Item) :
    contentOf cls item =
      .encoded ((field item ["audio_content", "audioContent"]).getD .null) := by
  rw [contentOf, h]
  exact if_neg hasr

/-- Content that is no text has no characters. -/
theorem sourceOf_content (hpii : cls ≠ .pii) (item : Item) :
    sourceOf (contentOf cls item).item = if cls.modality = some .text then sourceOf item else [] := by
  rcases modality_cases hpii with h | h | h
  · rw [contentOf_text h, if_pos h]
    rfl
  · rw [if_neg (by simp [h])]
    by_cases hasr : cls = .asr
    · subst hasr
      rfl
    · rw [contentOf_encoded h hasr]
      rfl
  · rw [contentOf_image h, if_neg (by simp [h])]
    rfl

/-- Audio that is passed on without a number of samples is measured by its header. -/
theorem durationSeconds_encoded {item : Item}
    (h : field item ["num_samples", "numSamples"] = none) :
    durationSeconds engine
        (Content.encoded ((field item ["audio_content", "audioContent"]).getD .null)).item =
      durationSeconds engine item := by
  unfold durationSeconds
  rw [h]
  cases hv : field item ["audio_content", "audioContent"] with
  | none => rfl
  | some v =>
    have hcontent : field (Content.encoded v).item ["audio_content", "audioContent"] = some v :=
      field_head (truthy_of_field hv)
    rw [Option.getD_some, hcontent]
    rfl

/-- Content that is no audio has no length. -/
theorem durationSeconds_silent (hpii : cls ≠ .pii) (h : cls.modality ≠ some .audio) (item : Item) :
    durationSeconds engine (contentOf cls item).item = some 0 := by
  rcases modality_cases hpii with htext | haudio | himage
  · rw [contentOf_text htext]
    rfl
  · exact absurd haudio h
  · rw [contentOf_image himage]
    rfl

theorem Bare.durationSeconds {item : Item} (h : Bare cls item) (hpii : cls ≠ .pii)
    (hasr : cls ≠ .asr) :
    durationSeconds engine (contentOf cls item).item = durationSeconds engine item := by
  by_cases haudio : cls.modality = some .audio
  · rw [contentOf_encoded haudio hasr]
    exact durationSeconds_encoded (h.samples hasr)
  · rw [durationSeconds_silent hpii haudio]
    unfold Task.durationSeconds
    rw [h.audio haudio, h.samples hasr]
    rfl

end Fields

section Counts

variable {engine : Engine} {cls : TaskClass} {g : List Item} {unitType : String}

theorem countAudioTokens_congr {f : Item → Item}
    (h : ∀ item ∈ g, durationSeconds engine (f item) = durationSeconds engine item) :
    countAudioTokens engine (g.map f) = countAudioTokens engine g := by
  unfold countAudioTokens
  generalize (0 : ℚ) = total
  induction g generalizing total with
  | nil => rfl
  | cons item g ih =>
    rw [List.map_cons, List.foldlM_cons, List.foldlM_cons, h item List.mem_cons_self]
    congr 1
    funext total'
    exact ih (fun a ha => h a (List.mem_cons_of_mem _ ha)) total'

theorem countAudioTokens_silent (h : ∀ item ∈ g, durationSeconds engine item = some 0) :
    countAudioTokens engine g = some 0 := by
  induction g with
  | nil => rfl
  | cons item g ih =>
    have hrest := ih fun a ha => h a (List.mem_cons_of_mem _ ha)
    unfold countAudioTokens at hrest ⊢
    rw [List.foldlM_cons, h item List.mem_cons_self]
    show List.foldlM _ (addMinutes engine 0 0) g = _
    rw [addMinutes, if_neg (lt_irrefl _)]
    exact hrest

/-- A count reads the texts and the lengths of the items. -/
theorem countInputTokens_congr {f : Item → Item}
    (hchars : unitType = "characters" → ∀ item ∈ g, sourceOf (f item) = sourceOf item)
    (hminutes : unitType = "audio_minutes" →
      ∀ item ∈ g, durationSeconds engine (f item) = durationSeconds engine item) :
    countInputTokens engine (g.map f) unitType = countInputTokens engine g unitType := by
  by_cases hc : unitType = "characters"
  · subst hc
    rw [countInputTokens_characters, countInputTokens_characters, countTextTokens_eq,
      countTextTokens_eq, List.map_map]
    congr 2
    refine List.map_congr_left fun item hitem => ?_
    rw [Function.comp_apply, hchars rfl item hitem]
  · by_cases hm : unitType = "audio_minutes"
    · subst hm
      rw [countInputTokens_audioMinutes, countInputTokens_audioMinutes,
        countAudioTokens_congr (hminutes rfl)]
    · rw [countInputTokens_other _ _ hc hm, countInputTokens_other _ _ hc hm, List.length_map]

/-- Preprocessed items are counted by their content in a unit that does not read what the client
set, and otherwise if there is nothing of the kind. -/
theorem countInputTokens_content (hpii : cls ≠ .pii)
    (hbare : cls.readsClient unitType = true → ∀ item ∈ g, Bare cls item)
    (hasr : cls = .asr → ∀ item ∈ g, ∃ n, Decoded item n ∧ contentOf .asr item = .samples n)
    (htts : cls = .tts → ∀ item ∈ g, Bare .tts item) :
    countInputTokens engine (g.map fun item => (contentOf cls item).item) unitType =
      countInputTokens engine g unitType := by
  refine countInputTokens_congr ?_ ?_
  · rintro rfl item hitem
    rw [sourceOf_content hpii]
    split
    · rfl
    · rename_i hmodality
      exact ((hbare (by simp [TaskClass.readsClient, hmodality]) item hitem).text hmodality).symm
  · rintro rfl item hitem
    by_cases hcls : cls = .asr
    · subst hcls
      obtain ⟨n, hdecoded, hcontent⟩ := hasr rfl item hitem
      rw [hcontent, hdecoded.durationSeconds, (decoded_item hdecoded.pos).durationSeconds]
    · have hitem' : Bare cls item := by
        by_cases hcls' : cls = .tts
        · subst hcls'
          exact htts rfl item hitem
        · exact hbare (by simp [TaskClass.readsClient, hcls, hcls']) item hitem
      exact hitem'.durationSeconds hpii hcls

/-- The count of a content by what its unit measures. -/
def contentCount (engine : Engine) (g : List Item) : Measure → ℚ
  | .characters => countTextTokens g
  | .minutes => (countAudioTokens engine g).getD 0
  | .items => g.length
  | .nothing => 0

theorem countInputTokens_measures (hpii : cls ≠ .pii) :
    countInputTokens engine (g.map fun item => (contentOf cls item).item) unitType =
      contentCount engine (g.map fun item => (contentOf cls item).item)
        (cls.measures unitType) := by
  by_cases hc : unitType = "characters"
  · subst hc
    rw [countInputTokens_characters, TaskClass.measures, if_pos rfl]
    split
    · rfl
    · rename_i hmodality
      rw [contentCount, countTextTokens_eq, List.sum_eq_zero, Nat.cast_zero]
      intro n hn
      obtain ⟨item, hitem, rfl⟩ := List.mem_map.mp hn
      obtain ⟨raw, -, rfl⟩ := List.mem_map.mp hitem
      rw [sourceOf_content hpii, if_neg hmodality]
      rfl
  · by_cases hm : unitType = "audio_minutes"
    · subst hm
      rw [countInputTokens_audioMinutes, TaskClass.measures, if_neg hc, if_pos rfl]
      split
      · rfl
      · rename_i hmodality
        rw [countAudioTokens_silent ?_]
        · rfl
        · intro item hitem
          obtain ⟨raw, -, rfl⟩ := List.mem_map.mp hitem
          exact durationSeconds_silent hpii hmodality raw
    · rw [countInputTokens_other _ _ hc hm, TaskClass.measures, if_neg hc, if_neg hm]
      split <;> rfl

end Counts

/-! ## A bill that the content fixes -/

section Fixed

variable {engine : Engine} {cls : TaskClass} {info : ServiceInfo} {items : List Item}
  {unitType unitType' : String}

theorem groups_map (cls : TaskClass) (info : ServiceInfo) (f : Item → Item) (items : List Item) :
    groups cls info (items.map f) = (groups cls info items).map (List.map f) := by
  unfold groups
  split
  · rw [List.map_map, List.map_map]
    rfl
  · rfl

theorem mem_of_mem_groups {g : List Item} (hg : g ∈ groups cls info items) {item : Item}
    (hitem : item ∈ g) : item ∈ items := by
  unfold groups at hg
  split at hg
  · obtain ⟨a, ha, rfl⟩ := List.mem_map.mp hg
    exact List.mem_singleton.mp hitem ▸ ha
  · exact List.mem_singleton.mp hg ▸ hitem

/-- What was preprocessed is measured by its content, in any unit that measures it alike. -/
theorem measure_content {download : Download} {p : Payload} (hpii : cls ≠ .pii)
    (hitems : preprocessInput engine download cls p = .ok items)
    (hbare : cls.readsClient unitType = true → ∀ item ∈ items, Bare cls item)
    (hsame : cls.measures unitType = cls.measures unitType') :
    measure engine unitType (groups cls info items) =
      measure engine unitType' (groups cls info ((items.map (contentOf cls)).map Content.item)) := by
  rw [List.map_map, groups_map]
  unfold measure
  rw [List.map_map]
  congr 1
  refine List.map_congr_left fun g hg => ?_
  have hmem : ∀ item ∈ g, item ∈ items := fun item => mem_of_mem_groups hg
  have hcontent := @countInputTokens_content engine cls g unitType hpii
    (fun hreads item hitem => hbare hreads item (hmem item hitem)) ?_ ?_
  · rw [← hcontent, countInputTokens_measures hpii, hsame, ← countInputTokens_measures hpii]
    rfl
  · rintro rfl item hitem
    obtain ⟨raw, -, hraw⟩ := mapM_ok_mem hitems (hmem item hitem)
    exact decodeItem_decoded hraw
  · rintro rfl item hitem
    exact chunkItems_bare hitems item (hmem item hitem)

theorem measure_nil (engine : Engine) (unitType : String) (cls : TaskClass) (info : ServiceInfo) :
    measure engine unitType (groups cls info []) = 0 := by
  unfold groups
  split
  · rfl
  · simp [measure, countInputTokens]

end Fixed

section Content

variable {env : Env} {default : Option Text} {body : Body} {outcome : Nat → Outcome}
  {info : ServiceInfo} {cls : TaskClass} {items : List Item} {t : Text}

/-- PII processes nothing. -/
theorem billed_pii (h : (handle env default body outcome).answer = .ok (info, items))
    (hcls : getTaskService info = .ok .pii) :
    totalTokens (handle env default body outcome).spans =
      due env .pii info (items.map (contentOf .pii)) := by
  obtain ⟨cls', t, -, -, hcls', ⟨download, p, hitems⟩, htotal⟩ := handle_billed h
  obtain rfl := Except.ok.inj (hcls.symm.trans hcls')
  obtain rfl := Except.ok.inj hitems
  rw [htotal, measure_nil]
  exact (measure_nil _ _ _ _).symm

/-- A request is billed the measure of its content if the unit of its task type measures this
content as the unit of the service's own does, and reads nothing that the client set beside it. -/
theorem billed_by_content
    (h : (handle env default body outcome).answer = .ok (info, items))
    (hcls : getTaskService info = .ok cls)
    (ht : taskTypeOf (body.unwrap.withDefault default) = .ok t)
    (hbare : cls.readsClient (getUnitType env.catalogue t) = true →
      ∀ item ∈ items, Bare cls item)
    (hsame : cls.measures (getUnitType env.catalogue t) =
      cls.measures (getUnitType env.catalogue info.taskType)) :
    totalTokens (handle env default body outcome).spans =
      due env cls info (items.map (contentOf cls)) := by
  by_cases hpii : cls = .pii
  · subst hpii
    exact billed_pii h hcls
  · obtain ⟨cls', t', ht', -, hcls', ⟨download, p, hitems⟩, htotal⟩ := handle_billed h
    obtain rfl := Except.ok.inj (hcls.symm.trans hcls')
    obtain rfl := Except.ok.inj (ht.symm.trans ht')
    rw [htotal, due]
    exact measure_content hpii hitems hbare hsame

end Content

end Ai4iCore.Task
