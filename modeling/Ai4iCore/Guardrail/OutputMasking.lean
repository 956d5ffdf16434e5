import Ai4iCore.Guardrail.InputMasking

/-!
# Every choice of an answer is processed

A completion can hold several choices, and it can come in one body or cut into chunks. For a
client under a policy on the output it should make no difference: each choice reaches it as
`process_response_text` of what the model said, in both modes.

The body has its first choice rewritten and the others passed on; the stream is read by the
first choice of each chunk, whichever that is, and becomes one chunk with one choice. So all
is well with one choice, for every cut (`streamed_single`), and with more of them something
goes wrong as soon as one says anything (`output_masked_iff`).
-/

namespace Ai4iCore.Guardrail

/-! ## What a client reads -/

/-- The text under an index among some choices; a choice without an index is read as the
first. -/
def textAt (i : Nat) (choices : List Choice) : Text :=
  choices.flatMap fun c => if c.index.getD 0 = i then c.content.getD [] else []

/-- The text under an index in a stream. -/
def streamText (i : Nat) (lines : List Line) : Text :=
  lines.flatMap fun
    | .chunk c => textAt i c.choices
    | _ => []

/-- The choices of a completion, numbered from `k` on. -/
def numbered : Nat → List (Option Text) → List Choice
  | _, [] => []
  | k, content :: rest => ⟨some k, content⟩ :: numbered (k + 1) rest

/-- What the model said as choice `i`. -/
def said (texts : List (Option Text)) (i : Nat) : Text := (texts[i]?.bind id).getD []

theorem said_cons (content : Option Text) (rest : List (Option Text)) (i : Nat) :
    said (content :: rest) (i + 1) = said rest i := rfl

theorem textAt_cons (i k : Nat) (content : Option Text) (choices : List Choice) :
    textAt i (⟨some k, content⟩ :: choices) =
      (if k = i then content.getD [] else []) ++ textAt i choices := by
  rw [textAt, List.flatMap_cons]
  rfl

theorem textAt_numbered_lt (texts : List (Option Text)) {k i : Nat} (h : i < k) :
    textAt i (numbered k texts) = [] := by
  induction texts generalizing k with
  | nil => rfl
  | cons content rest ih =>
    rw [numbered, textAt_cons, if_neg (by omega), ih (by omega)]
    rfl

theorem textAt_numbered (texts : List (Option Text)) (k i : Nat) :
    textAt (k + i) (numbered k texts) = said texts i := by
  induction texts generalizing k i with
  | nil => rfl
  | cons content rest ih =>
    rw [numbered, textAt_cons]
    cases i with
    | zero =>
      rw [if_pos (by omega), textAt_numbered_lt rest (by omega), List.append_nil]
      rfl
    | succ i =>
      rw [if_neg (by omega), said_cons, ← ih (k + 1) i, List.nil_append]
      congr 1
      omega

/-! ## Cuts of a completion -/

/-- The stream is a cut of the completion: chunks speak of its choices, of each at most once,
and under every index the contents add up to what was said. -/
structure Cuts (texts : List (Option Text)) (lines : List Line) : Prop where
  nodup : ∀ c, .chunk c ∈ lines → (c.choices.map Choice.index).Nodup
  indices : ∀ c, .chunk c ∈ lines → ∀ choice ∈ c.choices, ∃ i < texts.length, choice.index = some i
  texts : ∀ i < texts.length, streamText i lines = said texts i

/-- One chunk for each index, in the given order. -/
def cutIn (texts : List (Option Text)) (order : List Nat) : List Line :=
  order.map fun i => .chunk ⟨[⟨some i, some (said texts i)⟩], none⟩

theorem streamText_cutIn (texts : List (Option Text)) {order : List Nat} (hnodup : order.Nodup)
    (i : Nat) : streamText i (cutIn texts order) = if i ∈ order then said texts i else [] := by
  induction order with
  | nil => rfl
  | cons j order ih =>
    obtain ⟨hj, hnodup⟩ := List.nodup_cons.mp hnodup
    have hstep : streamText i (cutIn texts (j :: order)) =
        (if j = i then said texts j else []) ++ streamText i (cutIn texts order) := by
      simp [streamText, cutIn, textAt]
    rw [hstep, ih hnodup]
    by_cases hji : j = i
    · subst hji
      simp [hj]
    · simp [hji, Ne.symm hji]

theorem cutIn_cuts {texts : List (Option Text)} {order : List Nat} (hnodup : order.Nodup)
    (hmem : ∀ i, i ∈ order ↔ i < texts.length) : Cuts texts (cutIn texts order) where
  nodup c hc := by
    obtain ⟨i, -, hi⟩ := List.mem_map.mp hc
    cases hi
    exact List.nodup_singleton _
  indices c hc choice hchoice := by
    obtain ⟨i, hi, heq⟩ := List.mem_map.mp hc
    cases heq
    obtain rfl := List.mem_singleton.mp hchoice
    exact ⟨i, (hmem i).mp hi, rfl⟩
  texts i hi := by rw [streamText_cutIn texts hnodup, if_pos ((hmem i).mpr hi)]

theorem lastChunk_append (lines : List Line) (c : Chunk) :
    lastChunk (lines ++ [.chunk c]) = some c := by
  induction lines with
  | nil => rfl
  | cons line lines ih =>
    rw [List.cons_append]
    simp [lastChunk, ih]

theorem lastChunk_mem {lines : List Line} {c : Chunk} (h : lastChunk lines = some c) :
    .chunk c ∈ lines := by
  induction lines with
  | nil => cases h
  | cons line lines ih =>
    unfold lastChunk at h
    split at h
    · rename_i hrest
      exact List.mem_cons_of_mem _ (ih (hrest.trans h))
    · cases h
      exact List.mem_cons_self
    · cases h

theorem streamText_of_lastChunk_none {lines : List Line} (h : lastChunk lines = none) (i : Nat) :
    streamText i lines = [] := by
  induction lines with
  | nil => rfl
  | cons line lines ih =>
    have hrest : lastChunk lines = none := by
      unfold lastChunk at h
      split at h
      · cases h
      · cases h
      · assumption
    cases line with
    | chunk c =>
      unfold lastChunk at h
      rw [hrest] at h
      cases h
    | done => exact ih hrest
    | other => exact ih hrest

/-! ## Nothing is processed away -/

theorem replaceFrom_ne_nil {old new text : Text} (hnew : new ≠ []) (htext : text ≠ []) :
    replaceFrom old new 0 text ≠ [] := by
  cases text with
  | nil => exact absurd rfl htext
  | cons c rest =>
    unfold replaceFrom
    split
    · exact List.append_ne_nil_of_left_ne_nil hnew _
    · exact List.cons_ne_nil _ _

theorem unmask_ne_nil {tokens : Dict Text Text} {text : Text}
    (htokens : ∀ e ∈ tokens, e.2 ≠ []) (htext : text ≠ []) : unmask text tokens ≠ [] := by
  unfold unmask
  induction tokens generalizing text with
  | nil => exact htext
  | cons e tokens ih =>
    exact ih (fun e' he' => htokens e' (List.mem_cons_of_mem _ he'))
      (replaceFrom_ne_nil (htokens e List.mem_cons_self) htext)

theorem replaceDetections_ne_nil {mapping : EntityMapping} (hfilled : Filled mapping)
    {text : Text} (htext : text ≠ []) (ds : List Detection) :
    (ds.foldl replaceDetection (text, mapping)).1 ≠ [] := by
  induction ds generalizing text mapping with
  | nil => exact htext
  | cons d ds ih =>
    refine ih (hfilled.operate d.entityType _) ?_
    obtain ⟨i, htoken⟩ := hfilled.operate_isToken d.entityType ((text.take d.stop).drop d.start)
    obtain ⟨rest, hrest⟩ := tokenOf_eq d.entityType i
    show text.take d.start ++ (operate mapping d.entityType _).1 ++ text.drop d.stop ≠ []
    rw [htoken, hrest]
    simp

theorem mask_ne_nil {engine : Engine} {types : List PolicyType} {text text' : Text}
    {mapping' : EntityMapping} (htext : text ≠ [])
    (h : mask engine types text [] = .ok (text', mapping')) : text' ≠ [] := by
  unfold mask at h
  split at h
  · cases h
  · cases h
    exact htext
  · rename_i results _ _
    injection h with h
    have hfold := replaceDetections_ne_nil .empty htext (engine.resolve text results)
    rw [← anonymize, h] at hfold
    exact hfold

/-- A text is not processed into nothing, as long as no token stands for nothing. -/
theorem processResponseText_ne_nil {engine : Engine} {ctx : Context} {text text' : Text}
    (htokens : ∀ e ∈ ctx.tokenToOriginal, e.2 ≠ []) (htext : text ≠ [])
    (h : processResponseText engine text ctx = .ok text') : text' ≠ [] := by
  have hunmasked : (if ctx.needsInputMask then unmaskResponse text ctx else text) ≠ [] := by
    unfold unmaskResponse
    split
    · split
      · exact htext
      · exact unmask_ne_nil htokens htext
    · exact htext
  unfold processResponseText at h
  dsimp only at h
  split at h
  · unfold applyOutputGuardrail at h
    split at h
    · cases h
      exact hunmasked
    · cases hmask : mask engine ctx.policyTypes
        (if ctx.needsInputMask then unmaskResponse text ctx else text) [] with
      | error e =>
        rw [hmask] at h
        cases h
      | ok r =>
        rw [hmask] at h
        cases h
        exact mask_ne_nil hunmasked hmask
  · cases h
    exact hunmasked

/-! ## Both modes -/

/-- The texts a buffered client reads; `none` when the answer is blocked. -/
def bufferedTexts (engine : Engine) (ctx : Context) (payload : Payload)
    (texts : List (Option Text)) : Option (Nat → Text) :=
  match (applyGuardrailOutput engine ctx 200 (.completion (numbered 0 texts)) payload).2 with
  | (200, .completion choices) => some fun i => textAt i choices
  | _ => none

/-- The texts a streaming client reads; `none` when the stream breaks off. -/
def streamedTexts (engine : Engine) (ctx : Context) (payload : Payload) (lines : List Line) :
    Option (Nat → Text) :=
  (bufferedGuardrailGen engine ctx payload lines).2.map fun out i => streamText i out

/-- Two clients read the same of `n` choices, or neither gets an answer. -/
def Agree (n : Nat) (read read' : Option (Nat → Text)) : Prop :=
  match read, read' with
  | some f, some g => ∀ i < n, f i = g i
  | none, none => True
  | _, _ => False

/-- The property: a buffered client reads every choice as `process_response_text` of what was
said, and a streaming one reads the same for every cut. -/
structure EveryChoiceProcessed (engine : Engine) (ctx : Context) (payload : Payload)
    (texts : List (Option Text)) : Prop where
  processed : ∀ read, bufferedTexts engine ctx payload texts = some read → ∀ i t,
    texts[i]? = some (some t) → processResponseText engine t ctx = .ok (read i)
  modes : ∀ lines, Cuts texts lines →
    Agree texts.length (bufferedTexts engine ctx payload texts)
      (streamedTexts engine ctx payload lines)

section Modes

variable {engine : Engine} {ctx : Context} {payload : Payload}

theorem bufferedTexts_eq (hactive : ctx.active = true) (texts : List (Option Text)) :
    bufferedTexts engine ctx payload texts =
      match texts with
      | some t :: rest =>
        match processResponseText engine t ctx with
        | .ok t' => some (said (some t' :: rest))
        | .error _ => none
      | texts => some (said texts) := by
  have hread : ∀ texts', (fun i => textAt i (numbered 0 texts')) = said texts' := by
    intro texts'
    funext i
    have := textAt_numbered texts' 0 i
    rwa [Nat.zero_add] at this
  unfold bufferedTexts applyGuardrailOutput
  rw [hactive]
  cases texts with
  | nil => exact congrArg some (hread [])
  | cons content rest =>
    cases content with
    | none => exact congrArg some (hread (none :: rest))
    | some t =>
      cases hprocess : processResponseText engine t ctx with
      | error e => simp [numbered, processFirstChoice, hprocess]
      | ok t' =>
        have hfirst : processFirstChoice engine ctx (numbered 0 (some t :: rest)) =
            .ok (numbered 0 (some t' :: rest)) := by
          simp [numbered, processFirstChoice, hprocess]
        simp only [Bool.not_true, Bool.false_eq_true, if_false, hfirst, hprocess]
        exact congrArg some (hread (some t' :: rest))

theorem streamedTexts_eq (lines : List Line) :
    streamedTexts engine ctx payload lines =
      match processResponseText engine (lines.flatMap Line.firstContent) ctx with
      | .error _ => none
      | .ok text => some fun i =>
        match lastChunk lines with
        | some last => if (last.choices.head?.bind Choice.index).getD 0 = i then text else []
        | none => [] := by
  unfold streamedTexts bufferedGuardrailGen
  cases processResponseText engine (lines.flatMap Line.firstContent) ctx with
  | error e => rfl
  | ok text =>
    cases lastChunk lines with
    | none => rfl
    | some last =>
      refine congrArg some (funext fun i => ?_)
      simp [streamText, syntheticChunk, textAt]

/-! ## One choice, or nothing said -/

/-- Where chunks speak of one choice only, the first choice of each is all there is. -/
theorem firstContent_single {content : Option Text} {lines : List Line}
    (hcuts : Cuts [content] lines) : lines.flatMap Line.firstContent = said [content] 0 := by
  rw [← hcuts.texts 0 Nat.zero_lt_one]
  unfold streamText
  refine List.flatMap_congr fun line hline => ?_
  cases line with
  | done => rfl
  | other => rfl
  | chunk c =>
    have hzero : ∀ choice ∈ c.choices, choice.index = some 0 := by
      intro choice hchoice
      obtain ⟨i, hi, hindex⟩ := hcuts.indices c hline choice hchoice
      rw [hindex, Nat.lt_one_iff.mp hi]
    have hnodup := hcuts.nodup c hline
    show (c.choices.head?.bind Choice.content).getD [] = textAt 0 c.choices
    cases hchoices : c.choices with
    | nil => rfl
    | cons first rest =>
      rw [hchoices] at hzero hnodup
      have hrest : rest = [] := by
        cases rest with
        | nil => rfl
        | cons second rest =>
          -- two choices of the same index
          have hfirst := hzero first List.mem_cons_self
          have hsecond := hzero second (List.mem_cons_of_mem _ List.mem_cons_self)
          simp [hfirst, hsecond] at hnodup
      subst hrest
      simp [textAt, hzero first List.mem_cons_self]

theorem lastChunk_index_single {content : Option Text} {lines : List Line} {last : Chunk}
    (hcuts : Cuts [content] lines) (hlast : lastChunk lines = some last) :
    (last.choices.head?.bind Choice.index).getD 0 = 0 := by
  cases hchoices : last.choices with
  | nil => rfl
  | cons first rest =>
    obtain ⟨i, hi, hindex⟩ := hcuts.indices last (lastChunk_mem hlast) first
      (hchoices ▸ List.mem_cons_self)
    simpa [hindex] using hi

/-- Under the index of a single choice a streaming client reads all of the processed text. -/
theorem streamed_single (hempty : processResponseText engine [] ctx = .ok [])
    {content : Option Text} {lines : List Line} (hcuts : Cuts [content] lines) :
    match processResponseText engine (said [content] 0) ctx with
    | .error _ => streamedTexts engine ctx payload lines = none
    | .ok text => ∃ read, streamedTexts engine ctx payload lines = some read ∧ read 0 = text := by
  rw [streamedTexts_eq, firstContent_single hcuts]
  cases hprocess : processResponseText engine (said [content] 0) ctx with
  | error e => rfl
  | ok text =>
    refine ⟨_, rfl, ?_⟩
    cases hlast : lastChunk lines with
    | some last =>
      dsimp only
      rw [if_pos (lastChunk_index_single hcuts hlast)]
    | none =>
      -- a stream without a chunk has said nothing
      have hsaid : said [content] 0 = [] := by
        rw [← hcuts.texts 0 Nat.zero_lt_one, streamText_of_lastChunk_none hlast]
      rw [hsaid, hempty] at hprocess
      cases hprocess
      rfl

theorem everyChoiceProcessed_single (hactive : ctx.active = true)
    (hempty : processResponseText engine [] ctx = .ok []) (content : Option Text) :
    EveryChoiceProcessed engine ctx payload [content] where
  processed read hread i t ht := by
    cases i with
    | succ i => cases ht
    | zero =>
      cases ht
      rw [bufferedTexts_eq hactive] at hread
      dsimp only at hread
      split at hread
      · rename_i t' hprocess
        cases hread
        exact hprocess
      · cases hread
  modes lines hcuts := by
    have hstreamed := @streamed_single engine ctx payload hempty content lines hcuts
    rw [bufferedTexts_eq hactive]
    cases content with
    | none =>
      have hsaid : said [none] 0 = [] := rfl
      rw [hsaid, hempty] at hstreamed
      obtain ⟨read, hread, hzero⟩ := hstreamed
      rw [hread]
      intro i hi
      obtain rfl := Nat.lt_one_iff.mp hi
      exact hzero.symm
    | some t =>
      have hsaid : said [some t] 0 = t := rfl
      rw [hsaid] at hstreamed
      dsimp only
      split at hstreamed
      · rename_i e hprocess
        rw [hprocess, hstreamed]
        trivial
      · rename_i text hprocess
        obtain ⟨read, hread, hzero⟩ := hstreamed
        rw [hprocess, hread]
        intro i hi
        obtain rfl := Nat.lt_one_iff.mp hi
        exact hzero.symm

/-- Nobody said anything. -/
theorem firstContent_silent {texts : List (Option Text)} {lines : List Line}
    (hcuts : Cuts texts lines) (hsilent : ∀ i, said texts i = []) :
    lines.flatMap Line.firstContent = [] := by
  refine List.flatMap_eq_nil_iff.mpr fun line hline => ?_
  cases line with
  | done => rfl
  | other => rfl
  | chunk c =>
    cases hchoices : c.choices with
    | nil => simp [Line.firstContent, hchoices]
    | cons first rest =>
      obtain ⟨i, hi, hindex⟩ := hcuts.indices c hline first (hchoices ▸ List.mem_cons_self)
      have hnothing : streamText i lines = [] := (hcuts.texts i hi).trans (hsilent i)
      have hchunk : textAt i c.choices = [] := List.flatMap_eq_nil_iff.mp hnothing _ hline
      rw [hchoices] at hchunk
      have hfirst := List.flatMap_eq_nil_iff.mp hchunk first List.mem_cons_self
      simpa [Line.firstContent, hchoices, hindex] using hfirst

theorem everyChoiceProcessed_silent (hactive : ctx.active = true)
    (hempty : processResponseText engine [] ctx = .ok []) {texts : List (Option Text)}
    (hsilent : ∀ i, said texts i = []) : EveryChoiceProcessed engine ctx payload texts := by
  have hbuffered : bufferedTexts engine ctx payload texts = some (said texts) := by
    rw [bufferedTexts_eq hactive]
    split
    · rename_i t rest
      obtain rfl : t = [] := hsilent 0
      rw [hempty]
    · rfl
  constructor
  · intro read hread i t ht
    obtain rfl := Option.some.inj (hbuffered.symm.trans hread)
    have hsaid : said texts i = t := by simp [said, ht]
    rw [hsaid, ← hsaid, hsilent i]
    exact hempty
  · intro lines hcuts
    rw [hbuffered, streamedTexts_eq, firstContent_silent hcuts hsilent, hempty]
    intro i _
    rw [hsilent i]
    dsimp only
    split
    · split <;> rfl
    · rfl

/-! ## More than one choice -/

/-- The streaming client of a cut in which choice `l` comes last reads nothing under any other
index. -/
theorem streamed_other {texts : List (Option Text)} {order : List Nat} {l i : Nat} (hne : i ≠ l)
    {read : Nat → Text}
    (hread : streamedTexts engine ctx payload (cutIn texts (order ++ [l])) = some read) :
    read i = [] := by
  have hlast : lastChunk (cutIn texts (order ++ [l])) = some ⟨[⟨some l, some (said texts l)⟩], none⟩ := by
    unfold cutIn
    rw [List.map_append]
    exact lastChunk_append _ _
  rw [streamedTexts_eq, hlast] at hread
  split at hread
  · cases hread
  · cases hread
    exact if_neg (Ne.symm hne)

/-- With two choices and an answer that gets through, whatever the buffered client reads of a
choice is empty: there is a cut in which another one comes last. -/
theorem read_empty {texts : List (Option Text)}
    (hprop : EveryChoiceProcessed engine ctx payload texts) (hmore : 1 < texts.length)
    (hreturns : ∀ t, ∃ t', processResponseText engine t ctx = .ok t') {read : Nat → Text}
    (hread : bufferedTexts engine ctx payload texts = some read) (i : Nat)
    (hi : i < texts.length) : read i = [] := by
  obtain ⟨m, hm⟩ : ∃ m, texts.length = m + 2 := ⟨texts.length - 2, by omega⟩
  -- a cut ends with the last choice or with the first
  obtain ⟨order, l, hl, hnodup, hmem⟩ : ∃ order l, i ≠ l ∧ (order ++ [l]).Nodup ∧
      ∀ j, j ∈ order ++ [l] ↔ j < texts.length := by
    by_cases hzero : i = 0
    · refine ⟨List.range (m + 1), m + 1, by omega, ?_, ?_⟩
      · rw [← List.range_succ]
        exact List.nodup_range
      · intro j
        rw [← List.range_succ, List.mem_range, hm]
    · refine ⟨((List.range (m + 1)).map Nat.succ).reverse, 0, hzero, ?_, ?_⟩
      · rw [← List.reverse_cons, ← List.range_succ_eq_map, List.nodup_reverse]
        exact List.nodup_range
      · intro j
        rw [← List.reverse_cons, ← List.range_succ_eq_map, List.mem_reverse, List.mem_range, hm]
  have hagree := hprop.modes _ (cutIn_cuts hnodup hmem)
  rw [hread] at hagree
  obtain ⟨t', ht'⟩ := hreturns ((cutIn texts (order ++ [l])).flatMap Line.firstContent)
  cases hstreamed : streamedTexts engine ctx payload (cutIn texts (order ++ [l])) with
  | none =>
    rw [streamedTexts_eq, ht'] at hstreamed
    cases hstreamed
  | some read' =>
    rw [hstreamed] at hagree
    exact (hagree i hi).trans (streamed_other hl hstreamed)

theorem silent_of_everyChoiceProcessed (hactive : ctx.active = true)
    (hreturns : ∀ t, ∃ t', processResponseText engine t ctx = .ok t')
    (htokens : ∀ e ∈ ctx.tokenToOriginal, e.2 ≠ []) {texts : List (Option Text)}
    (hprop : EveryChoiceProcessed engine ctx payload texts) (hmore : 1 < texts.length) :
    ∀ t ∈ texts, t.getD [] = [] := by
  obtain ⟨read, hread⟩ : ∃ read, bufferedTexts engine ctx payload texts = some read := by
    rw [bufferedTexts_eq hactive]
    split
    · rename_i t rest
      obtain ⟨t', ht'⟩ := hreturns t
      exact ⟨_, by rw [ht']⟩
    · exact ⟨_, rfl⟩
  intro content hmem
  cases content with
  | none => rfl
  | some t =>
    obtain ⟨i, hi, hget⟩ := List.mem_iff_getElem.mp hmem
    have hprocess := hprop.processed read hread i t (by rw [List.getElem?_eq_getElem hi, hget])
    rw [read_empty hprop hmore hreturns hread i hi] at hprocess
    by_contra hne
    exact processResponseText_ne_nil htokens hne hprocess rfl

/-- **Output masking.** Under an applied policy, where the engine finds nothing in an empty
text: when a completion has at most one choice, or none of its choices says anything, every
choice is processed and both modes agree on every cut. And where `process_response_text`
returns and no token stands for an empty original, these are the only completions for which
that is so. -/
theorem output_masked_iff (hactive : ctx.active = true)
    (hempty : processResponseText engine [] ctx = .ok []) (texts : List (Option Text)) :
    ((texts.length ≤ 1 ∨ ∀ t ∈ texts, t.getD [] = []) →
      EveryChoiceProcessed engine ctx payload texts) ∧
    ((∀ t, ∃ t', processResponseText engine t ctx = .ok t') →
      (∀ e ∈ ctx.tokenToOriginal, e.2 ≠ []) →
      EveryChoiceProcessed engine ctx payload texts →
      (texts.length ≤ 1 ∨ ∀ t ∈ texts, t.getD [] = [])) := by
  constructor
  · rintro (hsingle | hsilent)
    · match texts with
      | [] => exact everyChoiceProcessed_silent hactive hempty fun _ => rfl
      | [content] => exact everyChoiceProcessed_single hactive hempty content
      | _ :: _ :: _ => simp at hsingle
    · refine everyChoiceProcessed_silent hactive hempty fun i => ?_
      unfold said
      cases hget : texts[i]? with
      | none => rfl
      | some content => exact hsilent content (List.mem_of_getElem? hget)
  · intro hreturns htokens hprop
    rcases Nat.lt_or_ge 1 texts.length with hmore | hsingle
    · exact .inr (silent_of_everyChoiceProcessed hactive hreturns htokens hprop hmore)
    · exact .inl hsingle

end Modes

/-- The context of one policy of scope `output`, for the phone number. -/
def outputCtx : Context := ⟨[1], phoneTypes, [.output], []⟩

theorem returns_literal (t : Text) :
    ∃ t', processResponseText literalEngine t outputCtx = .ok t' := by
  obtain ⟨r, hr⟩ : ∃ r, mask literalEngine phoneTypes t [] = .ok r := by
    have hdetect : ∃ ds, detect literalEngine phoneTypes t = .ok ds := ⟨_, rfl⟩
    obtain ⟨ds, hds⟩ := hdetect
    unfold mask
    rw [hds]
    cases ds with
    | nil => exact ⟨_, rfl⟩
    | cons d ds => exact ⟨_, rfl⟩
  refine ⟨r.1, ?_⟩
  show (mask literalEngine phoneTypes t []).map Prod.fst = .ok r.1
  rw [hr]
  rfl

theorem output_masked_single :
    bufferedTexts literalEngine outputCtx (chatOf .absent) [some phoneText] =
        some (said [some "call <PHONE_1>".toList]) ∧
      EveryChoiceProcessed literalEngine outputCtx (chatOf .absent) [some phoneText] ∧
      ¬ EveryChoiceProcessed literalEngine outputCtx (chatOf .absent)
        [some "hi".toList, some "there".toList] := by
  refine ⟨?_, (output_masked_iff rfl rfl [some phoneText]).1 (.inl (Nat.le_refl 1)), fun hprop => ?_⟩
  · rw [bufferedTexts_eq rfl]
    rfl
  · have hcond := (output_masked_iff rfl rfl _).2 returns_literal nofun hprop
    rcases hcond with hle | hsilent
    · simp at hle
    · exact absurd (hsilent _ List.mem_cons_self) (by decide +kernel)

/-- Two choices: the buffered client reads the phone number in the second, and a streaming
client reads both as one. -/
theorem second_choice_leaks :
    bufferedTexts literalEngine outputCtx (chatOf .absent) [some "hi".toList, some phoneText] =
        some (said [some "hi".toList, some phoneText]) ∧
      (streamedTexts literalEngine outputCtx (chatOf .absent)
        (cutIn [some "hi".toList, some phoneText] [0, 1])).map (fun read => (read 0, read 1)) =
        some ([], "hicall <PHONE_1>".toList) ∧
      ¬ EveryChoiceProcessed literalEngine outputCtx (chatOf .absent)
        [some "hi".toList, some phoneText] := by
  have hbuffered : bufferedTexts literalEngine outputCtx (chatOf .absent)
      [some "hi".toList, some phoneText] = some (said [some "hi".toList, some phoneText]) := by
    rw [bufferedTexts_eq rfl]
    rfl
  refine ⟨hbuffered, by decide +kernel, fun hprop => ?_⟩
  have hprocessed := hprop.processed _ hbuffered 1 phoneText rfl
  have hmasked : processResponseText literalEngine phoneText outputCtx =
      .ok "call <PHONE_1>".toList := rfl
  rw [hmasked] at hprocessed
  have htext : "call <PHONE_1>".toList = phoneText := Except.ok.inj hprocessed
  exact absurd htext (by decide +kernel)

end Ai4iCore.Guardrail
