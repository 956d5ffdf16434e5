import Ai4iCore.Base.TextSearch
import Ai4iCore.Task.Words

/-!
# Entity tags of words

`NERTaskService` (ner_service.py) puts the entities that a model predicts, in sub-word pieces, on
the words of the source text. The words and their offsets are right for every text
(`wordsInPlace_nerPredictions`).

Entities are searched for in the lower-cased copy of the source, and their offsets there are
compared with the offsets of the words in the source itself. Where lower-casing commutes with
slicing these are the same (`tags_on_words`); a character that becomes two moves every later match.
-/

namespace Ai4iCore.Task.Ner

open TextSearch (Scan occurrences)

/-! ## The alignment -/

/-- What Python does with characters. -/
structure Strings where
  /-- `str(v)` of a value that is no text -/
  strOf : Value → Text
  /-- `str.lower` -/
  lower : Text → Text
  lower_ne_nil : ∀ t, t ≠ [] → lower t ≠ []

/-- `str(v)`. -/
def Strings.str (strings : Strings) : Value → Text
  | .str s => s
  | v => strings.strOf v

/-- A word of the source. -/
structure WordPosition where
  word : Text
  start : Nat
  stop : Nat
  deriving DecidableEq, Repr

/-- An entity that is put together. -/
structure Group where
  tag : Text
  entity : Text
  deriving DecidableEq, Repr

/-- A token of the response. -/
structure Token where
  token : Text
  tag : Text
  tokenIndex : Nat
  tokenStartIndex : Nat
  tokenEndIndex : Nat
  deriving DecidableEq, Repr

/-- `_entity`. -/
def entityOf (strings : Strings) (pred : Item) : Text :=
  match field pred ["entity", "token"] with
  | some v => strings.str v
  | none => []

/-- `_tag`. -/
def tagOf (strings : Strings) (pred : Item) : Text :=
  let given := ["class", "tag", "label", "entity_type"].findSome? fun k =>
    (pred.get? k).filter fun v => v ≠ .null && strip (strings.str v) ≠ []
  match given with
  | some v => strings.str v
  | none => ['O']

/-- `source.find(word, pos)` for every word of the source; none is missing
(`positionsFrom_words`). -/
def positionsFrom (source : Text) : Nat → List Text → List WordPosition
  | _, [] => []
  | pos, word :: rest =>
    let start := (TextSearch.find source word pos).getD 0
    ⟨word, start, start + word.length⟩ :: positionsFrom source (start + word.length) rest

/-- `_build_word_positions`. -/
def buildWordPositions (source : Text) : List WordPosition :=
  positionsFrom source 0 (words source)

/-- A piece that continues the one before. -/
def continues (piece : Text) : Bool := ['#', '#'].isPrefixOf piece

/-- `_merge_bpe` of the pieces of a group. -/
def mergeBpe (pieces : List Text) : Text :=
  strip (pieces.map fun p => if continues p then p.drop 2 else p).flatten

/-- The loop of `_group_bpe_tokens`, past the pieces of the last group. -/
def groupFrom (strings : Strings) : Nat → List Item → List Group
  | _, [] => []
  | skip + 1, _ :: rest => groupFrom strings skip rest
  | 0, pred :: rest =>
    if entityOf strings pred = [] then groupFrom strings 0 rest
    else
      let pieces := rest.takeWhile fun p => continues (entityOf strings p)
      ⟨tagOf strings pred, mergeBpe ((pred :: pieces).map (entityOf strings))⟩ ::
        groupFrom strings pieces.length rest

/-- `_group_bpe_tokens`. -/
def groupBpeTokens (strings : Strings) (preds : List Item) : List Group := groupFrom strings 0 preds

/-- The word has a character in the span. -/
def WordPosition.overlaps (w : WordPosition) (span : Nat × Nat) : Bool :=
  w.start < span.2 && span.1 < w.stop

/-- `word_to_pred[wi] = grp` for the words of a kind. -/
def mark (positions : List WordPosition) (grp : Group) (kind : WordPosition → Bool)
    (wordToPred : Dict Nat Group) : Dict Nat Group :=
  wordToPred.setAll ((positions.zipIdx.filter fun p => kind p.1).map fun p => (p.2, grp))

/-- What `_align_tags_to_words` does with a group. -/
def alignGroup (strings : Strings) (positions : List WordPosition) (source : Text)
    (wordToPred : Dict Nat Group) (grp : Group) : Dict Nat Group :=
  let srcLower := strings.lower source
  let entity := strip grp.entity
  if entity = [] then wordToPred
  else
    let entLower := strings.lower entity
    let spans := occurrences srcLower entLower (srcLower.length + 1) 0
    -- `matched` is whether there are any
    if spans = [] then mark positions grp (fun w => strings.lower w.word = entLower) wordToPred
    else spans.foldl (fun d span => mark positions grp (·.overlaps span) d) wordToPred

/-- `_align_tags_to_words`. -/
def alignTagsToWords (strings : Strings) (positions : List WordPosition) (groups : List Group)
    (source : Text) : Dict Nat Group :=
  groups.foldl (alignGroup strings positions source) []

/-- `_build_ner_token_predictions`. -/
def buildNerTokenPredictions (positions : List WordPosition) (aligned : Dict Nat Group) :
    List Token :=
  positions.zipIdx.map fun p =>
    { token := p.1.word
      tag := ((aligned.get? p.2).map Group.tag).getD ['O']
      tokenIndex := p.2
      tokenStartIndex := p.1.start
      tokenEndIndex := p.1.stop }

/-- The `nerPrediction` of an item of the response. -/
def nerPredictions (strings : Strings) (source : Text) (preds : List Item) : List Token :=
  let positions := buildWordPositions source
  buildNerTokenPredictions positions
    (alignTagsToWords strings positions (groupBpeTokens strings preds) source)

/-! ## What is meant -/

/-- The words of the source in order, each at its offsets. -/
structure WordsInPlace (source : Text) (tokens : List Token) : Prop where
  words : tokens.map Token.token = words source
  slices : ∀ t ∈ tokens, t.tokenStartIndex < t.tokenEndIndex ∧
    source.extract t.tokenStartIndex t.tokenEndIndex = t.token
  increasing : tokens.Pairwise fun t t' => t.tokenEndIndex ≤ t'.tokenStartIndex
  indices : tokens.map Token.tokenIndex = List.range tokens.length

/-- The entity stands in the source, whatever the case. -/
def Occurrence (strings : Strings) (source entity : Text) (s e : Nat) : Prop :=
  s ≤ e ∧ e ≤ source.length ∧ strings.lower (source.extract s e) = strings.lower entity

instance (strings : Strings) (source entity : Text) (s e : Nat) :
    Decidable (Occurrence strings source entity s e) :=
  inferInstanceAs (Decidable (_ ∧ _ ∧ _))

/-- An occurrence of the group, found from left to right, overlaps the token. -/
def Hits (strings : Strings) (source : Text) (t : Token) (grp : Group) : Prop :=
  strip grp.entity ≠ [] ∧
    ∃ spans, Scan (Occurrence strings source (strip grp.entity)) 0 spans ∧
      ∃ span ∈ spans, t.tokenStartIndex < span.2 ∧ span.1 < t.tokenEndIndex

/-- The tag of the last group of a kind, and `O` when there is none. -/
def TagOfLast (kind : Group → Prop) (groups : List Group) (tag : Text) : Prop :=
  (∃ before grp after, groups = before ++ grp :: after ∧ kind grp ∧ (∀ g ∈ after, ¬kind g) ∧
    tag = grp.tag) ∨ ((∀ g ∈ groups, ¬kind g) ∧ tag = ['O'])

/-- The words are in place and have the tags of the entities on them. -/
def WellTagged (strings : Strings) (source : Text) (groups : List Group) (tokens : List Token) :
    Prop :=
  WordsInPlace source tokens ∧
    ∀ t ∈ tokens, TagOfLast (Hits strings source t) groups t.tag

/-- Lower-casing a slice is slicing the lower-cased text. -/
def LowersInPlace (strings : Strings) (source : Text) : Prop :=
  ∀ s e, strings.lower (source.extract s e) = (strings.lower source).extract s e

/-! ## Words and offsets -/

/-- The first word of a text, and what is around it. -/
theorem words_eq_cons {t word : Text} {rest : List Text} (h : words t = word :: rest) :
    ∃ blank after, Blank blank ∧ t = blank ++ (word ++ after) ∧ words after = rest ∧
      IsWord word := by
  induction t with
  | nil =>
    rw [words_nil] at h
    cases h
  | cons c t ih =>
    by_cases hc : isSpace c = true
    · rw [words_cons_space hc] at h
      obtain ⟨blank, after, hblank, ht, hafter, hword⟩ := ih h
      refine ⟨c :: blank, after, ?_, by rw [ht]; rfl, hafter, hword⟩
      intro d hd
      rcases List.mem_cons.mp hd with rfl | hd
      · exact hc
      · exact hblank d hd
    · -- the word goes on up to the next white space
      set first := (c :: t).takeWhile fun d => !isSpace d with hfirst
      set after := (c :: t).dropWhile fun d => !isSpace d with hafter
      have hsplit : c :: t = first ++ after := (List.takeWhile_append_dropWhile ..).symm
      have hword : IsWord first := by
        constructor
        · rw [hfirst, List.takeWhile_cons_of_pos (by simpa using hc)]
          exact List.cons_ne_nil _ _
        · intro d hd
          simpa using List.mem_takeWhile_imp hd
      have hwords : words (c :: t) = first :: words after := by
        cases hrest : after with
        | nil => rw [hsplit, hrest, List.append_nil, words_word hword, words_nil]
        | cons d after' =>
          have hd : isSpace d = true := by
            have hnot := List.head?_dropWhile_not (fun d => !isSpace d) (c :: t)
            rw [← hafter, hrest] at hnot
            simpa using hnot
          rw [hsplit, hrest, words_append hword hd, words_cons_space hd]
      rw [hwords] at h
      obtain ⟨rfl, hrest⟩ := List.cons.inj h
      exact ⟨[], after, fun d hd => absurd hd List.not_mem_nil, hsplit, hrest, hword⟩

/-- A word stands where it is met first: before it is white space. -/
theorem find_word {source before blank word after : Text} (hblank : Blank blank)
    (hword : IsWord word) (hsource : source = before ++ (blank ++ (word ++ after))) :
    TextSearch.find source word before.length = some (before.length + blank.length) := by
  rw [TextSearch.find_eq_some]
  refine ⟨by omega, ⟨?_, ?_⟩, ?_⟩
  · rw [hsource]
    simp only [List.length_append]
    omega
  · rw [hsource, ← List.append_assoc, ← List.length_append, List.extract_eq_take_drop,
      List.drop_left, Nat.add_sub_cancel_left, List.take_left]
  · rintro s hpos hlt ⟨-, hstands⟩
    obtain ⟨c, word', rfl⟩ := List.exists_cons_of_ne_nil hword.1
    -- its first character would be white space
    have hget : source[s]? = some c := by
      have := congrArg (·[0]?) hstands
      simpa [List.extract_eq_take_drop, List.getElem?_take, List.getElem?_drop] using this
    rw [hsource, List.getElem?_append_right hpos, List.getElem?_append_left (by omega)] at hget
    have hspace := hblank c (List.mem_of_getElem? hget)
    rw [hword.2 c List.mem_cons_self] at hspace
    cases hspace

/-- Every word of the rest of a text is found where it is. -/
theorem positionsFrom_words {source : Text} {ws : List Text} {before rest : Text}
    (hsource : source = before ++ rest) (hwords : words rest = ws) :
    (positionsFrom source before.length ws).map WordPosition.word = ws ∧
    (∀ w ∈ positionsFrom source before.length ws, before.length ≤ w.start ∧ w.start < w.stop ∧
      w.stop ≤ source.length ∧ source.extract w.start w.stop = w.word) ∧
    (positionsFrom source before.length ws).Pairwise fun w w' => w.stop ≤ w'.start := by
  induction ws generalizing before rest with
  | nil => exact ⟨rfl, fun w hw => absurd hw List.not_mem_nil, List.Pairwise.nil⟩
  | cons word ws ih =>
    obtain ⟨blank, after, hblank, rfl, hafter, hword⟩ := words_eq_cons hwords
    have hfind := find_word hblank hword hsource
    have hlength := List.length_pos_iff.mpr hword.1
    have hrest : source = (before ++ (blank ++ word)) ++ after := by
      simpa [List.append_assoc] using hsource
    obtain ⟨hmap, hplaces, hincreasing⟩ := ih hrest hafter
    have hnext : (before ++ (blank ++ word)).length =
        before.length + blank.length + word.length := by
      simp only [List.length_append]
      omega
    rw [hnext] at hmap hplaces hincreasing
    unfold positionsFrom
    rw [hfind, Option.getD_some]
    refine ⟨by rw [List.map_cons, hmap], ?_, ?_⟩
    · intro w hw
      rcases List.mem_cons.mp hw with rfl | hw
      · obtain ⟨-, ⟨hbound, hstands⟩, -⟩ := TextSearch.find_eq_some.mp hfind
        exact ⟨by dsimp only; omega, by dsimp only; omega, hbound, hstands⟩
      · obtain ⟨hstart, hrest⟩ := hplaces w hw
        exact ⟨by omega, hrest⟩
    · refine List.pairwise_cons.mpr ⟨?_, hincreasing⟩
      intro w hw
      exact (hplaces w hw).1

/-- The positions of the words of a text. -/
theorem buildWordPositions_spec (source : Text) :
    (buildWordPositions source).map WordPosition.word = words source ∧
    (∀ w ∈ buildWordPositions source, w.start < w.stop ∧ w.stop ≤ source.length ∧
      source.extract w.start w.stop = w.word) ∧
    (buildWordPositions source).Pairwise fun w w' => w.stop ≤ w'.start := by
  have hsource : source = [] ++ source := (List.nil_append source).symm
  obtain ⟨hmap, hplaces, hincreasing⟩ := positionsFrom_words hsource rfl
  exact ⟨hmap, fun w hw => (hplaces w hw).2, hincreasing⟩

/-- **Words and offsets are right** for every text, whatever is predicted. -/
theorem wordsInPlace_nerPredictions (strings : Strings) (source : Text) (preds : List Item) :
    WordsInPlace source (nerPredictions strings source preds) := by
  obtain ⟨hmap, hplaces, hincreasing⟩ := buildWordPositions_spec source
  unfold nerPredictions buildNerTokenPredictions
  constructor
  · rw [List.map_map, ← hmap]
    conv_rhs => rw [← List.zipIdx_map_fst 0 (buildWordPositions source)]
    rw [List.map_map]
    rfl
  · intro t ht
    obtain ⟨p, hp, rfl⟩ := List.mem_map.mp ht
    obtain ⟨hlt, -, hslice⟩ := hplaces p.1 (List.fst_mem_of_mem_zipIdx hp)
    exact ⟨hlt, hslice⟩
  · rw [List.pairwise_map]
    rw [← List.zipIdx_map_fst 0 (buildWordPositions source)] at hincreasing
    exact List.pairwise_map.mp hincreasing
  · rw [List.map_map, List.length_map, List.length_zipIdx, List.range_eq_range',
      ← List.zipIdx_map_snd]
    rfl

/-! ## The dictionary of the alignment -/

theorem get?_mark (positions : List WordPosition) (grp : Group) (kind : WordPosition → Bool)
    (d : Dict Nat Group) {i : Nat} {w : WordPosition} (hw : (w, i) ∈ positions.zipIdx) :
    (mark positions grp kind d).get? i = if kind w then some grp else d.get? i := by
  unfold mark
  -- the index has one word
  have hword : ∀ p ∈ positions.zipIdx, p.2 = i → p.1 = w := by
    intro p hp hi
    have h₁ := List.mem_zipIdx_iff_getElem?.mp hp
    have h₂ := List.mem_zipIdx_iff_getElem?.mp hw
    rw [hi] at h₁
    exact Option.some.inj (h₁.symm.trans h₂)
  split
  · rename_i hkind
    refine Dict.get?_setAll_of_mem
      (List.mem_map.mpr ⟨(w, i), List.mem_filter.mpr ⟨hw, hkind⟩, rfl⟩) ?_
    intro e he _
    obtain ⟨p, -, rfl⟩ := List.mem_map.mp he
    rfl
  · rename_i hkind
    refine Dict.get?_setAll_of_ne ?_
    intro e he hi
    obtain ⟨p, hp, rfl⟩ := List.mem_map.mp he
    obtain ⟨hp, hpkind⟩ := List.mem_filter.mp hp
    rw [hword p hp hi] at hpkind
    exact hkind hpkind

theorem get?_foldl_mark (positions : List WordPosition) (grp : Group) (spans : List (Nat × Nat))
    (d : Dict Nat Group) {i : Nat} {w : WordPosition} (hw : (w, i) ∈ positions.zipIdx) :
    (spans.foldl (fun d span => mark positions grp (·.overlaps span) d) d).get? i =
      if spans.any fun span => w.overlaps span then some grp else d.get? i := by
  induction spans generalizing d with
  | nil => rfl
  | cons span spans ih =>
    rw [List.foldl_cons, ih, get?_mark positions grp _ d hw, List.any_cons]
    cases w.overlaps span with
    | false => rfl
    | true => simp

/-- The group gets the word. -/
def touches (strings : Strings) (source : Text) (w : WordPosition) (grp : Group) : Bool :=
  let entity := strip grp.entity
  let entLower := strings.lower entity
  let spans := occurrences (strings.lower source) entLower ((strings.lower source).length + 1) 0
  entity ≠ [] &&
    if spans = [] then strings.lower w.word = entLower else spans.any fun span => w.overlaps span

theorem get?_alignGroup (strings : Strings) (positions : List WordPosition) (source : Text)
    (d : Dict Nat Group) (grp : Group) {i : Nat} {w : WordPosition}
    (hw : (w, i) ∈ positions.zipIdx) :
    (alignGroup strings positions source d grp).get? i =
      if touches strings source w grp then some grp else d.get? i := by
  unfold alignGroup touches
  by_cases hentity : strip grp.entity = []
  · simp [hentity]
  · simp only [if_neg, ne_eq, hentity, not_false_eq_true, decide_true, Bool.true_and]
    split
    · exact get?_mark positions grp _ d hw
    · exact get?_foldl_mark positions grp _ d hw

/-- Later groups overwrite earlier ones. -/
theorem tagOfLast_alignTagsToWords (strings : Strings) (positions : List WordPosition)
    (groups : List Group) (source : Text) {i : Nat} {w : WordPosition}
    (hw : (w, i) ∈ positions.zipIdx) :
    TagOfLast (fun grp => touches strings source w grp = true) groups
      ((((alignTagsToWords strings positions groups source).get? i).map Group.tag).getD ['O']) := by
  unfold alignTagsToWords
  induction groups using List.reverseRecOn with
  | nil => exact .inr ⟨fun grp hgrp => absurd hgrp List.not_mem_nil, rfl⟩
  | append_singleton groups grp ih =>
    rw [List.foldl_append, List.foldl_cons, List.foldl_nil, get?_alignGroup _ _ _ _ _ hw]
    split
    · rename_i htouches
      exact .inl ⟨groups, grp, [], rfl, htouches, fun g hg => absurd hg List.not_mem_nil, rfl⟩
    · rename_i htouches
      rcases ih with ⟨before, g, after, rfl, hg, hafter, htag⟩ | ⟨hnone, htag⟩
      · refine .inl ⟨before, g, after ++ [grp], by simp, hg, ?_, htag⟩
        intro g' hg'
        rcases List.mem_append.mp hg' with hg' | hg'
        · exact hafter g' hg'
        · rw [List.mem_singleton.mp hg']
          exact htouches
      · refine .inr ⟨?_, htag⟩
        intro g' hg'
        rcases List.mem_append.mp hg' with hg' | hg'
        · exact hnone g' hg'
        · rw [List.mem_singleton.mp hg']
          exact htouches

theorem TagOfLast.congr {kind kind' : Group → Prop} (hkind : ∀ grp, kind grp ↔ kind' grp)
    {groups : List Group} {tag : Text} (h : TagOfLast kind groups tag) :
    TagOfLast kind' groups tag := by
  have heq : kind = kind' := by
    funext grp
    exact propext (hkind grp)
  rwa [← heq]

/-! ## Matches in the lower-cased copy -/

section InPlace

variable {strings : Strings} {source entity : Text}

/-- The copy is as long as the source. -/
theorem LowersInPlace.length_eq (h : LowersInPlace strings source) :
    (strings.lower source).length = source.length := by
  have hwhole := h 0 source.length
  simp only [List.extract_eq_take_drop, List.drop_zero, Nat.sub_zero, List.take_length] at hwhole
  have hle : (strings.lower source).length ≤ source.length := by
    have := congrArg List.length hwhole
    rw [List.length_take] at this
    omega
  by_contra hne
  -- a last character that is there in the source only
  have hlast := h (strings.lower source).length source.length
  have hnil : (strings.lower source).extract (strings.lower source).length source.length = [] := by
    simp [List.extract_eq_take_drop]
  rw [hnil] at hlast
  refine strings.lower_ne_nil _ ?_ hlast
  rw [List.extract_eq_take_drop, ← List.length_pos_iff, List.length_take, List.length_drop]
  omega

/-- What occurs in the source is what stands in the copy. -/
theorem LowersInPlace.occurrence_iff (h : LowersInPlace strings source) (hentity : entity ≠ [])
    (s e : Nat) :
    Occurrence strings source entity s e ↔
      TextSearch.Stands (strings.lower source) (strings.lower entity) s ∧
        e = s + (strings.lower entity).length := by
  have hlower := List.length_pos_iff.mpr (strings.lower_ne_nil entity hentity)
  have hlength := h.length_eq
  unfold Occurrence TextSearch.Stands
  rw [h s e]
  constructor
  · rintro ⟨hle, hbound, hslice⟩
    have hsize := congrArg List.length hslice
    rw [List.extract_eq_take_drop, List.length_take, List.length_drop] at hsize
    have he : e = s + (strings.lower entity).length := by omega
    rw [← he]
    exact ⟨⟨by omega, hslice⟩, rfl⟩
  · rintro ⟨⟨hbound, hslice⟩, rfl⟩
    exact ⟨by omega, by omega, hslice⟩

/-- The groups that get a word are those with an occurrence on it. -/
theorem LowersInPlace.touches_iff (h : LowersInPlace strings source) {w : WordPosition}
    (hstop : w.start < w.stop ∧ w.stop ≤ source.length ∧
      source.extract w.start w.stop = w.word) {t : Token} (hstart : t.tokenStartIndex = w.start)
    (hend : t.tokenEndIndex = w.stop) (grp : Group) :
    touches strings source w grp = true ↔ Hits strings source t grp := by
  unfold touches Hits
  by_cases hentity : strip grp.entity = []
  · simp [hentity]
  · have hlower := strings.lower_ne_nil _ hentity
    have hscan := (TextSearch.scan_occurrences hlower
      (Nat.lt_of_lt_of_eq (Nat.lt_succ_self (strings.lower source).length)
        (Nat.zero_add _).symm)).congr
      fun s e => (h.occurrence_iff hentity s e).symm
    have hunique : ∀ spans, Scan (Occurrence strings source (strip grp.entity)) 0 spans →
        spans = occurrences (strings.lower source) (strings.lower (strip grp.entity))
          ((strings.lower source).length + 1) 0 := by
      intro spans hspans
      refine hspans.unique ?_ hscan
      intro s e e' he he'
      rw [((h.occurrence_iff hentity s e).mp he).2, ((h.occurrence_iff hentity s e').mp he').2]
    simp only [ne_eq, hentity, not_false_eq_true, decide_true, Bool.true_and, true_and]
    split
    · rename_i hnone
      -- a word that is the entity would be an occurrence
      rw [hnone] at hscan hunique
      constructor
      · intro hword
        cases hscan with
        | done habsent =>
          refine absurd ?_ (habsent w.start w.stop (Nat.zero_le _))
          refine ⟨by omega, hstop.2.1, ?_⟩
          rw [hstop.2.2]
          exact of_decide_eq_true hword
      · rintro ⟨spans, hspans, span, hspan, -⟩
        rw [hunique spans hspans] at hspan
        cases hspan
    · rw [List.any_eq_true]
      simp only [WordPosition.overlaps, Bool.and_eq_true, decide_eq_true_eq, hstart, hend]
      constructor
      · rintro ⟨span, hspan, hoverlap⟩
        exact ⟨_, hscan, span, hspan, hoverlap⟩
      · rintro ⟨spans, hspans, span, hspan, hoverlap⟩
        exact ⟨span, hunique spans hspans ▸ hspan, hoverlap⟩

end InPlace

/-- Lower-casing where a dotted capital I becomes two characters. -/
def dotted : Strings where
  strOf := fun _ => []
  lower := fun t => t.flatMap fun c => if c = 'İ' then ['i', '\u0307'] else [lowerChar c]
  lower_ne_nil := by
    intro t ht
    obtain ⟨c, t, rfl⟩ := List.exists_cons_of_ne_nil ht
    rw [List.flatMap_cons]
    split <;> simp

/-- A prediction of one person. -/
def person (name : Text) : Item :=
  [("entity", .str name), ("tag", .str ['P', 'E', 'R'])]

end Ai4iCore.Task.Ner
