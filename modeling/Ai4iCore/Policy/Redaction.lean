import Ai4iCore.Base.Dict
import Ai4iCore.Base.Edits

/-!
# Redaction of detected entities

`_apply_redactions` of `redaction_service` replaces the detected entities from the last start to the
first, each by what the rule of its type says. The three layers of the detection report entities
independently, so spans repeat and overlap; a replacement of another length then shifts what a span
with an earlier start still has to cover, and personal data stays or other text is lost
(`overlapping_entities`).

`redaction_covers`: without that, exactly the covered characters go, replacements stand where they
were, and the order of the list does not matter.
-/

namespace Ai4iCore.Policy.Redaction

open Edits

abbrev Text := List Char

/-- `DetectedEntity`, by what a redaction reads. -/
structure DetectedEntity where
  entityType : Text
  startIndex : Nat
  endIndex : Nat
  textSegment : Text
deriving DecidableEq, Repr

/-- A rule of a policy, with the entries of its `config`. -/
structure Rule where
  entityType : Text
  action : Option Text
  tagLabel : Option Text
  maskChar : Option Text
deriving DecidableEq, Repr

/-- `rules_by_type`: the last rule of a type counts. -/
def rulesByType (rules : List Rule) : Dict Text Rule :=
  Dict.setAll [] (rules.map fun r => (r.entityType, r))

/-- What an entity is replaced by. -/
def replacement (rule : Rule) (entity : DetectedEntity) : Text :=
  let action := rule.action.getD "REDACT".toList
  if action = "REDACT_TAG".toList then
    rule.tagLabel.getD ("[".toList ++ entity.entityType ++ "]".toList)
  else if action = "MASK".toList then
    (List.replicate entity.textSegment.length (rule.maskChar.getD "X".toList)).flatten
  else "[REDACTED]".toList

/-- The body of the loop. -/
def redactEntity (rules : List Rule) (text : Text) (entity : DetectedEntity) : Text :=
  match (rulesByType rules).get? entity.entityType with
  | none => text
  | some rule =>
    text.take entity.startIndex ++ (replacement rule entity ++ text.drop entity.endIndex)

/-- `sorted(entities, key=lambda e: e.start_index, reverse=True)`: stable. -/
def lastFirst (entities : List DetectedEntity) : List DetectedEntity :=
  entities.insertionSort fun a b => b.startIndex ≤ a.startIndex

/-- `_apply_redactions`. -/
def applyRedactions (text : Text) (entities : List DetectedEntity) (rules : List Rule) : Text :=
  (lastFirst entities).foldl (redactEntity rules) text

/-! ## As edits -/

/-- The edit of an entity whose type has a rule. -/
def edit? (rules : List Rule) (entity : DetectedEntity) : Option (Edit Char) :=
  ((rulesByType rules).get? entity.entityType).map fun rule =>
    ⟨entity.startIndex, entity.endIndex, replacement rule entity⟩

/-- The edits of the entities, in the order of the list. -/
def edits (rules : List Rule) (entities : List DetectedEntity) : List (Edit Char) :=
  entities.filterMap (edit? rules)

/-- `_apply_redactions` on characters that remember where they come from. -/
def redactionTrace (text : Text) (entities : List DetectedEntity) (rules : List Rule) :
    List (Char × Origin) := trace (edits rules (lastFirst entities)) text

section Redactions

variable {rules : List Rule} {text : Text} {entities entities' : List DetectedEntity}

theorem foldl_redactEntity (entities : List DetectedEntity) (text : Text) :
    entities.foldl (redactEntity rules) text = applyAll (edits rules entities) text := by
  induction entities generalizing text with
  | nil => rfl
  | cons e entities ih =>
    rw [List.foldl_cons, ih, redactEntity]
    cases hrule : (rulesByType rules).get? e.entityType with
    | none =>
      have hedit : edit? rules e = none := by rw [edit?, hrule]; rfl
      rw [edits, edits, List.filterMap_cons_none hedit]
    | some rule =>
      have hedit : edit? rules e = some ⟨e.startIndex, e.endIndex, replacement rule e⟩ := by
        rw [edit?, hrule]
        rfl
      rw [edits, edits, List.filterMap_cons_some hedit]
      rfl

/-- The trace is that of the redaction. -/
theorem map_fst_redactionTrace (text : Text) (entities : List DetectedEntity) (rules : List Rule) :
    (redactionTrace text entities rules).map Prod.fst = applyRedactions text entities rules := by
  rw [redactionTrace, map_fst_trace, applyRedactions, foldl_redactEntity]

theorem lastFirst_perm (entities : List DetectedEntity) : (lastFirst entities).Perm entities :=
  List.perm_insertionSort _ entities

theorem edits_perm (hperm : entities.Perm entities') :
    (edits rules entities).Perm (edits rules entities') := hperm.filterMap _

theorem falling_edits (rules : List Rule) (entities : List DetectedEntity) :
    (edits rules (lastFirst entities)).Pairwise fun a b => b.start ≤ a.start := by
  have hsorted : (lastFirst entities).Pairwise fun a b => b.startIndex ≤ a.startIndex := by
    refine List.pairwise_insertionSort _ entities
  refine List.pairwise_filterMap.mpr (hsorted.imp fun {a b} hle e he e' he' => ?_)
  obtain ⟨rule, -, rfl⟩ := Option.map_eq_some_iff.mp he
  obtain ⟨rule', -, rfl⟩ := Option.map_eq_some_iff.mp he'
  exact hle

end Redactions

/-! ## What a redaction keeps -/

/-- Of two edits the one applied first is clear of the other or keeps the length, and two with one
start are interchangeable. -/
def Compatible (a b : Edit Char) : Prop :=
  (a.start < b.start → a.stop ≤ b.start ∨ b.Keeps) ∧
    (b.start < a.start → b.stop ≤ a.start ∨ a.Keeps) ∧
    (a.start = b.start → Interchangeable a b)

theorem Compatible.symm {a b : Edit Char} (h : Compatible a b) : Compatible b a :=
  ⟨h.2.1, h.1, fun heq => (h.2.2 heq.symm).symm⟩

section Kept

variable {rules : List Rule} {text : Text} {entities entities' : List DetectedEntity}

theorem fits_edits (hspans : ∀ e ∈ edits rules entities, e.In text)
    (hcompat : (edits rules entities).Pairwise Compatible) :
    Fits (edits rules (lastFirst entities)) text := by
  have hperm : (edits rules (lastFirst entities)).Perm (edits rules entities) :=
    edits_perm (lastFirst_perm entities)
  have hfalling := falling_edits rules entities
  refine ⟨fun e he => hspans e (hperm.mem_iff.mp he), hfalling, ?_⟩
  have hpairs := (hperm.pairwise_iff fun {a b} => Compatible.symm).mpr hcompat
  refine (hfalling.and hpairs).imp fun {a b} h => ?_
  obtain ⟨hle, -, hclear, hinter⟩ := h
  obtain hlt | heq := lt_or_eq_of_le hle
  · exact hclear hlt
  · exact .inr (hinter heq.symm).1

theorem applyRedactions_perm (hspans : ∀ e ∈ edits rules entities, e.In text)
    (hcompat : (edits rules entities).Pairwise Compatible) (hperm : entities'.Perm entities) :
    applyRedactions text entities' rules = applyRedactions text entities rules := by
  have hsorted : (edits rules (lastFirst entities)).Perm (edits rules (lastFirst entities')) :=
    edits_perm ((lastFirst_perm entities).trans (hperm.symm.trans (lastFirst_perm entities').symm))
  have hself : (edits rules (lastFirst entities)).Perm (edits rules entities) :=
    edits_perm (lastFirst_perm entities)
  have hpairs := (hself.pairwise_iff fun {a b} => Compatible.symm).mpr hcompat
  rw [applyRedactions, applyRedactions, foldl_redactEntity, foldl_redactEntity]
  refine (applyAll_perm hsorted (falling_edits rules entities) (falling_edits rules entities')
    (fun e he => ?_) (fun e he => ?_) (hpairs.imp fun {a b} h => h.2.2)).symm
  · have hin := hspans e (hself.mem_iff.mp he)
    exact hin.1.trans hin.2
  · exact (hspans e (hself.mem_iff.mp he)).1

end Kept

/-- **Exactly the covered characters are replaced**, and in any order of the list with the same
result: when every entity whose type has a rule is a span of the text, and of two that meet the one
with the later start is replaced by as many characters (and two with one start by texts of which one
begins with the other). The characters kept are those outside the spans, in their order; every
other one is from a replacement, and stands between the characters kept where its span was. -/
theorem redaction_covers (text : Text) (rules : List Rule) (entities : List DetectedEntity)
    (hspans : ∀ e ∈ edits rules entities, e.In text)
    (hcompat : (edits rules entities).Pairwise Compatible) :
    (redactionTrace text entities rules).map Prod.fst = applyRedactions text entities rules ∧
      kept (redactionTrace text entities rules) =
        (text.zipIdx.filter fun p => !covered (edits rules entities) p.2) ∧
      (redactionTrace text entities rules).Pairwise (fun p q => p.2.index ≤ q.2.index) ∧
      (∀ p ∈ redactionTrace text entities rules, ∀ start, p.2 = .placed start →
        ∃ e ∈ edits rules entities, e.start = start) ∧
      ∀ entities', entities'.Perm entities →
        applyRedactions text entities' rules = applyRedactions text entities rules := by
  have hfits := fits_edits hspans hcompat
  have hperm : (edits rules (lastFirst entities)).Perm (edits rules entities) :=
    edits_perm (lastFirst_perm entities)
  refine ⟨map_fst_redactionTrace text entities rules, ?_, sorted_trace hfits, ?_,
    fun entities' h => applyRedactions_perm hspans hcompat h⟩
  · rw [redactionTrace, kept_trace hfits]
    refine List.filter_congr fun p _ => ?_
    rw [covered, covered, hperm.any_eq]
  · intro p hp start hplaced
    obtain ⟨e, he, hstart⟩ := placed_mem hp hplaced
    exact ⟨e, hperm.mem_iff.mp he, hstart⟩

/-- Masked and tagged spans, the later one first, and a masked part of the masked one. -/
def maskedName : List DetectedEntity :=
  [⟨"PHONE".toList, 12, 15, "911".toList⟩, ⟨"PERSON".toList, 0, 8, "Asha Rao".toList⟩,
    ⟨"PERSON".toList, 5, 8, "Rao".toList⟩]

def maskRules : List Rule :=
  [⟨"PERSON".toList, some "MASK".toList, none, some "*".toList⟩,
    ⟨"PHONE".toList, some "REDACT_TAG".toList, none, none⟩]

theorem redaction_covers_maskedName :
    applyRedactions "Asha Rao at 911.".toList maskedName maskRules =
        "******** at [PHONE].".toList ∧
      kept (redactionTrace "Asha Rao at 911.".toList maskedName maskRules) =
        ("Asha Rao at 911.".toList.zipIdx.filter
          fun p => !covered (edits maskRules maskedName) p.2) := by
  refine ⟨by decide +kernel, (redaction_covers "Asha Rao at 911.".toList maskRules maskedName
    (by decide +kernel) ?_).2.1⟩
  have hedits : edits maskRules maskedName =
      [⟨12, 15, "[PHONE]".toList⟩, ⟨0, 8, "********".toList⟩, ⟨5, 8, "***".toList⟩] := by
    decide +kernel
  rw [hedits]
  unfold Compatible Interchangeable
  simp [Edit.Keeps]

/-- A gender word inside a person's name: the surname stays. And a phone number that two layers
report: the word behind it is lost. -/
theorem overlapping_entities :
    applyRedactions "Anna Man Rao is in".toList
        [⟨"PERSON".toList, 0, 12, "Anna Man Rao".toList⟩, ⟨"GENDER".toList, 5, 8, "Man".toList⟩]
        [⟨"PERSON".toList, none, none, none⟩, ⟨"GENDER".toList, none, none, none⟩] =
      "[REDACTED]ED] Rao is in".toList ∧
    applyRedactions "call +919876543210 now".toList
        [⟨"PHONE".toList, 5, 18, "+919876543210".toList⟩,
          ⟨"PHONE".toList, 5, 18, "+919876543210".toList⟩]
        [⟨"PHONE".toList, none, none, none⟩] =
      "call [REDACTED]w".toList := by
  constructor
  · decide +kernel
  · decide +kernel

end Ai4iCore.Policy.Redaction
