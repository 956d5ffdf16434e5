import Ai4iCore.Base.DecimalText
import Ai4iCore.Base.Edits
import Ai4iCore.Guardrail.Mask

/-!
# Masking is undone

`_unmask` replaces every token by its original, one token after another, wherever the token stands.
Tokens are numbered texts such as `<PERSON_1>`; nothing keeps a client from writing one, and then it
is replaced too (`token_in_text`).

A masked text is a list of pieces, characters and tokens with their originals (`Piece`). A token is
in angle brackets, so an occurrence of it lies in one piece; when no token occurs in the client's
text, replacing it touches exactly its own pieces (`replaceFrom_maskedText`), and after the last
token the text is the original (`unmask_maskedText`).
-/

namespace Ai4iCore.Guardrail

open Edits

/-! ## Pieces -/

/-- A character, or a token with its original. -/
abbrev Piece : Type := Char ⊕ (Text × Text)

def maskedText (q : List Piece) : Text := q.flatMap (Sum.elim (fun c => [c]) Prod.fst)

def originalText (q : List Piece) : Text := q.flatMap (Sum.elim (fun c => [c]) Prod.snd)

/-- The piece with the token replaced by its original. -/
def restore (token : Text) : Piece → List Piece
  | .inl c => [.inl c]
  | .inr e => if e.1 = token then e.2.map .inl else [.inr e]

/-- The characters before the first token. -/
def leading : List Piece → Text
  | .inl c :: q => c :: leading q
  | _ => []

/-- In angle brackets, with none inside. -/
def Bracketed (t : Text) : Prop := ∃ inner, t = '<' :: (inner ++ ['>']) ∧ '<' ∉ inner ∧ '>' ∉ inner

section Replace

variable {old new : Text} {q : List Piece}

theorem replaceFrom_skip (old new : Text) (l rest : Text) :
    replaceFrom old new l.length (l ++ rest) = replaceFrom old new 0 rest := by
  induction l with
  | nil => rfl
  | cons c l ih => exact ih

theorem replaceFrom_match (hne : old ≠ []) (new rest : Text) :
    replaceFrom old new 0 (old ++ rest) = new ++ replaceFrom old new 0 rest := by
  obtain ⟨c, l, rfl⟩ := List.exists_cons_of_ne_nil hne
  have hbegins : (c :: l).isPrefixOf (c :: (l ++ rest)) = true :=
    List.isPrefixOf_iff_prefix.mpr (List.prefix_append (c :: l) rest)
  rw [List.cons_append, replaceFrom, if_pos hbegins]
  exact congrArg (new ++ ·) (replaceFrom_skip (c :: l) new l rest)

theorem replaceFrom_cons {c : Char} {rest : Text} (h : ¬ old <+: c :: rest) :
    replaceFrom old new 0 (c :: rest) = c :: replaceFrom old new 0 rest := by
  rw [replaceFrom, if_neg fun hbegins => h (List.isPrefixOf_iff_prefix.mp hbegins)]

/-- A stretch in which `old` begins nowhere is passed over. -/
theorem replaceFrom_append {l rest : Text} (h : ∀ c l', c :: l' <:+ l → ¬ old <+: c :: l' ++ rest) :
    replaceFrom old new 0 (l ++ rest) = l ++ replaceFrom old new 0 rest := by
  induction l with
  | nil => rfl
  | cons c l ih =>
    have hhere : ¬ old <+: c :: (l ++ rest) := h c l List.suffix_rfl
    rw [List.cons_append, replaceFrom_cons hhere,
      ih fun c' l' hsuffix => h c' l' (hsuffix.trans (List.suffix_cons c l))]
    rfl

/-- The first occurrence of a separator splits a list in one way. -/
theorem append_separator {α : Type*} {x : α} {a a' b b' : List α} (ha : x ∉ a) (ha' : x ∉ a')
    (h : a ++ x :: b = a' ++ x :: b') : a = a' ∧ b = b' := by
  induction a generalizing a' with
  | nil =>
    cases a' with
    | nil => exact ⟨rfl, (List.cons.inj h).2⟩
    | cons y a' => exact absurd (List.cons.inj h).1 fun heq => ha' (heq ▸ List.mem_cons_self)
  | cons y a ih =>
    cases a' with
    | nil => exact absurd (List.cons.inj h).1.symm fun heq => ha (heq ▸ List.mem_cons_self)
    | cons y' a' =>
      obtain ⟨rfl, hrest⟩ := List.cons.inj h
      obtain ⟨rfl, hb⟩ := ih (fun hx => ha (List.mem_cons_of_mem y hx))
        (fun hx => ha' (List.mem_cons_of_mem y hx)) hrest
      exact ⟨rfl, hb⟩

/-- Of two bracketed texts none begins with the other. -/
theorem Bracketed.eq_of_prefix {t t' rest : Text} (ht : Bracketed t) (ht' : Bracketed t')
    (h : t <+: t' ++ rest) : t = t' := by
  obtain ⟨inner, rfl, -, hclose⟩ := ht
  obtain ⟨inner', rfl, -, hclose'⟩ := ht'
  obtain ⟨tail, htail⟩ := h
  have hinner : inner ++ '>' :: tail = inner' ++ '>' :: rest := by
    simpa using (List.cons.inj htail).2
  rw [(append_separator hclose hclose' hinner).1]

/-- A bracketed text begins with its opening bracket only. -/
theorem Bracketed.not_prefix {t : Text} (ht : Bracketed t) {c : Char} {l : Text} (hc : c ≠ '<') :
    ¬ t <+: c :: l := by
  obtain ⟨inner, rfl, -⟩ := ht
  rintro ⟨tail, htail⟩
  exact hc (List.cons.inj htail).1.symm

/-- Behind the first character of a bracketed text no other begins. -/
theorem Bracketed.no_start {t t' rest : Text} (ht : Bracketed t) (ht' : Bracketed t')
    (hne : t ≠ t') {c : Char} {l : Text} (hsuffix : c :: l <:+ t') : ¬ t <+: c :: l ++ rest := by
  intro h
  obtain ⟨inner, rfl, hopen, hclose⟩ := ht'
  rw [List.suffix_cons_iff] at hsuffix
  obtain heq | hsuffix := hsuffix
  · rw [heq] at h
    exact hne (ht.eq_of_prefix ⟨inner, rfl, hopen, hclose⟩ h)
  · have hmem : c ∈ inner ++ ['>'] := hsuffix.subset List.mem_cons_self
    refine ht.not_prefix (fun hc => ?_) h
    subst hc
    obtain hmem | hmem := List.mem_append.mp hmem
    · exact hopen hmem
    · exact absurd (List.mem_singleton.mp hmem) (by decide)

/-- A prefix without an opening bracket ends before the first token. -/
theorem prefix_leading {l : Text} (hl : '<' ∉ l) (hq : ∀ e, .inr e ∈ q → Bracketed e.1)
    (h : l <+: maskedText q) : l <+: leading q := by
  induction l generalizing q with
  | nil => exact List.nil_prefix
  | cons x l ih =>
    cases q with
    | nil => exact absurd (List.prefix_nil.mp h) (List.cons_ne_nil x l)
    | cons p q =>
      cases p with
      | inl c =>
        obtain ⟨rfl, hrest⟩ := List.cons_prefix_cons.mp h
        exact List.cons_prefix_cons.mpr ⟨rfl, ih (fun hx => hl (List.mem_cons_of_mem x hx))
          (fun e he => hq e (List.mem_cons_of_mem _ he)) hrest⟩
      | inr e =>
        obtain ⟨inner, htoken, -⟩ := hq e List.mem_cons_self
        have hmasked : maskedText (.inr e :: q) = e.1 ++ maskedText q := rfl
        rw [hmasked, htoken] at h
        obtain ⟨rfl, -⟩ := List.cons_prefix_cons.mp h
        exact absurd List.mem_cons_self hl

theorem leading_begins (q : List Piece) : leading q <+: originalText q := by
  induction q with
  | nil => exact List.nil_prefix
  | cons p q ih =>
    cases p with
    | inl c => exact List.cons_prefix_cons.mpr ⟨rfl, ih⟩
    | inr e => exact List.nil_prefix

theorem maskedText_inr (e : Text × Text) (q : List Piece) :
    maskedText (.inr e :: q) = e.1 ++ maskedText q := rfl

theorem originalText_inr (e : Text × Text) (q : List Piece) :
    originalText (.inr e :: q) = e.2 ++ originalText q := rfl

theorem maskedText_append (q q' : List Piece) :
    maskedText (q ++ q') = maskedText q ++ maskedText q' := List.flatMap_append

theorem originalText_append (q q' : List Piece) :
    originalText (q ++ q') = originalText q ++ originalText q' := List.flatMap_append

theorem maskedText_map_inl (l : Text) : maskedText (l.map .inl) = l := by
  rw [maskedText, List.flatMap_map]
  exact List.flatMap_singleton' l

theorem originalText_map_inl (l : Text) : originalText (l.map .inl) = l := by
  rw [originalText, List.flatMap_map]
  exact List.flatMap_singleton' l

/-- **Replacing a token that the text itself does not contain** replaces its pieces. -/
theorem replaceFrom_maskedText (hold : Bracketed old) (hq : ∀ e, .inr e ∈ q → Bracketed e.1)
    (hnew : ∀ e, .inr e ∈ q → e.1 = old → e.2 = new) (hfree : ¬ old <:+: originalText q) :
    replaceFrom old new 0 (maskedText q) = maskedText (q.flatMap (restore old)) := by
  induction q with
  | nil => rfl
  | cons p q ih =>
    have hinfix : originalText q <:+: originalText (p :: q) :=
      (List.suffix_append _ (originalText q)).isInfix
    have hrest := ih (fun e he => hq e (List.mem_cons_of_mem p he))
      (fun e he => hnew e (List.mem_cons_of_mem p he)) fun h => hfree (h.trans hinfix)
    rw [List.flatMap_cons, maskedText_append, ← hrest]
    cases p with
    | inl c =>
      refine replaceFrom_cons fun h => hfree ?_
      -- an occurrence here would lie within the characters before the first token
      obtain ⟨inner, rfl, hopen, hclose⟩ := hold
      obtain ⟨rfl, htail⟩ := List.cons_prefix_cons.mp h
      have hfreeTail : '<' ∉ inner ++ ['>'] := by
        rw [List.mem_append, List.mem_singleton]
        rintro (h | h)
        · exact hopen h
        · exact absurd h (by decide)
      have hleading := prefix_leading hfreeTail (fun e he => hq e (List.mem_cons_of_mem _ he)) htail
      exact (List.cons_prefix_cons.mpr ⟨rfl, hleading.trans (leading_begins q)⟩).isInfix
    | inr e =>
      show replaceFrom old new 0 (e.1 ++ maskedText q) = maskedText (restore old (.inr e)) ++ _
      by_cases htoken : e.1 = old
      · have hrestore : restore old (.inr e) = e.2.map .inl := if_pos htoken
        have hne : old ≠ [] := by
          obtain ⟨inner, rfl, -⟩ := hold
          exact List.cons_ne_nil _ _
        rw [hrestore, maskedText_map_inl, htoken, replaceFrom_match hne,
          hnew e List.mem_cons_self htoken]
      · have hrestore : restore old (.inr e) = [.inr e] := if_neg htoken
        have htext : maskedText [.inr e] = e.1 := List.append_nil _
        rw [hrestore, htext, replaceFrom_append fun c l hsuffix =>
          hold.no_start (hq e List.mem_cons_self) (Ne.symm htoken) hsuffix]

theorem originalText_restore (token : Text) (q : List Piece) :
    originalText (q.flatMap (restore token)) = originalText q := by
  induction q with
  | nil => rfl
  | cons p q ih =>
    rw [List.flatMap_cons, originalText_append, ih]
    show originalText (restore token p) ++ originalText q = originalText ([p] ++ q)
    rw [originalText_append]
    congr 1
    cases p with
    | inl c => rfl
    | inr e =>
      rw [restore]
      split
      · rw [originalText_map_inl]
        exact (List.append_nil _).symm
      · rfl

/-- What is left after a token is restored. -/
theorem inr_mem_restore {token : Text} {e : Text × Text}
    (h : .inr e ∈ q.flatMap (restore token)) : .inr e ∈ q ∧ e.1 ≠ token := by
  obtain ⟨p, hp, hmem⟩ := List.mem_flatMap.mp h
  cases p with
  | inl c => exact absurd (List.mem_singleton.mp hmem) Sum.inr_ne_inl
  | inr e' =>
    rw [restore] at hmem
    split at hmem
    · obtain ⟨c, -, hc⟩ := List.mem_map.mp hmem
      exact absurd hc Sum.inl_ne_inr
    · rename_i hne
      obtain rfl := Sum.inr.inj (List.mem_singleton.mp hmem)
      exact ⟨hp, hne⟩

/-- **The originals come back**, when the text contains none of the tokens. -/
theorem unmask_maskedText {tokens : Dict Text Text} (hkeys : (tokens.map Prod.fst).Nodup)
    (htokens : ∀ e ∈ tokens, Bracketed e.1) (hq : ∀ e, .inr e ∈ q → e ∈ tokens)
    (hfree : ∀ e ∈ tokens, ¬ e.1 <:+: originalText q) :
    unmask (maskedText q) tokens = originalText q := by
  induction tokens generalizing q with
  | nil =>
    have hchars : ∀ p ∈ q, Sum.elim (fun c => [c]) Prod.fst p =
        Sum.elim (fun c => [c]) (Prod.snd : Text × Text → Text) p := by
      intro p hp
      cases p with
      | inl c => rfl
      | inr e => exact absurd (hq e hp) List.not_mem_nil
    exact List.flatMap_congr hchars
  | cons e tokens ih =>
    rw [List.map_cons, List.nodup_cons] at hkeys
    have hnew : ∀ e', .inr e' ∈ q → e'.1 = e.1 → e'.2 = e.2 := by
      intro e' he' htoken
      obtain rfl | hmem := List.mem_cons.mp (hq e' he')
      · rfl
      · exact absurd (List.mem_map.mpr ⟨e', hmem, htoken⟩) hkeys.1
    have hleft : ∀ e', .inr e' ∈ q.flatMap (restore e.1) → e' ∈ tokens := by
      intro e' he'
      obtain ⟨hmem, hne⟩ := inr_mem_restore he'
      obtain rfl | hmem := List.mem_cons.mp (hq e' hmem)
      · exact absurd rfl hne
      · exact hmem
    have hreplace := replaceFrom_maskedText (htokens e List.mem_cons_self)
      (fun e' he' => htokens e' (hq e' he')) hnew (hfree e List.mem_cons_self)
    show unmask (replaceFrom e.1 e.2 0 (maskedText q)) tokens = _
    rw [hreplace, ih hkeys.2 (fun e' he' => htokens e' (List.mem_cons_of_mem e he')) hleft
      fun e' he' => ?_, originalText_restore]
    rw [originalText_restore]
    exact hfree e' (List.mem_cons_of_mem e he')

end Replace

/-! ## Tokens and numbers -/

section Numbers

theorem tokenOf_toList (entityType : String) (index : Nat) : tokenOf entityType index =
    '<' :: (entityType.toList ++ '_' :: Nat.toDigits 10 index ++ ['>']) := by
  simp [tokenOf, String.toList_append]

theorem not_mem_toDigits {c : Char} (hc : c.isDigit = false) (n : Nat) :
    c ∉ Nat.toDigits 10 n := by
  intro h
  have hdigit := List.all_eq_true.mp (Decimal.all_isDigit_toDigits n) c h
  rw [hc] at hdigit
  exact Bool.false_ne_true hdigit

theorem tokenOf_bracketed {entityType : String} (hopen : '<' ∉ entityType.toList)
    (hclose : '>' ∉ entityType.toList) (index : Nat) : Bracketed (tokenOf entityType index) := by
  refine ⟨entityType.toList ++ '_' :: Nat.toDigits 10 index, tokenOf_toList _ _, ?_, ?_⟩
  · rw [List.mem_append, List.mem_cons]
    rintro (h | h | h)
    · exact hopen h
    · exact absurd h (by decide)
    · exact not_mem_toDigits (by decide) index h
  · rw [List.mem_append, List.mem_cons]
    rintro (h | h | h)
    · exact hclose h
    · exact absurd h (by decide)
    · exact not_mem_toDigits (by decide) index h

/-- A token names its type and its number: what stands behind the last underscore. -/
theorem tokenOf_injective {entityType entityType' : String} {index index' : Nat}
    (h : tokenOf entityType index = tokenOf entityType' index') :
    entityType = entityType' ∧ index = index' := by
  rw [tokenOf_toList, tokenOf_toList] at h
  have hinner := List.append_inj_left' (List.cons.inj h).2 rfl
  have hreverse := congrArg List.reverse hinner
  rw [List.reverse_append, List.reverse_append, List.reverse_cons, List.reverse_cons,
    List.append_assoc, List.append_assoc] at hreverse
  have hnone : ∀ n, '_' ∉ (Nat.toDigits 10 n).reverse := fun n hmem =>
    not_mem_toDigits (by decide) n (List.mem_reverse.mp hmem)
  obtain ⟨hdigits, htype⟩ := append_separator (hnone index) (hnone index') hreverse
  refine ⟨String.toList_injective (List.reverse_injective htype), ?_⟩
  have hparse := congrArg Decimal.parseNat (List.reverse_injective hdigits)
  rw [Decimal.parseNat_toDigits, Decimal.parseNat_toDigits] at hparse
  exact Option.some.inj hparse

end Numbers

/-! ## The mapping -/

/-- The token of a value. -/
def EntityMapping.token (mapping : EntityMapping) (entityType : String) (original : Text) :
    Option Text := (mapping.get? entityType).bind fun perType => perType.get? original

/-- Every value once, and the tokens numbered in order. -/
structure Numbered (mapping : EntityMapping) : Prop where
  types : (mapping.map Prod.fst).Nodup
  values : ∀ e ∈ mapping, (e.2.map Prod.fst).Nodup
  tokens : ∀ e ∈ mapping,
    e.2.map Prod.snd = (List.range e.2.length).map fun i => tokenOf e.1 (i + 1)

section Mapping

variable {mapping : EntityMapping} {entityType entityType' : String} {original original' token : Text}

theorem token_operate (mapping : EntityMapping) (entityType : String) (original : Text) :
    (operate mapping entityType original).2.token entityType original =
      some (operate mapping entityType original).1 := by
  unfold operate EntityMapping.token
  dsimp only
  split
  · rename_i token htoken
    cases hper : mapping.get? entityType with
    | none =>
      rw [hper] at htoken
      cases htoken
    | some perType =>
      rw [hper] at htoken
      exact htoken
  · rw [Dict.get?_set, if_pos rfl, Option.bind_some, Dict.get?_set, if_pos rfl]

/-- The tokens that are there stay. -/
theorem token_operate_of_some (h : mapping.token entityType' original' = some token) :
    (operate mapping entityType original).2.token entityType' original' = some token := by
  unfold operate
  dsimp only
  split
  · exact h
  · rename_i hnone
    unfold EntityMapping.token at h ⊢
    rw [Dict.get?_set]
    by_cases htype : entityType' = entityType
    · subst htype
      rw [if_pos rfl, Option.bind_some, Dict.get?_set]
      cases hper : mapping.get? entityType' with
      | none =>
        rw [hper] at h
        cases h
      | some perType =>
        rw [hper] at h hnone
        have hne : original' ≠ original := by
          rintro rfl
          exact absurd (h.symm.trans hnone) (Option.some_ne_none token)
        rw [if_neg hne]
        exact h
    · rw [if_neg htype]
      exact h

/-- A new value is the only addition. -/
theorem token_of_operate (h : (operate mapping entityType original).2.token entityType' original' =
    some token) :
    mapping.token entityType' original' = some token ∨
      entityType' = entityType ∧ original' = original := by
  unfold operate at h
  dsimp only at h
  split at h
  · exact .inl h
  · unfold EntityMapping.token at h ⊢
    rw [Dict.get?_set] at h
    split at h
    · rename_i htype
      subst htype
      rw [Option.bind_some, Dict.get?_set] at h
      split at h
      · rename_i hvalue
        exact .inr ⟨rfl, hvalue⟩
      · cases hper : mapping.get? entityType' with
        | none =>
          rw [hper] at h
          cases h
        | some perType =>
          rw [hper] at h
          exact .inl h
    · exact .inl h

theorem numbered_operate (h : Numbered mapping) (entityType : String) (original : Text) :
    Numbered (operate mapping entityType original).2 := by
  unfold operate
  dsimp only
  split
  · exact h
  · rename_i hnone
    -- the dictionary of the type as it is, empty for a new type
    have hold : (((mapping.get? entityType).getD []).map Prod.fst).Nodup ∧
        ((mapping.get? entityType).getD []).map Prod.snd =
          (List.range ((mapping.get? entityType).getD []).length).map fun i =>
            tokenOf entityType (i + 1) := by
      cases hper : mapping.get? entityType with
      | none => exact ⟨List.nodup_nil, rfl⟩
      | some perType =>
        have hmem := Dict.mem_of_get? hper
        exact ⟨h.values _ hmem, h.tokens _ hmem⟩
    refine ⟨Dict.nodup_set _ _ h.types, fun e he => ?_, fun e he => ?_⟩
    · obtain rfl | he := Dict.mem_set he
      · exact Dict.nodup_set _ _ hold.1
      · exact h.values e he
    · obtain rfl | he := Dict.mem_set he
      · dsimp only
        rw [Dict.set_of_get?_none hnone, List.map_append, hold.2, List.length_append,
          List.length_singleton, List.range_succ, List.map_append]
        rfl
      · exact h.tokens e he

theorem Filled.numbered (h : Filled mapping) : Numbered mapping := by
  induction h with
  | empty =>
    exact ⟨List.nodup_nil, fun _ he => absurd he List.not_mem_nil,
      fun _ he => absurd he List.not_mem_nil⟩
  | operate _ entityType original ih => exact numbered_operate ih entityType original

/-- The token of a value is its number in the dictionary of its type. -/
theorem Numbered.exists_index (h : Numbered mapping)
    (htoken : mapping.token entityType original = some token) :
    ∃ perType, (entityType, perType) ∈ mapping ∧ ∃ i, ∃ hi : i < perType.length,
      perType[i] = (original, token) ∧ token = tokenOf entityType (i + 1) := by
  obtain ⟨perType, hper, hvalue⟩ := Option.bind_eq_some_iff.mp htoken
  have hmem := Dict.mem_of_get? hper
  obtain ⟨i, hi, hentry⟩ := List.mem_iff_getElem.mp (Dict.mem_of_get? hvalue)
  refine ⟨perType, hmem, i, hi, hentry, ?_⟩
  have hnumber : (perType.map Prod.snd)[i]? = some (tokenOf entityType (i + 1)) := by
    rw [h.tokens _ hmem, List.getElem?_map, List.getElem?_range hi]
    rfl
  rw [List.getElem?_map, List.getElem?_eq_getElem hi, hentry] at hnumber
  exact Option.some.inj hnumber

/-- **Distinct values have distinct tokens**, whatever their types. -/
theorem Numbered.token_injective (h : Numbered mapping)
    (htoken : mapping.token entityType original = some token)
    (htoken' : mapping.token entityType' original' = some token) :
    entityType = entityType' ∧ original = original' := by
  obtain ⟨perType, hmem, i, hi, hentry, hnumber⟩ := h.exists_index htoken
  obtain ⟨perType', hmem', i', hi', hentry', hnumber'⟩ := h.exists_index htoken'
  obtain ⟨rfl, hindex⟩ := tokenOf_injective (hnumber.symm.trans hnumber')
  obtain rfl : i = i' := by omega
  have hper : mapping.get? entityType = some perType := Dict.get?_of_mem h.types hmem
  have hper' : mapping.get? entityType = some perType' := Dict.get?_of_mem h.types hmem'
  obtain rfl := Option.some.inj (hper.symm.trans hper')
  exact ⟨rfl, congrArg Prod.fst (hentry.symm.trans hentry')⟩

/-- The inverted mapping has each token with its value. -/
theorem Numbered.mem_tokenToOriginal (h : Numbered mapping) :
    (token, original) ∈ tokenToOriginal mapping ↔
      ∃ entityType, mapping.token entityType original = some token := by
  have hentries : ∀ t v, (t, v) ∈ (mapping.flatMap fun perType => perType.2.map Prod.swap) ↔
      ∃ entityType, mapping.token entityType v = some t := by
    intro t v
    rw [List.mem_flatMap]
    constructor
    · rintro ⟨e, he, hswap⟩
      obtain ⟨p, hp, hpair⟩ := List.mem_map.mp hswap
      obtain ⟨rfl, rfl⟩ := Prod.mk.inj hpair
      refine ⟨e.1, ?_⟩
      rw [EntityMapping.token, Dict.get?_of_mem h.types he, Option.bind_some]
      exact Dict.get?_of_mem (h.values e he) hp
    · rintro ⟨entityType, htoken⟩
      obtain ⟨perType, hper, hvalue⟩ := Option.bind_eq_some_iff.mp htoken
      exact ⟨_, Dict.mem_of_get? hper, List.mem_map.mpr ⟨_, Dict.mem_of_get? hvalue, rfl⟩⟩
  rw [← hentries]
  constructor
  · intro hmem
    obtain hmem | hmem := Dict.mem_setAll hmem
    · exact hmem
    · exact absurd hmem List.not_mem_nil
  · intro hmem
    -- a token has one value
    refine Dict.mem_of_get? (Dict.get?_setAll_of_mem hmem ?_)
    rintro ⟨t, v⟩ he rfl
    obtain ⟨entityType, htoken⟩ := (hentries t original).mp hmem
    obtain ⟨entityType', htoken'⟩ := (hentries t v).mp he
    exact (h.token_injective htoken htoken').2.symm

theorem nodup_tokenToOriginal (mapping : EntityMapping) :
    ((tokenToOriginal mapping).map Prod.fst).Nodup := Dict.nodup_setAll _ List.nodup_nil

end Mapping

/-! ## One text -/

/-- The spans that `_mask` replaces in a text. -/
def spansOf (engine : Engine) (types : List PolicyType) (text : Text) : List Detection :=
  if text = [] then []
  else
    match detect engine types text with
    | .ok (d :: ds) => engine.resolve text (d :: ds)
    | _ => []

/-- The value of a span. -/
def Detection.value (d : Detection) (text : Text) : Text := (text.take d.stop).drop d.start

/-- The spans lie in the text, from the right to the left and without overlap. -/
def RightToLeft (text : Text) (ds : List Detection) : Prop :=
  (∀ d ∈ ds, d.start ≤ d.stop ∧ d.stop ≤ text.length) ∧
    ds.Pairwise fun d d' => d'.stop ≤ d.start

instance (text : Text) (ds : List Detection) : Decidable (RightToLeft text ds) :=
  inferInstanceAs (Decidable (_ ∧ _))

/-- The span as an edit that puts in the token of its value. -/
def Detection.edit (mapping : EntityMapping) (text : Text) (d : Detection) : Edit Char :=
  ⟨d.start, d.stop, (mapping.token d.entityType (d.value text)).getD []⟩

/-- Every token of the one is in the other. -/
def EntityMapping.Extends (mapping' mapping : EntityMapping) : Prop :=
  ∀ entityType original token, mapping.token entityType original = some token →
    mapping'.token entityType original = some token

section OneText

variable {text : Text} {mapping mapping' : EntityMapping} {ds : List Detection}

theorem extends_operate (mapping : EntityMapping) (entityType : String) (original : Text) :
    (operate mapping entityType original).2.Extends mapping :=
  fun _ _ _ => token_operate_of_some

theorem EntityMapping.Extends.trans {a b c : EntityMapping} (h : a.Extends b) (h' : b.Extends c) :
    a.Extends c := fun _ _ _ hc => h _ _ _ (h' _ _ _ hc)

theorem extends_foldl (ds : List Detection) (state : Text × EntityMapping) :
    (ds.foldl replaceDetection state).2.Extends state.2 := by
  induction ds generalizing state with
  | nil => exact fun _ _ _ h => h
  | cons d ds ih =>
    exact (ih (replaceDetection state d)).trans (extends_operate _ _ _)

/-- What the anonymizer has done when the text before `s` is still to come: the rest consists of
pieces, each token of which is that of its value. -/
structure Progress (text : Text) (s : Nat) (state : Text × EntityMapping) (q : List Piece) :
    Prop where
  bound : s ≤ text.length
  masked : state.1 = text.take s ++ maskedText q
  original : text.drop s = originalText q
  tokens : ∀ e, .inr e ∈ q → ∃ entityType, state.2.token entityType e.2 = some e.1

theorem value_of_progress {s : Nat} {state : Text × EntityMapping} {q : List Piece}
    (h : Progress text s state q) {d : Detection} (hd : d.stop ≤ s) :
    (state.1.take d.stop).drop d.start = d.value text := by
  have hlength : (text.take s).length = s := by
    rw [List.length_take]
    exact min_eq_left h.bound
  rw [h.masked, List.take_append_of_le_length (by omega), List.take_take, min_eq_left hd]
  rfl

/-- The text behind a position, around a span that ends before `s`. -/
theorem drop_eq_value_append {d : Detection} (hspan : d.start ≤ d.stop) {s : Nat} (hd : d.stop ≤ s)
    (hs : s ≤ text.length) :
    text.drop d.start = d.value text ++ ((text.take s).drop d.stop ++ text.drop s) := by
  have hbehind : text.drop d.stop = (text.take s).drop d.stop ++ text.drop s := by
    conv_lhs => rw [← List.take_append_drop s text]
    refine List.drop_append_of_le_length ?_
    rw [List.length_take]
    omega
  rw [← hbehind]
  conv_lhs => rw [← List.take_append_drop d.stop text]
  refine List.drop_append_of_le_length ?_
  rw [List.length_take]
  omega

theorem progress_replaceDetection {s : Nat} {state : Text × EntityMapping} {q : List Piece}
    (h : Progress text s state q) {d : Detection} (hspan : d.start ≤ d.stop) (hd : d.stop ≤ s) :
    ∃ q', Progress text d.start (replaceDetection state d) q' := by
  have hvalue := value_of_progress h hd
  have hbound := h.bound
  have hlength : (text.take s).length = s := by
    rw [List.length_take]
    exact min_eq_left hbound
  refine ⟨.inr ((operate state.2 d.entityType (d.value text)).1, d.value text) ::
    (((text.take s).drop d.stop).map .inl ++ q), by omega, ?_, ?_, fun e he => ?_⟩
  · show state.1.take d.start ++ (operate state.2 d.entityType _).1 ++ state.1.drop d.stop = _
    rw [hvalue, maskedText_inr, maskedText_append, maskedText_map_inl, h.masked,
      List.take_append_of_le_length (by omega), List.take_take, min_eq_left (by omega),
      List.drop_append_of_le_length (by omega), List.append_assoc]
  · rw [originalText_inr, originalText_append, originalText_map_inl, ← h.original]
    exact drop_eq_value_append hspan hd hbound
  · obtain heq | he := List.mem_cons.mp he
    · obtain rfl := Sum.inr.inj heq
      refine ⟨d.entityType, ?_⟩
      show (operate state.2 d.entityType _).2.token d.entityType (d.value text) = _
      rw [hvalue]
      exact token_operate state.2 d.entityType (d.value text)
    · obtain he | he := List.mem_append.mp he
      · obtain ⟨c, -, hc⟩ := List.mem_map.mp he
        exact absurd hc Sum.inl_ne_inr
      · obtain ⟨entityType, htoken⟩ := h.tokens e he
        exact ⟨entityType, extends_operate _ _ _ _ _ _ htoken⟩

/-- Over all spans of a text: the pieces are complete, each span is replaced by the token that the
mapping ends with, and what is new in the mapping is a value of a span. -/
theorem progress_foldl (final : EntityMapping) (hds : RightToLeft text ds) {s : Nat} {state : Text × EntityMapping}
    {q : List Piece} (h : Progress text s state q) (hs : ∀ d ∈ ds, d.stop ≤ s)
    (hfinal : final.Extends (ds.foldl replaceDetection state).2) :
    (∃ s' q', Progress text s' (ds.foldl replaceDetection state) q') ∧
      (ds.foldl replaceDetection state).1 = applyAll (ds.map (Detection.edit final text)) state.1 ∧
      (∀ d ∈ ds, (final.token d.entityType (d.value text)).isSome = true) ∧
      ∀ entityType original token,
        (ds.foldl replaceDetection state).2.token entityType original = some token →
          state.2.token entityType original = some token ∨
            ∃ d ∈ ds, d.entityType = entityType ∧ d.value text = original := by
  induction ds generalizing s state q with
  | nil =>
    exact ⟨⟨s, q, h⟩, rfl, fun _ hd => absurd hd List.not_mem_nil, fun _ _ _ htoken => .inl htoken⟩
  | cons d ds ih =>
    obtain ⟨hin, hpairs⟩ := hds
    rw [List.pairwise_cons] at hpairs
    have hd := hs d List.mem_cons_self
    have hvalue := value_of_progress h hd
    obtain ⟨q', hprogress⟩ := progress_replaceDetection h (hin d List.mem_cons_self).1 hd
    obtain ⟨hpieces, hedits, htokens, hnew⟩ :=
      ih ⟨fun d' hd' => hin d' (List.mem_cons_of_mem d hd'), hpairs.2⟩ hprogress hpairs.1 hfinal
    have hoperate : (operate state.2 d.entityType (d.value text)).2.token d.entityType
        (d.value text) = some (operate state.2 d.entityType (d.value text)).1 :=
      token_operate state.2 d.entityType (d.value text)
    have hstate : (replaceDetection state d).2 =
        (operate state.2 d.entityType (d.value text)).2 := by
      show (operate state.2 d.entityType _).2 = _
      rw [hvalue]
    have htoken : final.token d.entityType (d.value text) =
        some (operate state.2 d.entityType (d.value text)).1 := by
      refine hfinal _ _ _ (extends_foldl ds (replaceDetection state d) _ _ _ ?_)
      rw [hstate]
      exact hoperate
    refine ⟨hpieces, hedits.trans ?_, fun d' hd' => ?_, fun entityType original token htoken' => ?_⟩
    · have hstep : (replaceDetection state d).1 = (d.edit final text).apply state.1 := by
        show state.1.take d.start ++ (operate state.2 d.entityType _).1 ++ state.1.drop d.stop =
          state.1.take d.start ++ ((final.token d.entityType (d.value text)).getD [] ++
            state.1.drop d.stop)
        rw [hvalue, htoken, List.append_assoc]
        rfl
      rw [hstep]
      rfl
    · obtain rfl | hd' := List.mem_cons.mp hd'
      · rw [htoken]
        rfl
      · exact htokens d' hd'
    · obtain hold | ⟨d', hd', heq⟩ := hnew entityType original token htoken'
      · rw [hstate] at hold
        obtain hold | ⟨rfl, rfl⟩ := token_of_operate hold
        · exact .inl hold
        · exact .inr ⟨d, List.mem_cons_self, rfl, rfl⟩
      · exact .inr ⟨d', List.mem_cons_of_mem d hd', heq⟩

end OneText

/-! ## The messages -/

/-- The contents that are strings. -/
def contents (msgs : List Message) : List Text :=
  msgs.filterMap fun m =>
    match m.content with
    | .str text => some text
    | _ => none

/-- The values of a type over all messages. -/
def valuesOf (engine : Engine) (types : List PolicyType) (msgs : List Message)
    (entityType : String) : List Text :=
  (contents msgs).flatMap fun text =>
    ((spansOf engine types text).filter fun d => d.entityType = entityType).map fun d =>
      d.value text

/-- The masked message consists of pieces with tokens of the mapping. -/
def MaskedBy (engine : Engine) (types : List PolicyType) (final : EntityMapping)
    (msg msg' : Message) : Prop :=
  ∀ text, msg.content = .str text → ∃ q, msg'.content = .str (maskedText q) ∧
    originalText q = text ∧ (∀ e, .inr e ∈ q → ∃ entityType, final.token entityType e.2 = some e.1) ∧
    maskedText q = applyAll ((spansOf engine types text).map (Detection.edit final text)) text ∧
    ∀ d ∈ spansOf engine types text, (final.token d.entityType (d.value text)).isSome = true

section Messages

variable {engine : Engine} {types : List PolicyType} {msg msg' : Message}
  {msgs msgs' : List Message} {mapping mapping' final : EntityMapping}

/-- `_mask` replaces the spans of the text. -/
theorem mask_eq {text text' : Text} (htext : text ≠ [])
    (h : mask engine types text mapping = .ok (text', mapping')) :
    (spansOf engine types text).foldl replaceDetection (text, mapping) = (text', mapping') := by
  unfold mask at h
  unfold spansOf
  rw [if_neg htext]
  split at h
  · cases h
  · rename_i hdetect
    rw [hdetect]
    exact Except.ok.inj h
  · rename_i results hne hdetect
    rw [hdetect]
    cases results with
    | nil => exact absurd rfl hne
    | cons d ds => exact Except.ok.inj h

theorem maskMessage_str {text : Text} (hcontent : msg.content = .str text)
    (h : maskMessage engine types msg mapping = .ok (msg', mapping')) :
    ∃ text', msg'.content = .str text' ∧
      (spansOf engine types text).foldl replaceDetection (text, mapping) = (text', mapping') := by
  unfold maskMessage at h
  rw [hcontent] at h
  dsimp only at h
  split at h
  · rename_i hempty
    obtain ⟨rfl, rfl⟩ := Prod.mk.inj (Except.ok.inj h)
    refine ⟨text, hcontent, ?_⟩
    rw [spansOf, if_pos hempty]
    rfl
  · rename_i hne
    split at h
    · cases h
    · rename_i text' mapping₁ hmask
      obtain ⟨rfl, rfl⟩ := Prod.mk.inj (Except.ok.inj h)
      exact ⟨text', rfl, mask_eq hne hmask⟩

theorem maskMessage_other (hother : ∀ text, msg.content ≠ .str text)
    (h : maskMessage engine types msg mapping = .ok (msg', mapping')) :
    msg' = msg ∧ mapping' = mapping := by
  obtain ⟨text, -, hcontent, -⟩ | ⟨rfl, rfl, -⟩ := maskMessage_ok h
  · exact absurd hcontent (hother text)
  · exact ⟨rfl, rfl⟩

/-- One message: the mapping grows by values of its spans. -/
theorem maskMessage_pieces
    (hspans : ∀ text, msg.content = .str text → RightToLeft text (spansOf engine types text))
    (h : maskMessage engine types msg mapping = .ok (msg', mapping')) :
    mapping'.Extends mapping ∧
      (∀ entityType original token, mapping'.token entityType original = some token →
        mapping.token entityType original = some token ∨
          original ∈ valuesOf engine types [msg] entityType) ∧
      ∀ final : EntityMapping, final.Extends mapping' → MaskedBy engine types final msg msg' := by
  by_cases hstr : ∃ text, msg.content = .str text
  · obtain ⟨text, hcontent⟩ := hstr
    obtain ⟨text', hmasked, hfold⟩ := maskMessage_str hcontent h
    have hds := hspans text hcontent
    have hstart : Progress text text.length (text, mapping) [] := by
      refine ⟨le_rfl, ?_, List.drop_length, fun _ he => absurd he List.not_mem_nil⟩
      rw [List.take_length]
      exact (List.append_nil text).symm
    have hbound : ∀ d ∈ spansOf engine types text, d.stop ≤ text.length := fun d hd =>
      (hds.1 d hd).2
    have hall := fun final => progress_foldl final hds hstart hbound
    rw [hfold] at hall
    have hextends := extends_foldl (spansOf engine types text) (text, mapping)
    rw [hfold] at hextends
    refine ⟨hextends, fun entityType original token htoken => ?_, fun final hfinal sent hsent => ?_⟩
    · obtain ⟨-, -, -, hnew⟩ := hall mapping' fun _ _ _ h => h
      obtain hold | ⟨d, hd, htype, hvalue⟩ := hnew entityType original token htoken
      · exact .inl hold
      · refine .inr (List.mem_flatMap.mpr ⟨text, ?_, List.mem_map.mpr
          ⟨d, List.mem_filter.mpr ⟨hd, decide_eq_true htype⟩, hvalue⟩⟩)
        refine List.mem_filterMap.mpr ⟨msg, List.mem_singleton_self msg, ?_⟩
        rw [hcontent]
    · obtain rfl := Content.str.inj (hcontent.symm.trans hsent)
      obtain ⟨⟨s, q, hprogress⟩, hedits, htokens, -⟩ := hall final hfinal
      have hpieces : maskedText ((text.take s).map .inl ++ q) = text' := by
        rw [maskedText_append, maskedText_map_inl]
        exact hprogress.masked.symm
      refine ⟨(text.take s).map .inl ++ q, ?_, ?_, fun e he => ?_, ?_, htokens⟩
      · rw [hpieces]
        exact hmasked
      · rw [originalText_append, originalText_map_inl, ← hprogress.original,
          List.take_append_drop]
      · obtain he | he := List.mem_append.mp he
        · obtain ⟨c, -, hc⟩ := List.mem_map.mp he
          exact absurd hc Sum.inl_ne_inr
        · obtain ⟨entityType, htoken⟩ := hprogress.tokens e he
          exact ⟨entityType, hfinal _ _ _ htoken⟩
      · rw [hpieces]
        exact hedits
  · have hother : ∀ text, msg.content ≠ .str text := fun text hcontent => hstr ⟨text, hcontent⟩
    obtain ⟨rfl, rfl⟩ := maskMessage_other hother h
    exact ⟨fun _ _ _ h => h, fun _ _ _ htoken => .inl htoken,
      fun _ _ text hcontent => absurd hcontent (hother text)⟩

theorem valuesOf_cons (msg : Message) (msgs : List Message) (entityType : String) :
    valuesOf engine types (msg :: msgs) entityType =
      valuesOf engine types [msg] entityType ++ valuesOf engine types msgs entityType := by
  have hsplit : contents (msg :: msgs) = contents [msg] ++ contents msgs :=
    List.filterMap_append (l := [msg])
  rw [valuesOf, hsplit, List.flatMap_append]
  rfl

theorem mem_contents {text : Text} :
    text ∈ contents msgs ↔ ∃ msg ∈ msgs, msg.content = .str text := by
  rw [contents, List.mem_filterMap]
  refine exists_congr fun msg => and_congr_right fun _ => ?_
  cases msg.content with
  | str sent =>
    exact ⟨fun h => congrArg Content.str (Option.some.inj h), fun h =>
      congrArg some (Content.str.inj h)⟩
  | parts l => exact ⟨fun h => (by cases h), fun h => (by cases h)⟩
  | absent => exact ⟨fun h => (by cases h), fun h => (by cases h)⟩

/-- All messages, over one mapping. -/
theorem maskMessages_pieces
    (hspans : ∀ text ∈ contents msgs, RightToLeft text (spansOf engine types text))
    (h : maskMessages engine types msgs mapping = .ok (msgs', mapping')) :
    mapping'.Extends mapping ∧
      (∀ entityType original token, mapping'.token entityType original = some token →
        mapping.token entityType original = some token ∨
          original ∈ valuesOf engine types msgs entityType) ∧
      ∀ final : EntityMapping, final.Extends mapping' →
        List.Forall₂ (MaskedBy engine types final) msgs msgs' := by
  induction msgs generalizing mapping msgs' with
  | nil =>
    obtain ⟨rfl, rfl⟩ := Prod.mk.inj (Except.ok.inj h)
    exact ⟨fun _ _ _ h => h, fun _ _ _ htoken => .inl htoken, fun _ _ => .nil⟩
  | cons msg msgs ih =>
    unfold maskMessages at h
    split at h
    · cases h
    · rename_i msg₁ mapping₁ hmsg
      split at h
      · cases h
      · rename_i msgs₁ mapping₂ hmsgs
        obtain ⟨rfl, rfl⟩ := Prod.mk.inj (Except.ok.inj h)
        obtain ⟨hextends, hnew, hmasked⟩ := maskMessage_pieces (fun text hcontent =>
          hspans text (mem_contents.mpr ⟨msg, List.mem_cons_self, hcontent⟩)) hmsg
        obtain ⟨hextends', hnew', hmasked'⟩ := ih (fun text htext => by
          obtain ⟨m, hm, hcontent⟩ := mem_contents.mp htext
          exact hspans text (mem_contents.mpr ⟨m, List.mem_cons_of_mem msg hm, hcontent⟩)) hmsgs
        refine ⟨hextends'.trans hextends, fun entityType original token htoken => ?_,
          fun final hfinal => .cons (hmasked final (hfinal.trans hextends')) (hmasked' final hfinal)⟩
        rw [valuesOf_cons, List.mem_append]
        obtain hold | hvalue := hnew' entityType original token htoken
        · obtain hold | hvalue := hnew entityType original token hold
          · exact .inl hold
          · exact .inr (.inl hvalue)
        · exact .inr (.inr hvalue)

theorem Filled.maskMessages (hfilled : Filled mapping)
    (h : maskMessages engine types msgs mapping = .ok (msgs', mapping')) : Filled mapping' := by
  induction msgs generalizing mapping msgs' with
  | nil =>
    obtain ⟨rfl, rfl⟩ := Prod.mk.inj (Except.ok.inj h)
    exact hfilled
  | cons msg msgs ih =>
    unfold Guardrail.maskMessages at h
    split at h
    · cases h
    · rename_i hmsg
      split at h
      · cases h
      · rename_i hmsgs
        obtain ⟨rfl, rfl⟩ := Prod.mk.inj (Except.ok.inj h)
        exact ih (hfilled.maskMessage hmsg) hmsgs

/-- The number of a token is at most the number of values of its type. -/
theorem token_number (hfilled : Filled mapping) {entityType : String} {original token : Text}
    (hvalues : ∀ entityType original token, mapping.token entityType original = some token →
      original ∈ valuesOf engine types msgs entityType)
    (htoken : mapping.token entityType original = some token) :
    ∃ i, 1 ≤ i ∧ i ≤ (valuesOf engine types msgs entityType).dedup.length ∧
      token = tokenOf entityType i := by
  obtain ⟨perType, hmem, i, hi, -, hnumber⟩ := hfilled.numbered.exists_index htoken
  refine ⟨i + 1, by omega, ?_, hnumber⟩
  have hsubset : perType.map Prod.fst ⊆ (valuesOf engine types msgs entityType).dedup := by
    intro v hv
    obtain ⟨e, he, rfl⟩ := List.mem_map.mp hv
    refine List.mem_dedup.mpr (hvalues entityType e.1 e.2 ?_)
    rw [EntityMapping.token, Dict.get?_of_mem hfilled.numbered.types hmem, Option.bind_some]
    exact Dict.get?_of_mem (hfilled.numbered.values _ hmem) he
  have hlength := ((hfilled.numbered.values _ hmem).subperm hsubset).length_le
  rw [List.length_map] at hlength
  exact lt_of_lt_of_le hi hlength

end Messages

/-- **Masking is undone exactly** when no content contains one of the tokens that are given out:
`<T_i>` for a type `T` and a number up to the number of its values. Every span is replaced by the
one token of its type and value, and tokens of distinct types or values are distinct. The detections
are arbitrary; the anonymizer replaces spans of the text from the right to the left that do not
overlap, and names of types have no angle brackets. -/
theorem unmask_mask_messages (engine : Engine) (types : List PolicyType)
    (msgs msgs' : List Message) (mapping : EntityMapping)
    (hmask : maskMessages engine types msgs [] = .ok (msgs', mapping))
    (hspans : ∀ text ∈ contents msgs, RightToLeft text (spansOf engine types text))
    (hnames : ∀ text ∈ contents msgs, ∀ d ∈ spansOf engine types text,
      '<' ∉ d.entityType.toList ∧ '>' ∉ d.entityType.toList)
    (hfree : ∀ text ∈ contents msgs, ∀ entityType i, 1 ≤ i →
      i ≤ (valuesOf engine types msgs entityType).dedup.length →
      ¬ tokenOf entityType i <:+: text) :
    (∀ entityType original entityType' original' token,
      mapping.token entityType original = some token →
      mapping.token entityType' original' = some token →
      entityType = entityType' ∧ original = original') ∧
    List.Forall₂ (fun msg msg' => ∀ text, msg.content = .str text →
      ∃ text', msg'.content = .str text' ∧
        text' = applyAll ((spansOf engine types text).map (Detection.edit mapping text)) text ∧
        (∀ d ∈ spansOf engine types text,
          (mapping.token d.entityType (d.value text)).isSome = true) ∧
        unmask text' (tokenToOriginal mapping) = text) msgs msgs' := by
  have hfilled : Filled mapping := Filled.empty.maskMessages hmask
  obtain ⟨-, hnew, hmasked⟩ := maskMessages_pieces hspans hmask
  have hvalues : ∀ entityType original token, mapping.token entityType original = some token →
      original ∈ valuesOf engine types msgs entityType := by
    intro entityType original token htoken
    obtain hold | hvalue := hnew entityType original token htoken
    · cases hold
    · exact hvalue
  have hbracketed : ∀ e ∈ tokenToOriginal mapping, Bracketed e.1 := by
    intro e he
    obtain ⟨entityType, htoken⟩ := hfilled.numbered.mem_tokenToOriginal.mp he
    obtain ⟨i, -, -, hi⟩ := token_number hfilled hvalues htoken
    obtain ⟨text, htext, hvalue⟩ := List.mem_flatMap.mp (hvalues _ _ _ htoken)
    obtain ⟨d, hd, -⟩ := List.mem_map.mp hvalue
    obtain ⟨hd, htype⟩ := List.mem_filter.mp hd
    obtain ⟨hopen, hclose⟩ := hnames text htext d hd
    rw [of_decide_eq_true htype] at hopen hclose
    rw [hi]
    exact tokenOf_bracketed hopen hclose i
  refine ⟨fun _ _ _ _ _ htoken htoken' => hfilled.numbered.token_injective htoken htoken', ?_⟩
  have hrestored : ∀ msg ∈ msgs, ∀ msg', MaskedBy engine types mapping msg msg' →
      ∀ text, msg.content = .str text → ∃ text', msg'.content = .str text' ∧
        text' = applyAll ((spansOf engine types text).map (Detection.edit mapping text)) text ∧
        (∀ d ∈ spansOf engine types text,
          (mapping.token d.entityType (d.value text)).isSome = true) ∧
        unmask text' (tokenToOriginal mapping) = text := by
    intro msg hmsg msg' hpieces text hcontent
    obtain ⟨q, hmasked, horiginal, htokens, hedits, hsome⟩ := hpieces text hcontent
    refine ⟨maskedText q, hmasked, hedits, hsome, ?_⟩
    have htext := mem_contents.mpr ⟨msg, hmsg, hcontent⟩
    have hunmask := unmask_maskedText (q := q) (nodup_tokenToOriginal mapping) hbracketed
      (fun e he => hfilled.numbered.mem_tokenToOriginal.mpr (htokens e he)) fun e he => ?_
    · rw [hunmask, horiginal]
    · obtain ⟨entityType, htoken⟩ := hfilled.numbered.mem_tokenToOriginal.mp he
      obtain ⟨i, hpos, hle, hi⟩ := token_number hfilled hvalues htoken
      rw [horiginal, hi]
      exact hfree text htext entityType i hpos hle
  have hall := hmasked mapping fun _ _ _ h => h
  clear hmask hnew hmasked hvalues hspans hnames hfree hbracketed
  induction hall with
  | nil => exact .nil
  | cons hpieces _ ih =>
    exact .cons (hrestored _ List.mem_cons_self _ hpieces)
      (ih fun msg hmsg => hrestored msg (List.mem_cons_of_mem _ hmsg))

/-- A policy with one custom field. -/
def aliceTypes : List PolicyType := [⟨"PII", [⟨"PERSON", "Alice"⟩], []⟩]

/-- Two messages about Alice. -/
def aliceMessages : List Message :=
  [⟨"user", .str "Alice met Alice.".toList⟩, ⟨"user", .str "<Alice>".toList⟩]

theorem unmask_mask_messages_alice :
    ∃ msgs' mapping, maskMessages literalEngine aliceTypes aliceMessages [] = .ok (msgs', mapping) ∧
      List.Forall₂ (fun msg msg' => ∀ text, msg.content = .str text →
        ∃ text', msg'.content = .str text' ∧
          unmask text' (tokenToOriginal mapping) = text) aliceMessages msgs' := by
  have hvalues : ∀ entityType, entityType ≠ "PERSON" →
      valuesOf literalEngine aliceTypes aliceMessages entityType = [] := by
    intro entityType htype
    refine List.flatMap_eq_nil_iff.mpr fun text htext => ?_
    rw [List.map_eq_nil_iff, List.filter_eq_nil_iff]
    intro d hd htype'
    have hperson : ∀ text ∈ contents aliceMessages,
        ∀ d ∈ spansOf literalEngine aliceTypes text, d.entityType = "PERSON" := by decide +kernel
    exact htype ((of_decide_eq_true htype').symm.trans (hperson text htext d hd))
  have hcount : (valuesOf literalEngine aliceTypes aliceMessages "PERSON").dedup.length = 1 := by
    decide +kernel
  have hall := unmask_mask_messages literalEngine aliceTypes aliceMessages _ _ rfl
    (by decide +kernel) (by decide +kernel) fun text htext entityType i hpos hle => ?_
  · refine ⟨_, _, rfl, hall.2.imp fun msg msg' h text hcontent => ?_⟩
    obtain ⟨text', hmasked, -, -, hunmask⟩ := h text hcontent
    exact ⟨text', hmasked, hunmask⟩
  · by_cases htype : entityType = "PERSON"
    · subst htype
      obtain rfl : i = 1 := by omega
      have hfree : ∀ text ∈ contents aliceMessages, ¬ tokenOf "PERSON" 1 <:+: text := by
        decide +kernel
      exact hfree text htext
    · rw [hvalues entityType htype] at hle
      exact absurd (hpos.trans hle) (by decide)

/-- A client that writes a token gets the value of another in its place. -/
theorem token_in_text :
    ∃ masked mapping, maskMessages literalEngine aliceTypes
        [⟨"user", .str "Alice wrote <PERSON_1>".toList⟩] [] =
          .ok ([⟨"user", .str masked⟩], mapping) ∧
      masked = "<PERSON_1> wrote <PERSON_1>".toList ∧
      unmask masked (tokenToOriginal mapping) = "Alice wrote Alice".toList := by
  refine ⟨_, _, rfl, ?_, ?_⟩
  · decide +kernel
  · decide +kernel

end Ai4iCore.Guardrail
