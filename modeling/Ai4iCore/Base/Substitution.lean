import Mathlib

/-!
# Matchers and substitution

A matcher reads the start of a text and leaves the rest of it (`Matcher`); `sub` puts a text in the
place of every match, from left to right. What has been rewritten is a relation between the two
texts (`Rewrites`): characters that are kept, and blocks in each other's place.

A block begins with a character that is not in it again (`Blocks`). So no two blocks overlap, a text
can be cut before such a character on either side (`Rewrites.split_left`, `Rewrites.split_right`),
and without such a character nothing is rewritten (`Rewrites.follow_left`,
`Rewrites.follow_right`).
-/

namespace Substitution

abbrev Text := List Char

/-- What is left of a text after a match at its start. -/
abbrev Matcher := Text → Option Text

/-! ## Matchers -/

/-- A word. -/
def lit : Text → Matcher
  | [], t => some t
  | _ :: _, [] => none
  | k :: word, c :: t => if c = k then lit word t else none

/-- A word in small letters, whatever the case. -/
def anyCase : Text → Matcher
  | [], t => some t
  | _ :: _, [] => none
  | k :: word, c :: t => if c = k ∨ c = k.toUpper then anyCase word t else none

/-- A match after white space. -/
def spaced (space : Char → Bool) (m : Matcher) : Matcher := fun t => m (t.dropWhile space)

/-- One match after the other. -/
def seq : List Matcher → Matcher
  | [], t => some t
  | m :: ms, t => (m t).bind (seq ms)

/-- What the matcher reads has these characters only, and does not depend on what follows. -/
def Over (P : Char → Prop) (m : Matcher) : Prop :=
  ∀ t rest, m t = some rest →
    ∃ w, t = w ++ rest ∧ (∀ c ∈ w, P c) ∧ ∀ rest', m (w ++ rest') = some rest'

/-- The matcher reads something, and no white space first. -/
def Starts (space : Char → Bool) (m : Matcher) : Prop :=
  ∀ t rest, m t = some rest → ∃ c t', t = c :: t' ∧ space c = false ∧ rest.length ≤ t'.length

variable {P : Char → Prop} {space : Char → Bool}

/-- What a word reads is the word. -/
theorem eq_of_lit {word t rest : Text} (h : lit word t = some rest) : t = word ++ rest := by
  induction word generalizing t with
  | nil => exact Option.some.inj h
  | cons k word ih =>
    cases t with
    | nil => cases h
    | cons c t =>
      unfold lit at h
      split at h
      · rename_i hc
        rw [hc, ih h]
        rfl
      · cases h

theorem length_lit {word t rest : Text} (h : lit word t = some rest) : rest.length ≤ t.length := by
  rw [eq_of_lit h, List.length_append]
  omega

theorem seq_append (ms ms' : List Matcher) (t : Text) :
    seq (ms ++ ms') t = (seq ms t).bind (seq ms') := by
  induction ms generalizing t with
  | nil => rfl
  | cons m ms ih =>
    change (m t).bind (seq (ms ++ ms')) = ((m t).bind (seq ms)).bind (seq ms')
    cases m t with
    | none => rfl
    | some t' => exact ih t'

theorem length_anyCase {word t rest : Text} (h : anyCase word t = some rest) :
    rest.length ≤ t.length := by
  induction word generalizing t with
  | nil => rw [Option.some.inj h]
  | cons k word ih =>
    cases t with
    | nil => cases h
    | cons c t =>
      unfold anyCase at h
      split at h
      · have := ih h
        rw [List.length_cons]
        omega
      · cases h

theorem over_lit {word : Text} (hword : ∀ k ∈ word, P k) : Over P (lit word) := by
  intro t rest h
  induction word generalizing t with
  | nil =>
    obtain rfl := Option.some.inj h
    exact ⟨[], rfl, fun c hc => absurd hc List.not_mem_nil, fun _ => rfl⟩
  | cons k word ih =>
    cases t with
    | nil => cases h
    | cons c t =>
      unfold lit at h
      split at h
      · rename_i hc
        subst hc
        obtain ⟨w, rfl, hw, hreads⟩ := ih (fun k hk => hword k (List.mem_cons_of_mem _ hk)) t h
        refine ⟨c :: w, rfl, ?_, ?_⟩
        · intro x hx
          rcases List.mem_cons.mp hx with rfl | hx
          · exact hword x List.mem_cons_self
          · exact hw x hx
        · intro rest'
          change (if c = c then lit word (w ++ rest') else none) = _
          rw [if_pos rfl, hreads]
      · cases h

theorem over_anyCase {word : Text} (hword : ∀ k ∈ word, P k ∧ P k.toUpper) :
    Over P (anyCase word) := by
  intro t rest h
  induction word generalizing t with
  | nil =>
    obtain rfl := Option.some.inj h
    exact ⟨[], rfl, fun c hc => absurd hc List.not_mem_nil, fun _ => rfl⟩
  | cons k word ih =>
    cases t with
    | nil => cases h
    | cons c t =>
      unfold anyCase at h
      split at h
      · rename_i hc
        obtain ⟨w, rfl, hw, hreads⟩ := ih (fun k hk => hword k (List.mem_cons_of_mem _ hk)) t h
        refine ⟨c :: w, rfl, ?_, ?_⟩
        · intro x hx
          rcases List.mem_cons.mp hx with rfl | hx
          · obtain ⟨hlow, hup⟩ := hword k List.mem_cons_self
            rcases hc with rfl | rfl
            · exact hlow
            · exact hup
          · exact hw x hx
        · intro rest'
          change (if c = k ∨ c = k.toUpper then anyCase word (w ++ rest') else none) = _
          rw [if_pos hc, hreads]
      · cases h

theorem starts_lit {k : Char} {word : Text} (hk : space k = false) :
    Starts space (lit (k :: word)) := by
  intro t rest h
  cases t with
  | nil => cases h
  | cons c t =>
    unfold lit at h
    split at h
    · rename_i hc
      subst hc
      exact ⟨c, t, rfl, hk, length_lit h⟩
    · cases h

theorem starts_anyCase {k : Char} {word : Text} (hk : space k = false ∧ space k.toUpper = false) :
    Starts space (anyCase (k :: word)) := by
  intro t rest h
  cases t with
  | nil => cases h
  | cons c t =>
    unfold anyCase at h
    split at h
    · rename_i hc
      refine ⟨c, t, rfl, ?_, length_anyCase h⟩
      rcases hc with rfl | rfl
      · exact hk.1
      · exact hk.2
    · cases h

theorem over_spaced {m : Matcher} (hm : Over P m) (hstarts : Starts space m)
    (hspace : ∀ c, space c = true → P c) : Over P (spaced space m) := by
  intro t rest h
  obtain ⟨w, hw, hP, hreads⟩ := hm (t.dropWhile space) rest h
  refine ⟨t.takeWhile space ++ w, ?_, ?_, ?_⟩
  · rw [List.append_assoc, ← hw, List.takeWhile_append_dropWhile]
  · intro c hc
    rcases List.mem_append.mp hc with hc | hc
    · exact hspace c (List.mem_takeWhile_imp hc)
    · exact hP c hc
  · intro rest'
    obtain ⟨c, t', ht', hc, hlength⟩ := hstarts _ _ h
    -- the match is not empty, so white space stops before it
    obtain ⟨w', rfl⟩ : ∃ w', w = c :: w' := by
      cases w with
      | nil =>
        have := congrArg List.length (hw.symm.trans ht')
        rw [List.nil_append, List.length_cons] at this
        omega
      | cons d w' =>
        rw [ht'] at hw
        obtain ⟨rfl, -⟩ := List.cons.inj hw
        exact ⟨w', rfl⟩
    unfold spaced
    rw [List.append_assoc, List.dropWhile_append_of_pos fun x hx => List.mem_takeWhile_imp hx,
      List.cons_append, List.dropWhile_cons_of_neg (by rw [hc]; simp)]
    exact hreads rest'

theorem over_seq {ms : List Matcher} (hms : ∀ m ∈ ms, Over P m) : Over P (seq ms) := by
  intro t rest h
  induction ms generalizing t with
  | nil =>
    obtain rfl := Option.some.inj h
    exact ⟨[], rfl, fun c hc => absurd hc List.not_mem_nil, fun _ => rfl⟩
  | cons m ms ih =>
    obtain ⟨t₁, ht₁, hrest⟩ := Option.bind_eq_some_iff.mp h
    obtain ⟨w₁, rfl, hw₁, hreads₁⟩ := hms m List.mem_cons_self t t₁ ht₁
    obtain ⟨w₂, rfl, hw₂, hreads₂⟩ :=
      ih (fun m' hm' => hms m' (List.mem_cons_of_mem m hm')) t₁ hrest
    refine ⟨w₁ ++ w₂, (List.append_assoc ..).symm, ?_, ?_⟩
    · intro c hc
      exact (List.mem_append.mp hc).elim (hw₁ c) (hw₂ c)
    · intro rest'
      unfold seq
      rw [List.append_assoc, hreads₁, Option.bind_some, hreads₂]

/-! ## Blocks -/

/-- Every match begins with a character that it does not have again, and does not depend on what
follows. -/
def Blocks (first : Char → Prop) (m : Matcher) : Prop :=
  ∀ t rest, m t = some rest → ∃ c u, t = c :: (u ++ rest) ∧ first c ∧ (∀ x ∈ u, ¬first x) ∧
    ∀ rest', m (c :: (u ++ rest')) = some rest'

/-- A match of two parts, of which only the first has such a character. -/
theorem blocks_seq {first : Char → Prop} {m : Matcher} {ms : List Matcher} (hm : Blocks first m)
    (hms : ∀ m' ∈ ms, Over (fun c => ¬first c) m') : Blocks first (seq (m :: ms)) := by
  intro t rest h
  obtain ⟨t₁, ht₁, hrest⟩ := Option.bind_eq_some_iff.mp h
  obtain ⟨c, u, rfl, hc, hu, hreads⟩ := hm t t₁ ht₁
  obtain ⟨w, rfl, hw, hreads'⟩ := over_seq hms t₁ rest hrest
  refine ⟨c, u ++ w, by rw [List.append_assoc], hc, ?_, ?_⟩
  · intro x hx
    exact (List.mem_append.mp hx).elim (hu x) (hw x)
  · intro rest'
    unfold seq
    rw [List.append_assoc, hreads, Option.bind_some, hreads']

theorem blocks_lit {first : Char → Prop} {k : Char} {word : Text} (hk : first k)
    (hword : ∀ c ∈ word, ¬first c) : Blocks first (lit (k :: word)) := by
  intro t rest h
  cases t with
  | nil => cases h
  | cons c t =>
    unfold lit at h
    split at h
    · rename_i hc
      subst hc
      obtain ⟨w, rfl, hw, hreads⟩ := over_lit hword t rest h
      refine ⟨c, w, rfl, hk, hw, fun rest' => ?_⟩
      change (if c = c then lit word (w ++ rest') else none) = _
      rw [if_pos rfl, hreads]
    · cases h

theorem blocks_anyCase {first : Char → Prop} {k : Char} {word : Text}
    (hk : first k ∧ first k.toUpper) (hword : ∀ c ∈ word, ¬first c ∧ ¬first c.toUpper) :
    Blocks first (anyCase (k :: word)) := by
  intro t rest h
  cases t with
  | nil => cases h
  | cons c t =>
    unfold anyCase at h
    split at h
    · rename_i hc
      obtain ⟨w, rfl, hw, hreads⟩ := over_anyCase hword t rest h
      refine ⟨c, w, rfl, ?_, hw, fun rest' => ?_⟩
      · rcases hc with rfl | rfl
        · exact hk.1
        · exact hk.2
      · change (if c = k ∨ c = k.toUpper then anyCase word (w ++ rest') else none) = _
        rw [if_pos hc, hreads]
    · cases h

/-! ## Rewriting -/

/-- A text and what has become of it: characters that are kept, where `P` is true of what is left,
and blocks in the place of blocks. -/
inductive Rewrites (P : Text → Prop) (B : Text → Text → Prop) : Text → Text → Prop
  | nil : Rewrites P B [] []
  | keep {c : Char} {t t' : Text} (h : P (c :: t)) (ht : Rewrites P B t t') :
    Rewrites P B (c :: t) (c :: t')
  | swap {w w' t t' : Text} (h : B w w') (ht : Rewrites P B t t') :
    Rewrites P B (w ++ t) (w' ++ t')

/-- It begins with such a character and does not have it again. -/
def IsBlock (first : Char → Prop) (w : Text) : Prop :=
  ∃ c u, w = c :: u ∧ first c ∧ ∀ x ∈ u, ¬first x

namespace Rewrites

variable {P P' : Text → Prop} {B B' : Text → Text → Prop} {first : Char → Prop}

theorem mono (hP : ∀ t, P t → P' t) (hB : ∀ w w', B w w' → B' w w') {t t' : Text}
    (h : Rewrites P B t t') : Rewrites P' B' t t' := by
  induction h with
  | nil => exact .nil
  | keep h _ ih => exact .keep (hP _ h) ih
  | swap h _ ih => exact .swap (hB _ _ h) ih

theorem symm {t t' : Text} (h : Rewrites (fun _ => True) B t t') :
    Rewrites (fun _ => True) (fun w w' => B w' w) t' t := by
  induction h with
  | nil => exact .nil
  | keep h _ ih => exact .keep h ih
  | swap h _ ih => exact .swap h ih

/-- Without a first character in it, the start of a text is kept. -/
theorem follow_left (hB : ∀ w w', B w w' → IsBlock first w) {u x t' : Text}
    (hu : ∀ c ∈ u, ¬first c) (h : Rewrites P B (u ++ x) t') :
    ∃ x', t' = u ++ x' ∧ Rewrites P B x x' := by
  induction u generalizing t' with
  | nil => exact ⟨t', rfl, h⟩
  | cons c u ih =>
    generalize hs : (c :: u) ++ x = s at h
    cases h with
    | nil => cases hs
    | keep hP ht =>
      obtain ⟨rfl, rfl⟩ := List.cons.inj hs
      obtain ⟨x', rfl, hx'⟩ := ih (fun d hd => hu d (List.mem_cons_of_mem c hd)) ht
      exact ⟨x', rfl, hx'⟩
    | swap hw ht =>
      obtain ⟨d, v, rfl, hd, -⟩ := hB _ _ hw
      obtain ⟨rfl, -⟩ := List.cons.inj hs
      exact absurd hd (hu c List.mem_cons_self)

theorem follow_right (hB : ∀ w w', B w w' → IsBlock first w') {u x' t : Text}
    (hu : ∀ c ∈ u, ¬first c) (h : Rewrites P B t (u ++ x')) :
    ∃ x, t = u ++ x ∧ Rewrites P B x x' := by
  induction u generalizing t with
  | nil => exact ⟨t, rfl, h⟩
  | cons c u ih =>
    generalize hs : (c :: u) ++ x' = s at h
    cases h with
    | nil => cases hs
    | keep hP ht =>
      obtain ⟨rfl, rfl⟩ := List.cons.inj hs
      obtain ⟨x, rfl, hx⟩ := ih (fun d hd => hu d (List.mem_cons_of_mem c hd)) ht
      exact ⟨x, rfl, hx⟩
    | swap hw ht =>
      obtain ⟨d, v, rfl, hd, -⟩ := hB _ _ hw
      obtain ⟨rfl, -⟩ := List.cons.inj hs
      exact absurd hd (hu c List.mem_cons_self)

/-- A first character is not inside of a block. -/
theorem cut_block {w a x t : Text} {c : Char} (hw : IsBlock first w) (hc : first c) (ha : a ≠ [])
    (h : w ++ t = a ++ c :: x) : ∃ a', a = w ++ a' ∧ t = a' ++ c :: x := by
  obtain ⟨d, u, rfl, -, hu⟩ := hw
  rcases List.append_eq_append_iff.mp h with ⟨a', rfl, ht⟩ | ⟨v, hv, hx⟩
  · exact ⟨a', rfl, ht⟩
  · cases v with
    | nil =>
      rw [List.append_nil] at hv
      exact ⟨[], by rw [List.append_nil, hv], hx.symm⟩
    | cons e v =>
      obtain ⟨rfl, -⟩ := List.cons.inj hx
      obtain ⟨b, a, rfl⟩ := List.exists_cons_of_ne_nil ha
      obtain ⟨-, hu'⟩ := List.cons.inj hv
      refine absurd hc (hu c ?_)
      rw [hu']
      simp

/-- A text can be cut before a first character. -/
theorem split_left (hB : ∀ w w', B w w' → IsBlock first w) {s s' a x : Text} {c : Char}
    (hc : first c) (h : Rewrites P B s s') (hs : s = a ++ c :: x) :
    ∃ a' t', s' = a' ++ t' ∧ Rewrites P B (c :: x) t' := by
  induction h generalizing a with
  | nil => simp at hs
  | @keep d t t' hP ht ih =>
    cases a with
    | nil =>
      rw [List.nil_append] at hs
      exact ⟨[], d :: t', rfl, hs ▸ .keep hP ht⟩
    | cons e a =>
      obtain ⟨a', t'', rfl, ht'⟩ := ih (List.cons.inj hs).2
      exact ⟨d :: a', t'', rfl, ht'⟩
  | @swap w w' t t' hw ht ih =>
    by_cases ha : a = []
    · rw [ha, List.nil_append] at hs
      exact ⟨[], w' ++ t', rfl, hs ▸ .swap hw ht⟩
    · obtain ⟨a₁, -, ht₁⟩ := cut_block (hB _ _ hw) hc ha hs
      obtain ⟨a', t'', rfl, ht'⟩ := ih ht₁
      exact ⟨w' ++ a', t'', (List.append_assoc ..).symm, ht'⟩

theorem split_right (hB : ∀ w w', B w w' → IsBlock first w') {s s' a x : Text} {c : Char}
    (hc : first c) (h : Rewrites P B s s') (hs : s' = a ++ c :: x) :
    ∃ a' t, s = a' ++ t ∧ Rewrites P B t (c :: x) := by
  induction h generalizing a with
  | nil => simp at hs
  | @keep d t t' hP ht ih =>
    cases a with
    | nil =>
      rw [List.nil_append] at hs
      exact ⟨[], d :: t, rfl, hs ▸ .keep hP ht⟩
    | cons e a =>
      obtain ⟨a', t'', rfl, ht'⟩ := ih (List.cons.inj hs).2
      exact ⟨d :: a', t'', rfl, ht'⟩
  | @swap w w' t t' hw ht ih =>
    by_cases ha : a = []
    · rw [ha, List.nil_append] at hs
      exact ⟨[], w ++ t, rfl, hs ▸ .swap hw ht⟩
    · obtain ⟨a₁, -, ht₁⟩ := cut_block (hB _ _ hw) hc ha hs
      obtain ⟨a', t'', rfl, ht'⟩ := ih ht₁
      exact ⟨w ++ a', t'', (List.append_assoc ..).symm, ht'⟩

end Rewrites

/-! ## Substitution -/

/-- `re.sub`, past the rest of a match. -/
def sub (m : Matcher) (repl : Text) : Nat → Text → Text
  | _, [] => []
  | skip + 1, _ :: t => sub m repl skip t
  | 0, c :: t =>
    match m (c :: t) with
    | some rest => repl ++ sub m repl (t.length - rest.length) t
    | none => c :: sub m repl 0 t

theorem sub_skip (m : Matcher) (repl u t : Text) :
    sub m repl u.length (u ++ t) = sub m repl 0 t := by
  induction u with
  | nil => rfl
  | cons c u ih => exact ih

/-- The text is a match, whatever follows. -/
def Reads (m : Matcher) (w : Text) : Prop := ∀ rest, m (w ++ rest) = some rest

/-- Every match is replaced, and nothing else. -/
theorem rewrites_sub {first : Char → Prop} {m : Matcher} (hm : Blocks first m) (repl t : Text) :
    Rewrites (fun t => m t = none) (fun w w' => Reads m w ∧ w' = repl) t (sub m repl 0 t) := by
  induction hn : t.length using Nat.strong_induction_on generalizing t with
  | _ n ih =>
    cases t with
    | nil => exact .nil
    | cons c t =>
      unfold sub
      cases hmatch : m (c :: t) with
      | none => exact .keep hmatch (ih t.length (by rw [← hn]; simp) t rfl)
      | some rest =>
        obtain ⟨d, u, ht, -, -, hreads⟩ := hm _ _ hmatch
        obtain ⟨rfl, rfl⟩ := List.cons.inj ht
        have hlength : (u ++ rest).length - rest.length = u.length := by
          rw [List.length_append]
          omega
        dsimp only
        rw [hlength, sub_skip]
        have hrest := ih rest.length (by
          rw [← hn, List.length_cons, List.length_append]
          omega) rest rfl
        exact .swap (w := c :: u) ⟨hreads, rfl⟩ hrest

theorem Blocks.isBlock {first : Char → Prop} {m : Matcher} (hm : Blocks first m) {w : Text}
    (hw : Reads m w) : IsBlock first w := by
  obtain ⟨c, u, h, hc, hu, -⟩ := hm (w ++ []) [] (hw [])
  rw [List.append_nil, List.append_nil] at h
  exact ⟨c, u, h, hc, hu⟩

/-- What has no first character is kept. -/
theorem Blocks.keep_all {first : Char → Prop} {m : Matcher} (hm : Blocks first m)
    {B : Text → Text → Prop} {u t t' : Text} (hu : ∀ c ∈ u, ¬first c)
    (h : Rewrites (fun t => m t = none) B t t') :
    Rewrites (fun t => m t = none) B (u ++ t) (u ++ t') := by
  induction u with
  | nil => exact h
  | cons c u ih =>
    refine .keep ?_ (ih fun d hd => hu d (List.mem_cons_of_mem c hd))
    cases hmatch : m (c :: (u ++ t)) with
    | none => rfl
    | some rest =>
      obtain ⟨d, v, ht, hd, -, -⟩ := hm _ _ hmatch
      obtain ⟨rfl, -⟩ := List.cons.inj ht
      exact absurd hd (hu c List.mem_cons_self)

section Twice

variable {first : Char → Prop} {m₁ m₂ : Matcher} {repl₁ repl₂ : Text}

/-- Two substitutions, the second of which does not match what the first puts in. -/
theorem Rewrites.trans_sub (hm₁ : Blocks first m₁) (hm₂ : Blocks first m₂)
    (hrepl₁ : IsBlock first repl₁) (hrepl₂ : IsBlock first repl₂)
    (hnone : ∀ rest, m₂ (repl₁ ++ rest) = none) {t t₁ t₂ : Text}
    (h₁ : Rewrites (fun t => m₁ t = none) (fun w w' => Reads m₁ w ∧ w' = repl₁) t t₁)
    (h₂ : Rewrites (fun t => m₂ t = none) (fun w w' => Reads m₂ w ∧ w' = repl₂) t₁ t₂) :
    Rewrites (fun t => m₁ t = none ∧ m₂ t = none)
      (fun w w' => (Reads m₁ w ∧ w' = repl₁) ∨ (Reads m₂ w ∧ w' = repl₂)) t t₂ := by
  have hblock : ∀ w w', (Reads m₁ w ∧ w' = repl₁) ∨ (Reads m₂ w ∧ w' = repl₂) →
      IsBlock first w' := by
    rintro w w' (⟨-, rfl⟩ | ⟨-, rfl⟩)
    · exact hrepl₁
    · exact hrepl₂
  induction h₁ generalizing t₂ with
  | nil =>
    generalize hs : ([] : Text) = s at h₂
    cases h₂ with
    | nil => exact .nil
    | keep _ _ => cases hs
    | swap hw _ =>
      obtain ⟨c, u, rfl, -, -⟩ := hm₂.isBlock hw.1
      cases hs
  | @keep c t t₁ hP ht ih =>
    generalize hs : c :: t₁ = s at h₂
    cases h₂ with
    | nil => cases hs
    | keep hP₂ ht₂ =>
      obtain ⟨rfl, rfl⟩ := List.cons.inj hs
      refine .keep ⟨hP, ?_⟩ (ih ht₂)
      -- a match of the second would still be there after the first
      cases hmatch : m₂ (c :: t) with
      | none => rfl
      | some rest =>
        obtain ⟨d, u, heq, -, hu, hreads⟩ := hm₂ _ _ hmatch
        obtain ⟨rfl, rfl⟩ := List.cons.inj heq
        obtain ⟨x, rfl, -⟩ := ht.follow_left (fun _ _ hw => hm₁.isBlock hw.1) hu
        rw [hreads] at hP₂
        cases hP₂
    | swap hw ht₂ =>
      obtain ⟨hreads, rfl⟩ := hw
      obtain ⟨d, u, rfl, hd, hu⟩ := hm₂.isBlock hreads
      obtain ⟨rfl, rfl⟩ := List.cons.inj hs
      have hall := ih (hm₂.keep_all hu ht₂)
      obtain ⟨x, rfl, hx⟩ := hall.follow_right hblock hu
      exact .swap (w := c :: u) (.inr ⟨hreads, rfl⟩) hx
  | @swap w w' t t₁ hw ht ih =>
    obtain ⟨hreads, rfl⟩ := hw
    obtain ⟨c, u, rfl, hc, hu⟩ := hrepl₁
    generalize hs : (c :: u) ++ t₁ = s at h₂
    cases h₂ with
    | nil => cases hs
    | keep hP₂ ht₂ =>
      obtain ⟨rfl, rfl⟩ := List.cons.inj hs
      obtain ⟨x, rfl, hx⟩ := ht₂.follow_left (fun _ _ hw => hm₂.isBlock hw.1) hu
      change Rewrites _ _ (w ++ t) ((c :: u) ++ x)
      exact .swap (.inl ⟨hreads, rfl⟩) (ih hx)
    | swap hw₂ _ =>
      have := hnone t₁
      rw [hs, hw₂.1] at this
      cases this

theorem rewrites_sub_sub (hm₁ : Blocks first m₁) (hm₂ : Blocks first m₂)
    (hrepl₁ : IsBlock first repl₁) (hrepl₂ : IsBlock first repl₂)
    (hnone : ∀ rest, m₂ (repl₁ ++ rest) = none) (t : Text) :
    Rewrites (fun t => m₁ t = none ∧ m₂ t = none)
      (fun w w' => (Reads m₁ w ∧ w' = repl₁) ∨ (Reads m₂ w ∧ w' = repl₂)) t
      (sub m₂ repl₂ 0 (sub m₁ repl₁ 0 t)) :=
  (rewrites_sub hm₁ repl₁ t).trans_sub hm₁ hm₂ hrepl₁ hrepl₂ hnone (rewrites_sub hm₂ repl₂ _)

end Twice

end Substitution
