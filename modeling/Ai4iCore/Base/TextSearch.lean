import Mathlib

/-!
# Searching in a text

The first position at which a pattern stands (`find`), and occurrences found from left to right
without overlap (`Scan`): each is the first one after the end of the one before.

`Scan` takes any notion of occurrence, a span of the text; `occurrences` is the loop around `find`,
and `scan_occurrences` says that it is such a scan.
-/

namespace TextSearch

universe u

/-! ## Scans -/

/-- Occurrences from a position on, from left to right without overlap. -/
inductive Scan (Occurs : Nat → Nat → Prop) : Nat → List (Nat × Nat) → Prop
  | done {pos : Nat} (hnone : ∀ s e, pos ≤ s → ¬Occurs s e) : Scan Occurs pos []
  | next {pos s e : Nat} {spans : List (Nat × Nat)} (hpos : pos ≤ s) (hoccurs : Occurs s e)
    (hfirst : ∀ s' e', pos ≤ s' → s' < s → ¬Occurs s' e') (hrest : Scan Occurs e spans) :
    Scan Occurs pos ((s, e) :: spans)

namespace Scan

variable {Occurs : Nat → Nat → Prop} {pos : Nat} {spans spans' : List (Nat × Nat)}

/-- There is one scan only, where an occurrence has one end. -/
theorem unique (hend : ∀ s e e', Occurs s e → Occurs s e' → e = e')
    (h : Scan Occurs pos spans) (h' : Scan Occurs pos spans') : spans = spans' := by
  induction h generalizing spans' with
  | done hnone =>
    cases h' with
    | done _ => rfl
    | next hpos hoccurs _ _ => exact absurd hoccurs (hnone _ _ hpos)
  | @next pos s e spans hpos hoccurs hfirst hrest ih =>
    cases h' with
    | done hnone => exact absurd hoccurs (hnone _ _ hpos)
    | @next _ s' e' rest hpos' hoccurs' hfirst' hrest' =>
      -- neither start is before the other, or it would have been found first
      have hstart : s = s' := by
        rcases Nat.lt_trichotomy s s' with hlt | heq | hlt
        · exact absurd hoccurs (hfirst' _ _ hpos hlt)
        · exact heq
        · exact absurd hoccurs' (hfirst _ _ hpos' hlt)
      subst hstart
      have hstop := hend _ _ _ hoccurs hoccurs'
      subst hstop
      rw [ih hrest']

/-- A scan for what occurs at the same places. -/
theorem congr {Occurs' : Nat → Nat → Prop} (hiff : ∀ s e, Occurs s e ↔ Occurs' s e)
    (h : Scan Occurs pos spans) : Scan Occurs' pos spans := by
  have heq : Occurs = Occurs' := by
    funext s e
    exact propext (hiff s e)
  rwa [← heq]

end Scan

/-! ## The search -/

variable {α : Type u} [DecidableEq α]

/-- The pattern stands at a position of the text. -/
def Stands (text pattern : List α) (s : Nat) : Prop :=
  s + pattern.length ≤ text.length ∧ text.extract s (s + pattern.length) = pattern

instance (text pattern : List α) (s : Nat) : Decidable (Stands text pattern s) :=
  inferInstanceAs (Decidable (_ ∧ _))

/-- The first position, from `pos` on, at which the pattern stands. -/
def find (text pattern : List α) (pos : Nat) : Option Nat :=
  (List.range' pos (text.length + 1 - pos)).find? fun s => decide (Stands text pattern s)

theorem find_eq_some {text pattern : List α} {pos s : Nat} :
    find text pattern pos = some s ↔
      pos ≤ s ∧ Stands text pattern s ∧ ∀ s', pos ≤ s' → s' < s → ¬Stands text pattern s' := by
  unfold find
  rw [List.find?_range'_eq_some]
  simp only [decide_eq_true_eq, List.mem_range'_1, Bool.not_eq_true', decide_eq_false_iff_not]
  constructor
  · rintro ⟨hstands, ⟨hpos, -⟩, hfirst⟩
    exact ⟨hpos, hstands, hfirst⟩
  · rintro ⟨hpos, hstands, hfirst⟩
    have := hstands.1
    exact ⟨hstands, ⟨hpos, by omega⟩, hfirst⟩

theorem find_eq_none {text pattern : List α} {pos : Nat} :
    find text pattern pos = none ↔ ∀ s, pos ≤ s → ¬Stands text pattern s := by
  unfold find
  simp only [List.find?_eq_none, List.mem_range'_1, decide_eq_true_eq]
  constructor
  · intro h s hpos hstands
    have := hstands.1
    exact h s ⟨hpos, by omega⟩ hstands
  · exact fun h s hs => h s hs.1

/-- `while` the pattern is found: the spans of the text where it stands. -/
def occurrences (text pattern : List α) : Nat → Nat → List (Nat × Nat)
  | 0, _ => []
  | fuel + 1, pos =>
    match find text pattern pos with
    | none => []
    | some s => (s, s + pattern.length) :: occurrences text pattern fuel (s + pattern.length)

/-- The loop ends before the fuel does, unless the pattern is empty. -/
theorem scan_occurrences {text pattern : List α} (hne : pattern ≠ []) {fuel pos : Nat}
    (hfuel : text.length < pos + fuel) :
    Scan (fun s e => Stands text pattern s ∧ e = s + pattern.length) pos
      (occurrences text pattern fuel pos) := by
  have hlength := List.length_pos_iff.mpr hne
  induction fuel generalizing pos with
  | zero =>
    refine .done ?_
    rintro s e hpos ⟨⟨hbound, -⟩, -⟩
    omega
  | succ fuel ih =>
    unfold occurrences
    cases hfind : find text pattern pos with
    | none => exact .done fun s e hpos h => find_eq_none.mp hfind s hpos h.1
    | some s =>
      obtain ⟨hpos, hstands, hfirst⟩ := find_eq_some.mp hfind
      exact .next hpos ⟨hstands, rfl⟩ (fun s' e' hpos' hlt h => hfirst s' hpos' hlt h.1)
        (ih (by omega))

/-! ## Separators -/

omit [DecidableEq α]

variable {sep : α} {x y z w q : List α}

/-- The first separator cuts a text in one way. -/
theorem cut_unique (hx : sep ∉ x) (hy : sep ∉ y) (h : x ++ sep :: z = y ++ sep :: w) :
    x = y ∧ z = w := by
  induction x generalizing y with
  | nil =>
    cases y with
    | nil => exact ⟨rfl, (List.cons.inj h).2⟩
    | cons b y => exact absurd (List.mem_cons.mpr (.inl (List.cons.inj h).1)) hy
  | cons a x ih =>
    cases y with
    | nil => exact absurd (List.mem_cons.mpr (.inl (List.cons.inj h).1.symm)) hx
    | cons b y =>
      obtain ⟨rfl, hrest⟩ := List.cons.inj h
      obtain ⟨rfl, hzw⟩ := ih (fun hm => hx (List.mem_cons_of_mem _ hm))
        (fun hm => hy (List.mem_cons_of_mem _ hm)) hrest
      exact ⟨rfl, hzw⟩

/-- Parts with separators between them are determined by the text, where all but the last one are
without the separator. -/
theorem intercalate_injective {parts parts' : List (List α)}
    (hlength : parts.length = parts'.length) (hparts : ∀ p ∈ parts.dropLast, sep ∉ p)
    (hparts' : ∀ p ∈ parts'.dropLast, sep ∉ p)
    (h : [sep].intercalate parts = [sep].intercalate parts') : parts = parts' := by
  induction parts generalizing parts' with
  | nil => exact (List.length_eq_zero_iff.mp hlength.symm).symm
  | cons p parts ih =>
    obtain ⟨p', parts', rfl⟩ := List.exists_cons_of_length_eq_add_one hlength.symm
    have hrest : parts.length = parts'.length := by simpa using hlength
    cases parts with
    | nil =>
      obtain rfl := List.length_eq_zero_iff.mp hrest.symm
      rw [List.intercalate_singleton, List.intercalate_singleton] at h
      rw [h]
    | cons r parts =>
      obtain ⟨r', parts', rfl⟩ := List.exists_cons_of_length_eq_add_one hrest.symm
      rw [List.intercalate_cons_cons, List.intercalate_cons_cons, List.append_assoc,
        List.append_assoc] at h
      obtain ⟨rfl, htail⟩ := cut_unique (hparts p List.mem_cons_self)
        (hparts' p' List.mem_cons_self) h
      rw [ih hrest (fun x hx => hparts x (List.mem_cons_of_mem _ hx))
        (fun x hx => hparts' x (List.mem_cons_of_mem _ hx)) htail]

theorem isPrefix_of_shift {s : List α} (hq : sep ∉ q) (hs : s ≠ [])
    (h : sep :: (q ++ z) = s ++ sep :: (q ++ w)) : sep :: q <+: s := by
  obtain ⟨a, s, rfl⟩ := List.exists_cons_of_ne_nil hs
  obtain ⟨rfl, hrest⟩ := List.cons.inj h
  refine List.cons_prefix_cons.mpr ⟨rfl, ?_⟩
  obtain ⟨t, rfl, -⟩ | ⟨t, rfl, ht⟩ := List.append_eq_append_iff.mp hrest
  · exact List.prefix_append q t
  · cases t with
    | nil => simp
    | cons b t => exact absurd (by simp [(List.cons.inj ht).1]) hq

/-- A pattern that starts with a separator and has no other one cuts a text in one way, at its first
occurrence. -/
theorem cut_pattern_unique (hq : sep ∉ q) (hx : ¬sep :: q <:+: x) (hy : ¬sep :: q <:+: y)
    (h : x ++ sep :: (q ++ z) = y ++ sep :: (q ++ w)) : x = y ∧ z = w := by
  obtain ⟨s, rfl, hs⟩ | ⟨s, rfl, hs⟩ := List.append_eq_append_iff.mp h
  · by_cases hne : s = []
    · subst hne
      exact ⟨(List.append_nil x).symm, List.append_cancel_left (List.cons.inj hs).2⟩
    · exact absurd ((isPrefix_of_shift hq hne hs).isInfix.trans (List.suffix_append x s).isInfix) hy
  · by_cases hne : s = []
    · subst hne
      exact ⟨List.append_nil y, (List.append_cancel_left (List.cons.inj hs).2).symm⟩
    · exact absurd ((isPrefix_of_shift hq hne hs).isInfix.trans (List.suffix_append y s).isInfix) hx

end TextSearch
