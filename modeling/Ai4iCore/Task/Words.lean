import Ai4iCore.Task.Service
import Mathlib

/-!
# White space and words

What `strip` and `split` of the task services leave of a text: texts without white space at either
end (`Trimmed`), and words, which have none in them (`IsWord`).
-/

namespace Ai4iCore.Task

/-! ## White space -/

/-- White space only. -/
def Blank (t : Text) : Prop := ∀ c ∈ t, isSpace c = true

/-- No white space at either end. -/
def Trimmed (t : Text) : Prop :=
  (∀ c, t.head? = some c → isSpace c = false) ∧ ∀ c, t.getLast? = some c → isSpace c = false

theorem blank_takeWhile (t : Text) : Blank (t.takeWhile isSpace) :=
  fun _ hc => (List.mem_takeWhile_imp hc)

theorem head?_dropWhile {t : Text} {c : Char} (h : (t.dropWhile isSpace).head? = some c) :
    isSpace c = false := by
  have hnot := List.head?_dropWhile_not isSpace t
  rw [h] at hnot
  simpa using hnot

/-- What `strip` takes away, and what it leaves. -/
theorem strip_spec (t : Text) :
    ∃ w w', Blank w ∧ Blank w' ∧ t = w ++ (strip t ++ w') ∧ Trimmed (strip t) := by
  set d := t.dropWhile isSpace with hd
  have hrest : d = (d.reverse.dropWhile isSpace).reverse ++
      (d.reverse.takeWhile isSpace).reverse := by
    rw [← List.reverse_append, List.takeWhile_append_dropWhile, List.reverse_reverse]
  refine ⟨t.takeWhile isSpace, (d.reverse.takeWhile isSpace).reverse, blank_takeWhile t, ?_, ?_,
    ?_, ?_⟩
  · exact fun c hc => blank_takeWhile _ c (List.mem_reverse.mp hc)
  · change t = t.takeWhile isSpace ++ ((d.reverse.dropWhile isSpace).reverse ++ _)
    rw [← hrest, hd, List.takeWhile_append_dropWhile]
  · intro c hc
    change (d.reverse.dropWhile isSpace).reverse.head? = some c at hc
    refine head?_dropWhile (t := t) ?_
    rw [← hd, hrest, List.head?_append, hc]
    rfl
  · intro c hc
    change (d.reverse.dropWhile isSpace).reverse.getLast? = some c at hc
    rw [List.getLast?_reverse] at hc
    exact head?_dropWhile hc

/-- The start of a text without white space before it: what is left of it is not empty, and only
white space behind it is lost. -/
theorem strip_take {t : Text} (ht : Trimmed t) {pos : Nat} (hpos : 0 < pos) (hne : t ≠ []) :
    ∃ w, Blank w ∧ t.take pos = strip (t.take pos) ++ w ∧ strip (t.take pos) ≠ [] := by
  obtain ⟨w, w', hw, hw', heq, -⟩ := strip_spec (t.take pos)
  have hfirst : ∀ c, (t.take pos).head? = some c → isSpace c = false := by
    intro c hc
    rw [List.head?_take, if_neg hpos.ne'] at hc
    exact ht.1 c hc
  have hnil : w = [] := by
    cases w with
    | nil => rfl
    | cons c w =>
      have hspace := hw c List.mem_cons_self
      rw [hfirst c (by rw [heq]; rfl)] at hspace
      cases hspace
  rw [hnil, List.nil_append] at heq
  refine ⟨w', hw', heq, fun hempty => ?_⟩
  rw [hempty, List.nil_append] at heq
  obtain ⟨c, rest, hcons⟩ := List.exists_cons_of_ne_nil hne
  obtain ⟨n, rfl⟩ := Nat.exists_eq_succ_of_ne_zero hpos.ne'
  have hmem : c ∈ w' := by
    rw [← heq, hcons, List.take_succ_cons]
    exact List.mem_cons_self
  have hspace := hw' c hmem
  rw [ht.1 c (by rw [hcons]; rfl)] at hspace
  cases hspace

/-- The rest of a text, likewise. -/
theorem strip_drop {t : Text} (ht : Trimmed t) {pos : Nat} (hpos : pos < t.length) :
    ∃ w, Blank w ∧ t.drop pos = w ++ strip (t.drop pos) ∧ strip (t.drop pos) ≠ [] ∧
      Trimmed (strip (t.drop pos)) := by
  obtain ⟨w, w', hw, hw', heq, htrimmed⟩ := strip_spec (t.drop pos)
  have hlast : ∀ c, (t.drop pos).getLast? = some c → isSpace c = false := by
    intro c hc
    rw [List.getLast?_drop, if_neg (by omega)] at hc
    exact ht.2 c hc
  have hne : t.drop pos ≠ [] := by
    rw [Ne, List.drop_eq_nil_iff]
    omega
  have hnil : w' = [] := by
    rcases List.eq_nil_or_concat w' with hnil | ⟨u, c, hconcat⟩
    · exact hnil
    · have hspace := hw' c (by rw [hconcat]; simp)
      rw [hlast c (by rw [heq, hconcat]; simp)] at hspace
      cases hspace
  rw [hnil, List.append_nil] at heq
  refine ⟨w, hw, heq, fun hempty => ?_, htrimmed⟩
  rw [hempty, List.append_nil] at heq
  obtain ⟨c, hc⟩ := Option.isSome_iff_exists.mp (List.getLast?_isSome.mpr hne)
  have hspace := hw c (heq ▸ List.mem_of_getLast? hc)
  rw [hlast c hc] at hspace
  cases hspace

/-! ## Words -/

/-- A word: not empty and without white space. -/
def IsWord (t : Text) : Prop := t ≠ [] ∧ ∀ c ∈ t, isSpace c = false

theorem words_nil : words [] = [] := by simp [words, List.splitOnP_nil]

theorem words_cons_space {c : Char} (h : isSpace c = true) (t : Text) :
    words (c :: t) = words t := by
  simp [words, List.splitOnP_cons_eq_if_modifyHead, h]

/-- A word before white space is the first one. -/
theorem words_append {u : Text} (h : IsWord u) {c : Char} (hc : isSpace c = true) (t : Text) :
    words (u ++ c :: t) = u :: words t := by
  rw [words, List.splitOnP_append_cons_of_forall_mem h.2 c hc, List.filter_cons_of_pos]
  · rfl
  · simpa using h.1

theorem words_word {u : Text} (h : IsWord u) : words u = [u] := by
  rw [words, List.splitOnP_eq_singleton h.2, List.filter_cons_of_pos]
  · rfl
  · simpa using h.1

theorem isWord_of_mem_words {t u : Text} (h : u ∈ words t) : IsWord u := by
  obtain ⟨hsplit, hne⟩ := List.mem_filter.mp h
  refine ⟨by simpa using hne, ?_⟩
  clear h hne
  induction t generalizing u with
  | nil =>
    rw [List.splitOnP_nil, List.mem_singleton] at hsplit
    rw [hsplit]
    exact fun c hc => absurd hc List.not_mem_nil
  | cons d t ih =>
    rw [List.splitOnP_cons_eq_if_modifyHead] at hsplit
    split at hsplit
    · rcases List.mem_cons.mp hsplit with rfl | hsplit
      · exact fun c hc => absurd hc List.not_mem_nil
      · exact ih hsplit
    · rename_i hd
      obtain ⟨first, rest, hcons⟩ := List.exists_cons_of_ne_nil (List.splitOnP_ne_nil isSpace t)
      rw [hcons, List.modifyHead_cons] at hsplit
      have hfirst := ih (hcons ▸ List.mem_cons_self)
      rcases List.mem_cons.mp hsplit with rfl | hsplit
      · intro c hc
        rcases List.mem_cons.mp hc with rfl | hc
        · simpa using hd
        · exact hfirst c hc
      · exact ih (hcons ▸ List.mem_cons_of_mem first hsplit)

theorem intercalate_cons_cons (u v : Text) (us : List Text) :
    [' '].intercalate (u :: v :: us) = u ++ ' ' :: [' '].intercalate (v :: us) := by
  simp [List.intercalate, List.intersperse]

theorem intercalate_singleton (u : Text) : [' '].intercalate [u] = u := by
  simp [List.intercalate]

/-- The words of joined words. -/
theorem words_intercalate {us : List Text} (h : ∀ u ∈ us, IsWord u) :
    words ([' '].intercalate us) = us := by
  induction us with
  | nil => exact words_nil
  | cons u us ih =>
    have hu := h u List.mem_cons_self
    cases us with
    | nil => rw [intercalate_singleton, words_word hu]
    | cons v us =>
      rw [intercalate_cons_cons, words_append hu (by decide),
        ih fun v' hv' => h v' (List.mem_cons_of_mem u hv')]

/-- Joined words begin and end with a word. -/
theorem trimmed_intercalate {us : List Text} (h : ∀ u ∈ us, IsWord u) :
    Trimmed ([' '].intercalate us) := by
  induction us with
  | nil =>
    constructor
    · intro c hc
      cases hc
    · intro c hc
      cases hc
  | cons u us ih =>
    obtain ⟨hne, hspace⟩ := h u List.mem_cons_self
    cases us with
    | nil =>
      rw [intercalate_singleton]
      exact ⟨fun c hc => hspace c (List.mem_of_head? hc),
        fun c hc => hspace c (List.mem_of_getLast? hc)⟩
    | cons v us =>
      rw [intercalate_cons_cons]
      have hrest := ih fun v' hv' => h v' (List.mem_cons_of_mem u hv')
      have hv : [' '].intercalate (v :: us) ≠ [] := by
        intro hempty
        have hwords := words_intercalate fun v' hv' => h v' (List.mem_cons_of_mem u hv')
        rw [hempty, words_nil] at hwords
        cases hwords
      constructor
      · intro c hc
        rw [List.head?_append_of_ne_nil _ hne] at hc
        exact hspace c (List.mem_of_head? hc)
      · intro c hc
        rw [List.getLast?_append_of_ne_nil _ (List.cons_ne_nil _ _),
          List.getLast?_cons_of_ne_nil hv] at hc
        exact hrest.2 c hc

end Ai4iCore.Task
