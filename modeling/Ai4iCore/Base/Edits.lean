import Mathlib

/-!
# Replacing spans of a text, from the right to the left

An edit replaces the elements of a list between two positions. Edits that are applied one after
another carry positions of the *original* list, so each is right only if what has been replaced
before it leaves those positions alone. `trace` runs the edits on elements that remember where they
come from: the original ones their position, the ones put in the start of their edit.

* `kept_trace` — of edits in falling order of their starts, of which each ends before the ones
  applied earlier or meets only such as keep the length, exactly the elements outside all spans are
  kept, in order; and the elements put in stand where their spans were (`sorted_trace`).
* `applyAll_perm` — the order among edits with one start does not matter, when these keep the length
  and one replacement begins with the other.
-/

namespace Edits

universe u v

/-- The elements from `start` to before `stop` give way to `replacement`. -/
structure Edit (α : Type u) where
  start : Nat
  stop : Nat
  replacement : List α
deriving DecidableEq, Repr

variable {α : Type u} {β : Type v}

namespace Edit

/-- `text[:start] + replacement + text[stop:]`. -/
def apply (e : Edit α) (text : List α) : List α :=
  text.take e.start ++ (e.replacement ++ text.drop e.stop)

/-- The edit with its replacement mapped. -/
def map (f : α → β) (e : Edit α) : Edit β := ⟨e.start, e.stop, e.replacement.map f⟩

/-- The replacement is as long as the span. -/
def Keeps (e : Edit α) : Prop := e.replacement.length = e.stop - e.start

instance (e : Edit α) : Decidable e.Keeps := inferInstanceAs (Decidable (_ = _))

/-- The span lies in the text. -/
def In (e : Edit α) (text : List α) : Prop := e.start ≤ e.stop ∧ e.stop ≤ text.length

instance (e : Edit α) (text : List α) : Decidable (e.In text) := inferInstanceAs (Decidable (_ ∧ _))

/-- The position lies in the span. -/
def covers (e : Edit α) (i : Nat) : Bool := e.start ≤ i && i < e.stop

theorem map_apply (f : α → β) (e : Edit α) (text : List α) :
    (e.apply text).map f = (e.map f).apply (text.map f) := by
  simp only [apply, map, List.map_append, List.map_take, List.map_drop]

end Edit

/-- The edits, applied one after another. -/
def applyAll (es : List (Edit α)) (text : List α) : List α :=
  es.foldl (fun text e => e.apply text) text

theorem applyAll_append (es es' : List (Edit α)) (text : List α) :
    applyAll (es ++ es') text = applyAll es' (applyAll es text) := List.foldl_append

theorem map_applyAll (f : α → β) (es : List (Edit α)) (text : List α) :
    (applyAll es text).map f = applyAll (es.map (Edit.map f)) (text.map f) := by
  induction es generalizing text with
  | nil => rfl
  | cons e es ih =>
    show (applyAll es (e.apply text)).map f = _
    rw [ih, Edit.map_apply]
    rfl

/-- The position lies in one of the spans. -/
def covered (es : List (Edit α)) (i : Nat) : Bool := es.any fun e => e.covers i

/-! ## Where an element comes from -/

/-- An original element with its position, or one put in, with the start of its edit. -/
inductive Origin
  | original (i : Nat)
  | placed (start : Nat)
deriving DecidableEq, Repr

namespace Origin

/-- The position in the original text. -/
def index : Origin → Nat
  | original i => i
  | placed start => start

/-- The position of an original element. -/
def original? : Origin → Option Nat
  | original i => some i
  | placed _ => none

end Origin

/-- An original element and its position. -/
def mark (p : α × Nat) : α × Origin := (p.1, .original p.2)

/-- The text with its positions. -/
def tag (text : List α) : List (α × Origin) := text.zipIdx.map mark

/-- The edit on marked texts. -/
def Edit.tag (e : Edit α) : Edit (α × Origin) := e.map fun a => (a, .placed e.start)

/-- The edits on the marked text. -/
def trace (es : List (Edit α)) (text : List α) : List (α × Origin) :=
  applyAll (es.map Edit.tag) (tag text)

/-- The original elements with their positions. -/
def kept (l : List (α × Origin)) : List (α × Nat) :=
  l.filterMap fun p => p.2.original?.map fun i => (p.1, i)

section Trace

variable {es : List (Edit α)} {text : List α}

theorem map_fst_tag (text : List α) : (tag text).map Prod.fst = text := by
  rw [tag, List.map_map]
  exact List.zipIdx_map_fst 0 text

/-- The trace of the edits is their result. -/
theorem map_fst_trace (es : List (Edit α)) (text : List α) :
    (trace es text).map Prod.fst = applyAll es text := by
  rw [trace, map_applyAll, map_fst_tag, List.map_map]
  congr 1
  refine (List.map_congr_left fun e _ => ?_).trans (List.map_id es)
  show (⟨e.start, e.stop, (e.replacement.map _).map Prod.fst⟩ : Edit α) = e
  rw [List.map_map]
  exact congrArg (Edit.mk e.start e.stop) (List.map_id _)

theorem trace_append (es : List (Edit α)) (e : Edit α) (text : List α) :
    trace (es ++ [e]) text = e.tag.apply (trace es text) := by
  rw [trace, List.map_append, applyAll_append]
  rfl

theorem kept_append (l l' : List (α × Origin)) : kept (l ++ l') = kept l ++ kept l' :=
  List.filterMap_append

theorem kept_map_mark (l : List (α × Nat)) : kept (l.map mark) = l := by
  rw [kept, List.filterMap_map]
  exact List.filterMap_some

/-- What an edit puts in is not original. -/
theorem kept_placed (e : Edit α) (n : Nat) : kept (e.tag.replacement.drop n) = [] := by
  refine List.filterMap_eq_nil_iff.mpr fun p hp => ?_
  obtain ⟨a, -, rfl⟩ := List.mem_map.mp (List.mem_of_mem_drop hp)
  rfl

/-- The positions of a part of a text. -/
theorem mem_segment {p : α × Nat} {a n : Nat} (hp : p ∈ (text.zipIdx.drop a).take n) :
    a ≤ p.2 ∧ p.2 < a + n := by
  obtain ⟨i, hi, rfl⟩ := List.mem_iff_getElem.mp hp
  rw [List.length_take, List.length_drop] at hi
  rw [List.getElem_take, List.getElem_drop, List.getElem_zipIdx]
  dsimp only
  omega

theorem mem_drop_zipIdx {p : α × Nat} {a : Nat} (hp : p ∈ text.zipIdx.drop a) : a ≤ p.2 := by
  rw [← List.take_length (l := text.zipIdx.drop a)] at hp
  exact (mem_segment hp).1

/-- Falling starts, and no span reaches into one applied before unless that one keeps the length. -/
structure Fits (es : List (Edit α)) (text : List α) : Prop where
  spans : ∀ e ∈ es, e.In text
  falling : es.Pairwise fun a b => b.start ≤ a.start
  clear : es.Pairwise fun a b => b.stop ≤ a.start ∨ a.Keeps

variable {e : Edit α}

/-- The parts of `Fits` for the edit applied last. -/
theorem Fits.of_append (h : Fits (es ++ [e]) text) :
    Fits es text ∧ e.In text ∧ (∀ a ∈ es, e.start ≤ a.start) ∧
      ∀ a ∈ es, a.start < e.stop → a.Keeps := by
  obtain ⟨hspans, hfalling, hclear⟩ := h
  rw [List.pairwise_append] at hfalling hclear
  refine ⟨⟨fun a ha => hspans a (List.mem_append_left _ ha), hfalling.1, hclear.1⟩,
    hspans e (List.mem_append_right _ (List.mem_singleton_self e)), fun a ha =>
      hfalling.2.2 a ha e (List.mem_singleton_self e), fun a ha hlt => ?_⟩
  obtain hle | hkeeps := hclear.2.2 a ha e (List.mem_singleton_self e)
  · omega
  · exact hkeeps

/-- Before the first start the text is as it was. -/
theorem take_trace (hfits : Fits es text) {m : Nat} (hm : ∀ e ∈ es, m ≤ e.start) :
    (trace es text).take m = (tag text).take m := by
  induction es using List.reverseRecOn generalizing m with
  | nil => rfl
  | append_singleton es e ih =>
    obtain ⟨hes, hin, hstart, -⟩ := hfits.of_append
    have hm' : m ≤ e.start := hm e (List.mem_append_right _ (List.mem_singleton_self e))
    have hpre : (trace es text).take e.start = (tag text).take e.start := ih hes hstart
    have hlength : ((tag text).take e.start).length = e.start := by
      rw [List.length_take, tag, List.length_map, List.length_zipIdx]
      exact min_eq_left (hin.1.trans hin.2)
    rw [trace_append]
    show ((trace es text).take e.start ++ _).take m = _
    rw [hpre, List.take_append_of_le_length (by omega), List.take_take, min_eq_left hm']

theorem length_take_trace (hfits : Fits (es ++ [e]) text) :
    ((trace es text).take e.start).length = e.start := by
  obtain ⟨hes, hin, hstart, -⟩ := hfits.of_append
  rw [take_trace hes hstart, List.length_take, tag, List.length_map, List.length_zipIdx]
  exact min_eq_left (hin.1.trans hin.2)

theorem covered_append (i : Nat) : covered (es ++ [e]) i = (covered es i || e.covers i) := by
  rw [covered, List.any_append, List.any_cons, List.any_nil, Bool.or_false]
  rfl

/-- Behind the span of the last edit only the others cover. -/
theorem filter_behind {t : Nat} (ht : e.stop ≤ t) :
    (text.zipIdx.drop t).filter (fun p => !covered (es ++ [e]) p.2) =
      (text.zipIdx.drop t).filter fun p => !covered es p.2 := by
  refine List.filter_congr fun p hp => ?_
  have hbehind := mem_drop_zipIdx hp
  have hcovers : e.covers p.2 = false := by
    rw [Edit.covers, Bool.and_eq_false_iff]
    exact .inr (decide_eq_false (by omega))
  rw [covered_append, hcovers, Bool.or_false]

/-- From a position within the span on, the span is skipped. -/
theorem filter_within {t : Nat} (hstart : e.start ≤ t) (hstop : t ≤ e.stop) :
    (text.zipIdx.drop t).filter (fun p => !covered (es ++ [e]) p.2) =
      (text.zipIdx.drop e.stop).filter fun p => !covered es p.2 := by
  have hsplit : text.zipIdx.drop t =
      (text.zipIdx.drop t).take (e.stop - t) ++ text.zipIdx.drop e.stop := by
    have hdrop : text.zipIdx.drop e.stop = (text.zipIdx.drop t).drop (e.stop - t) := by
      rw [List.drop_drop]
      congr 1
      omega
    rw [hdrop, List.take_append_drop]
  have hspan : ((text.zipIdx.drop t).take (e.stop - t)).filter
      (fun p => !covered (es ++ [e]) p.2) = [] := by
    refine List.filter_eq_nil_iff.mpr fun p hp => ?_
    obtain ⟨hle, hlt⟩ := mem_segment hp
    have hcovers : e.covers p.2 = true := by
      rw [Edit.covers, Bool.and_eq_true]
      exact ⟨decide_eq_true (by omega), decide_eq_true (by omega)⟩
    rw [covered_append, hcovers, Bool.or_true]
    exact Bool.false_ne_true
  rw [hsplit, List.filter_append, hspan, List.nil_append, filter_behind le_rfl]

/-- From any position on that the edits applied so far do not shift, exactly the uncovered elements
are kept, in order. -/
theorem kept_drop_trace (hfits : Fits es text) (t : Nat)
    (ht : ∀ e ∈ es, e.start < t → e.Keeps) :
    kept ((trace es text).drop t) = (text.zipIdx.drop t).filter fun p => !covered es p.2 := by
  induction es using List.reverseRecOn generalizing t with
  | nil =>
    show kept ((tag text).drop t) = _
    rw [tag, ← List.map_drop, kept_map_mark]
    exact (List.filter_eq_self.mpr fun p _ => rfl).symm
  | append_singleton es e ih =>
    obtain ⟨hes, hin, hstart, hclear⟩ := hfits.of_append
    have hlength := length_take_trace hfits
    have hrest : kept ((trace es text).drop e.stop) =
        (text.zipIdx.drop e.stop).filter fun p => !covered es p.2 := ih hes e.stop hclear
    rw [trace_append]
    show kept (((trace es text).take e.start ++ (e.tag.replacement ++
      (trace es text).drop e.stop)).drop t) = _
    by_cases hbefore : t ≤ e.start
    · -- the text before the start, the replacement, and what the others left behind the span
      have hbegins : kept (((trace es text).take e.start).drop t) =
          (text.zipIdx.drop t).take (e.start - t) := by
        rw [take_trace hes hstart, tag, ← List.map_take, ← List.map_drop, kept_map_mark,
          List.drop_take]
      have huncovered : ((text.zipIdx.drop t).take (e.start - t)).filter
          (fun p => !covered (es ++ [e]) p.2) = (text.zipIdx.drop t).take (e.start - t) := by
        refine List.filter_eq_self.mpr fun p hp => ?_
        have hlt := (mem_segment hp).2
        rw [Bool.not_eq_true', covered, List.any_eq_false]
        intro a ha
        have hle : e.start ≤ a.start := by
          obtain ha | ha := List.mem_append.mp ha
          · exact hstart a ha
          · rw [List.mem_singleton.mp ha]
        rw [Edit.covers, Bool.and_eq_true]
        exact fun h => absurd (of_decide_eq_true h.1) (by omega)
      have hsplit : text.zipIdx.drop t =
          (text.zipIdx.drop t).take (e.start - t) ++ text.zipIdx.drop e.start := by
        have hdrop : text.zipIdx.drop e.start = (text.zipIdx.drop t).drop (e.start - t) := by
          rw [List.drop_drop]
          congr 1
          omega
        rw [hdrop, List.take_append_drop]
      have hplaced : kept e.tag.replacement = [] := kept_placed e 0
      rw [List.drop_append_of_le_length (by omega), kept_append, kept_append, hbegins, hplaced,
        List.nil_append, hrest]
      conv_rhs => rw [hsplit, List.filter_append, huncovered, filter_within le_rfl hin.1]
    · have hkeeps : e.Keeps :=
        ht e (List.mem_append_right _ (List.mem_singleton_self e)) (by omega)
      have hplacedLength : e.tag.replacement.length = e.stop - e.start := by
        rw [← hkeeps]
        exact List.length_map _
      have hrestDrop : (((trace es text).take e.start ++ (e.tag.replacement ++
          (trace es text).drop e.stop)).drop t) =
            (e.tag.replacement ++ (trace es text).drop e.stop).drop (t - e.start) := by
        rw [List.drop_append, List.drop_eq_nil_of_le (by omega), List.nil_append, hlength]
      rw [hrestDrop]
      by_cases hwithin : t ≤ e.stop
      · rw [List.drop_append_of_le_length (by omega), kept_append, kept_placed, List.nil_append,
          hrest, filter_within (by omega) hwithin]
      · have hbehind : (e.tag.replacement ++ (trace es text).drop e.stop).drop (t - e.start) =
            (trace es text).drop t := by
          have hpast : e.stop + (t - e.start - (e.stop - e.start)) = t := by
            have := hin.1
            omega
          rw [List.drop_append, List.drop_eq_nil_of_le (by omega), List.nil_append, List.drop_drop,
            hplacedLength, hpast]
        rw [hbehind, filter_behind (by omega)]
        exact ih hes t fun a ha => ht a (List.mem_append_left _ ha)

/-- **Exactly the elements outside all spans are kept**, in their order. -/
theorem kept_trace (hfits : Fits es text) :
    kept (trace es text) = text.zipIdx.filter fun p => !covered es p.2 :=
  kept_drop_trace hfits 0 fun _ _ h => absurd h (Nat.not_lt_zero _)

/-- What is put in comes from an edit. -/
theorem placed_mem {p : α × Origin} {start : Nat} (hp : p ∈ trace es text)
    (hplaced : p.2 = .placed start) : ∃ e ∈ es, e.start = start := by
  induction es using List.reverseRecOn with
  | nil =>
    obtain ⟨q, -, rfl⟩ := List.mem_map.mp hp
    cases hplaced
  | append_singleton es e ih =>
    rw [trace_append] at hp
    have hold : p ∈ trace es text → ∃ a ∈ es ++ [e], a.start = start := fun hp => by
      obtain ⟨a, ha, hstart⟩ := ih hp
      exact ⟨a, List.mem_append_left _ ha, hstart⟩
    obtain hp | hp := List.mem_append.mp hp
    · exact hold (List.mem_of_mem_take hp)
    · obtain hp | hp := List.mem_append.mp hp
      · obtain ⟨a, -, rfl⟩ := List.mem_map.mp hp
        exact ⟨e, List.mem_append_right _ (List.mem_singleton_self e), Origin.placed.inj hplaced⟩
      · exact hold (List.mem_of_mem_drop hp)

/-- **What is put in stands where its span was**: the positions of the result never fall. -/
theorem sorted_trace (hfits : Fits es text) :
    (trace es text).Pairwise fun p q => p.2.index ≤ q.2.index := by
  induction es using List.reverseRecOn with
  | nil =>
    refine List.pairwise_map.mpr (List.pairwise_iff_getElem.mpr fun i j hi hj hij => ?_)
    rw [List.getElem_zipIdx, List.getElem_zipIdx]
    show 0 + i ≤ 0 + j
    omega
  | append_singleton es e ih =>
    obtain ⟨hes, hin, hstart, hclear⟩ := hfits.of_append
    have hsorted := ih hes
    have hbefore : ∀ p ∈ (trace es text).take e.start, p.2.index ≤ e.start := by
      rw [take_trace hes hstart, tag, ← List.map_take]
      intro p hp
      obtain ⟨q, hq, rfl⟩ := List.mem_map.mp hp
      have hsegment : q ∈ (text.zipIdx.drop 0).take e.start := hq
      have hlt := (mem_segment hsegment).2
      show q.2 ≤ e.start
      omega
    have hplaced : ∀ p ∈ e.tag.replacement, p.2.index = e.start := by
      intro p hp
      obtain ⟨a, -, rfl⟩ := List.mem_map.mp hp
      rfl
    have hbehind : ∀ p ∈ (trace es text).drop e.stop, e.start ≤ p.2.index := by
      intro p hp
      cases horigin : p.2 with
      | original i =>
        have hkept : (p.1, i) ∈ kept ((trace es text).drop e.stop) :=
          List.mem_filterMap.mpr ⟨p, hp, by rw [horigin]; rfl⟩
        rw [kept_drop_trace hes e.stop hclear] at hkept
        exact hin.1.trans (mem_drop_zipIdx (List.mem_filter.mp hkept).1)
      | placed start =>
        obtain ⟨a, ha, rfl⟩ := placed_mem (List.mem_of_mem_drop hp) horigin
        exact hstart a ha
    rw [trace_append]
    refine List.pairwise_append.mpr ⟨hsorted.sublist (List.take_sublist _ _),
      List.pairwise_append.mpr ⟨?_, hsorted.sublist (List.drop_sublist _ _), ?_⟩, ?_⟩
    · refine List.pairwise_iff_getElem.mpr fun i j hi hj hij => ?_
      rw [hplaced _ (List.getElem_mem hi), hplaced _ (List.getElem_mem hj)]
    · exact fun p hp q hq => (hplaced p hp).trans_le (hbehind q hq)
    · intro p hp q hq
      refine (hbefore p hp).trans ?_
      obtain hq | hq := List.mem_append.mp hq
      · exact (hplaced q hq).ge
      · exact hbehind q hq

end Trace

/-! ## Edits with one start -/

/-- Either order of two edits with one start gives the same: both keep the length, and one
replacement begins with the other. -/
def Interchangeable (a b : Edit α) : Prop :=
  a.Keeps ∧ b.Keeps ∧ (a.replacement <+: b.replacement ∨ b.replacement <+: a.replacement)

theorem Interchangeable.symm {a b : Edit α} (h : Interchangeable a b) : Interchangeable b a :=
  ⟨h.2.1, h.1, h.2.2.symm⟩

section Order

variable {text : List α} {a b : Edit α} {es es' : List (Edit α)}

theorem le_length_apply (h : a.start ≤ text.length) : a.start ≤ (a.apply text).length := by
  rw [Edit.apply, List.length_append, List.length_take, min_eq_left h]
  omega

/-- Of two edits with one start the longer decides, whichever comes first. -/
theorem apply_apply_of_prefix (hstart : a.start = b.start) (hin : a.start ≤ text.length)
    (ha : a.start ≤ a.stop) (hb : b.start ≤ b.stop) (hkeepsA : a.Keeps) (hkeepsB : b.Keeps)
    (hbegins : a.replacement <+: b.replacement) :
    b.apply (a.apply text) = b.apply text ∧ a.apply (b.apply text) = b.apply text := by
  obtain ⟨rest, hrest⟩ := hbegins
  have hlengths := congrArg List.length hrest
  rw [List.length_append, hkeepsA, hkeepsB] at hlengths
  have hpre : (text.take b.start).length = b.start := by
    rw [List.length_take]
    omega
  have htake : ∀ l : List α, (text.take b.start ++ l).take b.start = text.take b.start := by
    intro l
    conv_lhs => rw [List.take_append_of_le_length (le_of_eq hpre.symm)]
    rw [List.take_take, min_self]
  have hdrop : ∀ (l : List α) (n : Nat), b.start ≤ n →
      (text.take b.start ++ l).drop n = l.drop (n - b.start) := by
    intro l n hn
    rw [List.drop_append, List.drop_eq_nil_of_le (by omega), List.nil_append, hpre]
  unfold Edit.Keeps at hkeepsA hkeepsB
  constructor
  · rw [Edit.apply, Edit.apply, hstart, htake, hdrop _ _ hb, List.drop_append,
      List.drop_eq_nil_of_le (by omega), List.nil_append, List.drop_drop, Edit.apply]
    congr 3
    omega
  · rw [Edit.apply, Edit.apply, hstart, htake, hdrop _ _ (by omega), List.drop_append_of_le_length
      (by omega), ← hrest, List.drop_append_of_le_length (by omega),
      List.drop_eq_nil_of_le (by omega), List.nil_append, List.append_assoc]

theorem apply_comm (hstart : a.start = b.start) (hin : a.start ≤ text.length)
    (ha : a.start ≤ a.stop) (hb : b.start ≤ b.stop) (h : Interchangeable a b) :
    a.apply (b.apply text) = b.apply (a.apply text) := by
  obtain ⟨hkeepsA, hkeepsB, hbegins | hbegins⟩ := h
  · obtain ⟨hleft, hright⟩ := apply_apply_of_prefix hstart hin ha hb hkeepsA hkeepsB hbegins
    rw [hleft, hright]
  · obtain ⟨hleft, hright⟩ :=
      apply_apply_of_prefix hstart.symm (hstart ▸ hin) hb ha hkeepsB hkeepsA hbegins
    rw [hleft, hright]

/-- An edit can be applied before the others that have its start. -/
theorem applyAll_move (post : List (Edit α)) (hin : a.start ≤ text.length) (ha : a.start ≤ a.stop)
    (hpre : ∀ b ∈ es, a.start = b.start ∧ b.start ≤ b.stop ∧ Interchangeable a b) :
    applyAll (es ++ a :: post) text = applyAll (a :: (es ++ post)) text := by
  induction es generalizing text with
  | nil => rfl
  | cons b es ih =>
    obtain ⟨hstart, hb, hinter⟩ := hpre b List.mem_cons_self
    have hin' : a.start ≤ (b.apply text).length := by
      rw [hstart] at hin ⊢
      exact le_length_apply hin
    calc applyAll (es ++ a :: post) (b.apply text)
        = applyAll (es ++ post) (a.apply (b.apply text)) :=
          ih hin' fun c hc => hpre c (List.mem_cons_of_mem b hc)
      _ = applyAll (es ++ post) (b.apply (a.apply text)) := by
          rw [apply_comm hstart hin ha hb hinter]

/-- **The order of edits with one start does not matter**, when they are interchangeable. -/
theorem applyAll_perm (hperm : es.Perm es') (hfalling : es.Pairwise fun a b => b.start ≤ a.start)
    (hfalling' : es'.Pairwise fun a b => b.start ≤ a.start)
    (hin : ∀ e ∈ es, e.start ≤ text.length) (hspan : ∀ e ∈ es, e.start ≤ e.stop)
    (hinter : es.Pairwise fun a b => a.start = b.start → Interchangeable a b) :
    applyAll es text = applyAll es' text := by
  induction es generalizing es' text with
  | nil => rw [List.nil_perm.mp hperm]
  | cons a es ih =>
    obtain ⟨pre, post, rfl⟩ := List.append_of_mem (hperm.mem_iff.mp List.mem_cons_self)
    have hrest : es.Perm (pre ++ post) :=
      (List.perm_cons a).mp (hperm.trans List.perm_middle)
    rw [List.pairwise_cons] at hfalling hinter
    have hpre : ∀ b ∈ pre, a.start = b.start ∧ b.start ≤ b.stop ∧ Interchangeable a b := by
      intro b hb
      have hmem : b ∈ es := hrest.mem_iff.mpr (List.mem_append_left post hb)
      have hle : a.start ≤ b.start :=
        (List.pairwise_append.mp hfalling').2.2 b hb a List.mem_cons_self
      have hstart : a.start = b.start := le_antisymm hle (hfalling.1 b hmem)
      exact ⟨hstart, hspan b (List.mem_cons_of_mem a hmem), hinter.1 b hmem hstart⟩
    have ha := hin a List.mem_cons_self
    rw [applyAll_move post ha (hspan a List.mem_cons_self) hpre]
    refine ih hrest hfalling.2 ?_ (fun e he => ?_)
      (fun e he => hspan e (List.mem_cons_of_mem a he)) hinter.2
    · refine hfalling'.sublist ?_
      exact (List.Sublist.refl pre).append (List.sublist_cons_self a post)
    · exact (hfalling.1 e he).trans (le_length_apply ha)

end Order

end Edits
