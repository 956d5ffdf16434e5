import Mathlib.Data.List.Induction
import Mathlib.Tactic.Tauto

/-!
# Insertion-ordered dictionaries

A dictionary that remembers insertion order, as an association list: assigning
an existing key replaces its value in place, assigning a new key appends.
-/

universe u v

/-- An insertion-ordered dictionary. -/
abbrev Dict (κ : Type u) (β : Type v) : Type (max u v) := List (κ × β)

namespace Dict

variable {κ : Type u} {β : Type v} [DecidableEq κ]

/-- `d.get(k)`. -/
def get? (d : Dict κ β) (k : κ) : Option β :=
  (d.find? fun e => e.1 = k).map Prod.snd

/-- `d[k] = v`. -/
def set : Dict κ β → κ → β → Dict κ β
  | [], k, v => [(k, v)]
  | e :: d, k, v => if e.1 = k then (k, v) :: d else e :: set d k v

/-- `d.pop(k, None)`. -/
def erase (d : Dict κ β) (k : κ) : Dict κ β := d.filter fun e => e.1 ≠ k

/-- Assign every pair of `es` in order: `for k, v in es: d[k] = v`. -/
def setAll (d : Dict κ β) (es : List (κ × β)) : Dict κ β :=
  es.foldl (fun d e => d.set e.1 e.2) d

/-- `d.setdefault(k, []).extend(vs)`. -/
def extend {γ : Type v} (d : Dict κ (List γ)) (k : κ) (vs : List γ) : Dict κ (List γ) :=
  d.set k ((d.get? k).getD [] ++ vs)

/-- Extend by every pair of `es` in order, from the empty dictionary on. -/
def extendAll {γ : Type v} (es : List (κ × List γ)) : Dict κ (List γ) :=
  es.foldl (fun d e => d.extend e.1 e.2) []

/-- `list(dict.fromkeys(ks))`: without repetitions, in order of first occurrence. -/
def fromKeys (ks : List κ) : List κ :=
  (setAll [] (ks.map fun k => (k, ()))).map Prod.fst

/-- A value found in a dictionary is one of its entries. -/
theorem mem_of_get? {d : Dict κ β} {k : κ} {v : β} (h : d.get? k = some v) :
    (k, v) ∈ d := by
  obtain ⟨e, he, rfl⟩ := Option.map_eq_some_iff.mp h
  have hk : e.1 = k := by simpa using List.find?_some he
  exact hk ▸ List.mem_of_find?_eq_some he

/-- A key that is there is found. -/
theorem exists_get? {d : Dict κ β} {k : κ} (h : k ∈ d.map Prod.fst) : ∃ v, d.get? k = some v := by
  obtain ⟨e, he, rfl⟩ := List.mem_map.mp h
  have hfound : (d.find? fun x => decide (x.1 = e.1)).isSome = true :=
    List.find?_isSome.mpr ⟨e, he, by simp⟩
  obtain ⟨x, hx⟩ := Option.isSome_iff_exists.mp hfound
  exact ⟨x.2, by rw [get?, hx]; rfl⟩

theorem get?_eq_none {d : Dict κ β} {k : κ} (h : ∀ e ∈ d, e.1 ≠ k) : d.get? k = none := by
  unfold get?
  rw [List.find?_eq_none.mpr fun e he hk => h e he (of_decide_eq_true hk)]
  rfl

/-- An entry after an assignment is the assigned one or an earlier one. -/
theorem mem_set {d : Dict κ β} {k : κ} {v : β} {e : κ × β} (h : e ∈ d.set k v) :
    e = (k, v) ∨ e ∈ d := by
  induction d with
  | nil => exact .inl (List.mem_singleton.mp h)
  | cons e' d ih =>
    unfold set at h
    split at h
    · obtain h | h := List.mem_cons.mp h
      · exact .inl h
      · exact .inr (List.mem_cons_of_mem _ h)
    · obtain h | h := List.mem_cons.mp h
      · exact .inr (h ▸ List.mem_cons_self)
      · obtain h | h := ih h
        · exact .inl h
        · exact .inr (List.mem_cons_of_mem _ h)

/-- An entry after a sequence of assignments is an assigned or an earlier one. -/
theorem mem_setAll {d : Dict κ β} {es : List (κ × β)} {e : κ × β}
    (h : e ∈ d.setAll es) : e ∈ es ∨ e ∈ d := by
  induction es generalizing d with
  | nil => exact .inr h
  | cons a es ih =>
    obtain h | h := ih h
    · exact .inl (List.mem_cons_of_mem _ h)
    · obtain rfl | h := mem_set h
      · exact .inl List.mem_cons_self
      · exact .inr h

theorem get?_set (d : Dict κ β) (k : κ) (v : β) (k' : κ) :
    (d.set k v).get? k' = if k' = k then some v else d.get? k' := by
  induction d with
  | nil =>
    by_cases hk : k' = k
    · simp [set, get?, hk]
    · simp [set, get?, hk, Ne.symm hk]
  | cons e d ih =>
    unfold get? at ih ⊢
    unfold set
    by_cases he : e.1 = k
    · rw [if_pos he, List.find?_cons, List.find?_cons]
      by_cases hk : k' = k
      · simp [hk]
      · simp [he, hk, Ne.symm hk]
    · rw [if_neg he, List.find?_cons, List.find?_cons]
      by_cases hk : e.1 = k'
      · have hne : k' ≠ k := fun heq => he (hk.trans heq)
        simp [hk, hne]
      · simp only [hk, decide_false]
        exact ih

/-- A new key comes last. -/
theorem set_of_get?_none {d : Dict κ β} {k : κ} (h : d.get? k = none) (v : β) :
    d.set k v = d ++ [(k, v)] := by
  induction d with
  | nil => rfl
  | cons e d ih =>
    unfold get? at h ih
    rw [List.find?_cons] at h
    by_cases he : e.1 = k
    · rw [decide_eq_true he] at h
      cases h
    · rw [decide_eq_false he] at h
      rw [set, if_neg he, ih h]
      rfl

/-- Of several assignments to a key the last one counts. -/
theorem get?_setAll (d : Dict κ β) (es : List (κ × β)) (k : κ) :
    (d.setAll es).get? k =
      ((es.reverse.find? fun e => e.1 = k).map Prod.snd).or (d.get? k) := by
  induction es generalizing d with
  | nil => rfl
  | cons e es ih =>
    show (setAll (d.set e.1 e.2) es).get? k = _
    rw [ih, List.reverse_cons, List.find?_append, get?_set]
    cases hlater : es.reverse.find? fun e => e.1 = k with
    | some e' => rfl
    | none =>
      by_cases hk : k = e.1
      · simp [hk]
      · simp [hk, Ne.symm hk]

/-- Assignments to other keys change nothing. -/
theorem get?_setAll_of_ne {d : Dict κ β} {es : List (κ × β)} {k : κ} (h : ∀ e ∈ es, e.1 ≠ k) :
    (d.setAll es).get? k = d.get? k := by
  rw [get?_setAll, List.find?_eq_none.mpr, Option.map_none, Option.none_or]
  intro e he hk
  exact h e (List.mem_reverse.mp he) (of_decide_eq_true hk)

/-- Where all the assignments to a key are of one value, it has this value. -/
theorem get?_setAll_of_mem {d : Dict κ β} {es : List (κ × β)} {k : κ} {v : β} (h : (k, v) ∈ es)
    (hsame : ∀ e ∈ es, e.1 = k → e.2 = v) : (d.setAll es).get? k = some v := by
  rw [get?_setAll]
  have hfound : (es.reverse.find? fun e => decide (e.1 = k)).isSome = true :=
    List.find?_isSome.mpr ⟨(k, v), List.mem_reverse.mpr h, decide_eq_true rfl⟩
  obtain ⟨e, he⟩ := Option.isSome_iff_exists.mp hfound
  have hkey : e.1 = k := by simpa using List.find?_some he
  rw [he, Option.map_some, Option.some_or,
    hsame e (List.mem_reverse.mp (List.mem_of_find?_eq_some he)) hkey]

theorem get?_erase_of_ne (d : Dict κ β) {k k' : κ} (h : k' ≠ k) :
    (d.erase k).get? k' = d.get? k' := by
  unfold get? erase
  rw [List.find?_filter]
  congr 2
  funext e
  by_cases he : e.1 = k'
  · simp [he, h]
  · simp [he]

theorem map_fst_set (d : Dict κ β) (k : κ) (v : β) :
    (d.set k v).map Prod.fst =
      if k ∈ d.map Prod.fst then d.map Prod.fst else d.map Prod.fst ++ [k] := by
  induction d with
  | nil => rfl
  | cons e d ih =>
    unfold set
    by_cases he : e.1 = k
    · subst he
      simp
    · rw [if_neg he, List.map_cons, ih]
      have hiff : (k ∈ (e :: d).map Prod.fst) = (k ∈ d.map Prod.fst) := by
        simp [Ne.symm he]
      simp only [hiff]
      split <;> rfl

/-- The keys after an assignment stay distinct. -/
theorem nodup_set {d : Dict κ β} (k : κ) (v : β) (hd : (d.map Prod.fst).Nodup) :
    ((d.set k v).map Prod.fst).Nodup := by
  rw [map_fst_set]
  split
  · exact hd
  · rename_i hnew
    refine List.nodup_append.mpr ⟨hd, by simp, fun a ha b hb => ?_⟩
    rw [List.mem_singleton] at hb
    rintro rfl
    exact hnew (hb ▸ ha)

/-- The keys after a sequence of assignments stay distinct. -/
theorem nodup_setAll {d : Dict κ β} (es : List (κ × β)) (hd : (d.map Prod.fst).Nodup) :
    ((d.setAll es).map Prod.fst).Nodup := by
  induction es generalizing d with
  | nil => exact hd
  | cons e es ih => exact ih (nodup_set e.1 e.2 hd)

theorem nodup_fromKeys (ks : List κ) : (fromKeys ks).Nodup :=
  nodup_setAll _ List.nodup_nil

theorem mem_map_fst_set {d : Dict κ β} {k k' : κ} {v : β} :
    k' ∈ (d.set k v).map Prod.fst ↔ k' = k ∨ k' ∈ d.map Prod.fst := by
  rw [map_fst_set]
  split
  · rename_i hold
    exact ⟨.inr, fun h => h.elim (fun h => h ▸ hold) id⟩
  · rw [List.mem_append, List.mem_singleton, or_comm]

/-- Every assigned key is there afterwards. -/
theorem mem_map_fst_setAll {d : Dict κ β} {es : List (κ × β)} {k : κ} :
    k ∈ (d.setAll es).map Prod.fst ↔ k ∈ es.map Prod.fst ∨ k ∈ d.map Prod.fst := by
  induction es generalizing d with
  | nil => exact ⟨.inr, fun h => h.resolve_left List.not_mem_nil⟩
  | cons e es ih =>
    show k ∈ ((d.set e.1 e.2).setAll es).map Prod.fst ↔ _
    rw [ih, mem_map_fst_set, List.map_cons, List.mem_cons]
    tauto

section Map

variable {γ : Type v} (f : κ → β → γ)

theorem map_set (d : Dict κ β) (k : κ) (v : β) :
    (d.set k v).map (fun e => (e.1, f e.1 e.2)) =
      set (d.map fun e => (e.1, f e.1 e.2)) k (f k v) := by
  induction d with
  | nil => rfl
  | cons e d ih =>
    rw [List.map_cons, set, set]
    by_cases he : e.1 = k
    · subst he
      simp
    · rw [if_neg he, if_neg he, List.map_cons, ih]

/-- Assigning mapped values maps the dictionary. -/
theorem map_setAll (d : Dict κ β) (es : List (κ × β)) :
    (d.setAll es).map (fun e => (e.1, f e.1 e.2)) =
      setAll (d.map fun e => (e.1, f e.1 e.2)) (es.map fun e => (e.1, f e.1 e.2)) := by
  induction es generalizing d with
  | nil => rfl
  | cons e es ih =>
    show ((d.set e.1 e.2).setAll es).map _ = _
    rw [ih, map_set]
    rfl

end Map

/-- Mapping the values keeps the keys. -/
theorem get?_map_snd {γ : Type v} (f : β → γ) (d : Dict κ β) (k : κ) :
    get? (d.map fun e => (e.1, f e.2)) k = (d.get? k).map f := by
  unfold get?
  rw [List.find?_map, Option.map_map, Option.map_map]
  rfl

/-- With distinct keys every entry is found. -/
theorem get?_of_mem {d : Dict κ β} (hd : (d.map Prod.fst).Nodup) {e : κ × β} (he : e ∈ d) :
    d.get? e.1 = some e.2 := by
  induction d with
  | nil => exact absurd he List.not_mem_nil
  | cons a d ih =>
    rw [List.map_cons, List.nodup_cons] at hd
    unfold get?
    rw [List.find?_cons]
    obtain rfl | he := List.mem_cons.mp he
    · simp
    · have hne : a.1 ≠ e.1 := fun heq => hd.1 (heq ▸ List.mem_map_of_mem he)
      simp only [hne, decide_false]
      exact ih hd.2 he

section Extend

variable {γ : Type v}

theorem extendAll_concat (es : List (κ × List γ)) (e : κ × List γ) :
    extendAll (es ++ [e]) = (extendAll es).extend e.1 e.2 := by
  unfold extendAll
  rw [List.foldl_append]
  rfl

theorem nodup_extendAll (es : List (κ × List γ)) : ((extendAll es).map Prod.fst).Nodup := by
  induction es using List.reverseRecOn with
  | nil => exact List.nodup_nil
  | append_singleton es e ih =>
    rw [extendAll_concat]
    exact nodup_set _ _ ih

theorem mem_map_fst_extendAll {es : List (κ × List γ)} {k : κ} :
    k ∈ (extendAll es).map Prod.fst ↔ k ∈ es.map Prod.fst := by
  induction es using List.reverseRecOn with
  | nil => exact Iff.rfl
  | append_singleton es e ih =>
    rw [extendAll_concat, extend, mem_map_fst_set, ih, List.map_append, List.mem_append, or_comm]
    exact or_congr_right List.mem_singleton.symm

/-- A key has the values of its pairs, one after the other. -/
theorem get?_extendAll (es : List (κ × List γ)) (k : κ) :
    ((extendAll es).get? k).getD [] = (es.filter fun e => e.1 = k).flatMap Prod.snd := by
  induction es using List.reverseRecOn with
  | nil => rfl
  | append_singleton es e ih =>
    rw [extendAll_concat, extend, get?_set, List.filter_append, List.flatMap_append, ← ih]
    by_cases hk : k = e.1
    · subst hk
      simp
    · simp [hk, Ne.symm hk]

theorem mem_extendAll {es : List (κ × List γ)} {k : κ} {vs : List γ}
    (h : (k, vs) ∈ extendAll es) : vs = (es.filter fun e => e.1 = k).flatMap Prod.snd := by
  rw [← get?_extendAll, get?_of_mem (nodup_extendAll es) h]
  rfl

/-- Each value of a key comes from one of its pairs. -/
theorem exists_of_mem_extendAll {es : List (κ × List γ)} {k : κ} {vs : List γ} {v : γ}
    (h : (k, vs) ∈ extendAll es) (hv : v ∈ vs) : ∃ ws, (k, ws) ∈ es ∧ v ∈ ws := by
  rw [mem_extendAll h] at hv
  obtain ⟨e, he, hv⟩ := List.mem_flatMap.mp hv
  obtain ⟨hmem, hk⟩ := List.mem_filter.mp he
  exact ⟨e.2, of_decide_eq_true hk ▸ hmem, hv⟩

/-- The values of a pair are among those of its key. -/
theorem exists_mem_extendAll {es : List (κ × List γ)} {k : κ} {ws : List γ}
    (h : (k, ws) ∈ es) : ∃ vs, (k, vs) ∈ extendAll es ∧ ws ⊆ vs := by
  obtain ⟨e, he, hk⟩ :=
    List.mem_map.mp (mem_map_fst_extendAll.mpr (List.mem_map_of_mem h))
  obtain ⟨k', vs⟩ := e
  obtain rfl : k' = k := hk
  refine ⟨vs, he, fun w hw => ?_⟩
  rw [mem_extendAll he]
  exact List.mem_flatMap.mpr ⟨_, List.mem_filter.mpr ⟨h, decide_eq_true rfl⟩, hw⟩

end Extend

end Dict
