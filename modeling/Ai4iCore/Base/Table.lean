import Mathlib.Data.List.Basic

/-!
# Tables with a primary key

The rows of a table in insertion order, with a column `key` that identifies a row.
`get` and `modify` are the `SELECT` and the `UPDATE` of one row by its key, `upsert` is
`INSERT … ON CONFLICT DO UPDATE`; the lemmas say how they compose.
-/

namespace Table

universe u v w

variable {α : Type u} {κ : Type v} [DecidableEq κ] (key : α → κ)

/-- The row with the key `k`. -/
def get (rows : List α) (k : κ) : Option α := rows.find? fun r => key r = k

/-- Apply `f` to the row with the key `k`. -/
def modify (rows : List α) (k : κ) (f : α → α) : List α :=
  rows.map fun r => if key r = k then f r else r

/-- Apply `f` to the row with the key `k`, or insert `new` when there is none. -/
def upsert (rows : List α) (k : κ) (f : α → α) (new : α) : List α :=
  match get key rows k with
  | some _ => modify key rows k f
  | none => rows ++ [new]

variable {key} {rows : List α} {k k' : κ} {r : α} {f : α → α}

theorem key_of_get (h : get key rows k = some r) : key r = k := by
  simpa using List.find?_some h

theorem mem_of_get (h : get key rows k = some r) : r ∈ rows := List.mem_of_find?_eq_some h

/-- An `UPDATE` of all rows that keeps the keys. -/
theorem get_map (hf : ∀ r, key (f r) = key r) :
    get key (rows.map f) k = (get key rows k).map f := by
  unfold get
  rw [List.find?_map]
  refine congrArg (Option.map f) (congrArg (List.find? · rows) (funext fun r => ?_))
  show decide (key (f r) = k) = decide (key r = k)
  rw [hf]

/-- An `UPDATE` that keeps the key changes its own row and no other. -/
theorem get_modify (hf : ∀ r, key (f r) = key r) :
    get key (modify key rows k f) k' =
      (get key rows k').map fun r => if k' = k then f r else r := by
  have hkey : ∀ r, key (if key r = k then f r else r) = key r := by
    intro r
    split
    · exact hf r
    · rfl
  rw [modify, get_map hkey]
  cases hr : get key rows k' with
  | none => rfl
  | some r =>
    show some (if key r = k then f r else r) = some (if k' = k then f r else r)
    rw [key_of_get hr]

theorem get_modify_of_ne (hf : ∀ r, key (f r) = key r) (hne : k' ≠ k) :
    get key (modify key rows k f) k' = get key rows k' := by
  rw [get_modify hf]
  simp [hne]

/-- An `INSERT` under a fresh key. -/
theorem get_append_singleton (hfresh : get key rows (key r) = none) :
    get key (rows ++ [r]) k = if key r = k then some r else get key rows k := by
  unfold get at hfresh ⊢
  rw [List.find?_append]
  split
  · rename_i hr
    subst hr
    rw [hfresh]
    simp
  · rename_i hr
    simp [hr]

/-- A row that is found stays found after an `INSERT`. -/
theorem get_append_of_some (h : get key rows k = some r) (new : List α) :
    get key (rows ++ new) k = some r := by
  unfold get at h ⊢
  rw [List.find?_append, h]
  rfl

/-- With unique keys, a row is found under its key. -/
theorem get_of_mem (hkeys : (rows.map key).Nodup) (hr : r ∈ rows) :
    get key rows (key r) = some r := by
  induction rows with
  | nil => exact absurd hr List.not_mem_nil
  | cons r' rows ih =>
    rw [List.map_cons, List.nodup_cons] at hkeys
    rw [get, List.find?_cons]
    obtain rfl | hr := List.mem_cons.mp hr
    · simp
    · have hne : key r' ≠ key r := fun heq => hkeys.1 (heq ▸ List.mem_map_of_mem hr)
      simp only [hne, decide_false]
      exact ih hkeys.2 hr

theorem map_key_modify (hf : ∀ r, key r = k → key (f r) = k) :
    (modify key rows k f).map key = rows.map key := by
  rw [modify, List.map_map]
  refine List.map_congr_left fun r _ => ?_
  show key (if key r = k then f r else r) = key r
  split
  · rename_i hr
    exact (hf r hr).trans hr.symm
  · rfl

omit [DecidableEq κ] in
/-- A row under a new key keeps the keys unique. -/
theorem nodup_append_of_not_mem (hkeys : (rows.map key).Nodup) (hnew : key r ∉ rows.map key) :
    ((rows ++ [r]).map key).Nodup := by
  rw [List.map_append, List.map_cons, List.map_nil]
  refine List.nodup_append.mpr ⟨hkeys, by simp, fun a ha c hc => ?_⟩
  rw [List.mem_singleton] at hc
  rintro rfl
  exact hnew (hc ▸ ha)

/-- A fresh row keeps the keys unique. -/
theorem nodup_append_singleton (hkeys : (rows.map key).Nodup)
    (hfresh : get key rows (key r) = none) : ((rows ++ [r]).map key).Nodup := by
  refine nodup_append_of_not_mem hkeys fun hmem => ?_
  obtain ⟨r', hr', heq⟩ := List.mem_map.mp hmem
  have hfound := get_of_mem hkeys hr'
  rw [heq, hfresh] at hfound
  cases hfound

theorem mem_modify {new : α} (h : r ∈ modify key rows k fun _ => new) :
    r = new ∨ (r ∈ rows ∧ key r ≠ k) := by
  obtain ⟨old, hold, rfl⟩ := List.mem_map.mp h
  split
  · exact .inl rfl
  · rename_i hk
    exact .inr ⟨hold, hk⟩

/-- Another unique column stays unique when no other row has the new value. -/
theorem nodup_map_modify {β : Type w} {col : α → β} {new : α} (hkeys : (rows.map key).Nodup)
    (hcol : (rows.map col).Nodup) (hnew : ∀ r ∈ rows, key r ≠ k → col r ≠ col new) :
    ((modify key rows k fun _ => new).map col).Nodup := by
  induction rows with
  | nil => exact List.nodup_nil
  | cons r rows ih =>
    rw [List.map_cons, List.nodup_cons] at hkeys hcol
    have htail := ih hkeys.2 hcol.2 fun r hr => hnew r (List.mem_cons_of_mem _ hr)
    rw [modify, List.map_cons, ← modify, List.map_cons, List.nodup_cons]
    refine ⟨fun hmem => ?_, htail⟩
    obtain ⟨r', hr', heq⟩ := List.mem_map.mp hmem
    by_cases hk : key r = k
    · rw [if_pos hk] at heq
      have hall : ∀ r' ∈ rows, key r' ≠ k := fun r' hr' heq =>
        hkeys.1 (List.mem_map.mpr ⟨r', hr', heq.trans hk.symm⟩)
      obtain ⟨old, hold, rfl⟩ := List.mem_map.mp hr'
      rw [if_neg (hall old hold)] at heq
      exact hnew old (List.mem_cons_of_mem _ hold) (hall old hold) heq
    · rw [if_neg hk] at heq
      rcases mem_modify hr' with rfl | ⟨hr', -⟩
      · exact hnew r List.mem_cons_self hk heq.symm
      · exact hcol.1 (List.mem_map.mpr ⟨r', hr', heq⟩)

/-- What is in the table after an `upsert`. -/
theorem mem_upsert {new : α} (h : r ∈ upsert key rows k f new) :
    (∃ old ∈ rows, key old = k ∧ r = f old) ∨ r = new ∨ (r ∈ rows ∧ key r ≠ k) := by
  unfold upsert at h
  split at h
  · obtain ⟨old, hold, rfl⟩ := List.mem_map.mp h
    split
    · rename_i hk
      exact .inl ⟨old, hold, hk, rfl⟩
    · rename_i hk
      exact .inr (.inr ⟨hold, hk⟩)
  · rename_i hnone
    obtain hold | hnew := List.mem_append.mp h
    · refine .inr (.inr ⟨hold, fun hk => ?_⟩)
      exact absurd (List.find?_eq_none.mp hnone r hold) (by simp [hk])
    · exact .inr (.inl (List.mem_singleton.mp hnew))

/-- An `upsert` leaves the keys that were there, and its own. -/
theorem mem_map_key_upsert {new : α} (hf : ∀ r, key (f r) = key r) (hnew : key new = k) :
    k' ∈ (upsert key rows k f new).map key ↔ k' ∈ rows.map key ∨ k' = k := by
  unfold upsert
  split
  · rename_i old hold
    rw [map_key_modify fun r hr => (hf r).trans hr]
    refine ⟨.inl, fun h => h.elim id fun hk => ?_⟩
    exact List.mem_map.mpr ⟨old, mem_of_get hold, (key_of_get hold).trans hk.symm⟩
  · rw [List.map_append, List.mem_append, List.map_singleton, List.mem_singleton, hnew]

theorem nodup_upsert {new : α} (hkeys : (rows.map key).Nodup) (hf : ∀ r, key (f r) = key r)
    (hnew : key new = k) : ((upsert key rows k f new).map key).Nodup := by
  unfold upsert
  split
  · rw [map_key_modify fun r hr => (hf r).trans hr]
    exact hkeys
  · rename_i hnone
    exact nodup_append_singleton hkeys (hnew ▸ hnone)

/-- An `upsert` is not seen by a condition that no row with its key meets. -/
theorem filter_upsert {new : α} {p : α → Bool} (hf : ∀ r, key (f r) = key r) (hnew : key new = k)
    (hp : ∀ r, key r = k → p r = false) :
    (upsert key rows k f new).filter p = rows.filter p := by
  unfold upsert
  split
  · clear * - hf hp
    induction rows with
    | nil => rfl
    | cons r rows ih =>
      rw [modify, List.map_cons, ← modify, List.filter_cons, List.filter_cons, ih]
      by_cases hk : key r = k
      · simp [hk, hp (f r) ((hf r).trans hk), hp r hk]
      · rw [if_neg hk]
  · rw [List.filter_append, List.filter_singleton, hp new hnew]
    simp

end Table
