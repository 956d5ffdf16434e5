import Ai4iCore.Allocation.Validator

/-!
# What `resolve_level` accepts

The requirements on a resolution, stated about the children and the entries that are asked for,
in no order and without the loop: `Accepts`. `resolve_level` accepts exactly what meets them, and
answers with one row for each child that is asked for (`resolveLevel_ok_iff`). Of several entries
for one child the last one counts.
-/

namespace Ai4iCore.Allocation

open Checked Rounding

/-! ## The requirements -/

/-- The entry that counts for an id. -/
def entryOf (explicit : List ExplicitInput) (id : Nat) : Option ExplicitInput :=
  explicit.reverse.find? fun e => e.id = id

/-- The amount and the percentage that an entry asks for. -/
def requested (parent : ℚ) (e : ExplicitInput) : ℚ × ℚ := ((convert e parent).toOption).getD (0, 0)

/-- What is asked for a child. -/
def asked (parent : ℚ) (explicit : List ExplicitInput) (c : AllocationRow) : Option (ℚ × ℚ) :=
  (entryOf explicit c.id).map (requested parent)

structure Accepts (parent : ℚ) (children : List AllocationRow) (explicit : List ExplicitInput) :
    Prop where
  known : ∀ e ∈ explicit, ∃ c ∈ children, c.id = e.id
  oneValue : ∀ c ∈ children, ∀ e, entryOf explicit c.id = some e →
    (e.percentage.isSome ↔ e.amount = none)
  consumed : (children.map (·.consumedAmount)).sum ≤ parent
  floor : ∀ c ∈ children, ∀ a, asked parent explicit c = some a → a.1 ≠ c.allocatedAmount →
    c.consumedAmount ≤ a.1
  explicitTotal : ((children.filterMap (asked parent explicit)).map Prod.fst).sum ≤ parent
  total : (children.map fun c => (asked parent explicit c).elim c.allocatedAmount Prod.fst).sum ≤
    parent + 1 / 100 * children.length

/-- The row of a child that is asked for. -/
def resolvedRow (parent : ℚ) (explicit : List ExplicitInput) (c : AllocationRow) :
    Option ResolvedRow :=
  (asked parent explicit c).map fun a => ⟨c.id, a.1, a.2, a.1 ≠ c.allocatedAmount⟩

/-! ## One entry -/

/-- An entry with one value is converted. -/
theorem convert_eq_ok_iff {e : ExplicitInput} {parent : ℚ} {a : ℚ × ℚ} :
    convert e parent = .ok a ↔
      (e.percentage.isSome ↔ e.amount = none) ∧ a = requested parent e := by
  obtain ⟨id, percentage, amount⟩ := e
  cases percentage <;> cases amount <;>
    simp [requested, convert, Except.toOption, eq_comm]

theorem resolveRow_ok_iff {parent : ℚ} {c : AllocationRow} {e : ExplicitInput} {r : ResolvedRow} :
    resolveRow parent c e = .ok r ↔ (e.percentage.isSome ↔ e.amount = none) ∧
      ((requested parent e).1 ≠ c.allocatedAmount → c.consumedAmount ≤ (requested parent e).1) ∧
      r = ⟨c.id, (requested parent e).1, (requested parent e).2,
        (requested parent e).1 ≠ c.allocatedAmount⟩ := by
  unfold resolveRow
  constructor
  · intro h
    obtain ⟨⟨amount, percentage⟩, hconvert, h⟩ := bind_ok h
    obtain ⟨hfloor, h⟩ := require_bind h
    obtain ⟨hone, ha⟩ := convert_eq_ok_iff.mp hconvert
    refine ⟨hone, ?_, ?_⟩
    · rw [← ha]
      intro hne
      simpa [hne] using hfloor
    · rw [← ha]
      exact (Except.ok.inj h).symm
  · rintro ⟨hone, hfloor, rfl⟩
    have hconvert : convert e parent = .ok (requested parent e) :=
      convert_eq_ok_iff.mpr ⟨hone, rfl⟩
    generalize requested parent e = a at hfloor hconvert ⊢
    rw [hconvert]
    show require _ _ >>= _ = _
    rw [require, if_pos]
    · rfl
    · simpa [imp_iff_not_or, or_comm] using hfloor

theorem explicitById_get? (explicit : List ExplicitInput) (id : Nat) :
    (explicitById explicit).get? id = entryOf explicit id := by
  unfold explicitById entryOf
  rw [Dict.get?_setAll, ← List.map_reverse, List.find?_map, Option.map_map]
  show (Option.map (fun e => e) _).or none = _
  rw [Option.or_none, Option.map_id']
  rfl

/-- The dictionary of the entries holds those that count. -/
theorem mem_explicitById {explicit : List ExplicitInput} {id : Nat} {e : ExplicitInput} :
    (id, e) ∈ explicitById explicit ↔ entryOf explicit id = some e := by
  rw [← explicitById_get?]
  constructor
  · intro h
    exact Dict.get?_of_mem (explicitById_nodup explicit) h
  · exact Dict.mem_of_get?

/-! ## All entries -/

section Rows

variable {parent : ℚ} {children : List AllocationRow} {explicit : List ExplicitInput}
  {rows : List ResolvedRow}

theorem resolveEntry_ok_iff (hchildren : (children.map (·.id)).Nodup) {c : AllocationRow}
    (hc : c ∈ children) {e : ExplicitInput} {r : ResolvedRow} :
    resolveEntry parent children (c.id, e) = .ok r ↔ resolveRow parent c e = .ok r := by
  have hfind : (children.find? fun c' => c'.id = c.id) = some c := by
    cases hfind : children.find? fun c' => decide (c'.id = c.id) with
    | none => exact absurd (List.find?_eq_none.mp hfind c hc) (by simp)
    | some c' =>
      have hid : c'.id = c.id := by simpa using List.find?_some hfind
      rw [List.inj_on_of_nodup_map hchildren (List.mem_of_find?_eq_some hfind) hc hid]
  unfold resolveEntry
  rw [hfind]
  rfl

/-- The entry of a child passes the checks of its row. -/
theorem exists_resolveRow (hchildren : (children.map (·.id)).Nodup)
    (hrows : (explicitById explicit).mapM (resolveEntry parent children) = .ok rows)
    {c : AllocationRow} (hc : c ∈ children) {e : ExplicitInput}
    (hentry : entryOf explicit c.id = some e) : ∃ r ∈ rows, resolveRow parent c e = .ok r := by
  obtain ⟨r, hr, hrow⟩ := exists_of_forall₂ (mapM_ok_iff.mp hrows) (mem_explicitById.mpr hentry)
  exact ⟨r, hr, (resolveEntry_ok_iff hchildren hc).mp hrow⟩

theorem ids_of_mapM (hrows : (explicitById explicit).mapM (resolveEntry parent children) = .ok rows) :
    rows.map (·.id) = (explicitById explicit).map Prod.fst :=
  mapM_ok_map (fun _ _ hx => (resolveEntry_ok hx).1) hrows

theorem asked_eq_none_iff {c : AllocationRow} :
    asked parent explicit c = none ↔ c.id ∉ (explicitById explicit).map Prod.fst := by
  rw [asked, Option.map_eq_none_iff, ← explicitById_get?]
  constructor
  · intro hnone hmem
    obtain ⟨e, he⟩ := Dict.exists_get? hmem
    rw [hnone] at he
    cases he
  · intro hmem
    exact Dict.get?_eq_none fun x hx hid => hmem (hid ▸ List.mem_map_of_mem hx)

/-- The loop makes the row of every child. -/
theorem rowOf_resolved (hchildren : (children.map (·.id)).Nodup)
    (hrows : (explicitById explicit).mapM (resolveEntry parent children) = .ok rows)
    {c : AllocationRow} (hc : c ∈ children) :
    rowOf rows c = resolvedRow parent explicit c := by
  unfold resolvedRow
  cases hasked : asked parent explicit c with
  | none =>
    refine List.find?_eq_none.mpr fun r hr hid => asked_eq_none_iff.mp hasked ?_
    rw [← ids_of_mapM hrows, ← of_decide_eq_true hid]
    exact List.mem_map_of_mem hr
  | some a =>
    obtain ⟨e, hentry, rfl⟩ := Option.map_eq_some_iff.mp hasked
    obtain ⟨r, hr, hrow⟩ := exists_resolveRow hchildren hrows hc hentry
    obtain ⟨-, -, rfl⟩ := resolveRow_ok_iff.mp hrow
    exact rowOf_of_mem (ids_of_mapM hrows ▸ explicitById_nodup explicit) hr rfl

/-- What the loop adds up, and what the children add up to then. -/
theorem sum_resolved (hchildren : (children.map (·.id)).Nodup)
    (hrows : (explicitById explicit).mapM (resolveEntry parent children) = .ok rows) :
    (rows.map (·.amount)).sum = ((children.filterMap (asked parent explicit)).map Prod.fst).sum ∧
    (rows.map (·.amount)).sum + ((children.filter fun c => !(explicitById explicit).any fun e =>
        e.1 = c.id).map (·.allocatedAmount)).sum =
      (children.map fun c => (asked parent explicit c).elim c.allocatedAmount Prod.fst).sum := by
  have hknown : ∀ r ∈ rows, ∃ c ∈ children, c.id = r.id := by
    intro r hr
    obtain ⟨c, hc, hid, -⟩ := (mapM_resolveEntry hrows r hr).child
    exact ⟨c, hc, hid⟩
  have hperm := perm_filterMap hchildren (ids_of_mapM hrows ▸ explicitById_nodup explicit) hknown
  have hsum : (rows.map (·.amount)).sum =
      ((children.filterMap (asked parent explicit)).map Prod.fst).sum := by
    rw [← (hperm.map (·.amount)).sum_eq, List.filterMap_congr fun c hc =>
      rowOf_resolved hchildren hrows hc, List.map_filterMap, List.map_filterMap]
    congr 1
    refine List.filterMap_congr fun c _ => ?_
    rw [resolvedRow, Option.map_map]
    rfl
  have hunlisted : (children.filter fun c => !(explicitById explicit).any fun e => e.1 = c.id) =
      children.filter fun c => (asked parent explicit c).isNone := by
    refine List.filter_congr fun c _ => ?_
    rw [Bool.eq_iff_iff, Option.isNone_iff_eq_none, asked_eq_none_iff, Bool.not_eq_true',
      ← Bool.not_eq_true, List.any_eq_true, List.mem_map]
    simp only [decide_eq_true_eq]
  refine ⟨hsum, ?_⟩
  rw [hsum, hunlisted]
  exact (sum_map_replace (asked parent explicit) Prod.fst (·.allocatedAmount) children).symm

/-- **What is accepted.** -/
theorem resolveLevel_ok_iff (hchildren : (children.map (·.id)).Nodup)
    {resolved : List ResolvedRow} :
    resolveLevel parent children explicit = .ok resolved ↔
      Accepts parent children explicit ∧
        resolved = children.filterMap (resolvedRow parent explicit) := by
  unfold resolveLevel
  constructor
  · intro hok
    obtain ⟨hknown, hok⟩ := require_bind hok
    obtain ⟨hconsumed, hok⟩ := require_bind hok
    obtain ⟨rows, hrows, hok⟩ := bind_ok hok
    obtain ⟨hexplicit, hok⟩ := require_bind hok
    obtain ⟨htotal, hresolved⟩ := require_bind hok
    obtain ⟨hsum, hsum'⟩ := sum_resolved hchildren hrows
    obtain rfl := Except.ok.inj hresolved
    refine ⟨⟨?_, ?_, ?_, ?_, ?_, ?_⟩, ?_⟩
    · intro e he
      have hkey : e.id ∈ (explicitById explicit).map Prod.fst :=
        Dict.mem_map_fst_setAll.mpr (.inl (by
          rw [List.map_map]
          exact List.mem_map_of_mem he))
      obtain ⟨x, hx, hid⟩ := List.mem_map.mp hkey
      obtain ⟨c, hc, hcid⟩ := List.any_eq_true.mp (List.all_eq_true.mp hknown x hx)
      exact ⟨c, hc, (of_decide_eq_true hcid).trans hid⟩
    · intro c hc e hentry
      obtain ⟨r, -, hrow⟩ := exists_resolveRow hchildren hrows hc hentry
      exact (resolveRow_ok_iff.mp hrow).1
    · exact of_decide_eq_true hconsumed
    · intro c hc a hasked
      obtain ⟨e, hentry, rfl⟩ := Option.map_eq_some_iff.mp hasked
      obtain ⟨r, -, hrow⟩ := exists_resolveRow hchildren hrows hc hentry
      exact (resolveRow_ok_iff.mp hrow).2.1
    · exact hsum ▸ of_decide_eq_true hexplicit
    · exact hsum' ▸ of_decide_eq_true htotal
    · exact List.filterMap_congr fun c hc => rowOf_resolved hchildren hrows hc
  · rintro ⟨h, rfl⟩
    obtain ⟨rows, hrows⟩ : ∃ rows,
        (explicitById explicit).mapM (resolveEntry parent children) = .ok rows := by
      refine exists_mapM_ok fun x hx => ?_
      obtain ⟨id, e⟩ := x
      obtain ⟨hmem, hid⟩ := explicitById_entry hx
      obtain ⟨c, hc, hcid⟩ := h.known e hmem
      obtain rfl : c.id = id := hcid.trans hid
      have hentry := mem_explicitById.mp hx
      exact ⟨_, (resolveEntry_ok_iff hchildren hc).mpr (resolveRow_ok_iff.mpr
        ⟨h.oneValue c hc e hentry, h.floor c hc _ (by rw [asked, hentry]; rfl), rfl⟩)⟩
    obtain ⟨hsum, hsum'⟩ := sum_resolved hchildren hrows
    refine require_bind_iff.mpr ⟨?_, require_bind_iff.mpr ⟨decide_eq_true h.consumed,
      bind_ok_iff.mpr ⟨rows, hrows, require_bind_iff.mpr ⟨?_, require_bind_iff.mpr ⟨?_, ?_⟩⟩⟩⟩⟩
    · refine List.all_eq_true.mpr fun x hx => ?_
      obtain ⟨hmem, hid⟩ := explicitById_entry hx
      obtain ⟨c, hc, hcid⟩ := h.known x.2 hmem
      exact List.any_eq_true.mpr ⟨c, hc, decide_eq_true (hcid.trans hid)⟩
    · exact decide_eq_true (hsum ▸ h.explicitTotal)
    · exact decide_eq_true (hsum' ▸ h.total)
    · exact congrArg Except.ok (List.filterMap_congr fun c hc =>
        rowOf_resolved hchildren hrows hc)

end Rows

/-- Half of a hundred rupees for one child, the other keeps what it has. -/
theorem resolveLevel_ok_iff_half :
    resolveLevel 100 [⟨1, 20, 0⟩, ⟨2, 30, 10⟩] [⟨1, some 50, none⟩] = .ok [⟨1, 50, 50, true⟩] ↔
      Accepts 100 [⟨1, 20, 0⟩, ⟨2, 30, 10⟩] [⟨1, some 50, none⟩] ∧
        [⟨1, 50, 50, true⟩] =
          [⟨1, 20, 0⟩, ⟨2, 30, 10⟩].filterMap (resolvedRow 100 [⟨1, some 50, none⟩]) :=
  resolveLevel_ok_iff (by decide)

/-- An entry below what its child has consumed is accepted when a later one replaces it, and an
entry that gives both values is refused although they agree. -/
theorem resolveLevel_beyond_totals :
    (convert ⟨1, none, some 5⟩ 100 = .ok (5, 5) ∧
      resolveLevel 100 [⟨1, 50, 10⟩] [⟨1, none, some 5⟩, ⟨1, none, some 50⟩] =
        .ok [⟨1, 50, 50, false⟩]) ∧
    resolveLevel 100 [⟨1, 0, 0⟩] [⟨1, some 10, some 10⟩] = .error .percentageAmountMismatch := by
  decide +kernel

end Ai4iCore.Allocation
