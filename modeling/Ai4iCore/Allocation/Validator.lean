import Ai4iCore.Base.Checked
import Ai4iCore.Base.Dict
import Ai4iCore.Base.Rounding
import Mathlib.Algebra.BigOperators.Group.List.Basic
import Mathlib.Algebra.Order.BigOperators.Group.List
import Mathlib.Data.List.Perm.Basic
import Mathlib.Tactic.Ring

/-!
# Allocation: the shared validator

`allocation_validator.py`: one parent's total is split over its children by
`resolveLevel`, at both levels of the hierarchy (a tenant over its Applications, an
Application over its API keys). Amounts and percentages are decimals with two places and
are modelled by `ℚ`; `quantize` rounds where the code rounds.

The result of an accepted `resolveLevel` is described once, by `Resolution`: where every
resolved row comes from, which ids are resolved, and what the children add up to
afterwards.
-/

namespace Ai4iCore.Allocation

open Checked Rounding

/-- The errors of the allocation endpoints, by their code. -/
inductive AllocationError
  | entityNotFound
  | percentageAmountMismatch
  | allocationBelowConsumed
  | allocationTotalExceeded
  | budgetOvercommitted
  | tenantBudgetNotSet
  | applicationInactive
  | applicationIdMismatch
  | applicationAllocationMismatch
  | applicationBudgetNotSet
  | keyIdMismatch
  | apiKeyRevoked
  | keyApplicationMismatch
  | budgetTooSmall
  | allocationRequired
  | budgetLimitExceeded
  deriving DecidableEq, Repr

/-- `AllocationRow`: one child's current state. -/
structure AllocationRow where
  id : Nat
  allocatedAmount : ℚ
  consumedAmount : ℚ
  deriving DecidableEq, Repr

/-- `ExplicitInput`: one row the caller submitted. -/
structure ExplicitInput where
  id : Nat
  percentage : Option ℚ
  amount : Option ℚ
  deriving DecidableEq, Repr

/-- `ResolvedRow`. -/
structure ResolvedRow where
  id : Nat
  amount : ℚ
  percentage : ℚ
  changed : Bool
  deriving DecidableEq, Repr

/-- `convert`: exactly one of percentage and amount is given and the other is derived. -/
def convert (explicit : ExplicitInput) (parentAmount : ℚ) : Except AllocationError (ℚ × ℚ) :=
  match explicit.percentage, explicit.amount with
  | none, some given =>
    let amount := quantize halfUp given
    .ok (amount, quantize halfUp (if parentAmount = 0 then 0 else amount / parentAmount * 100))
  | some given, none =>
    let percentage := quantize halfUp given
    .ok (quantize halfUp (parentAmount * percentage / 100), percentage)
  | _, _ => .error .percentageAmountMismatch

/-- The body of `resolve_level`'s loop over the explicit rows. -/
def resolveRow (parentNewAmount : ℚ) (child : AllocationRow) (row : ExplicitInput) :
    Except AllocationError ResolvedRow := do
  let (amount, percentage) ← convert row parentNewAmount
  -- re-affirming the ceiling a child already has is no reduction
  require (!(amount < child.consumedAmount && amount ≠ child.allocatedAmount))
    .allocationBelowConsumed
  return ⟨child.id, amount, percentage, amount ≠ child.allocatedAmount⟩

/-- `explicit_by_id`: of two rows with one id the later one counts. -/
def explicitById (explicit : List ExplicitInput) : Dict Nat ExplicitInput :=
  Dict.setAll [] (explicit.map fun e => (e.id, e))

/-- One round of the loop, with the lookup `children_by_id[child_id]`. -/
def resolveEntry (parentNewAmount : ℚ) (children : List AllocationRow)
    (e : Nat × ExplicitInput) : Except AllocationError ResolvedRow := do
  let child ← orRaise (children.find? fun c => c.id = e.1) .entityNotFound
  resolveRow parentNewAmount child e.2

/-- `_AMT_QUANT`. -/
def amtQuant : ℚ := 1 / 100

/-- The resolved row of a child. -/
def rowOf (resolved : List ResolvedRow) (child : AllocationRow) : Option ResolvedRow :=
  resolved.find? fun r => r.id = child.id

/-- `resolve_level`. -/
def resolveLevel (parentNewAmount : ℚ) (children : List AllocationRow)
    (explicit : List ExplicitInput) : Except AllocationError (List ResolvedRow) := do
  let byId := explicitById explicit
  require (byId.all fun e => children.any fun c => c.id = e.1) .entityNotFound
  require ((children.map (·.consumedAmount)).sum ≤ parentNewAmount) .budgetOvercommitted
  let resolved ← byId.mapM (resolveEntry parentNewAmount children)
  let explicitTotal := (resolved.map (·.amount)).sum
  require (explicitTotal ≤ parentNewAmount) .allocationTotalExceeded
  let unlisted := children.filter fun c => !byId.any fun e => e.1 = c.id
  let siblingTotal := explicitTotal + (unlisted.map (·.allocatedAmount)).sum
  require (siblingTotal ≤ parentNewAmount + amtQuant * children.length)
    .allocationTotalExceeded
  return children.filterMap (rowOf resolved)

/-- What a child holds after the resolution: a resolved child its new amount, any other
child what it had. -/
def newAmount (resolved : List ResolvedRow) (child : AllocationRow) : ℚ :=
  (rowOf resolved child).elim child.allocatedAmount (·.amount)

/-! ## What an accepted resolution is -/

/-- A resolved row, its child and the explicit row it was converted from. -/
structure Resolved (parentNewAmount : ℚ) (children : List AllocationRow)
    (explicit : List ExplicitInput) (r : ResolvedRow) : Prop where
  child : ∃ c ∈ children, c.id = r.id ∧ (r.changed = true ↔ r.amount ≠ c.allocatedAmount)
  converted : ∃ e, (r.id, e) ∈ explicitById explicit ∧
    convert e parentNewAmount = .ok (r.amount, r.percentage)

structure Resolution (parentNewAmount : ℚ) (children : List AllocationRow)
    (explicit : List ExplicitInput) (resolved : List ResolvedRow) : Prop where
  rows : ∀ r ∈ resolved, Resolved parentNewAmount children explicit r
  ids : (resolved.map (·.id)).Nodup
  listed : ∀ id, (∃ r ∈ resolved, r.id = id) ↔ id ∈ (explicitById explicit).map Prod.fst
  consumed : (children.map (·.consumedAmount)).sum ≤ parentNewAmount
  total : (children.map (newAmount resolved)).sum ≤
    parentNewAmount + amtQuant * children.length

theorem resolveRow_ok {parent : ℚ} {child : AllocationRow} {row : ExplicitInput}
    {r : ResolvedRow} (h : resolveRow parent child row = .ok r) :
    r.id = child.id ∧ (r.changed = true ↔ r.amount ≠ child.allocatedAmount) ∧
      convert row parent = .ok (r.amount, r.percentage) := by
  unfold resolveRow at h
  obtain ⟨⟨amount, percentage⟩, hconvert, h⟩ := bind_ok h
  obtain ⟨-, h⟩ := require_bind h
  obtain rfl := Except.ok.inj h
  exact ⟨rfl, decide_eq_true_iff, hconvert⟩

section Totals

/-- A sum over rows of which some are replaced. -/
theorem sum_map_replace {α β : Type} (g : α → Option β) (f : β → ℚ) (d : α → ℚ) (l : List α) :
    (l.map fun c => (g c).elim (d c) f).sum =
      ((l.filterMap g).map f).sum + ((l.filter fun c => (g c).isNone).map d).sum := by
  induction l with
  | nil => simp
  | cons c l ih =>
    rw [List.map_cons, List.sum_cons, ih]
    cases hg : g c with
    | none =>
      show d c + _ = _
      rw [List.filterMap_cons_none hg, List.filter_cons_of_pos (by simp [hg]), List.map_cons,
        List.sum_cons]
      ring
    | some r =>
      show f r + _ = _
      rw [List.filterMap_cons_some hg, List.filter_cons_of_neg (by simp [hg]), List.map_cons,
        List.sum_cons]
      ring

variable {children : List AllocationRow} {resolved : List ResolvedRow}

theorem rowOf_id {c : AllocationRow} {r : ResolvedRow} (h : rowOf resolved c = some r) :
    r.id = c.id := by
  simpa using List.find?_some h

/-- Looking a row up by the id of a row of the list finds that row. -/
theorem rowOf_of_mem (hids : (resolved.map (·.id)).Nodup) {r : ResolvedRow}
    (hr : r ∈ resolved) {c : AllocationRow} (hc : r.id = c.id) : rowOf resolved c = some r := by
  cases hfind : rowOf resolved c with
  | none => exact absurd hc (by simpa using List.find?_eq_none.mp hfind r hr)
  | some r' =>
    have hid : r'.id = r.id := (rowOf_id hfind).trans hc.symm
    rw [List.inj_on_of_nodup_map hids (List.mem_of_find?_eq_some hfind) hr hid]

theorem map_id_filterMap (l : List AllocationRow) :
    (l.filterMap (rowOf resolved)).map (·.id) =
      (l.filter fun c => (rowOf resolved c).isSome).map (·.id) := by
  induction l with
  | nil => rfl
  | cons c l ih =>
    cases hrow : rowOf resolved c with
    | none => rw [List.filterMap_cons_none hrow, List.filter_cons_of_neg (by simp [hrow]), ih]
    | some r =>
      rw [List.filterMap_cons_some hrow, List.filter_cons_of_pos (by simp [hrow]),
        List.map_cons, List.map_cons, ih, rowOf_id hrow]

variable (hchildren : (children.map (·.id)).Nodup)

include hchildren

theorem nodup_filterMap : ((children.filterMap (rowOf resolved)).map (·.id)).Nodup := by
  rw [map_id_filterMap]
  exact hchildren.sublist (List.filter_sublist.map _)

/-- The rows in the order of the children are the same rows in another order. -/
theorem perm_filterMap (hids : (resolved.map (·.id)).Nodup)
    (hknown : ∀ r ∈ resolved, ∃ c ∈ children, c.id = r.id) :
    (children.filterMap (rowOf resolved)).Perm resolved := by
  refine (List.perm_ext_iff_of_nodup (nodup_filterMap hchildren).of_map hids.of_map).mpr ?_
  intro r
  rw [List.mem_filterMap]
  constructor
  · rintro ⟨c, -, hr⟩
    exact List.mem_of_find?_eq_some hr
  · intro hr
    obtain ⟨c, hc, hid⟩ := hknown r hr
    exact ⟨c, hc, rowOf_of_mem hids hr hid.symm⟩

/-- Reordering the rows does not change what a child holds. -/
theorem newAmount_filterMap {c : AllocationRow} (hc : c ∈ children) :
    newAmount (children.filterMap (rowOf resolved)) c = newAmount resolved c := by
  unfold newAmount
  cases hrow : rowOf resolved c with
  | none =>
    have hnone : rowOf (children.filterMap (rowOf resolved)) c = none := by
      refine List.find?_eq_none.mpr fun r hr => ?_
      obtain ⟨c', -, hr'⟩ := List.mem_filterMap.mp hr
      exact List.find?_eq_none.mp hrow r (List.mem_of_find?_eq_some hr')
    rw [hnone]
  | some r =>
    have hmem : r ∈ children.filterMap (rowOf resolved) := List.mem_filterMap.mpr ⟨c, hc, hrow⟩
    rw [rowOf_of_mem (nodup_filterMap hchildren) hmem (rowOf_id hrow)]

/-- The children add up to the resolved amounts and what the others had. -/
theorem sum_newAmount (hids : (resolved.map (·.id)).Nodup)
    (hknown : ∀ r ∈ resolved, ∃ c ∈ children, c.id = r.id) :
    (children.map (newAmount (children.filterMap (rowOf resolved)))).sum =
      (resolved.map (·.amount)).sum +
        ((children.filter fun c => (rowOf resolved c).isNone).map (·.allocatedAmount)).sum := by
  have hsame : children.map (newAmount (children.filterMap (rowOf resolved))) =
      children.map (newAmount resolved) :=
    List.map_congr_left fun c hc => newAmount_filterMap hchildren hc
  rw [hsame, ← ((perm_filterMap hchildren hids hknown).map (·.amount)).sum_eq]
  exact sum_map_replace (rowOf resolved) (·.amount) (·.allocatedAmount) children

end Totals

theorem explicitById_nodup (explicit : List ExplicitInput) :
    ((explicitById explicit).map Prod.fst).Nodup :=
  Dict.nodup_setAll _ List.nodup_nil

theorem explicitById_entry {explicit : List ExplicitInput} {x : Nat × ExplicitInput}
    (h : x ∈ explicitById explicit) : x.2 ∈ explicit ∧ x.2.id = x.1 := by
  obtain h | h := Dict.mem_setAll h
  · obtain ⟨e, he, rfl⟩ := List.mem_map.mp h
    exact ⟨he, rfl⟩
  · exact absurd h List.not_mem_nil

theorem resolveEntry_ok {parent : ℚ} {children : List AllocationRow}
    {x : Nat × ExplicitInput} {r : ResolvedRow}
    (h : resolveEntry parent children x = .ok r) :
    r.id = x.1 ∧ convert x.2 parent = .ok (r.amount, r.percentage) ∧
      ∃ c ∈ children, c.id = r.id ∧ (r.changed = true ↔ r.amount ≠ c.allocatedAmount) := by
  obtain ⟨c, hc, h⟩ := orRaise_bind h
  obtain ⟨hid, hchanged, hconvert⟩ := resolveRow_ok h
  have hcid : c.id = x.1 := by simpa using List.find?_some hc
  exact ⟨hid.trans hcid, hconvert, c, List.mem_of_find?_eq_some hc, hid.symm, hchanged⟩

theorem mapM_resolveEntry {parent : ℚ} {children : List AllocationRow}
    {explicit : List ExplicitInput} {rows : List ResolvedRow}
    (hrows : (explicitById explicit).mapM (resolveEntry parent children) = .ok rows) :
    ∀ r ∈ rows, Resolved parent children explicit r := by
  intro r hr
  obtain ⟨x, hx, hrow⟩ := mapM_ok_mem hrows hr
  obtain ⟨hid, hconvert, hchild⟩ := resolveEntry_ok hrow
  exact ⟨hchild, x.2, hid ▸ hx, hconvert⟩

/-- Every resolved row was listed. -/
theorem resolveLevel_listed {parent : ℚ} {children : List AllocationRow}
    {explicit : List ExplicitInput} {resolved : List ResolvedRow}
    (h : resolveLevel parent children explicit = .ok resolved) {r : ResolvedRow}
    (hr : r ∈ resolved) : ∃ e ∈ explicit, e.id = r.id := by
  unfold resolveLevel at h
  obtain ⟨-, h⟩ := require_bind h
  obtain ⟨-, h⟩ := require_bind h
  obtain ⟨rows, hrows, h⟩ := bind_ok h
  obtain ⟨-, h⟩ := require_bind h
  obtain ⟨-, h⟩ := require_bind h
  obtain rfl := Except.ok.inj h
  obtain ⟨c, -, hrow⟩ := List.mem_filterMap.mp hr
  obtain ⟨e, he, -⟩ := (mapM_resolveEntry hrows r (List.mem_of_find?_eq_some hrow)).converted
  obtain ⟨hmem, heid⟩ := explicitById_entry he
  exact ⟨e, hmem, heid⟩

/-- The specification of `resolveLevel`; the ids of the children are primary keys. -/
theorem resolveLevel_ok {parent : ℚ} {children : List AllocationRow}
    {explicit : List ExplicitInput} {resolved : List ResolvedRow}
    (hchildren : (children.map (·.id)).Nodup)
    (h : resolveLevel parent children explicit = .ok resolved) :
    Resolution parent children explicit resolved := by
  unfold resolveLevel at h
  obtain ⟨-, h⟩ := require_bind h
  obtain ⟨hspent, h⟩ := require_bind h
  obtain ⟨rows, hrows, h⟩ := bind_ok h
  obtain ⟨-, h⟩ := require_bind h
  obtain ⟨htotal, h⟩ := require_bind h
  obtain rfl := Except.ok.inj h
  have hids : rows.map (·.id) = (explicitById explicit).map Prod.fst :=
    mapM_ok_map (fun _ _ hx => (resolveEntry_ok hx).1) hrows
  have hnodup : (rows.map (·.id)).Nodup := hids ▸ explicitById_nodup explicit
  have hfrom := mapM_resolveEntry hrows
  have hknown : ∀ r ∈ rows, ∃ c ∈ children, c.id = r.id := by
    intro r hr
    obtain ⟨c, hc, hid, -⟩ := (hfrom r hr).child
    exact ⟨c, hc, hid⟩
  have hperm := perm_filterMap hchildren hnodup hknown
  -- a child is unlisted exactly when the loop made no row for it
  have hunlisted : (children.filter fun c => !(explicitById explicit).any fun e => e.1 = c.id) =
      children.filter fun c => (rowOf rows c).isNone := by
    refine List.filter_congr fun c _ => ?_
    rw [Bool.eq_iff_iff, Option.isNone_iff_eq_none, rowOf, List.find?_eq_none]
    have hmem : c.id ∈ rows.map (·.id) ↔ c.id ∈ (explicitById explicit).map Prod.fst := by
      rw [hids]
    simp only [List.mem_map] at hmem
    simp only [Bool.not_eq_true', List.any_eq_false, decide_eq_true_eq]
    constructor
    · intro hnot r hr hid
      obtain ⟨e, he, heid⟩ := hmem.mp ⟨r, hr, hid⟩
      exact hnot e he heid
    · intro hnot e he heid
      obtain ⟨r, hr, hid⟩ := hmem.mpr ⟨e, he, heid⟩
      exact hnot r hr hid
  constructor
  · exact fun r hr => hfrom r (hperm.mem_iff.mp hr)
  · exact nodup_filterMap hchildren
  · intro id
    rw [← hids, List.mem_map]
    simp only [hperm.mem_iff]
  · exact of_decide_eq_true hspent
  · rw [sum_newAmount hchildren hnodup hknown, ← hunlisted]
    exact of_decide_eq_true htotal

end Ai4iCore.Allocation
