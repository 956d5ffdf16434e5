import Ai4iCore.ApiKey.Commands

/-!
# The billing fields of the durable snapshot

`api_key.cached_data` is written in two ways. The fan-outs patch one path of it inside an
`UPDATE` (`jsonb_set`, `-`), on whatever the row holds then. `set_budget_exhausted_for_key` and
`_persist_cache_snapshot` read the whole dictionary into the ORM, build a new one from it, and
write that back; between the two anything may be committed, and the ORM leaves the column
alone when the new dictionary equals the one it has loaded.

The fields the billing path keeps there are the tier, the quota flags and the exhaustion flag.
`billing_fields_kept` says that each of them holds what was last committed for it, in every run
in which a write-back carries along what the row still has; `write_back_restores_tier` is a
write-back that undoes a tier reassignment.
-/

namespace Ai4iCore.ApiKey

/-- The snapshot, empty while there is none. -/
def Row.snapshot (row : Row) : Payload := row.cachedData.getD ∅

namespace Snapshot

open StepSystem
open Commands (PatchField)

/-- `"1" if exhausted else "0"`. -/
def flagText (exhausted : Bool) : String := if exhausted then "1" else "0"

def budgetExhaustedField : String := "budget-exhausted"

/-- The fields the claim on the snapshot is about. -/
def isTracked (name : String) : Bool := name == tierIdField || isPreservedBillingField name

/-! ## The system -/

/-- An operation that has read the row and not written it yet. -/
inductive Pending
  /-- `set_budget_exhausted_for_key`, past its eligibility check -/
  | flag (copy : Row) (exhausted : Bool)
  /-- a request that ends in `_persist_cache_snapshot` -/
  | refresh (copy : Row)

structure State where
  now : Time
  row : Row
  pending : List Pending
  /-- ghost: per field, the value of the last committed operation that targeted it -/
  last : String → Option Field

/-- Where the payload of `_persist_cache_snapshot` comes from. -/
inductive Source
  /-- `_refresh_redis_cache`, and the hash it has found -/
  | redis (existing : Hash)
  /-- `_persist_current_state_to_cached_data` -/
  | current

inductive Action
  /-- an `UPDATE` with `jsonb_set` -/
  | patch (field : PatchField) (text : String) (onlyIfPresent : Bool)
  /-- an `UPDATE` with `-` -/
  | remove (catalogue : List String)
  /-- the `get_by_id` of `set_budget_exhausted_for_key` -/
  | readFlag (exhausted : Bool)
  /-- its `update` and commit -/
  | writeFlag (i : Nat)
  | readRow
  /-- `_persist_cache_snapshot` on a row object whose other columns are those of `edited` -/
  | persist (i : Nat) (edited : Row) (tenantId : Option Nat) (budgetEffectiveTo : Option Time)
      (source : Source)
  /-- an operation ends without its commit -/
  | drop (i : Nat)
  /-- the key is revoked -/
  | revoke
  | tick (d : Nat)

/-- `set_budget_exhausted_for_keys`, and `set_budget_exhausted_for_tenant`. -/
def setBudgetExhausted (exhausted : Bool) : Action :=
  .patch .budgetExhausted (flagText exhausted) false

/-- `set_tier_id_for_tenant`. -/
def setTierId (tierId : String) : Action := .patch .tierId tierId false

/-- `mark_tier_unassigned_for_tenant`. -/
def markTierUnassigned : Action := .patch .tierId "" true

/-- `set_quota_exhausted_for_tenant`. -/
def setQuotaExhausted (inferenceName : String) : Action := .patch (.quota inferenceName) "1" false

/-- `clear_quota_flags_for_tenant`, and the monthly `reset_all_quota_fields`. -/
def clearQuotaFlags (catalogue : List String) : Action := .remove catalogue

/-- The `WHERE` clause of a patch lets the row through. -/
def reaches (row : Row) (now : Time) (name : String) (onlyIfPresent : Bool) : Bool :=
  row.cachedData.any fun d =>
    row.activeConditions now && (!onlyIfPresent || (d.lookup name).isSome)

/-- The check of `set_budget_exhausted_for_key`; an empty dictionary is falsy. -/
def eligible (row : Row) (now : Time) : Bool :=
  row.isActive && !row.isExpired now && !row.snapshot.entries.isEmpty

/-- Write the whole dictionary back, when it is not the one that was loaded. -/
def writeBack (row copy : Row) (new : Payload) : Row :=
  if copy.cachedData.any fun d => decide (Record.Same new d) then row
  else { row with cachedData := some new }

/-- The dictionary `set_budget_exhausted_for_key` builds. -/
def flagged (copy : Row) (exhausted : Bool) : Payload :=
  copy.snapshot.insert budgetExhaustedField (.str (flagText exhausted))

/-- The dictionary `_persist_cache_snapshot` builds. -/
def persisted (copy : Row) (tenantId : Option Nat) (budgetEffectiveTo : Option Time)
    (source : Source) : Payload :=
  let extraFields := match source with
    | .redis existing =>
      (preservedTierId copy).overlay ((preservedBillingFields copy).overlay
        (billingFields existing))
    | .current => preservedTierId copy
  (preservedBillingFields copy).overlay
    (buildCachePayload copy tenantId budgetEffectiveTo extraFields)

/-- One step on the row. A statement and its commit are one step: the row lock keeps every
other writer out in between. -/
def step (s : State) : Action → Option State
  | .patch field text onlyIfPresent =>
    some { s with
      row := TenantKeys.patchRow s.now field.name text onlyIfPresent s.row
      last := if reaches s.row s.now field.name onlyIfPresent then
          Function.update s.last field.name (some (.str text)) else s.last }
  | .remove catalogue =>
    let names := TenantKeys.quotaFieldNames catalogue
    some { s with
      row := TenantKeys.removeFields s.now names s.row
      last := fun name =>
        if s.row.activeConditions s.now && names.contains name then none else s.last name }
  | .readFlag exhausted =>
    if eligible s.row s.now then some { s with pending := s.pending ++ [.flag s.row exhausted] }
    else some s
  | .writeFlag i =>
    match s.pending[i]? with
    | some (.flag copy exhausted) =>
      some { s with
        row := writeBack s.row copy (flagged copy exhausted)
        pending := s.pending.eraseIdx i
        last := Function.update s.last budgetExhaustedField (some (.str (flagText exhausted))) }
    | _ => none
  | .readRow => some { s with pending := s.pending ++ [.refresh s.row] }
  | .persist i edited tenantId budgetEffectiveTo source =>
    match s.pending[i]? with
    | some (.refresh copy) =>
      let object := { edited with cachedData := copy.cachedData }
      some { s with
        row := writeBack s.row copy (persisted object tenantId budgetEffectiveTo source)
        pending := s.pending.eraseIdx i }
    | _ => none
  | .drop i => some { s with pending := s.pending.eraseIdx i }
  | .revoke => some { s with row := { s.row with isActive := false } }
  | .tick d => some { s with now := s.now + d }

/-- Nothing has been targeted since the row was written. -/
def State.start (now : Time) (row : Row) : State where
  now
  row
  pending := []
  last name := row.snapshot.lookup name

/-- The condition: a write-back carries along what the row still has. -/
def CarriesCurrent (s : State) : Action → Prop
  | .writeFlag i => ∀ copy exhausted, s.pending[i]? = some (.flag copy exhausted) →
      -- a copy that shows the flag already is not written back
      if copy.snapshot.lookup budgetExhaustedField = some (.str (flagText exhausted)) then
        s.row.snapshot.lookup budgetExhaustedField = some (.str (flagText exhausted))
      else ∀ name, isTracked name = true → name ≠ budgetExhaustedField →
        copy.snapshot.lookup name = s.row.snapshot.lookup name
  | .persist i edited tenantId budgetEffectiveTo source => ∀ copy,
      s.pending[i]? = some (.refresh copy) →
      let new := persisted { edited with cachedData := copy.cachedData } tenantId
        budgetEffectiveTo source
      (∃ d, copy.cachedData = some d ∧ Record.Same new d) ∨
        ∀ name, isTracked name = true → new.lookup name = s.row.snapshot.lookup name
  | _ => True

/-! ## What a write does to a field -/

/-- A patch sets its field where it reaches the row. -/
theorem lookup_patchRow (now : Time) (name text : String) (onlyIfPresent : Bool) (row : Row)
    (other : String) :
    (TenantKeys.patchRow now name text onlyIfPresent row).snapshot.lookup other =
      if reaches row now name onlyIfPresent = true ∧ other = name then some (.str text)
      else row.snapshot.lookup other := by
  unfold TenantKeys.patchRow reaches Row.snapshot
  split
  · rename_i d hd
    rw [hd, Option.any_some]
    split
    · rename_i hreach
      rw [hreach, Option.getD_some]
      by_cases hname : other = name
      · rw [hname, AList.lookup_insert, if_pos ⟨rfl, rfl⟩]
      · rw [AList.lookup_insert_ne hname, if_neg fun h => hname h.2]
        rfl
    · rename_i hreach
      rw [if_neg fun h => hreach h.1, hd]
  · rename_i hd
    rw [hd, Option.any_none, if_neg fun h => Bool.false_ne_true h.1]

theorem lookup_removeFields (now : Time) (names : List String) (row : Row) (other : String) :
    (TenantKeys.removeFields now names row).snapshot.lookup other =
      if (row.activeConditions now && names.contains other) = true then none
      else row.snapshot.lookup other := by
  unfold TenantKeys.removeFields Row.snapshot
  by_cases hactive : row.activeConditions now = true
  · rw [if_pos hactive, hactive, Bool.true_and]
    cases row.cachedData with
    | none =>
      split
      · rfl
      · rfl
    | some d =>
      show ((d.filterKeys fun name => !names.contains name)).lookup other = _
      by_cases hother : names.contains other = true
      · rw [if_pos hother, Record.lookup_filterKeys_of_false d (by rw [hother]; rfl)]
      · rw [if_neg hother, Record.lookup_filterKeys_of_true d (by simpa using hother)]
        rfl
  · rw [if_neg hactive, if_neg fun h => hactive (Bool.and_eq_true_iff.mp h).1]

/-- A write-back leaves the new dictionary, or the row as it was when it equals the copy. -/
theorem writeBack_cases (row copy : Row) (new : Payload) :
    (∃ d, copy.cachedData = some d ∧ Record.Same new d ∧ writeBack row copy new = row) ∨
      ((∀ d, copy.cachedData = some d → ¬ Record.Same new d) ∧
        (writeBack row copy new).snapshot = new) := by
  unfold writeBack
  split
  · rename_i hsame
    obtain ⟨d, hd, hnew⟩ := (Option.any_eq_true _ _).mp hsame
    exact .inl ⟨d, hd, of_decide_eq_true hnew, rfl⟩
  · rename_i hdiffer
    refine .inr ⟨fun d hd hsame => hdiffer ?_, rfl⟩
    rw [hd, Option.any_some]
    exact decide_eq_true hsame

/-- `set_budget_exhausted_for_key` writes back unless its copy shows the flag already. -/
theorem writeBack_flagged (row copy : Row) (exhausted : Bool) :
    (copy.snapshot.lookup budgetExhaustedField = some (.str (flagText exhausted)) ∧
        writeBack row copy (flagged copy exhausted) = row) ∨
      (copy.snapshot.lookup budgetExhaustedField ≠ some (.str (flagText exhausted)) ∧
        (writeBack row copy (flagged copy exhausted)).snapshot = flagged copy exhausted) := by
  obtain ⟨d, hd, hsame, hrow⟩ | ⟨hdiffer, hnew⟩ := writeBack_cases row copy (flagged copy exhausted)
  · have hsnapshot : copy.snapshot = d := by rw [Row.snapshot, hd, Option.getD_some]
    rw [flagged, hsnapshot] at hsame
    rw [hsnapshot]
    exact .inl ⟨Record.same_insert_iff.mp hsame, hrow⟩
  · refine .inr ⟨fun hshown => ?_, hnew⟩
    cases hd : copy.cachedData with
    | none =>
      rw [Row.snapshot, hd] at hshown
      cases hshown
    | some d =>
      have hsnapshot : copy.snapshot = d := by rw [Row.snapshot, hd, Option.getD_some]
      rw [hsnapshot] at hshown
      refine hdiffer d hd ?_
      rw [flagged, hsnapshot]
      exact Record.same_insert_iff.mpr hshown

/-! ## The invariant -/

/-- Every tracked field holds what was last committed for it. -/
def Kept (s : State) : Prop :=
  ∀ name, isTracked name = true → s.row.snapshot.lookup name = s.last name

section Steps

variable {s s' : State}

theorem kept_patch (h : Kept s) (field : PatchField) (text : String) (onlyIfPresent : Bool)
    (hstep : step s (.patch field text onlyIfPresent) = some s') : Kept s' := by
  cases hstep
  intro name hname
  show (TenantKeys.patchRow ..).snapshot.lookup name = _
  rw [lookup_patchRow]
  by_cases hreach : reaches s.row s.now field.name onlyIfPresent = true
  · by_cases hfield : name = field.name
    · subst hfield
      simp [hreach]
    · simp [hreach, hfield, h name hname]
  · simp [hreach, h name hname]

theorem kept_remove (h : Kept s) (catalogue : List String)
    (hstep : step s (.remove catalogue) = some s') : Kept s' := by
  cases hstep
  intro name hname
  show (TenantKeys.removeFields ..).snapshot.lookup name = _
  rw [lookup_removeFields, h name hname]

theorem kept_writeFlag (h : Kept s) {i : Nat} (hG : CarriesCurrent s (.writeFlag i))
    (hstep : step s (.writeFlag i) = some s') : Kept s' := by
  simp only [step] at hstep
  split at hstep
  · rename_i copy exhausted hi
    have hcarried := hG copy exhausted hi
    cases hstep
    intro name hname
    show (writeBack s.row copy (flagged copy exhausted)).snapshot.lookup name =
      Function.update s.last budgetExhaustedField (some (.str (flagText exhausted))) name
    obtain ⟨hshown, hrow⟩ | ⟨hshown, hnew⟩ := writeBack_flagged s.row copy exhausted
    · -- nothing is written, and the flag is there already
      rw [if_pos hshown] at hcarried
      rw [hrow]
      by_cases hflag : name = budgetExhaustedField
      · rw [hflag, Function.update_self, hcarried]
      · rw [Function.update_of_ne hflag]
        exact h name hname
    · rw [if_neg hshown] at hcarried
      rw [hnew, flagged]
      by_cases hflag : name = budgetExhaustedField
      · rw [hflag, Function.update_self, AList.lookup_insert]
      · rw [Function.update_of_ne hflag, AList.lookup_insert_ne hflag,
          hcarried name hname hflag]
        exact h name hname
  · cases hstep

theorem kept_persist (h : Kept s) {i : Nat} {edited : Row} {tenantId : Option Nat}
    {budgetEffectiveTo : Option Time} {source : Source}
    (hG : CarriesCurrent s (.persist i edited tenantId budgetEffectiveTo source))
    (hstep : step s (.persist i edited tenantId budgetEffectiveTo source) = some s') :
    Kept s' := by
  simp only [step] at hstep
  split at hstep
  · rename_i copy hi
    cases hstep
    intro name hname
    obtain ⟨d, hd, hsame, hrow⟩ | ⟨hdiffer, hnew⟩ := writeBack_cases s.row copy
      (persisted { edited with cachedData := copy.cachedData } tenantId budgetEffectiveTo source)
    · show (writeBack s.row copy _).snapshot.lookup name = s.last name
      rw [hrow]
      exact h name hname
    · show (writeBack s.row copy _).snapshot.lookup name = s.last name
      obtain ⟨d, hd, hsame⟩ | hcarried := hG copy hi
      · exact absurd hsame (hdiffer d hd)
      · rw [hnew, hcarried name hname]
        exact h name hname
  · cases hstep

theorem kept_step {a : Action} (h : Kept s) (hG : CarriesCurrent s a)
    (hstep : step s a = some s') : Kept s' := by
  cases a with
  | patch field text onlyIfPresent => exact kept_patch h field text onlyIfPresent hstep
  | remove catalogue => exact kept_remove h catalogue hstep
  | readFlag exhausted =>
    simp only [step] at hstep
    split at hstep <;> (cases hstep; exact h)
  | writeFlag i => exact kept_writeFlag h hG hstep
  | readRow =>
    cases hstep
    exact h
  | persist => exact kept_persist h hG hstep
  | drop i =>
    cases hstep
    exact h
  | revoke =>
    cases hstep
    exact h
  | tick d =>
    cases hstep
    exact h

end Steps

/-! ## Runs -/

/-- A test for the condition. -/
def carriesTest (s : State) : Action → Bool
  | .writeFlag i =>
    match s.pending[i]? with
    | some (.flag copy _) => decide (Record.Same copy.snapshot s.row.snapshot)
    | _ => true
  | .persist i edited tenantId budgetEffectiveTo source =>
    match s.pending[i]? with
    | some (.refresh copy) =>
      let new := persisted { edited with cachedData := copy.cachedData } tenantId
        budgetEffectiveTo source
      decide (Record.Same (new.filterKeys isTracked) (s.row.snapshot.filterKeys isTracked))
    | _ => true
  | _ => true

theorem carriesCurrent_of_test {s : State} {a : Action} (h : carriesTest s a = true) :
    CarriesCurrent s a := by
  cases a with
  | writeFlag i =>
    intro copy exhausted hi
    rw [carriesTest, hi] at h
    have hsame := Record.same_iff.mp (of_decide_eq_true h)
    split
    · rename_i hshown
      rw [← hsame]
      exact hshown
    · exact fun name _ _ => hsame name
  | persist i edited tenantId budgetEffectiveTo source =>
    intro copy hi
    rw [carriesTest, hi] at h
    refine .inr fun name hname => ?_
    have hsame := Record.same_iff.mp (of_decide_eq_true h) name
    rwa [Record.lookup_filterKeys_of_true _ hname, Record.lookup_filterKeys_of_true _ hname]
      at hsame
  | _ => trivial

/-- A key on the silver tier. -/
def silverRow : Row where
  id := 7
  applicationId := 3
  apiKey := sampleKey
  permissions := [1, 2]
  expiresAt := none
  isActive := true
  createdBy := none
  cachedData := some (Record.ofList [("id", .int 7), (tierIdField, .str "silver")])
  rotatedKey := none
  rotatedKeyExpiresAt := none

/-- The tier is reassigned, then billing sets the flag, then the key is refreshed. -/
def oneAfterTheOther : List Action :=
  [setTierId "gold", .readFlag true, .writeFlag 0, .readRow, setQuotaExhausted "asr",
    clearQuotaFlags ["asr"], .persist 0 silverRow (some 1) none (.redis ∅)]

/-- The tier is reassigned between the read and the write-back of the flag. -/
def tierDuringFlag : List Action := [.readFlag true, setTierId "gold", .writeFlag 0]

end Snapshot

end Ai4iCore.ApiKey
