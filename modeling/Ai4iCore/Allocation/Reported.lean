import Ai4iCore.Allocation.SamePercentage
import Mathlib

/-!
# What the allocation endpoints report

The three allocation endpoints with the answers they build: the rows of the response are taken
from the resolved rows, and from the tables for what the request does not list. Without its answer
each is the handler of the same name (`answer_erases`).

A resolved row is written only when its amount changes, but its percentage is reported either way.
So the report is what is stored exactly when no listed row gives a child the amount it has and
another percentage (`reported_iff`). A row that is reported as FIXED carries no percentage.
-/

namespace Ai4iCore.Allocation

open Checked Transaction Transaction.Txn

/-! ## Responses -/

structure APIKeyAllocationResponseItem where
  apiKeyId : Nat
  allocation : AllocationType × ℚ
  allocatedBudget : ℚ
  deriving DecidableEq, Repr

structure ApplicationAllocationResponseItem where
  applicationId : Nat
  allocation : AllocationType × ℚ
  allocatedBudget : ℚ
  apiKeys : Option (List APIKeyAllocationResponseItem)
  deriving DecidableEq, Repr

/-- `_response_allocation`. -/
def responseAllocation (id : Nat) (amount percentage : ℚ) (fixedIds : List Nat) :
    AllocationType × ℚ :=
  if id ∈ fixedIds then (.fixed, amount) else (.percentage, percentage)

/-- `fixed_ids` of `_resolve_and_persist_applications`. -/
def fixedApplicationIds (rows : List ApplicationAllocationRow) : List Nat :=
  (rows.filter fun row => row.allocation.type = .fixed).map (·.applicationId)

/-- `fixed_ids` of `_resolve_and_persist_keys`. -/
def fixedKeyIds (rows : List APIKeyAllocationRow) : List Nat :=
  (rows.filter fun row => row.allocation.type = .fixed).map (·.apiKeyId)

/-- `_build_key_response`. -/
def buildKeyResponse (resolved : List ResolvedRow) (existing : List APIKey) (fixedIds : List Nat)
    (recomputed : Dict Nat ℚ) : List APIKeyAllocationResponseItem :=
  (resolved.map fun r =>
    ⟨r.id, responseAllocation r.id r.amount r.percentage fixedIds, r.amount⟩) ++
  (existing.filter fun k => !resolved.any fun r => r.id = k.id).map fun k =>
    ⟨k.id, (.percentage, (recomputed.get? k.id).getD (k.allocatedPercentage.getD 0)), k.amount⟩

/-- `recomputed_percentages` of `_cascade_into_keys`. -/
def recomputedFor (changed : Bool) (amount : ℚ) (existing : List APIKey)
    (resolved : List ResolvedRow) : Dict Nat ℚ :=
  if changed then unlistedPercentages amount existing resolved else []

/-- The row of a resolved Application. -/
def applicationItem (rows : List ApplicationAllocationRow) (r : ResolvedRow)
    (apiKeys : Option (List APIKeyAllocationResponseItem)) : ApplicationAllocationResponseItem :=
  ⟨r.id, responseAllocation r.id r.amount r.percentage (fixedApplicationIds rows), r.amount,
    apiKeys⟩

/-- The row of an Application that is not listed. -/
def untouchedItem (a : Application) : ApplicationAllocationResponseItem :=
  ⟨a.id, (.percentage, a.allocatedPercentage.getD 0), a.amount, none⟩

/-! ## The endpoints with their answers -/

/-- `_cascade_into_keys` with the rows it returns. -/
def answerCascadeIntoKeys (applicationId : Nat) (newApplicationAmount : ℚ)
    (nestedExplicit : List APIKeyAllocationRow) (usage : List BudgetUsage)
    (applicationAmountChanged : Bool) :
    Handler (List (Nat × ℚ) × List APIKeyAllocationResponseItem) := do
  let existing ← read fun t => active (t.keysOf applicationId)
  let resolved ← resolveAndPersistKeys newApplicationAmount nestedExplicit existing
    applicationId usage
  stage fun t =>
    if applicationAmountChanged then
      t.mapKeys fun id share =>
        share.recompute (unlistedPercentages newApplicationAmount existing resolved) id
    else t
  return (snapshotWrites resolved, buildKeyResponse resolved existing (fixedKeyIds nestedExplicit)
    (recomputedFor applicationAmountChanged newApplicationAmount existing resolved))

/-- The loop of phase 2, with `response_rows`. -/
def answerCascadeResolved (rows : List ApplicationAllocationRow) (usage : List BudgetUsage)
    (acc : Dict Nat ℚ × List ApplicationAllocationResponseItem) (resolved : ResolvedRow) :
    Handler (Dict Nat ℚ × List ApplicationAllocationResponseItem) :=
  let nested := nestedApiKeys rows resolved.id
  if resolved.changed || !nested.isEmpty then do
    let out ← answerCascadeIntoKeys resolved.id resolved.amount nested usage resolved.changed
    return (acc.1.setAll out.1, acc.2 ++ [applicationItem rows resolved (some out.2)])
  else pure (acc.1, acc.2 ++ [applicationItem rows resolved none])

/-- What a handler stages, and the rows it answers with. -/
abbrev Answer := (Dict Nat ℚ × List BudgetUsage) × List ApplicationAllocationResponseItem

/-- `update_tenant_application_allocations` before its commit. -/
def answerTenantApplicationAllocations (tenantId : Nat) (rows : List ApplicationAllocationRow)
    (platformCoreDb : Option Connection) : Handler Answer := do
  let t ← read id
  let tenant ← check (orRaise (t.tenant tenantId) .entityNotFound)
  let parentAmount ← check (orRaise tenant.allocatedBudget .tenantBudgetNotSet)
  let locked := t.applicationsOf tenantId
  let applications := activeApplications locked
  check (require (!applications.isEmpty) .entityNotFound)
  check (rows.forM (checkNotInactive locked))
  let usage ← fetchBudgetUsage ((t.keysOfAll (applications.map (·.id))).map (·.id)) platformCoreDb
  let resolved ← resolveAndPersistApplications parentAmount rows applications usage
  let out ← resolved.foldlM (answerCascadeResolved rows usage) ([], [])
  let untouched := applications.filter fun a => !resolved.any fun r => r.id = a.id
  return ((out.1, usage), out.2 ++ untouched.map untouchedItem)

/-- What the two key endpoints share, with the rows of the keys. -/
def answerKeyAllocations (applicationId : Nat) (budget : ℚ)
    (nestedExplicit : List APIKeyAllocationRow) (platformCoreDb : Option Connection) :
    Handler ((Dict Nat ℚ × List BudgetUsage) × List APIKeyAllocationResponseItem) := do
  let existing ← read fun t => active (t.keysOf applicationId)
  let usage ← fetchBudgetUsage (existing.map (·.id)) platformCoreDb
  let resolved ← resolveAndPersistKeys budget nestedExplicit existing applicationId usage
  return ((Dict.setAll [] (snapshotWrites resolved), usage),
    buildKeyResponse resolved existing (fixedKeyIds nestedExplicit) [])

/-- `update_application_key_allocations` before its commit. -/
def answerApplicationKeyAllocations (applicationId bodyApplicationId : Nat)
    (allocation : AllocationValue) (apiKeys : List APIKeyAllocationRow)
    (platformCoreDb : Option Connection) : Handler Answer := do
  check (require (bodyApplicationId = applicationId) .applicationIdMismatch)
  let (application, budget) ← loadAndLockApplication applicationId
  check (require (matchesCurrent application allocation) .applicationAllocationMismatch)
  let out ← answerKeyAllocations applicationId budget apiKeys platformCoreDb
  return (out.1, [⟨applicationId, (allocation.type, allocation.value), budget, some out.2⟩])

/-- `update_single_api_key_allocation` before its commit. -/
def answerSingleApiKeyAllocation (keyId bodyKeyId : Nat) (allocation : AllocationValue)
    (platformCoreDb : Option Connection) : Handler Answer := do
  check (require (bodyKeyId = keyId) .keyIdMismatch)
  let t ← read id
  let key ← check (orRaise (t.key keyId) .entityNotFound)
  check (require key.isActive .apiKeyRevoked)
  let (application, budget) ← loadAndLockApplication key.applicationId
  let out ← answerKeyAllocations key.applicationId budget [⟨keyId, allocation⟩] platformCoreDb
  return (out.1, [⟨application.id, (.percentage, application.allocatedPercentage.getD 0), budget,
    some out.2⟩])

/-- A call of one of the three endpoints. -/
inductive AllocationCall
  | tenantApplications (tenantId : Nat) (rows : List ApplicationAllocationRow)
  | applicationKeys (applicationId bodyApplicationId : Nat) (allocation : AllocationValue)
      (apiKeys : List APIKeyAllocationRow)
  | singleKey (keyId bodyKeyId : Nat) (allocation : AllocationValue)

namespace AllocationCall

def revision : AllocationCall → Revision
  | .tenantApplications tenantId rows => .tenantApplications tenantId rows
  | .applicationKeys applicationId bodyApplicationId allocation apiKeys =>
    .applicationKeys applicationId bodyApplicationId allocation apiKeys
  | .singleKey keyId bodyKeyId allocation => .singleKey keyId bodyKeyId allocation

/-- The endpoint before its commit. -/
def staged (platformCoreDb : Option Connection) : AllocationCall → Handler Answer
  | .tenantApplications tenantId rows =>
    answerTenantApplicationAllocations tenantId rows platformCoreDb
  | .applicationKeys applicationId bodyApplicationId allocation apiKeys =>
    answerApplicationKeyAllocations applicationId bodyApplicationId allocation apiKeys
      platformCoreDb
  | .singleKey keyId bodyKeyId allocation =>
    answerSingleApiKeyAllocation keyId bodyKeyId allocation platformCoreDb

/-- The endpoint and the response it returns. -/
def answer (platformCoreDb : Option Connection) (c : AllocationCall) :
    Handler (List ApplicationAllocationResponseItem) := do
  let out ← c.staged platformCoreDb
  finalize out.1.1 out.1.2 platformCoreDb
  return out.2

end AllocationCall

/-! ## Without the answers -/

theorem cascadeIntoKeys_erases (applicationId : Nat) (amount : ℚ)
    (rows : List APIKeyAllocationRow) (usage : List BudgetUsage) (changed : Bool) :
    Erases Prod.fst (answerCascadeIntoKeys applicationId amount rows usage changed)
      (cascadeIntoKeys applicationId amount rows usage changed) := by
  refine erases_after _ fun existing => erases_after _ fun resolved => ?_
  exact erases_after _ fun _ => erases_pure _

theorem cascadeResolved_erases (rows : List ApplicationAllocationRow) (usage : List BudgetUsage)
    (acc : Dict Nat ℚ × List ApplicationAllocationResponseItem) (r : ResolvedRow) :
    Erases Prod.fst (answerCascadeResolved rows usage acc r)
      (cascadeResolved rows usage acc.1 r) := by
  unfold answerCascadeResolved cascadeResolved
  dsimp only
  split
  · exact erases_bind (cascadeIntoKeys_erases _ _ _ _ _) fun _ => erases_pure _
  · exact erases_pure _

theorem tenantApplicationAllocations_erases (tenantId : Nat)
    (rows : List ApplicationAllocationRow) (db : Option Connection) :
    Erases Prod.fst (answerTenantApplicationAllocations tenantId rows db)
      (stageTenantApplicationAllocations tenantId rows db) := by
  refine erases_after _ fun t => erases_after _ fun tenant => erases_after _ fun parent => ?_
  refine erases_after _ fun _ => erases_after _ fun _ => erases_after _ fun usage => ?_
  refine erases_after _ fun resolved => ?_
  exact erases_bind (erases_foldlM (cascadeResolved_erases rows usage) resolved ([], []))
    fun _ => erases_pure _

theorem keyAllocations_erases (applicationId : Nat) (budget : ℚ)
    (rows : List APIKeyAllocationRow) (db : Option Connection) :
    Erases Prod.fst (answerKeyAllocations applicationId budget rows db)
      (stageKeyAllocations applicationId budget rows db) := by
  refine erases_after _ fun existing => erases_after _ fun usage => ?_
  exact erases_after _ fun resolved => erases_pure _

theorem applicationKeyAllocations_erases (applicationId bodyApplicationId : Nat)
    (allocation : AllocationValue) (apiKeys : List APIKeyAllocationRow) (db : Option Connection) :
    Erases Prod.fst
      (answerApplicationKeyAllocations applicationId bodyApplicationId allocation apiKeys db)
      (stageApplicationKeyAllocations applicationId bodyApplicationId allocation apiKeys db) := by
  refine erases_after _ fun _ => erases_after _ fun loaded => erases_after _ fun _ => ?_
  exact erases_repack (keyAllocations_erases _ _ _ _) fun _ => rfl

theorem singleApiKeyAllocation_erases (keyId bodyKeyId : Nat) (allocation : AllocationValue)
    (db : Option Connection) :
    Erases Prod.fst (answerSingleApiKeyAllocation keyId bodyKeyId allocation db)
      (stageSingleApiKeyAllocation keyId bodyKeyId allocation db) := by
  refine erases_after _ fun _ => erases_after _ fun t => erases_after _ fun key => ?_
  refine erases_after _ fun _ => erases_after _ fun loaded => ?_
  exact erases_repack (keyAllocations_erases _ _ _ _) fun _ => rfl

/-- The endpoints with their answers do what the handlers without them do. -/
theorem answer_erases (c : AllocationCall) (db : Option Connection) :
    Erases (fun _ => ()) (c.answer db) (c.revision.handler db) := by
  have hfinal : ∀ out : Answer, Erases (fun _ => ())
      (finalize out.1.1 out.1.2 db >>= fun _ => pure out.2) (finalize out.1.1 out.1.2 db) :=
    fun out => erases_repack (erases_refl _) fun _ => rfl
  cases c with
  | tenantApplications tenantId rows =>
    exact erases_bind (tenantApplicationAllocations_erases tenantId rows db) hfinal
  | applicationKeys applicationId bodyApplicationId allocation apiKeys =>
    exact erases_bind (applicationKeyAllocations_erases _ _ _ _ db) hfinal
  | singleKey keyId bodyKeyId allocation =>
    exact erases_bind (singleApiKeyAllocation_erases _ _ _ db) hfinal

/-! ## The condition -/

/-- A reported row against what is stored. -/
def Matches (allocation : AllocationType × ℚ) (allocatedBudget : ℚ) (stored : Option Share) :
    Prop :=
  ∃ share, stored = some share ∧ allocatedBudget = share.amount ∧
    match allocation.1 with
    | .percentage => allocation.2 = share.allocatedPercentage.getD 0
    | .fixed => allocation.2 = share.amount

def Tables.applicationShare (t : Tables) (id : Nat) : Option Share :=
  (t.application id).map (·.toShare)

def Tables.keyShare (t : Tables) (id : Nat) : Option Share := (t.key id).map (·.toShare)

def APIKeyAllocationResponseItem.Stored (t : Tables) (i : APIKeyAllocationResponseItem) : Prop :=
  Matches i.allocation i.allocatedBudget (t.keyShare i.apiKeyId)

def ApplicationAllocationResponseItem.Stored (t : Tables) (i : ApplicationAllocationResponseItem) :
    Prop :=
  Matches i.allocation i.allocatedBudget (t.applicationShare i.applicationId) ∧
    ∀ keys, i.apiKeys = some keys → ∀ k ∈ keys, k.Stored t

/-- A listed child that keeps its amount keeps its percentage, unless it is reported as FIXED. -/
def KeepsPercentages (parent : ℚ) (explicit : List ExplicitInput) (fixedIds : List Nat)
    (children : List (Nat × Share)) : Prop :=
  ∀ c ∈ children, ∀ e, (c.1, e) ∈ explicitById explicit → c.1 ∉ fixedIds →
    ∀ amount percentage, convert e parent = .ok (amount, percentage) →
      amount = c.2.amount → percentage = c.2.allocatedPercentage.getD 0

/-- The active keys of an Application, with their shares. -/
def Tables.keyShares (t : Tables) (applicationId : Nat) : List (Nat × Share) :=
  (active (t.keysOf applicationId)).map fun k => (k.id, k.toShare)

/-- `KeepsPercentages` for the rows that are given to keys. -/
def KeysKeepPercentages (t : Tables) (applicationId : Nat) (parent : ℚ) (rows : List APIKeyAllocationRow) :
    Prop :=
  KeepsPercentages parent (rows.map (·.explicit)) (fixedKeyIds rows) (t.keyShares applicationId)

/-- The condition on a call: on its rows for Applications and, for the amount such a row is
converted to, on the rows nested in it. -/
def AllocationCall.Consistent (t : Tables) : AllocationCall → Prop
  | .tenantApplications tenantId rows =>
    ∀ tenant budget, t.tenant tenantId = some tenant → tenant.allocatedBudget = some budget →
      KeepsPercentages budget (rows.map fun row => explicitInput row.applicationId row.allocation)
        (fixedApplicationIds rows)
        ((activeApplications (t.applicationsOf tenantId)).map fun a => (a.id, a.toShare)) ∧
      ∀ id row, (id, row) ∈ requestRowById rows → ∀ amount percentage,
        convert (explicitInput id row.allocation) budget = .ok (amount, percentage) →
          KeysKeepPercentages t id amount row.apiKeys
  | .applicationKeys applicationId _ _ apiKeys =>
    ∀ application budget, t.application applicationId = some application →
      application.allocatedBudget = some budget → KeysKeepPercentages t applicationId budget apiKeys
  | .singleKey keyId _ allocation =>
    ∀ key application budget, t.key keyId = some key →
      t.application key.applicationId = some application →
      application.allocatedBudget = some budget →
        KeysKeepPercentages t key.applicationId budget [⟨keyId, allocation⟩]

/-! ## One level -/

/-- A listed row against what the writes made of the share of its child. -/
theorem matches_written_iff {r : ResolvedRow} {fixedIds : List Nat} {share : Share} :
    Matches (responseAllocation r.id r.amount r.percentage fixedIds) r.amount
        (some (if r.amount ≠ share.amount then ⟨some r.percentage, some r.amount⟩ else share)) ↔
      (r.id ∉ fixedIds → r.amount = share.amount →
        r.percentage = share.allocatedPercentage.getD 0) := by
  unfold responseAllocation
  by_cases hsame : r.amount = share.amount
  case neg =>
    rw [if_pos hsame]
    refine iff_of_true ⟨_, rfl, rfl, ?_⟩ fun _ h => absurd h hsame
    by_cases hfixed : r.id ∈ fixedIds
    · rw [if_pos hfixed]
      rfl
    · rw [if_neg hfixed]
      rfl
  case pos =>
    rw [if_neg (not_not.mpr hsame)]
    by_cases hfixed : r.id ∈ fixedIds
    · rw [if_pos hfixed]
      exact iff_of_true ⟨share, rfl, hsame, hsame⟩ fun h => absurd hfixed h
    · rw [if_neg hfixed]
      constructor
      · rintro ⟨_, hshare, -, hpercentage⟩ - -
        obtain rfl := Option.some.inj hshare
        exact hpercentage
      · intro h
        exact ⟨share, rfl, hsame, h hfixed hsame⟩

section Level

variable {parent : ℚ} {rows : List AllocationRow} {explicit : List ExplicitInput}
  {resolved : List ResolvedRow} (hres : Resolution parent rows explicit resolved)
  (hids : (rows.map (·.id)).Nodup) {children : List (Nat × Share)}
  (hchildren : rows.map (fun c => (c.id, c.allocatedAmount)) =
    children.map fun c => (c.1, c.2.amount))

include hres hids hchildren

/-- The child of a resolved row, and what becomes of its share. -/
theorem child_of_resolved {r : ResolvedRow} (hr : r ∈ resolved) :
    ∃ c ∈ children, c.1 = r.id ∧ ∃ e, (c.1, e) ∈ explicitById explicit ∧
      convert e parent = .ok (r.amount, r.percentage) ∧
      c.2.resolve resolved c.1 =
        if r.amount ≠ c.2.amount then ⟨some r.percentage, some r.amount⟩ else c.2 := by
  obtain ⟨row, hrow, hrid, -⟩ := (hres.rows r hr).child
  obtain ⟨e, he, hconvert⟩ := (hres.rows r hr).converted
  have hpair : (row.id, row.allocatedAmount) ∈ children.map fun c => (c.1, c.2.amount) :=
    hchildren ▸ List.mem_map_of_mem (f := fun c : AllocationRow => (c.id, c.allocatedAmount)) hrow
  obtain ⟨⟨id, share⟩, hc, heq⟩ := List.mem_map.mp hpair
  obtain ⟨rfl, hamount⟩ := Prod.mk.inj heq
  refine ⟨(row.id, share), hc, hrid, e, hrid ▸ he, hconvert, ?_⟩
  show share.resolve resolved row.id = if r.amount ≠ share.amount then _ else share
  rw [resolve_of_listed hres hids hrow (hrid ▸ he) hconvert, hamount]

/-- When the listed rows are reported as they are stored. -/
theorem resolved_match_iff {fixedIds : List Nat} {stored : Nat → Option Share}
    (hstored : ∀ c ∈ children, (∃ r ∈ resolved, r.id = c.1) →
      stored c.1 = some (c.2.resolve resolved c.1)) :
    (∀ r ∈ resolved, Matches (responseAllocation r.id r.amount r.percentage fixedIds) r.amount
        (stored r.id)) ↔
      KeepsPercentages parent explicit fixedIds children := by
  have hkeys : (children.map Prod.fst).Nodup := by
    have hfst := congrArg (List.map Prod.fst) hchildren
    rw [List.map_map, List.map_map] at hfst
    exact hfst ▸ hids
  have hrow : ∀ r ∈ resolved, ∀ c ∈ children, c.1 = r.id →
      (Matches (responseAllocation r.id r.amount r.percentage fixedIds) r.amount (stored r.id) ↔
        (r.id ∉ fixedIds → r.amount = c.2.amount →
          r.percentage = c.2.allocatedPercentage.getD 0)) := by
    intro r hr c hc hid
    obtain ⟨c', hc', hid', e, -, -, hshare⟩ := child_of_resolved hres hids hchildren hr
    obtain rfl := List.inj_on_of_nodup_map hkeys hc' hc (hid'.trans hid.symm)
    rw [← hid', hstored c' hc' ⟨r, hr, hid'.symm⟩, hshare, hid']
    exact matches_written_iff
  constructor
  · intro h c hc e he hfixed amount percentage hconvert hsame
    obtain ⟨r, hr, hid⟩ := (hres.listed c.1).mpr (List.mem_map_of_mem (f := Prod.fst) he)
    obtain ⟨e', he', hconvert'⟩ := (hres.rows r hr).converted
    rw [hid] at he'
    obtain rfl := explicitById_unique he' he
    rw [hconvert] at hconvert'
    obtain ⟨rfl, rfl⟩ := Prod.mk.inj (Except.ok.inj hconvert')
    exact (hrow r hr c hc hid.symm).mp (h r hr) (hid ▸ hfixed) hsame
  · intro h r hr
    obtain ⟨c, hc, hid, e, he, hconvert, -⟩ := child_of_resolved hres hids hchildren hr
    refine (hrow r hr c hc hid).mpr fun hfixed hsame => ?_
    exact h c hc e he (hid ▸ hfixed) r.amount r.percentage hconvert hsame

end Level

/-! ## The keys of one Application -/

/-- The recomputation does not reach the listed keys. -/
theorem cascadeShare_of_listed {amount : ℚ} {existing : List APIKey} {resolved : List ResolvedRow}
    (changed : Bool) {r : ResolvedRow} (hr : r ∈ resolved) (share : Share) :
    cascadeShare amount existing resolved changed r.id share = share.resolve resolved r.id := by
  unfold cascadeShare
  split
  · unfold Share.recompute
    cases hget : (unlistedPercentages amount existing resolved).get? r.id with
    | none => rfl
    | some percentage =>
      have hmem := mem_of_recomputed (List.mem_map_of_mem (f := Prod.fst) (Dict.mem_of_get? hget))
      rw [List.map_map, List.mem_map] at hmem
      obtain ⟨k, hk, hid⟩ := hmem
      have hunlisted := (List.mem_filter.mp hk).2
      have hlisted : (resolved.any fun r' => r'.id = k.id) = true :=
        List.any_eq_true.mpr ⟨r, hr, decide_eq_true hid.symm⟩
      rw [hlisted] at hunlisted
      cases hunlisted
  · rfl

/-- A key that is not listed is reported with the percentage it has after the recomputation. -/
theorem cascadeShare_of_unlisted {amount : ℚ} {existing : List APIKey}
    {resolved : List ResolvedRow} (changed : Bool) {id : Nat} (hid : ∀ r ∈ resolved, r.id ≠ id)
    (share : Share) :
    Matches (.percentage, ((recomputedFor changed amount existing resolved).get? id).getD
        (share.allocatedPercentage.getD 0)) share.amount
      (some (cascadeShare amount existing resolved changed id share)) := by
  unfold cascadeShare recomputedFor
  rw [resolve_of_unlisted hid]
  cases changed with
  | false => exact ⟨share, rfl, rfl, rfl⟩
  | true =>
    refine ⟨_, rfl, (recompute_amount _ _ _).symm, ?_⟩
    show Option.getD (Dict.get? (unlistedPercentages amount existing resolved) id) _ = _
    cases hget : (unlistedPercentages amount existing resolved).get? id with
    | none =>
      rw [if_pos rfl, Share.recompute, hget]
      rfl
    | some percentage => exact (recompute_percentage _ hget).symm

section Keys

variable {t : Tables} {applicationId : Nat} {amount : ℚ} {usage : List BudgetUsage}
  {rows : List APIKeyAllocationRow} {resolved : List ResolvedRow}
  (hkeys : (t.keys.map (·.id)).Nodup)
  (hres : Resolution amount (keyRows usage (active (t.keysOf applicationId)))
    (rows.map (·.explicit)) resolved)

include hkeys hres

/-- The rows of an Application's keys against what the cascade stores. -/
theorem keyResponse_stored_iff (changed : Bool) {t' : Tables}
    (hstored : ∀ k ∈ active (t.keysOf applicationId), t'.keyShare k.id =
      some (cascadeShare amount (active (t.keysOf applicationId)) resolved changed k.id k.toShare)) :
    (∀ i ∈ buildKeyResponse resolved (active (t.keysOf applicationId)) (fixedKeyIds rows)
        (recomputedFor changed amount (active (t.keysOf applicationId)) resolved), i.Stored t') ↔
      KeysKeepPercentages t applicationId amount rows := by
  have hchildren : (keyRows usage (active (t.keysOf applicationId))).map
      (fun c => (c.id, c.allocatedAmount)) =
        (t.keyShares applicationId).map fun c => (c.1, c.2.amount) := by
    rw [keyRows, Tables.keyShares, List.map_map, List.map_map]
    rfl
  have hresolved : ∀ c ∈ t.keyShares applicationId, (∃ r ∈ resolved, r.id = c.1) →
      t'.keyShare c.1 = some (c.2.resolve resolved c.1) := by
    rintro c hc ⟨r, hr, hid⟩
    obtain ⟨k, hk, rfl⟩ := List.mem_map.mp hc
    rw [hstored k hk, ← show r.id = k.id from hid, cascadeShare_of_listed changed hr]
  refine Iff.trans ?_ (resolved_match_iff hres (keyRows_nodup hkeys usage _) hchildren hresolved)
  constructor
  · intro h r hr
    exact h _ (List.mem_append_left _ (List.mem_map.mpr ⟨r, hr, rfl⟩))
  · intro h i hi
    obtain hi | hi := List.mem_append.mp hi
    · obtain ⟨r, hr, rfl⟩ := List.mem_map.mp hi
      exact h r hr
    · obtain ⟨k, hk, rfl⟩ := List.mem_map.mp hi
      obtain ⟨hk, hunlisted⟩ := List.mem_filter.mp hk
      show Matches _ _ (t'.keyShare k.id)
      rw [hstored k hk]
      exact cascadeShare_of_unlisted changed (by simpa using hunlisted) k.toShare

end Keys

/-! ## The cascades -/

theorem key_mem {t : Tables} (hkeys : (t.keys.map (·.id)).Nodup) {k : APIKey} (hk : k ∈ t.keys) :
    t.keyShare k.id = some k.toShare := by
  unfold Tables.keyShare Tables.key
  rw [Table.get_of_mem hkeys hk]
  rfl

theorem answerCascadeIntoKeys_accepted {applicationId : Nat} {amount : ℚ}
    {rows : List APIKeyAllocationRow} {usage : List BudgetUsage} {changed : Bool}
    {s s' : Session Tables Outside} {out : List (Nat × ℚ) × List APIKeyAllocationResponseItem}
    (h : answerCascadeIntoKeys applicationId amount rows usage changed s = (.ok out, s')) :
    ∃ resolved, resolveLevel amount (keyRows usage (active (s.staged.keysOf applicationId)))
        (rows.map (·.explicit)) = .ok resolved ∧
      out.2 = buildKeyResponse resolved (active (s.staged.keysOf applicationId)) (fixedKeyIds rows)
        (recomputedFor changed amount (active (s.staged.keysOf applicationId)) resolved) ∧
      s' = { s with staged := cascaded s.staged applicationId amount resolved changed } := by
  unfold answerCascadeIntoKeys at h
  rw [read_bind] at h
  obtain ⟨resolved, m, hm, h⟩ := bind_accepted h
  obtain ⟨-, hresolve, rfl⟩ := resolveAndPersistKeys_accepted hm
  rw [stage_bind] at h
  obtain ⟨rfl, rfl⟩ := pure_accepted h
  refine ⟨resolved, hresolve, rfl, ?_⟩
  rw [← cascaded_eq]

/-- What the cascades into the Applications of `l` leave behind: the rows they add to the response,
the keys of other Applications, and what the rows say about the stored keys. -/
structure Cascaded (rows : List ApplicationAllocationRow) (l : List ResolvedRow) (t t' : Tables)
    (items : List ApplicationAllocationResponseItem) : Prop where
  made : List.Forall₂ (fun r i => i = applicationItem rows r i.apiKeys) l items
  others : ∀ k ∈ t.keys, (∀ r ∈ l, r.id ≠ k.applicationId) →
    t'.keyShare k.id = t.keyShare k.id
  reported : (∀ i ∈ items, ∀ keys, i.apiKeys = some keys → ∀ k ∈ keys, k.Stored t') ↔
    ∀ r ∈ l, KeysKeepPercentages t r.id r.amount (nestedApiKeys rows r.id)

theorem keysKeepPercentages_nil (t : Tables) (applicationId : Nat) (amount : ℚ) :
    KeysKeepPercentages t applicationId amount [] :=
  fun _ _ _ he => absurd he List.not_mem_nil

/-- An Application that is not cascaded into. -/
theorem Cascaded.idle {rows : List ApplicationAllocationRow} {l : List ResolvedRow} {t t' : Tables}
    {items : List ApplicationAllocationResponseItem} (h : Cascaded rows l t t' items)
    {r : ResolvedRow} (hnone : nestedApiKeys rows r.id = []) :
    Cascaded rows (r :: l) t t' (applicationItem rows r none :: items) := by
  refine ⟨.cons rfl h.made, fun k hk hother => h.others k hk fun r' hr' =>
    hother r' (List.mem_cons_of_mem r hr'), ?_⟩
  rw [List.forall_mem_cons, List.forall_mem_cons, h.reported, hnone]
  exact and_congr_left fun _ => iff_of_true nofun (keysKeepPercentages_nil t r.id r.amount)

section Cascades

variable {t t' : Tables} (hkeys : (t.keys.map (·.id)).Nodup)

include hkeys

/-- The share of a key after the cascade into an Application. -/
theorem cascaded_keyShare (applicationId : Nat) (amount : ℚ) (resolved : List ResolvedRow)
    (changed : Bool) {k : APIKey} (hk : k ∈ t.keys) :
    (cascaded t applicationId amount resolved changed).keyShare k.id =
      some (cascadeShare amount (active (t.keysOf applicationId)) resolved changed k.id
        k.toShare) := by
  unfold Tables.keyShare Tables.key cascaded Tables.mapKeys
  rw [Table.get_map (by intro r; rfl), Table.get_of_mem hkeys hk]
  rfl

/-- An Application that is cascaded into, before those of `l`. -/
theorem Cascaded.step {rows : List ApplicationAllocationRow} {l : List ResolvedRow}
    {items : List ApplicationAllocationResponseItem} {usage : List BudgetUsage} {r : ResolvedRow}
    {resolved : List ResolvedRow} (hfresh : ∀ r' ∈ l, r'.id ≠ r.id)
    (hres : Resolution r.amount (keyRows usage (active (t.keysOf r.id)))
      ((nestedApiKeys rows r.id).map (·.explicit)) resolved)
    (h : Cascaded rows l (cascaded t r.id r.amount resolved r.changed) t' items) :
    Cascaded rows (r :: l) t t' (applicationItem rows r
      (some (buildKeyResponse resolved (active (t.keysOf r.id))
        (fixedKeyIds (nestedApiKeys rows r.id))
        (recomputedFor r.changed r.amount (active (t.keysOf r.id)) resolved))) :: items) := by
  have hids : ((cascaded t r.id r.amount resolved r.changed).keys.map (·.id)).Nodup := by
    rw [cascaded, mapKeys_ids]
    exact hkeys
  -- what the later cascades do not touch is as this one left it
  have hleft : ∀ k ∈ t.keys, (∀ r' ∈ l, r'.id ≠ k.applicationId) →
      t'.keyShare k.id = some (cascadeShare r.amount (active (t.keysOf r.id)) resolved r.changed
        k.id k.toShare) := by
    intro k hk hother
    rw [← cascaded_keyShare hkeys r.id r.amount resolved r.changed hk]
    have hmem : _ ∈ (cascaded t r.id r.amount resolved r.changed).keys := List.mem_map_of_mem hk
    have hleft := h.others _ hmem hother
    exact hleft
  refine ⟨.cons rfl h.made, fun k hk hother => ?_, ?_⟩
  · obtain ⟨hne, hother⟩ := List.forall_mem_cons.mp hother
    rw [hleft k hk hother, cascadeShare_of_other hres hkeys r.changed hk (.inl (Ne.symm hne)),
      key_mem hkeys hk]
  · rw [List.forall_mem_cons, List.forall_mem_cons, h.reported]
    refine and_congr ?_ (forall₂_congr fun r' hr' => ?_)
    · have hresponse := keyResponse_stored_iff hkeys hres r.changed fun k hk =>
        hleft k (mem_active_keysOf.mp hk).1 fun r' hr' =>
          (mem_active_keysOf.mp hk).2.1 ▸ hfresh r' hr'
      refine Iff.trans ?_ hresponse
      constructor
      · intro hstored
        exact hstored _ rfl
      · rintro hstored _ hsome
        exact Option.some.inj hsome ▸ hstored
    · unfold KeysKeepPercentages Tables.keyShares
      rw [cascaded_keysOf_of_ne hres hkeys r.changed (hfresh r' hr')]

end Cascades

/-- The loop of phase 2. -/
theorem cascades_answered {rows : List ApplicationAllocationRow} {usage : List BudgetUsage}
    {l : List ResolvedRow} {s s' : Session Tables Outside}
    {acc out : Dict Nat ℚ × List ApplicationAllocationResponseItem}
    (h : l.foldlM (answerCascadeResolved rows usage) acc s = (.ok out, s'))
    (hnodup : (l.map (·.id)).Nodup) (hkeys : (s.staged.keys.map (·.id)).Nodup) :
    ∃ items, out.2 = acc.2 ++ items ∧ Cascaded rows l s.staged s'.staged items := by
  induction l generalizing s acc with
  | nil =>
    obtain ⟨rfl, rfl⟩ := pure_accepted h
    exact ⟨[], (List.append_nil _).symm, .nil, fun _ _ _ => rfl, iff_of_true nofun nofun⟩
  | cons r l ih =>
    rw [List.foldlM_cons] at h
    obtain ⟨next, m, hm, h⟩ := bind_accepted h
    rw [List.map_cons, List.nodup_cons] at hnodup
    have hfresh : ∀ r' ∈ l, r'.id ≠ r.id := fun r' hr' heq =>
      hnodup.1 (heq ▸ List.mem_map_of_mem hr')
    unfold answerCascadeResolved at hm
    split at hm
    · obtain ⟨answer, m', hm', hm⟩ := bind_accepted hm
      obtain ⟨rfl, rfl⟩ := pure_accepted hm
      obtain ⟨resolved, hresolve, hanswer, rfl⟩ := answerCascadeIntoKeys_accepted hm'
      have hres := resolveLevel_ok (keyRows_nodup hkeys usage r.id) hresolve
      obtain ⟨items, hout, hitems⟩ := ih h hnodup.2 (by rw [cascaded, mapKeys_ids]; exact hkeys)
      refine ⟨_, ?_, hitems.step hkeys hfresh hres⟩
      rw [hout, hanswer, List.append_assoc]
      rfl
    · rename_i hidle
      obtain ⟨rfl, rfl⟩ := pure_accepted hm
      obtain ⟨items, hout, hitems⟩ := ih h hnodup.2 hkeys
      refine ⟨_, ?_, hitems.idle (r := r) ?_⟩
      · rw [hout, List.append_assoc]
        rfl
      · rw [Bool.or_eq_true, not_or] at hidle
        simpa using hidle.2

/-! ## The endpoints -/

section Endpoints

variable {s s' : Session Tables Outside} {db : Option Connection}

theorem answerTenantApplicationAllocations_accepted {tenantId : Nat}
    {rows : List ApplicationAllocationRow} {out : Answer}
    (h : answerTenantApplicationAllocations tenantId rows db s = (.ok out, s')) :
    ∃ tenant budget usage resolved added, s.staged.tenant tenantId = some tenant ∧
      tenant.allocatedBudget = some budget ∧
      resolveLevel budget
          (applicationRows s.staged usage (activeApplications (s.staged.applicationsOf tenantId)))
          (rows.map fun row => explicitInput row.applicationId row.allocation) = .ok resolved ∧
      resolved.foldlM (answerCascadeResolved rows usage) ([], [])
          { s with staged := s.staged.mapApplications fun id share => share.resolve resolved id } =
        (.ok added, s') ∧
      out.2 = added.2 ++
        ((activeApplications (s.staged.applicationsOf tenantId)).filter fun a =>
          !resolved.any fun r => r.id = a.id).map untouchedItem := by
  unfold answerTenantApplicationAllocations at h
  rw [read_bind] at h
  obtain ⟨tenant, htenant, h⟩ := check_bind h
  obtain ⟨budget, hbudget, h⟩ := check_bind h
  obtain ⟨_, -, h⟩ := check_bind h
  obtain ⟨_, -, h⟩ := check_bind h
  obtain ⟨usage, m, hm, h⟩ := bind_accepted h
  obtain rfl : s = m := (fetchBudgetUsage_accepted hm).symm
  obtain ⟨resolved, m', hm', h⟩ := bind_accepted h
  obtain ⟨hresolve, rfl⟩ := resolveAndPersistApplications_accepted hm'
  obtain ⟨added, m'', hm'', h⟩ := bind_accepted h
  obtain ⟨rfl, rfl⟩ := pure_accepted h
  exact ⟨tenant, budget, usage, resolved, added, orRaise_ok htenant, orRaise_ok hbudget, hresolve,
    hm'', rfl⟩

variable (hkeys : (s.staged.keys.map (·.id)).Nodup)

include hkeys

theorem tenantApplications_reported {tenantId : Nat} {rows : List ApplicationAllocationRow}
    {out : Answer} (happs : (s.staged.applications.map (·.id)).Nodup)
    (h : answerTenantApplicationAllocations tenantId rows db s = (.ok out, s')) :
    (∀ i ∈ out.2, i.Stored s'.staged) ↔
      (AllocationCall.tenantApplications tenantId rows).Consistent s.staged := by
  obtain ⟨tenant, budget, usage, resolved, added, htenant, hbudget, hresolve, hfold, hout⟩ :=
    answerTenantApplicationAllocations_accepted h
  have hnodup := applicationRows_nodup happs usage tenantId
  have hres := resolveLevel_ok hnodup hresolve
  obtain ⟨items, hadded, hitems⟩ := cascades_answered hfold hres.ids hkeys
  have hwritten := cascades_applications
    ((erases_foldlM (cascadeResolved_erases rows usage) resolved ([], [])).accepted hfold)
  have hshare : ∀ a ∈ s.staged.applications, s'.staged.applicationShare a.id =
      some (a.toShare.resolve resolved a.id) := by
    intro a ha
    unfold Tables.applicationShare Tables.application
    rw [hwritten]
    show (Table.get _ (s.staged.applications.map _) a.id).map _ = _
    rw [Table.get_map (by intro r; rfl), Table.get_of_mem happs ha]
    rfl
  -- the rows of the resolved Applications, the rows of their keys, the other Applications
  have hchildren : (applicationRows s.staged usage
      (activeApplications (s.staged.applicationsOf tenantId))).map
        (fun c => (c.id, c.allocatedAmount)) =
      ((activeApplications (s.staged.applicationsOf tenantId)).map fun a => (a.id, a.toShare)).map
        fun c => (c.1, c.2.amount) := by
    rw [applicationRows, List.map_map, List.map_map]
    rfl
  have hstored : ∀ c ∈ (activeApplications (s.staged.applicationsOf tenantId)).map
      (fun a => (a.id, a.toShare)), (∃ r ∈ resolved, r.id = c.1) →
        s'.staged.applicationShare c.1 = some (c.2.resolve resolved c.1) := by
    rintro c hc -
    obtain ⟨a, ha, rfl⟩ := List.mem_map.mp hc
    exact hshare a (mem_applicationsOf.mp ha).1
  have hlisted : (∀ i ∈ items, Matches i.allocation i.allocatedBudget
      (s'.staged.applicationShare i.applicationId)) ↔ _ :=
    (forall_mem_iff_of_forall₂ hitems.made fun r i hri => by rw [hri]; exact Iff.rfl).symm.trans
      (resolved_match_iff hres hnodup hchildren hstored)
  have huntouched : ∀ a ∈ (activeApplications (s.staged.applicationsOf tenantId)).filter fun a =>
      !resolved.any fun r => r.id = a.id, (untouchedItem a).Stored s'.staged := by
    intro a ha
    obtain ⟨ha, hunlisted⟩ := List.mem_filter.mp ha
    refine ⟨?_, nofun⟩
    show Matches _ _ (s'.staged.applicationShare a.id)
    rw [hshare a (mem_applicationsOf.mp ha).1, resolve_of_unlisted (by simpa using hunlisted)]
    exact ⟨a.toShare, rfl, rfl, rfl⟩
  have hnested : (∀ i ∈ items, ∀ keys, i.apiKeys = some keys → ∀ k ∈ keys, k.Stored s'.staged) ↔
      ∀ x ∈ requestRowById rows, ∀ amount percentage,
        convert (explicitInput x.1 x.2.allocation) budget = .ok (amount, percentage) →
          KeysKeepPercentages s.staged x.1 amount x.2.apiKeys := by
    refine hitems.reported.trans ⟨fun hall x hx amount percentage hconvert => ?_, fun hall r hr => ?_⟩
    · obtain ⟨r, hr, hid, hconvert'⟩ := resolved_of_row hres hx
      rw [hconvert] at hconvert'
      obtain ⟨rfl, rfl⟩ := Prod.mk.inj (Except.ok.inj hconvert')
      have hr' := hall r hr
      rw [hid, nestedApiKeys_of_mem hx] at hr'
      exact hr'
    · obtain ⟨x, hx, hid, hconvert⟩ := row_of_resolved hres hr
      rw [← hid, nestedApiKeys_of_mem hx]
      exact hall x hx _ _ hconvert
  have hreport : (∀ i ∈ out.2, i.Stored s'.staged) ↔
      (∀ i ∈ items, i.Stored s'.staged) := by
    rw [hout, hadded, List.nil_append, List.forall_mem_append]
    refine and_iff_left fun i hi => ?_
    obtain ⟨a, ha, rfl⟩ := List.mem_map.mp hi
    exact huntouched a ha
  rw [hreport, show (∀ i ∈ items, i.Stored s'.staged) ↔ _ from forall₂_and, hlisted, hnested]
  constructor
  · rintro ⟨hown, hkeys⟩ tenant' budget' htenant' hbudget'
    obtain rfl := Option.some.inj (htenant.symm.trans htenant')
    obtain rfl := Option.some.inj (hbudget.symm.trans hbudget')
    exact ⟨hown, fun id row hrow => hkeys (id, row) hrow⟩
  · intro hall
    obtain ⟨hown, hkeys⟩ := hall tenant budget htenant hbudget
    exact ⟨hown, fun x hx => hkeys x.1 x.2 hx⟩

/-- The rows of the keys that the two key endpoints answer with. -/
theorem keyAllocations_reported {applicationId : Nat} {budget : ℚ}
    {rows : List APIKeyAllocationRow}
    {out : (Dict Nat ℚ × List BudgetUsage) × List APIKeyAllocationResponseItem}
    (h : answerKeyAllocations applicationId budget rows db s = (.ok out, s')) :
    s'.staged.applications = s.staged.applications ∧
      ((∀ k ∈ out.2, k.Stored s'.staged) ↔
        KeysKeepPercentages s.staged applicationId budget rows) := by
  unfold answerKeyAllocations at h
  rw [read_bind] at h
  obtain ⟨usage, m, hm, h⟩ := bind_accepted h
  obtain rfl : s = m := (fetchBudgetUsage_accepted hm).symm
  obtain ⟨resolved, m', hm', h⟩ := bind_accepted h
  obtain ⟨-, hresolve, rfl⟩ := resolveAndPersistKeys_accepted hm'
  obtain ⟨rfl, rfl⟩ := pure_accepted h
  have hres := resolveLevel_ok (keyRows_nodup hkeys usage applicationId) hresolve
  refine ⟨rfl, keyResponse_stored_iff hkeys hres false fun k hk => ?_⟩
  exact cascaded_keyShare hkeys applicationId budget resolved false (mem_active_keysOf.mp hk).1

omit hkeys in
/-- A response of one row, for an Application that is not written. -/
theorem singleItem_reported {item : ApplicationAllocationResponseItem}
    {keys : List APIKeyAllocationResponseItem} (hitem : item.apiKeys = some keys) {share : Share}
    (hshare : s'.staged.applicationShare item.applicationId = some share)
    (hmatch : Matches item.allocation item.allocatedBudget (some share)) :
    (∀ i ∈ [item], i.Stored s'.staged) ↔ ∀ k ∈ keys, k.Stored s'.staged := by
  rw [List.forall_mem_singleton]
  constructor
  · rintro ⟨-, hstored⟩
    exact hstored keys hitem
  · intro hstored
    refine ⟨hshare ▸ hmatch, fun keys' hkeys' => ?_⟩
    obtain rfl := Option.some.inj (hitem.symm.trans hkeys')
    exact hstored

theorem applicationKeys_reported {applicationId bodyApplicationId : Nat}
    {allocation : AllocationValue} {apiKeys : List APIKeyAllocationRow} {out : Answer}
    (h : answerApplicationKeyAllocations applicationId bodyApplicationId allocation apiKeys db s =
      (.ok out, s')) :
    (∀ i ∈ out.2, i.Stored s'.staged) ↔
      (AllocationCall.applicationKeys applicationId bodyApplicationId allocation
        apiKeys).Consistent s.staged := by
  unfold answerApplicationKeyAllocations at h
  obtain ⟨_, -, h⟩ := check_bind h
  obtain ⟨⟨application, budget⟩, m, hm, h⟩ := bind_accepted h
  obtain ⟨happlication, hbudget, hsame⟩ := loadAndLockApplication_accepted hm
  obtain rfl : s = m := hsame.symm
  obtain ⟨_, hcurrent, h⟩ := check_bind h
  obtain ⟨answer, m', hm', h⟩ := bind_accepted h
  obtain ⟨rfl, rfl⟩ := pure_accepted h
  obtain ⟨happlications, hreported⟩ := keyAllocations_reported hkeys hm'
  have hshare : m'.staged.applicationShare applicationId = some application.toShare := by
    unfold Tables.applicationShare Tables.application at *
    rw [happlications, happlication]
    rfl
  have hmatch : Matches (allocation.type, allocation.value) budget (some application.toShare) := by
    have hcurrent := require_ok hcurrent
    refine ⟨_, rfl, by rw [Share.amount, hbudget]; rfl, ?_⟩
    unfold matchesCurrent at hcurrent
    cases htype : allocation.type with
    | percentage =>
      rw [htype] at hcurrent
      show allocation.value = application.allocatedPercentage.getD 0
      rw [of_decide_eq_true hcurrent]
      rfl
    | fixed =>
      rw [htype] at hcurrent
      show allocation.value = application.allocatedBudget.getD 0
      rw [of_decide_eq_true hcurrent]
      rfl
  rw [singleItem_reported rfl hshare hmatch, hreported]
  constructor
  · intro hkeep application' budget' happlication' hbudget'
    obtain rfl := Option.some.inj (happlication.symm.trans happlication')
    obtain rfl := Option.some.inj (hbudget.symm.trans hbudget')
    exact hkeep
  · intro hkeep
    exact hkeep application budget happlication hbudget

theorem singleKey_reported {keyId bodyKeyId : Nat} {allocation : AllocationValue} {out : Answer}
    (h : answerSingleApiKeyAllocation keyId bodyKeyId allocation db s = (.ok out, s')) :
    (∀ i ∈ out.2, i.Stored s'.staged) ↔
      (AllocationCall.singleKey keyId bodyKeyId allocation).Consistent s.staged := by
  unfold answerSingleApiKeyAllocation at h
  obtain ⟨_, -, h⟩ := check_bind h
  rw [read_bind] at h
  obtain ⟨key, hkey, h⟩ := check_bind h
  obtain ⟨_, -, h⟩ := check_bind h
  obtain ⟨⟨application, budget⟩, m, hm, h⟩ := bind_accepted h
  obtain ⟨happlication, hbudget, hsame⟩ := loadAndLockApplication_accepted hm
  obtain rfl : s = m := hsame.symm
  obtain ⟨answer, m', hm', h⟩ := bind_accepted h
  obtain ⟨rfl, rfl⟩ := pure_accepted h
  obtain ⟨happlications, hreported⟩ := keyAllocations_reported hkeys hm'
  have hid : application.id = key.applicationId := Table.key_of_get happlication
  have hshare : m'.staged.applicationShare application.id = some application.toShare := by
    unfold Tables.applicationShare Tables.application at *
    rw [happlications, hid, happlication]
    rfl
  rw [singleItem_reported rfl hshare ⟨_, rfl, by rw [Share.amount, hbudget]; rfl, rfl⟩, hreported]
  constructor
  · intro hkeep key' application' budget' hkey' happlication' hbudget'
    obtain rfl := Option.some.inj ((orRaise_ok hkey).symm.trans hkey')
    obtain rfl := Option.some.inj (happlication.symm.trans happlication')
    obtain rfl := Option.some.inj (hbudget.symm.trans hbudget')
    exact hkeep
  · intro hkeep
    exact hkeep key application budget (orRaise_ok hkey) happlication hbudget

end Endpoints

/-! ## After the commit -/

/-- The shares of two states of the tables agree. -/
def SameShares (t₀ t : Tables) : Prop :=
  (∀ id, t.applicationShare id = t₀.applicationShare id) ∧ ∀ id, t.keyShare id = t₀.keyShare id

theorem sameShares_flagBlind (t₀ : Tables) : FlagBlind (SameShares t₀) := by
  intro t f hf h
  refine ⟨h.1, fun id => ?_⟩
  rw [← h.2 id]
  show (Table.get _ (t.keys.map f) id).map _ = _
  rw [Table.get_map (by intro k; rw [hf k]), Option.map_map]
  refine congrArg (Option.map · (t.key id)) (funext fun k => ?_)
  show (f k).toShare = k.toShare
  rw [hf k]

theorem SameShares.stored_iff {t₀ t : Tables} (h : SameShares t₀ t)
    (i : ApplicationAllocationResponseItem) : i.Stored t ↔ i.Stored t₀ := by
  unfold ApplicationAllocationResponseItem.Stored APIKeyAllocationResponseItem.Stored
  rw [h.1]
  simp only [h.2]

/-- **What is reported is what is stored.** An accepted call of one of the three endpoints reports
the stored allocation of every Application and key in its response, if and only if every listed
child that keeps its amount keeps its percentage. -/
theorem reported_iff {w w' : World} {c : AllocationCall} {db : Option Connection}
    {items : List ApplicationAllocationResponseItem} (hkeys : (w.1.keys.map (·.id)).Nodup)
    (happs : (w.1.applications.map (·.id)).Nodup) (h : call (c.answer db) w = (.ok items, w')) :
    (∀ i ∈ items, i.Stored w'.1) ↔ c.Consistent w.1 := by
  obtain ⟨hvalue, rfl⟩ := Prod.mk.inj h
  have hrun : c.answer db ⟨w.1, w.1, w.2⟩ = (.ok items, (c.answer db ⟨w.1, w.1, w.2⟩).2) :=
    Prod.ext hvalue rfl
  obtain ⟨out, m, hm, hfinal⟩ := bind_accepted hrun
  obtain ⟨u, m', hm', hfinal⟩ := bind_accepted hfinal
  obtain ⟨rfl, hm''⟩ := pure_accepted hfinal
  have hsame : SameShares m.staged (c.answer db ⟨w.1, w.1, w.2⟩).2.committed :=
    hm'' ▸ finalize_committed (sameShares_flagBlind m.staged) ⟨fun _ => rfl, fun _ => rfl⟩ hm'
  rw [show (∀ i ∈ out.2, i.Stored (c.answer db ⟨w.1, w.1, w.2⟩).2.committed) ↔
    ∀ i ∈ out.2, i.Stored m.staged from forall₂_congr fun i _ => hsame.stored_iff i]
  cases c with
  | tenantApplications tenantId rows => exact tenantApplications_reported hkeys happs hm
  | applicationKeys applicationId bodyApplicationId allocation apiKeys =>
    exact applicationKeys_reported hkeys hm
  | singleKey keyId bodyKeyId allocation => exact singleKey_reported hkeys hm

/-- A percentage for the first Application. -/
def firstPercentage (percentage : Percentage) : AllocationCall :=
  .tenantApplications 1
    [⟨1, ⟨.percentage, percentage.value, percentage.nonneg, fun _ => percentage.le_hundred⟩, []⟩]

/-- From a half to sixty percent. -/
theorem reported_iff_sixty :
    (∀ i ∈ [(⟨1, (.percentage, 60), 6 / 10, some []⟩ : ApplicationAllocationResponseItem)],
        i.Stored (tenantWith 1 [firstApplication ⟨some 60, some (6 / 10)⟩]).1) ↔
      (firstPercentage ⟨60, by norm_num, by norm_num⟩).Consistent
        (tenantWith 1 [firstApplication ⟨some 50, some (1 / 2)⟩]).1 := by
  have hcall : call ((firstPercentage ⟨60, by norm_num, by norm_num⟩).answer none)
      (tenantWith 1 [firstApplication ⟨some 50, some (1 / 2)⟩]) =
        (.ok [⟨1, (.percentage, 60), 6 / 10, some []⟩],
          tenantWith 1 [firstApplication ⟨some 60, some (6 / 10)⟩]) := by decide +kernel
  exact reported_iff (by decide) (by decide) hcall

/-- Of one rupee, 50.40 percent is still fifty hundredths: nothing is written, and the response
reports 50.40 percent. -/
theorem reported_unwritten :
    call ((firstPercentage ⟨504 / 10, by norm_num, by norm_num⟩).answer none)
        (tenantWith 1 [firstApplication ⟨some 50, some (1 / 2)⟩]) =
      (.ok [⟨1, (.percentage, 504 / 10), 1 / 2, none⟩],
        tenantWith 1 [firstApplication ⟨some 50, some (1 / 2)⟩]) ∧
    (firstApplication ⟨some 50, some (1 / 2)⟩).allocatedPercentage ≠ some (504 / 10) := by
  decide +kernel

end Ai4iCore.Allocation
