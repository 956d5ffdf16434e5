import Ai4iCore.Allocation.Store
import Ai4iCore.Base.Run

/-!
# Allocation: the requests

The operations on budgets, as handlers over the session: the three endpoints of
`AllocationService`, the tenant budget revision (`TenantService.revise_tenant_budget` with
`cascade_tenant_budget_revision`), creating and updating an Application
(`ApplicationService`), creating an API key (`APIKeyService.create_api_key`) and revoking
one. Each handler stages its writes first; what is done after the commit stands in a
handler of its own.
-/

namespace Ai4iCore.Allocation

open Checked Rounding Transaction Transaction.Txn

/-! ## Requests -/

inductive AllocationType
  | percentage
  | fixed
  deriving DecidableEq, Repr

/-- `AllocationValue`: `{type, value}` with the bounds its schema checks. -/
structure AllocationValue where
  type : AllocationType
  value : ℚ
  nonneg : 0 ≤ value
  bounded : type = .percentage → value ≤ 100

/-- A percentage as the schema of `ApplicationCreate` lets it in. -/
structure Percentage where
  value : ℚ
  nonneg : 0 ≤ value
  le_hundred : value ≤ 100

/-- The amount of a top-up, `gt=0` in `TenantBudgetRequest`. -/
structure TopUp where
  amount : ℚ
  positive : 0 < amount

structure APIKeyAllocationRow where
  apiKeyId : Nat
  allocation : AllocationValue

structure ApplicationAllocationRow where
  applicationId : Nat
  allocation : AllocationValue
  apiKeys : List APIKeyAllocationRow

/-- `_explicit_input`. -/
def explicitInput (id : Nat) (allocation : AllocationValue) : ExplicitInput :=
  match allocation.type with
  | .percentage => ⟨id, some allocation.value, none⟩
  | .fixed => ⟨id, none, some allocation.value⟩

def APIKeyAllocationRow.explicit (row : APIKeyAllocationRow) : ExplicitInput :=
  explicitInput row.apiKeyId row.allocation

/-! ## One level -/

/-- The changed rows, as `snapshot_writes` records them. -/
def snapshotWrites (resolved : List ResolvedRow) : List (Nat × ℚ) :=
  (resolved.filter (·.changed)).map fun r => (r.id, r.amount)

/-- The children of `_resolve_and_persist_applications`. -/
def applicationRows (t : Tables) (usage : List BudgetUsage) (applications : List Application) :
    List AllocationRow :=
  applications.map fun a => ⟨a.id, a.amount, consumedTotal (t.keysOf a.id) usage⟩

/-- `_resolve_and_persist_applications`. -/
def resolveAndPersistApplications (parentAmount : ℚ) (rows : List ApplicationAllocationRow)
    (applications : List Application) (usage : List BudgetUsage) :
    Handler (List ResolvedRow) := do
  let children ← read fun t => applicationRows t usage applications
  let resolved ← check (resolveLevel parentAmount children
    (rows.map fun row => explicitInput row.applicationId row.allocation))
  stage fun t => t.mapApplications fun id share => share.resolve resolved id
  return resolved

/-- The first loop of `_resolve_and_persist_keys`, for a row that names no key of the
Application that is still active. -/
def checkKnown (t : Tables) (existing : List APIKey) (owningApplicationId : Nat)
    (row : APIKeyAllocationRow) : Except AllocationError Unit :=
  if existing.any fun k => k.id = row.apiKeyId then .ok ()
  else match t.key row.apiKeyId with
    | some other =>
      if other.applicationId = owningApplicationId then .error .apiKeyRevoked
      else .error .keyApplicationMismatch
    | none => .ok ()

/-- The second loop of `_resolve_and_persist_keys`. -/
def checkPositive (parentAmount : ℚ) (row : APIKeyAllocationRow) :
    Except AllocationError Unit := do
  require (0 < parentAmount) .applicationBudgetNotSet
  let (amount, percentage) ← convert row.explicit parentAmount
  require (0 < amount && 0 < percentage) .budgetTooSmall

/-- The children of `_resolve_and_persist_keys`. -/
def keyRows (usage : List BudgetUsage) (keys : List APIKey) : List AllocationRow :=
  keys.map fun k => ⟨k.id, k.amount, (usageOf usage k.id).1⟩

/-- `_resolve_and_persist_keys`. -/
def resolveAndPersistKeys (parentAmount : ℚ) (nestedExplicit : List APIKeyAllocationRow)
    (existing : List APIKey) (owningApplicationId : Nat) (usage : List BudgetUsage) :
    Handler (List ResolvedRow) := do
  let t ← read id
  check (nestedExplicit.forM (checkKnown t existing owningApplicationId))
  check (nestedExplicit.forM (checkPositive parentAmount))
  let resolved ← check (resolveLevel parentAmount (keyRows usage existing)
    (nestedExplicit.map (·.explicit)))
  stage fun t => t.mapKeys fun id share => share.resolve resolved id
  return resolved

/-- The percentages of the keys no row of `resolved` is about. -/
def unlistedPercentages (newAmount : ℚ) (existing : List APIKey) (resolved : List ResolvedRow) :
    Dict Nat ℚ :=
  recomputeUnlistedPercentages newAmount
    ((existing.filter fun k => !resolved.any fun r => r.id = k.id).map fun k => (k.id, k.toShare))

/-- `_cascade_into_keys`; the value is what it adds to `snapshot_writes`. -/
def cascadeIntoKeys (applicationId : Nat) (newApplicationAmount : ℚ)
    (nestedExplicit : List APIKeyAllocationRow) (usage : List BudgetUsage)
    (applicationAmountChanged : Bool) : Handler (List (Nat × ℚ)) := do
  let existing ← read fun t => active (t.keysOf applicationId)
  let resolved ← resolveAndPersistKeys newApplicationAmount nestedExplicit existing
    applicationId usage
  stage fun t =>
    if applicationAmountChanged then
      t.mapKeys fun id share =>
        share.recompute (unlistedPercentages newApplicationAmount existing resolved) id
    else t
  return snapshotWrites resolved

/-- `_sync_key_exhaustion_flags`. -/
def syncKeyExhaustionFlags (snapshots : Dict Nat ℚ) (usage : List BudgetUsage) :
    Handler Unit := do
  setBudgetExhaustedForKeys
    ((snapshots.filter fun e => e.2 ≤ (usageOf usage e.1).1).map Prod.fst) true
  setBudgetExhaustedForKeys
    ((snapshots.filter fun e => !(e.2 ≤ (usageOf usage e.1).1)).map Prod.fst) false

/-- `_finalize`. -/
def finalize (snapshots : Dict Nat ℚ) (usage : List BudgetUsage)
    (platformCoreDb : Option Connection) : Handler Unit := do
  commit
  writeBudgetSnapshot snapshots platformCoreDb
  syncKeyExhaustionFlags snapshots usage

/-! ## The three endpoints -/

/-- `request_row_by_id`. -/
def requestRowById (rows : List ApplicationAllocationRow) : Dict Nat ApplicationAllocationRow :=
  Dict.setAll [] (rows.map fun row => (row.applicationId, row))

/-- The nested rows of an Application. -/
def nestedApiKeys (rows : List ApplicationAllocationRow) (applicationId : Nat) :
    List APIKeyAllocationRow :=
  ((requestRowById rows).get? applicationId).elim [] (·.apiKeys)

/-- The loop of phase 2: an Application whose amount changed or that has nested rows is
cascaded into. -/
def cascadeResolved (rows : List ApplicationAllocationRow) (usage : List BudgetUsage)
    (snapshots : Dict Nat ℚ) (resolved : ResolvedRow) : Handler (Dict Nat ℚ) :=
  let nested := nestedApiKeys rows resolved.id
  if resolved.changed || !nested.isEmpty then do
    let writes ← cascadeIntoKeys resolved.id resolved.amount nested usage resolved.changed
    return snapshots.setAll writes
  else pure snapshots

/-- A listed Application that is there but INACTIVE. -/
def checkNotInactive (locked : List Application) (row : ApplicationAllocationRow) :
    Except AllocationError Unit :=
  require ((activeApplications locked).any (fun a => a.id = row.applicationId) ||
    !locked.any fun a => a.id = row.applicationId) .applicationInactive

/-- What `update_tenant_application_allocations` does before its commit. -/
def stageTenantApplicationAllocations (tenantId : Nat) (rows : List ApplicationAllocationRow)
    (platformCoreDb : Option Connection) : Handler (Dict Nat ℚ × List BudgetUsage) := do
  let t ← read id
  let tenant ← check (orRaise (t.tenant tenantId) .entityNotFound)
  let parentAmount ← check (orRaise tenant.allocatedBudget .tenantBudgetNotSet)
  let locked := t.applicationsOf tenantId
  let applications := activeApplications locked
  check (require (!applications.isEmpty) .entityNotFound)
  check (rows.forM (checkNotInactive locked))
  let usage ← fetchBudgetUsage ((t.keysOfAll (applications.map (·.id))).map (·.id)) platformCoreDb
  let resolved ← resolveAndPersistApplications parentAmount rows applications usage
  let snapshots ← resolved.foldlM (cascadeResolved rows usage) []
  return (snapshots, usage)

/-- `update_tenant_application_allocations`. -/
def updateTenantApplicationAllocations (tenantId : Nat) (rows : List ApplicationAllocationRow)
    (platformCoreDb : Option Connection) : Handler Unit :=
  stageTenantApplicationAllocations tenantId rows platformCoreDb >>= fun r =>
    finalize r.1 r.2 platformCoreDb

/-- `_load_and_lock_application`: an Application with a budget. -/
def loadAndLockApplication (applicationId : Nat) : Handler (Application × ℚ) := do
  let t ← read id
  let application ← check (orRaise (t.application applicationId) .entityNotFound)
  let budget ← check (orRaise application.allocatedBudget .applicationBudgetNotSet)
  return (application, budget)

/-- What the two key endpoints share: the rows are resolved against the Application's
budget, which does not move. -/
def stageKeyAllocations (applicationId : Nat) (budget : ℚ)
    (nestedExplicit : List APIKeyAllocationRow) (platformCoreDb : Option Connection) :
    Handler (Dict Nat ℚ × List BudgetUsage) := do
  let existing ← read fun t => active (t.keysOf applicationId)
  let usage ← fetchBudgetUsage (existing.map (·.id)) platformCoreDb
  let resolved ← resolveAndPersistKeys budget nestedExplicit existing applicationId usage
  return (Dict.setAll [] (snapshotWrites resolved), usage)

/-- `_assert_matches_current_application_allocation`. -/
def matchesCurrent (application : Application) (allocation : AllocationValue) : Bool :=
  match allocation.type with
  | .percentage => application.allocatedPercentage = some allocation.value
  | .fixed => application.allocatedBudget = some allocation.value

/-- What `update_application_key_allocations` does before its commit. -/
def stageApplicationKeyAllocations (applicationId bodyApplicationId : Nat)
    (allocation : AllocationValue) (apiKeys : List APIKeyAllocationRow)
    (platformCoreDb : Option Connection) : Handler (Dict Nat ℚ × List BudgetUsage) := do
  check (require (bodyApplicationId = applicationId) .applicationIdMismatch)
  let (application, budget) ← loadAndLockApplication applicationId
  check (require (matchesCurrent application allocation) .applicationAllocationMismatch)
  stageKeyAllocations applicationId budget apiKeys platformCoreDb

/-- `update_application_key_allocations`. -/
def updateApplicationKeyAllocations (applicationId bodyApplicationId : Nat)
    (allocation : AllocationValue) (apiKeys : List APIKeyAllocationRow)
    (platformCoreDb : Option Connection) : Handler Unit :=
  stageApplicationKeyAllocations applicationId bodyApplicationId allocation apiKeys
    platformCoreDb >>= fun r => finalize r.1 r.2 platformCoreDb

/-- What `update_single_api_key_allocation` does before its commit. -/
def stageSingleApiKeyAllocation (keyId bodyKeyId : Nat) (allocation : AllocationValue)
    (platformCoreDb : Option Connection) : Handler (Dict Nat ℚ × List BudgetUsage) := do
  check (require (bodyKeyId = keyId) .keyIdMismatch)
  let t ← read id
  let key ← check (orRaise (t.key keyId) .entityNotFound)
  check (require key.isActive .apiKeyRevoked)
  let (_, budget) ← loadAndLockApplication key.applicationId
  stageKeyAllocations key.applicationId budget [⟨keyId, allocation⟩] platformCoreDb

/-- `update_single_api_key_allocation`. -/
def updateSingleApiKeyAllocation (keyId bodyKeyId : Nat) (allocation : AllocationValue)
    (platformCoreDb : Option Connection) : Handler Unit :=
  stageSingleApiKeyAllocation keyId bodyKeyId allocation platformCoreDb >>= fun r =>
    finalize r.1 r.2 platformCoreDb

/-! ## The tenant's own budget -/

/-- `MAX_TENANT_BUDGET`. -/
def maxTenantBudget : ℚ := 10 ^ 13 - 1 / 100

/-- `_revised_budget`; `none` is an edit of the window's dates only. -/
def revisedBudget (tenant : Tenant) (topUp : Option TopUp) : Except AllocationError ℚ :=
  let current := tenant.allocatedBudget.getD 0
  match topUp with
  | none => .ok current
  | some topUp => do
    require (current + topUp.amount ≤ maxTenantBudget) .budgetLimitExceeded
    return current + topUp.amount

/-- `cascade_tenant_budget_revision`. -/
def cascadeTenantBudgetRevision (tenantId : Nat) (newAmount : ℚ)
    (platformCoreDb : Option Connection) : Handler Unit := do
  let t ← read id
  let applications := activeApplications (t.applicationsOf tenantId)
  if applications = [] then pure ()
  else do
    let usage ← fetchBudgetUsage ((t.keysOfAll (applications.map (·.id))).map (·.id))
      platformCoreDb
    let _ ← check (resolveLevel newAmount (applicationRows t usage applications) [])
    stage fun t => t.mapApplications fun id share =>
      share.recompute (recomputeUnlistedPercentages newAmount
        (applications.map fun a => (a.id, a.toShare))) id

/-- What `revise_tenant_budget` does before its commit. -/
def stageTenantBudget (tenantId : Nat) (topUp : Option TopUp)
    (platformCoreDb : Option Connection) : Handler ℚ := do
  let t ← read id
  let tenant ← check (orRaise (t.tenant tenantId) .entityNotFound)
  let newBudget ← check (revisedBudget tenant topUp)
  cascadeTenantBudgetRevision tenantId newBudget platformCoreDb
  stage fun t =>
    { t with tenants := Table.modify (·.id) t.tenants tenantId fun r =>
        { r with allocatedBudget := some newBudget } }
  return newBudget

/-- The decision of `_sync_ppu_wallet_and_exhaustion` once the usage is read. -/
def syncFromUsage (tenantId : Nat) (allocatedBudget : ℚ) (keyIds : List Nat)
    (usage : List BudgetUsage) : Handler Unit :=
  if allocatedBudget - (usage.map (·.used)).sum ≤ 0 then
    setBudgetExhaustedForTenant tenantId true
  else
    setBudgetExhaustedForKeys
      (keyIds.filter fun id =>
        !(match (usageOf usage id).2 with
          | some snap => decide (snap ≤ (usageOf usage id).1)
          | none => false))
      false

/-- `_sync_ppu_wallet_and_exhaustion`: a read that raises ends it. -/
def syncPpuWalletAndExhaustion (tenantId : Nat) (allocatedBudget : ℚ)
    (platformCoreDb : Option Connection) : Handler Unit := do
  let keyIds ← read fun t => (t.keysOfTenant tenantId).map (·.id)
  let usage ← fetchBudgetUsageOrRaise keyIds platformCoreDb
  match usage with
  | none => pure ()
  | some usage => syncFromUsage tenantId allocatedBudget keyIds usage

/-- What `revise_tenant_budget` does from its commit on; `snapshot_writes` is empty. -/
def afterBudgetRevision (tenantId : Nat) (newBudget : ℚ) (platformCoreDb : Option Connection) :
    Handler Unit := do
  commit
  match platformCoreDb with
  | none => pure ()
  | some db => syncPpuWalletAndExhaustion tenantId newBudget (some db)

/-- `revise_tenant_budget`. -/
def reviseTenantBudget (tenantId : Nat) (topUp : Option TopUp)
    (platformCoreDb : Option Connection) : Handler Unit :=
  stageTenantBudget tenantId topUp platformCoreDb >>= fun newBudget =>
    afterBudgetRevision tenantId newBudget platformCoreDb

/-! ## Applications -/

/-- `_derive_budget`: `quantize` without a mode rounds half to even. -/
def deriveBudget (parentBudget : Option ℚ) (percentage : ℚ) : Option ℚ :=
  parentBudget.map fun parent => quantize halfEven (parent * percentage / 100)

/-- `_assert_allocation_within_cap`. -/
def assertAllocationWithinCap (t : Tables) (tenant : Tenant) (newPercentage : ℚ) :
    Except AllocationError Unit := do
  let applications := activeApplications (t.applicationsOf tenant.id)
  require ((applications.map fun a => a.allocatedPercentage.getD 0).sum + newPercentage ≤ 100)
    .allocationTotalExceeded
  match tenant.allocatedBudget with
  | none => pure ()
  | some budget =>
    require ((applications.map (·.amount)).sum
      + (deriveBudget (some budget) newPercentage).getD 0 ≤ budget) .allocationTotalExceeded

/-- The share of a new Application. -/
def newShare (t : Tables) (tenant : Tenant) (percentage : Option Percentage) :
    Except AllocationError Share :=
  match percentage with
  | none => .ok ⟨none, none⟩
  | some percentage => do
    assertAllocationWithinCap t tenant percentage.value
    return ⟨some percentage.value, deriveBudget tenant.allocatedBudget percentage.value⟩

/-- `create_application`; the schema has rounded the percentage. -/
def createApplication (tenantId : Nat) (percentage : Option Percentage) : Handler Unit := do
  let t ← read id
  let tenant ← check (orRaise (t.tenant tenantId) .entityNotFound)
  let share ← check (newShare t tenant percentage)
  stage fun t => t.insertApplication tenantId share
  commit

/-- `zero_allocation_for_applications`, for one row. -/
def zeroAllocation (applicationId : Nat) (k : APIKey) : APIKey :=
  if k.applicationId = applicationId ∧ k.isActive then { k with toShare := ⟨some 0, some 0⟩ }
  else k

/-- What `update_application` does before its commit: the ids of the keys it zeroed. -/
def stageUpdateApplication (tenantId applicationId : Nat) (status : Option ApplicationStatus) :
    Handler (List Nat) := do
  let t ← read id
  let app ← check (orRaise (t.application applicationId) .entityNotFound)
  check (require (app.tenantId = tenantId) .entityNotFound)
  if status = some .inactive ∧ app.status = .active then do
    stage fun t => { t with keys := t.keys.map (zeroAllocation applicationId) }
    stage fun t => t.modifyApplication applicationId fun a =>
      { a with toShare := ⟨none, none⟩, status := .inactive }
    return (t.keys.filter fun k => k.applicationId = applicationId ∧ k.isActive).map (·.id)
  else do
    stage fun t => t.modifyApplication applicationId fun a =>
      { a with status := status.getD a.status }
    return []

/-- What `update_application` does from its commit on. -/
def afterUpdateApplication (zeroedKeyIds : List Nat) (platformCoreDb : Option Connection) :
    Handler Unit := do
  commit
  writeBudgetSnapshot (zeroedKeyIds.map fun id => (id, 0)) platformCoreDb
  setBudgetExhaustedForKeys zeroedKeyIds true

/-- `update_application`. -/
def updateApplication (tenantId applicationId : Nat) (status : Option ApplicationStatus)
    (platformCoreDb : Option Connection) : Handler Unit :=
  stageUpdateApplication tenantId applicationId status >>= fun zeroed =>
    afterUpdateApplication zeroed platformCoreDb

/-! ## API keys -/

/-- `_committed_total_for_application`. -/
def committedTotalForApplication (keys : List APIKey) (budget : ℚ) (usage : List BudgetUsage) :
    ℚ :=
  (keys.map fun k =>
    let used := (usageOf usage k.id).1
    if k.isActive then
      max (match k.allocatedPercentage with
        | some percentage => percentage / 100 * budget
        | none => k.amount) used
    else used).sum

/-- The ceiling of a new key by its budget or its percentage: the percentage, the ceiling
that is checked and the budget that is stored. -/
def newCeiling (applicationBudget : ℚ) (percentage budget : Option ℚ) :
    Except AllocationError (ℚ × ℚ × ℚ) :=
  match percentage, budget with
  | some _, some _ => .error .percentageAmountMismatch
  | none, none => .error .allocationRequired
  | none, some budget => do
    require (0 < budget) .budgetTooSmall
    require (0 < applicationBudget) .applicationBudgetNotSet
    let percentage := quantize halfUp (budget / applicationBudget * 100)
    require (percentage ≠ 0) .budgetTooSmall
    return (percentage, quantize halfUp budget, quantize halfUp budget)
  | some percentage, none => do
    require (0 < percentage) .budgetTooSmall
    require (0 < applicationBudget) .applicationBudgetNotSet
    let ceiling := applicationBudget * percentage / 100
    require (0 < quantize halfUp ceiling) .budgetTooSmall
    -- the column keeps two decimal places
    return (percentage, ceiling, quantize halfUp ceiling)

/-- What `create_api_key` does before its commit: the id and the budget of the new key. -/
def stageApiKey (applicationId : Nat) (percentage budget : Option ℚ)
    (platformCoreDb : Option Connection) : Handler (Nat × ℚ) := do
  let t ← read id
  let application ← check (orRaise (t.application applicationId) .entityNotFound)
  let (percentage, ceiling, stored) ←
    check (newCeiling (application.allocatedBudget.getD 0) percentage budget)
  let applicationBudget := application.allocatedBudget.getD 0
  let keys := t.keysOf applicationId
  check (require (((active keys).map fun k => k.allocatedPercentage.getD 0).sum + percentage ≤ 100)
    .allocationTotalExceeded)
  let usage ← fetchBudgetUsage (keys.map (·.id)) platformCoreDb
  check (require (committedTotalForApplication keys applicationBudget usage + ceiling
    ≤ applicationBudget) .budgetOvercommitted)
  stage fun t => t.insertKey applicationId ⟨some percentage, some stored⟩
  return ((t.newKey applicationId ⟨some percentage, some stored⟩).id, stored)

/-- What `create_api_key` does from its commit on. `cached` says whether the Application
and its tenant are ACTIVE, so that the key gets its hash and its snapshot. -/
def afterApiKey (id : Nat) (stored : ℚ) (cached : Bool) (platformCoreDb : Option Connection) :
    Handler Unit := do
  commit
  writeBudgetSnapshot [(id, stored)] platformCoreDb
  effect fun o => if cached then { o with redis := o.redis ++ [(id, false)] } else o
  stage fun t =>
    if cached then
      { t with keys := Table.modify (·.id) t.keys id fun k => { k with cachedFlag := some false } }
    else t
  commit

/-- `create_api_key`. -/
def createApiKey (applicationId : Nat) (percentage budget : Option ℚ) (cached : Bool)
    (platformCoreDb : Option Connection) : Handler Unit :=
  stageApiKey applicationId percentage budget platformCoreDb >>= fun r =>
    afterApiKey r.1 r.2 cached platformCoreDb

/-- `revoke_by_obj`: the row is deactivated and its hashes are deleted. -/
def revokeKey (keyId : Nat) : Handler Unit := do
  let t ← read id
  let _ ← check (orRaise (t.key keyId) .entityNotFound)
  stage fun t =>
    { t with keys := Table.modify (·.id) t.keys keyId fun k => { k with isActive := false } }
  commit
  effect fun o => { o with redis := o.redis.filter fun e => e.1 ≠ keyId }

/-! ## Runs -/

/-- The four requests that revise budgets. -/
inductive Revision
  | tenantApplications (tenantId : Nat) (rows : List ApplicationAllocationRow)
  | applicationKeys (applicationId bodyApplicationId : Nat) (allocation : AllocationValue)
      (apiKeys : List APIKeyAllocationRow)
  | singleKey (keyId bodyKeyId : Nat) (allocation : AllocationValue)
  | tenantBudget (tenantId : Nat) (topUp : Option TopUp)

def Revision.handler (platformCoreDb : Option Connection) : Revision → Handler Unit
  | .tenantApplications tenantId rows =>
    updateTenantApplicationAllocations tenantId rows platformCoreDb
  | .applicationKeys applicationId bodyApplicationId allocation apiKeys =>
    updateApplicationKeyAllocations applicationId bodyApplicationId allocation apiKeys
      platformCoreDb
  | .singleKey keyId bodyKeyId allocation =>
    updateSingleApiKeyAllocation keyId bodyKeyId allocation platformCoreDb
  | .tenantBudget tenantId topUp => reviseTenantBudget tenantId topUp platformCoreDb

inductive Action
  | revise (revision : Revision) (platformCoreDb : Option Connection)
  | createApplication (tenantId : Nat) (percentage : Option Percentage)
  | updateApplication (tenantId applicationId : Nat) (status : Option ApplicationStatus)
      (platformCoreDb : Option Connection)
  | createApiKey (applicationId : Nat) (percentage budget : Option ℚ) (cached : Bool)
      (platformCoreDb : Option Connection)
  | revokeKey (keyId : Nat)
  /-- Keys spend: the billing consumer moves the ledger, in any way. -/
  | bill (ledger : List BudgetUsage)

def Action.handler : Action → Handler Unit
  | .revise revision platformCoreDb => revision.handler platformCoreDb
  | .createApplication tenantId percentage => Allocation.createApplication tenantId percentage
  | .updateApplication tenantId applicationId status platformCoreDb =>
    Allocation.updateApplication tenantId applicationId status platformCoreDb
  | .createApiKey applicationId percentage budget cached platformCoreDb =>
    Allocation.createApiKey applicationId percentage budget cached platformCoreDb
  | .revokeKey keyId => Allocation.revokeKey keyId
  | .bill ledger => effect fun o => { o with budgetUsage := ledger }

/-- The tables and the stores outside. -/
abbrev World := Tables × Outside

/-- A successful request. -/
def step (w : World) (a : Action) : Option World :=
  match call a.handler w with
  | (.ok _, w') => some w'
  | (.error _, _) => none

/-- A successful request is an accepted run of its handler. -/
theorem step_accepted {w w' : World} {a : Action} (h : step w a = some w') :
    ∃ u s, a.handler ⟨w.1, w.1, w.2⟩ = (.ok u, s) ∧ w' = (s.committed, s.outside) := by
  unfold step call at h
  cases hrun : a.handler ⟨w.1, w.1, w.2⟩ with
  | mk r s =>
    rw [hrun] at h
    cases r with
    | error e => cases h
    | ok u => exact ⟨u, s, rfl, (Option.some.inj h).symm⟩

end Ai4iCore.Allocation
