import Ai4iCore.Allocation.Validator
import Ai4iCore.Base.Table
import Ai4iCore.Base.Transaction

/-!
# Allocation: the tables and the stores next to them

The auth-service tables a budget allocation reads and writes (tenants, Applications, API
keys), and the two stores outside its transaction: platform-core's `budget_usage` ledger
(`budget_usage.py`) and the `budget-exhausted` fields of the API-key hashes in Redis.
Rows stand in the order they were inserted, which is the order of their ids.
-/

namespace Ai4iCore.Allocation

open Rounding Transaction Transaction.Txn

/-- The two allocation columns that `applications` and `api_key` share. -/
structure Share where
  allocatedPercentage : Option ℚ
  allocatedBudget : Option ℚ
  deriving DecidableEq, Repr

/-- `allocated_budget or 0`. -/
def Share.amount (share : Share) : ℚ := share.allocatedBudget.getD 0

structure Tenant where
  id : Nat
  allocatedBudget : Option ℚ
  deriving DecidableEq, Repr

inductive ApplicationStatus
  | active
  | inactive
  deriving DecidableEq, Repr

structure Application extends Share where
  id : Nat
  tenantId : Nat
  status : ApplicationStatus
  deriving DecidableEq, Repr

structure APIKey extends Share where
  id : Nat
  applicationId : Nat
  isActive : Bool
  /-- Whether `expires_at` has passed. -/
  isExpired : Bool
  /-- The `budget-exhausted` field of `cached_data`; `none` while there is no snapshot. -/
  cachedFlag : Option Bool
  deriving DecidableEq, Repr

structure Tables where
  tenants : List Tenant
  applications : List Application
  keys : List APIKey
  deriving DecidableEq, Repr

/-- A row of `budget_usage`, unique by `api_key_id`. What was used only ever grows, from 0. -/
structure BudgetUsage where
  apiKeyId : Nat
  used : ℚ
  snap : Option ℚ
  nonneg : 0 ≤ used
  deriving DecidableEq

structure Outside where
  budgetUsage : List BudgetUsage
  /-- The API-key hashes in Redis: the id of the key and the `budget-exhausted` field. A
  key in its rotation window has two. -/
  redis : List (Nat × Bool)
  deriving DecidableEq

abbrev Handler := Txn AllocationError Tables Outside

/-! ## Queries -/

/-- `_active_applications`. -/
def activeApplications (applications : List Application) : List Application :=
  applications.filter fun a => a.status = .active

/-- `_active`. -/
def active (keys : List APIKey) : List APIKey := keys.filter (·.isActive)

namespace Tables

def tenant (t : Tables) (id : Nat) : Option Tenant := Table.get (·.id) t.tenants id

def application (t : Tables) (id : Nat) : Option Application :=
  Table.get (·.id) t.applications id

def key (t : Tables) (id : Nat) : Option APIKey := Table.get (·.id) t.keys id

/-- `lock_tenant_applications`. -/
def applicationsOf (t : Tables) (tenantId : Nat) : List Application :=
  t.applications.filter fun a => a.tenantId = tenantId

/-- `list_by_application`, newest first. -/
def keysOf (t : Tables) (applicationId : Nat) : List APIKey :=
  (t.keys.filter fun k => k.applicationId = applicationId).reverse

/-- `list_by_applications`. -/
def keysOfAll (t : Tables) (applicationIds : List Nat) : List APIKey :=
  applicationIds.flatMap t.keysOf

/-- `list_by_tenant`. -/
def keysOfTenant (t : Tables) (tenantId : Nat) : List APIKey :=
  t.keysOfAll ((t.applicationsOf tenantId).map (·.id))

end Tables

/-! ## The ledger of platform-core -/

/-- A session of the platform-core database and whether its queries fail. -/
structure Connection where
  readFails : Bool
  writeFails : Bool
  deriving DecidableEq, Repr

/-- `fetch_budget_usage(…, raise_on_error=True)`; `none` when it raises. -/
def fetchBudgetUsageOrRaise (keyIds : List Nat) (platformCoreDb : Option Connection) :
    Handler (Option (List BudgetUsage)) :=
  match platformCoreDb with
  | none => pure (some [])
  | some db =>
    if keyIds = [] then pure (some [])
    else if db.readFails then pure none
    else look fun o => some (o.budgetUsage.filter fun u => u.apiKeyId ∈ keyIds)

/-- `fetch_budget_usage`, best effort: an empty map when the query fails. -/
def fetchBudgetUsage (keyIds : List Nat) (platformCoreDb : Option Connection) :
    Handler (List BudgetUsage) := do
  let usage ← fetchBudgetUsageOrRaise keyIds platformCoreDb
  return usage.getD []

/-- `usage_map.get(id, (0, None))`. -/
def usageOf (usage : List BudgetUsage) (id : Nat) : ℚ × Option ℚ :=
  match usage.find? fun u => u.apiKeyId = id with
  | some u => (u.used, u.snap)
  | none => (0, none)

/-- `_consumed_total`. -/
def consumedTotal (keys : List APIKey) (usage : List BudgetUsage) : ℚ :=
  (keys.map fun k => (usageOf usage k.id).1).sum

/-- The `INSERT … ON CONFLICT DO UPDATE` of `write_budget_snapshot`. -/
def upsertSnapshot (ledger : List BudgetUsage) (snapshot : Nat × ℚ) : List BudgetUsage :=
  if ledger.any fun u => u.apiKeyId = snapshot.1 then
    ledger.map fun u => if u.apiKeyId = snapshot.1 then { u with snap := some snapshot.2 } else u
  else ledger ++ [⟨snapshot.1, 0, some snapshot.2, le_rfl⟩]

/-- `write_budget_snapshot`; the column keeps two decimal places. -/
def writeBudgetSnapshot (snapshots : Dict Nat ℚ) (platformCoreDb : Option Connection) :
    Handler Unit :=
  match platformCoreDb with
  | none => pure ()
  | some db =>
    if db.writeFails then pure ()
    else effect fun o =>
      { o with budgetUsage :=
          (snapshots.map fun e => (e.1, quantize halfUp e.2)).foldl upsertSnapshot o.budgetUsage }

/-! ## The `budget-exhausted` flags -/

/-- `_active_key_conditions(require_cached_data=True)`. -/
def APIKey.patchable (k : APIKey) : Bool := k.isActive && !k.isExpired && k.cachedFlag.isSome

/-- `patch_api_key_cache_field`: a hash that is not there stays away. -/
def patchRedis (ids : List Nat) (value : Bool) (redis : List (Nat × Bool)) :
    List (Nat × Bool) :=
  redis.map fun e => if e.1 ∈ ids then (e.1, value) else e

def patchFlag (ids : List Nat) (value : Bool) (k : APIKey) : APIKey :=
  if k.id ∈ ids ∧ k.patchable then { k with cachedFlag := some value } else k

/-- `set_budget_exhausted_for_keys`. -/
def setBudgetExhaustedForKeys (keyIds : List Nat) (exhausted : Bool) : Handler Unit :=
  if keyIds = [] then pure ()
  else do
    let touched ← read fun t => (t.keys.filter fun k => k.id ∈ keyIds ∧ k.patchable).map (·.id)
    stage fun t => { t with keys := t.keys.map (patchFlag keyIds exhausted) }
    effect fun o => { o with redis := patchRedis touched exhausted o.redis }
    commit

/-- `set_budget_exhausted_for_tenant`: the hashes of every active key, with or without a
snapshot, then the snapshots. -/
def setBudgetExhaustedForTenant (tenantId : Nat) (exhausted : Bool) : Handler Unit := do
  let ids ← read fun t =>
    ((t.keysOfTenant tenantId).filter fun k => k.isActive && !k.isExpired).map (·.id)
  effect fun o => { o with redis := patchRedis ids exhausted o.redis }
  stage fun t => { t with keys := t.keys.map (patchFlag ids exhausted) }
  commit

/-! ## Writing allocations -/

/-- The writes of `_resolve_and_persist_level` to one row. -/
def Share.resolve (resolved : List ResolvedRow) (id : Nat) (share : Share) : Share :=
  match resolved.find? fun r => r.id = id with
  | some r => if r.changed then ⟨some r.percentage, some r.amount⟩ else share
  | none => share

/-- The loop of `_recompute_unlisted_percentages` over the funded entities: everything is
rounded down but the last, which takes what is left of the target. -/
def residualPercentages (newAmount target : ℚ) : ℚ → List (Nat × Share) → Dict Nat ℚ
  | _, [] => []
  | running, [e] => [(e.1, target - running)]
  | running, e :: e' :: rest =>
    let percentage := quantize down (e.2.amount / newAmount * 100)
    (e.1, percentage) :: residualPercentages newAmount target (running + percentage) (e' :: rest)

/-- `_recompute_unlisted_percentages`: the new percentages by id. -/
def recomputeUnlistedPercentages (newAmount : ℚ) (entities : List (Nat × Share)) : Dict Nat ℚ :=
  let funded := entities.filter fun e => e.2.amount ≠ 0
  if newAmount = 0 then funded.map fun e => (e.1, 0)
  else
    let totalAllocated := (entities.map fun e => e.2.amount).sum
    let target := quantize halfUp (totalAllocated / newAmount * 100)
    residualPercentages newAmount target 0 funded

/-- The write of `_recompute_unlisted_percentages` to one row. -/
def Share.recompute (percentages : Dict Nat ℚ) (id : Nat) (share : Share) : Share :=
  match percentages.get? id with
  | some percentage =>
    if percentage ≠ share.allocatedPercentage.getD 0 then
      { share with allocatedPercentage := some percentage }
    else share
  | none => share

/-- Rewrite the shares of the Applications. -/
def Tables.mapApplications (t : Tables) (f : Nat → Share → Share) : Tables :=
  { t with applications := t.applications.map fun a => { a with toShare := f a.id a.toShare } }

/-- Rewrite the shares of the keys. -/
def Tables.mapKeys (t : Tables) (f : Nat → Share → Share) : Tables :=
  { t with keys := t.keys.map fun k => { k with toShare := f k.id k.toShare } }

/-- Rewrite one Application. -/
def Tables.modifyApplication (t : Tables) (id : Nat) (f : Application → Application) : Tables :=
  { t with applications := Table.modify (·.id) t.applications id f }

/-- The next value of a serial primary key. -/
def nextId (ids : List Nat) : Nat := ids.foldl max 0 + 1

/-- The row of a new Application. -/
def Tables.newApplication (t : Tables) (tenantId : Nat) (share : Share) : Application :=
  { toShare := share, id := nextId (t.applications.map (·.id)), tenantId := tenantId,
    status := .active }

def Tables.insertApplication (t : Tables) (tenantId : Nat) (share : Share) : Tables :=
  { t with applications := t.applications ++ [t.newApplication tenantId share] }

/-- The row of a new key. -/
def Tables.newKey (t : Tables) (applicationId : Nat) (share : Share) : APIKey :=
  { toShare := share, id := nextId (t.keys.map (·.id)), applicationId := applicationId,
    isActive := true, isExpired := false, cachedFlag := none }

def Tables.insertKey (t : Tables) (applicationId : Nat) (share : Share) : Tables :=
  { t with keys := t.keys ++ [t.newKey applicationId share] }

end Ai4iCore.Allocation
