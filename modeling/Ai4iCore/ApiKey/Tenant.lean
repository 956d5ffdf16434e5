import Ai4iCore.ApiKey.Service

/-!
# The keys of a tenant

A tenant with its applications, all their API keys and the Redis hashes of these
keys, under the requests that copy or preserve the tenant's tier:
`create_api_key`, `assign_tenant_tier` and `unassign_tenant_tier` with their
tenant-wide fan-out, `update_tenant_status`, and the single-key handlers of
`Service`, here run one after the other against the whole table (`execAt`).

`tenants.tier_id` is copied into `cached_data` and into the hashes when a key is
created; afterwards only the fan-out rewrites it.
-/

namespace Ai4iCore.ApiKey

open Concurrent

/-- An application of the tenant. -/
structure TenantApplication where
  id : Nat
  status : ApplicationStatus
deriving Repr, DecidableEq

/-- The tenant's row, its applications, their keys, and Redis. -/
structure TenantKeys where
  now : Time
  tenant : Tenant
  applications : List TenantApplication
  rows : List Row
  redis : Redis

namespace TenantKeys

/-- The application that owns a row. -/
def application (k : TenantKeys) (applicationId : Nat) : Option Application :=
  (k.applications.find? fun a => a.id = applicationId).map fun a => ⟨k.tenant.id, a.status⟩

/-- A guarded `UPDATE` of row `i`. -/
def updateRow (k : TenantKeys) (i : Nat) (f : Row → Option Row) : TenantKeys × Bool :=
  match (k.rows[i]?).bind f with
  | some row => ({ k with rows := k.rows.set i row }, true)
  | none => (k, false)

end TenantKeys

/-- The operations of the key service on the whole table, for a handler that works on
row `i`. -/
def execAt (i : Nat) : (o : Op) → TenantKeys → TenantKeys × o.Res
  | .now, k => (k, k.now)
  | .getApiKeyCache value, k => (k, k.redis.getApiKeyCache k.now value)
  | .setApiKeyCache value ttl data, k =>
    ({ k with redis := k.redis.setApiKeyCache k.now value ttl data }, ())
  | .deleteApiKeyCache value, k => ({ k with redis := k.redis.deleteApiKeyCache value }, ())
  | .selectRow, k => (k, k.rows[i]?)
  | .getByApiKeyIfValid value now, k =>
    (k, (k.rows.filter fun row => row.matchesIfValid value now).map fun row =>
      (row, k.application row.applicationId, some k.tenant))
  | .revoke, k => ({ k with rows := k.rows.modify i fun row => { row with isActive := false } }, ())
  | .update data, k => ({ k with rows := k.rows.modify i fun row => row.apply data }, ())
  | .rotate current new expiresAt now, k =>
    k.updateRow i fun row => row.rotate current new expiresAt now
  | .endRotation rotated now, k => k.updateRow i fun row => row.endRotation rotated now
  | .extendRotation rotated new now, k =>
    k.updateRow i fun row => row.extendRotation rotated new now
  | .applicationAndTenant, k =>
    let application := (k.rows[i]?).bind fun row => k.application row.applicationId
    (k, application, application.map fun _ => k.tenant)
  | .keyValueInUse value, k => (k, k.rows.any fun row => decide (value ∈ row.values))

/-- A handler on row `i`, from start to end. -/
def TenantKeys.handle {α : Type} (k : TenantKeys) (i : Nat) (p : Handler α) : TenantKeys :=
  (p.run (S := sig) (execAt i) k).1

/-! ## Fan-out over the tenant's keys -/

namespace Redis

/-- `patch_api_key_cache_field`, and with `onlyIfPresent` the `_if_present` variant: set a
field of a hash that exists. -/
def patchField (r : Redis) (now : Time) (field value : String) (onlyIfPresent : Bool)
    (v : KeyValue) : Redis :=
  match r.entryAt now v with
  | some e =>
    if onlyIfPresent && (e.fields.lookup field).isNone then r
    else Function.update r v (some { e with fields := e.fields.insert field (.str value) })
  | none => r

/-- `delete_api_key_cache_fields`. -/
def deleteFields (r : Redis) (fields : List String) (v : KeyValue) : Redis :=
  Function.update r v ((r v).map fun e =>
    { e with fields := e.fields.filterKeys fun name => !fields.contains name })

end Redis

namespace TenantKeys

/-- `list_active_keys_for_tenant`, all pages of it. -/
def activeKeys (k : TenantKeys) : List Row := k.rows.filter fun row => row.activeConditions k.now

/-- The values the tenant-wide fan-out visits. -/
def fanOutValues (k : TenantKeys) : List KeyValue :=
  k.activeKeys.flatMap fun row => row.cacheKeyValues k.now

/-- One row of `patch_cached_data_field_for_tenant`. -/
def patchRow (now : Time) (field value : String) (onlyIfPresent : Bool) (row : Row) : Row :=
  match row.cachedData with
  | some d =>
    if row.activeConditions now && (!onlyIfPresent || (d.lookup field).isSome) then
      { row with cachedData := some (d.insert field (.str value)) }
    else row
  | none => row

/-- `_patch_all_tenant_key_caches`. -/
def patchAllTenantKeyCaches (k : TenantKeys) (field value : String) (onlyIfPresent : Bool) :
    TenantKeys :=
  { k with
    redis := k.fanOutValues.foldl (fun r v => r.patchField k.now field value onlyIfPresent v)
      k.redis
    rows := k.rows.map (patchRow k.now field value onlyIfPresent) }

/-- One row of `remove_cached_data_fields_for_tenant`. -/
def removeFields (now : Time) (fields : List String) (row : Row) : Row :=
  if row.activeConditions now then
    { row with cachedData :=
        row.cachedData.map fun d => d.filterKeys fun name => !fields.contains name }
  else row

/-- `_quota_field_names`, from the names in the inference type catalogue. -/
def quotaFieldNames (catalogue : List String) : List String :=
  catalogue.map fun name => "quota-" ++ name

/-- `clear_quota_flags_for_tenant`; an empty catalogue is an unreachable one. -/
def clearQuotaFlags (k : TenantKeys) (catalogue : List String) : TenantKeys :=
  if catalogue.isEmpty then k
  else
    { k with
      redis := k.fanOutValues.foldl (fun r v => r.deleteFields (quotaFieldNames catalogue) v) k.redis
      rows := k.rows.map (removeFields k.now (quotaFieldNames catalogue)) }

/-- Delete the hashes of the values of `rows`. -/
def deleteCachesOf (k : TenantKeys) (rows : List Row) : TenantKeys :=
  { k with
    redis := (rows.flatMap Row.values).foldl (fun r v => r.deleteApiKeyCache v) k.redis }

/-- `evict_keys_for_tenant`. -/
def evictKeysForTenant (k : TenantKeys) : TenantKeys := k.deleteCachesOf k.activeKeys

/-- The rows `revoke_active_for_applications` matches. -/
def revocable (k : TenantKeys) (row : Row) : Bool :=
  (k.applications.any fun a => a.id = row.applicationId) && row.isActive

/-- `revoke_keys_for_tenant`. -/
def revokeKeysForTenant (k : TenantKeys) : TenantKeys :=
  { k with rows := k.rows.map fun row =>
      if k.revocable row then { row with isActive := false } else row }.deleteCachesOf
    (k.rows.filter k.revocable)

/-- One key of `refresh_keys_cache_for_application`'s loop. -/
def refreshKey (settings : Settings) (a : TenantApplication) (k : TenantKeys) (i : Nat) :
    TenantKeys :=
  match k.rows[i]? with
  | some row =>
    if row.applicationId = a.id ∧ row.isActive ∧ !row.isExpired k.now then
      k.handle i (refreshRedisCache settings row (some k.tenant.id) k.tenant.budgetEffectiveTo)
    else k
  | none => k

/-- `refresh_keys_cache_for_application`. -/
def refreshKeysCacheForApplication (settings : Settings) (k : TenantKeys)
    (a : TenantApplication) : TenantKeys :=
  if applicationMayUseApiKeys (some ⟨k.tenant.id, a.status⟩) (some k.tenant) then
    (List.range k.rows.length).foldl (refreshKey settings a) k
  else k.deleteCachesOf (k.rows.filter fun row => row.applicationId = a.id)

/-- `refresh_keys_cache_for_tenant`. -/
def refreshKeysCacheForTenant (settings : Settings) (k : TenantKeys) : TenantKeys :=
  k.applications.foldl (refreshKeysCacheForApplication settings) k

/-! ## The requests -/

/-- `ALLOWED_TENANT_STATUS_TRANSITIONS`. -/
def statusTransitionAllowed : TenantStatus → TenantStatus → Bool
  | .pending, .deactivated => true
  | .active, .suspended => true
  | .active, .deactivated => true
  | .suspended, .active => true
  | .suspended, .deactivated => true
  | .deactivated, .active => true
  | _, _ => false

/-- `update_tenant_status`. -/
def updateTenantStatus (settings : Settings) (k : TenantKeys) (status : TenantStatus) :
    TenantKeys :=
  if statusTransitionAllowed k.tenant.status status then
    let k := { k with tenant := { k.tenant with status := status } }
    match status with
    | .suspended => k.evictKeysForTenant
    | .deactivated => k.revokeKeysForTenant
    | .active => k.refreshKeysCacheForTenant settings
    | .pending => k
  else k

/-- `assign_tenant_tier`: a tier the tenant is already on is refused. -/
def assignTenantTier (k : TenantKeys) (tierId : TierId) (catalogue : List String) :
    TenantKeys :=
  if k.tenant.tierId = some tierId then k
  else
    (({ k with tenant := { k.tenant with tierId := some tierId } }).clearQuotaFlags
      catalogue).patchAllTenantKeyCaches tierIdField tierId.1 false

/-- `unassign_tenant_tier`. The empty text is `UNASSIGNED_TIER_ID`. -/
def unassignTenantTier (k : TenantKeys) : TenantKeys :=
  ({ k with tenant := { k.tenant with tierId := none } }).patchAllTenantKeyCaches
    tierIdField "" true

/-- A request for a new key that passes the allocation checks. `value` is what
`secrets.token_hex` draws. -/
structure NewKey where
  id : Nat
  applicationId : Nat
  value : KeyValue
  permissions : List Nat
  expiresDays : Option Int
  createdBy : String
deriving Repr, DecidableEq

/-- `is_budget_window_expired`: only the calendar day counts. -/
def isBudgetWindowExpired (budgetEffectiveTo : Option Time) (now : Time) : Bool :=
  budgetEffectiveTo.any fun t => t / (daySeconds 1 * second) < now / (daySeconds 1 * second)

/-- The row `create_api_key` inserts. -/
def newRow (settings : Settings) (c : NewKey) (now : Time) : Row where
  id := c.id
  applicationId := c.applicationId
  apiKey := c.value
  permissions := c.permissions
  expiresAt := some (now + daySeconds ((c.expiresDays.map Int.toNat).getD
    settings.apiKeyExpireDays) * second)
  isActive := true
  createdBy := some c.createdBy
  cachedData := none
  rotatedKey := none
  rotatedKeyExpiresAt := none

/-- The cache part of `create_api_key`: the first hash and the first snapshot. -/
def cacheNewKey (settings : Settings) (c : NewKey) (row : Row) (tenant : Tenant)
    (tierId : TierId) : Handler Row := do
  let payload := buildCachePayload row (some tenant.id) tenant.budgetEffectiveTo
    (AList.singleton tierIdField (.str tierId.1))
  perform (.setApiKeyCache c.value
    (daySeconds ((c.expiresDays.map Int.toNat).getD settings.apiKeyExpireDays)) payload)
  persistCacheSnapshot row payload

/-- `create_api_key`. A refused request changes nothing. -/
def createApiKey (settings : Settings) (k : TenantKeys) (c : NewKey) : TenantKeys :=
  match k.application c.applicationId, k.tenant.tierId with
  | some application, some tierId =>
    if (c.expiresDays.any fun days => days < 1) ||
        isBudgetWindowExpired k.tenant.budgetEffectiveTo k.now ||
        k.rows.any (fun row => row.apiKey = c.value) then k
    else
      let row := newRow settings c k.now
      let k' := { k with rows := k.rows ++ [row] }
      if applicationMayUseApiKeys (some application) (some k.tenant) then
        k'.handle k.rows.length (cacheNewKey settings c row k.tenant tierId)
      else k'
  | _, _ => k

/-- What can happen to a tenant's keys. -/
inductive Action
  | tick (elapsed : Time)
  | evict (value : KeyValue)
  | createApiKey (c : NewKey)
  | assignTenantTier (tierId : TierId) (catalogue : List String)
  | unassignTenantTier
  | updateTenantStatus (status : TenantStatus)
  | request (i : Nat) (r : Request)
deriving Repr, DecidableEq

/-- One action, from start to end. -/
def step (settings : Settings) (k : TenantKeys) : Action → Option TenantKeys
  | .tick elapsed => some { k with now := k.now + elapsed }
  | .evict value => some { k with redis := k.redis.deleteApiKeyCache value }
  | .createApiKey c => some (k.createApiKey settings c)
  | .assignTenantTier tierId catalogue => some (k.assignTenantTier tierId catalogue)
  | .unassignTenantTier => some k.unassignTenantTier
  | .updateTenantStatus status => some (k.updateTenantStatus settings status)
  | .request i r => some (k.handle i (code settings r))

/-- A tenant before its first key. -/
def initial (now : Time) (tenant : Tenant) (applications : List TenantApplication) :
    TenantKeys :=
  ⟨now, tenant, applications, [], fun _ => none⟩

/-! ## The gateway -/

/-- `_validate_api_key` in the state `k`: the `X-Tier-ID` the request is forwarded with, or
`none` when it is refused. `otherChecks` are its remaining checks of the result (endpoint
permission, tier status, budget window, budget and quota). -/
def forwardedTier (settings : Settings) (otherChecks : Record Field → Bool) (k : TenantKeys)
    (token : String) : Option String :=
  match ((validateApiKey settings token).run (S := sig) (execAt 0) k).2 with
  | .ok (.valid result) =>
    if otherChecks result then
      match result.lookup tierIdField with
      -- an empty tier was explicitly removed: NO_ACTIVE_TIER
      | some (.str tierId) => if tierId = "" then none else some tierId
      | _ => some ""
    else none
  | _ => none

end TenantKeys

end Ai4iCore.ApiKey
