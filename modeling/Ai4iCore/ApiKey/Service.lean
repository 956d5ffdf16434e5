import Ai4iCore.ApiKey.Row
import Ai4iCore.Base.Pool

/-!
# The API key service, operation by operation

`validate_api_key` and the mutators `revoke_by_obj`, `update_key_by_obj`,
`rotate_by_obj`, `end_rotation_by_obj` and `extend_rotation_by_obj` of
`api_key_service.py`, over one row of `api_key` and the Redis hashes of its
values. Every DB statement (with its commit) and every Redis command is one
operation, so requests interleave exactly where the handlers `await`.

A mutator works on a copy of the row that its route fetched (`loadKey`); only
`refresh` brings the copy up to date. The application and the tenant are loaded
once per session: the session's identity map hands the same objects back when
they are selected again.
-/

namespace Ai4iCore.ApiKey

open Concurrent

/-! ## Operations -/

/-- The shared state: the clock, the row with its application and tenant, and Redis. -/
structure Store where
  now : Time
  row : Row
  application : Option Application
  tenant : Option Tenant
  redis : Redis

/-- One DB or Redis operation, or a reading of the clock. -/
inductive Op
  | now
  | getApiKeyCache (value : KeyValue)
  | setApiKeyCache (value : KeyValue) (ttlSeconds : Nat) (data : Payload)
  | deleteApiKeyCache (value : KeyValue)
  | selectRow
  | getByApiKeyIfValid (value : KeyValue) (now : Time)
  | revoke
  | update (data : RowUpdate)
  | rotate (currentValue newValue : KeyValue) (expiresAt now : Time)
  | endRotation (rotatedValue : KeyValue) (now : Time)
  | extendRotation (rotatedValue : KeyValue) (newExpiresAt now : Time)
  | applicationAndTenant
  | keyValueInUse (value : KeyValue)
deriving DecidableEq

/-- What an operation answers. -/
abbrev Op.Res : Op → Type
  | .now => Time
  | .getApiKeyCache _ => Option Hash
  | .selectRow => Option Row
  | .getByApiKeyIfValid _ _ => List (Row × Option Application × Option Tenant)
  | .rotate _ _ _ _ | .endRotation _ _ | .extendRotation _ _ _ => Bool
  | .applicationAndTenant => Option Application × Option Tenant
  | .keyValueInUse _ => Bool
  | .setApiKeyCache _ _ _ | .deleteApiKeyCache _ | .revoke | .update _ => Unit

/-- The errors the service raises, by their codes. -/
inductive ServiceError
  | invalidApiKey
  | invalidExpiresDays
  | apiKeyNotRotatable
  | rotationInProgress
  | invalidGracePeriod
  | apiKeyGenerationFailed
  | noRotationInProgress
  | invalidGraceExtension
  | entityNotFound
  | multipleResultsFound
  | ioError
deriving Repr, DecidableEq

/-- The operations of the key service. -/
abbrev sig : Signature where
  Op := Op
  Res := Op.Res
  Err := ServiceError
  ioError := .ioError

/-- A program of the key service. -/
abbrev Handler := Prog sig

/-- Perform one operation. -/
def perform (o : Op) : Handler o.Res := Prog.perform (S := sig) o

/-- A guarded `UPDATE`: the row it leaves, and whether it matched. -/
def Store.updateRow (s : Store) (row? : Option Row) : Store × Bool :=
  match row? with
  | some row => ({ s with row := row }, true)
  | none => (s, false)

/-- What an operation does to the store. -/
def exec : (o : Op) → Store → Store × o.Res
  | .now, s => (s, s.now)
  | .getApiKeyCache value, s => (s, s.redis.getApiKeyCache s.now value)
  | .setApiKeyCache value ttl data, s =>
    ({ s with redis := s.redis.setApiKeyCache s.now value ttl data }, ())
  | .deleteApiKeyCache value, s => ({ s with redis := s.redis.deleteApiKeyCache value }, ())
  | .selectRow, s => (s, some s.row)
  | .getByApiKeyIfValid value now, s =>
    (s, if s.row.matchesIfValid value now then [(s.row, s.application, s.tenant)] else [])
  | .revoke, s => ({ s with row := { s.row with isActive := false } }, ())
  | .update data, s => ({ s with row := s.row.apply data }, ())
  | .rotate current new expiresAt now, s => s.updateRow (s.row.rotate current new expiresAt now)
  | .endRotation rotated now, s => s.updateRow (s.row.endRotation rotated now)
  | .extendRotation rotated new now, s => s.updateRow (s.row.extendRotation rotated new now)
  | .applicationAndTenant, s => (s, s.application, s.application.bind fun _ => s.tenant)
  | .keyValueInUse value, s => (s, decide (value ∈ s.row.values))

/-- Load the row a handler works on, or load it again (`get_by_id_for_scope`, `refresh`). -/
def loadRow : Handler Row := do
  match (← perform .selectRow : Option Row) with
  | some row => return row
  | none => throw .entityNotFound

/-! ## `validate_api_key` -/

/-- What a handler answers. -/
inductive Reply
  | valid (result : Record Field)
  | malformed
  | revoked
  | updated (row : Row)
  | rotated (newValue : KeyValue) (row : Row)
  | rotationEnded (row : Row)
  | rotationExtended (row : Row)
deriving DecidableEq

section Handlers

variable (settings : Settings)

/-- `_rehydrate_cache_from_db`. -/
def rehydrateCacheFromDb (row : Row) (token : KeyValue) : Handler Payload := do
  match row.cachedData with
  | none => throw .invalidApiKey
  | some payload =>
    if payload.entries.isEmpty then throw .invalidApiKey
    else do
      let now : Time ← perform .now
      let ttl := cacheTtlFor settings row token now
      if ttl = 0 then
        return payload
      else
        perform (.setApiKeyCache token ttl payload)
        return payload

/-- `_tombstone_invalid_token`. -/
def tombstoneInvalidToken (token : KeyValue) : Handler Unit :=
  perform (.setApiKeyCache token settings.invalidApiKeyCacheTtlSeconds tombstone)

/-- `_resolve_from_db_or_tombstone`. -/
def resolveFromDbOrTombstone (token : KeyValue) : Handler Payload := do
  let now : Time ← perform .now
  let found ← perform (.getByApiKeyIfValid token now)
  -- `scalar_one_or_none`
  match found with
  | [] => do
    tombstoneInvalidToken settings token
    throw .invalidApiKey
  | [(row, application, tenant)] =>
    if isKeyEligible application tenant then
      rehydrateCacheFromDb settings row token
    else do
      tombstoneInvalidToken settings token
      throw .invalidApiKey
  | _ => throw .multipleResultsFound

/-- `validate_api_key` on a well-formed token. The reply is the payload;
`_shape_validation_result` only adds `valid` and a copy of the permissions to it. -/
def validateValue (token : KeyValue) : Handler Reply := do
  let cached ← perform (.getApiKeyCache token)
  match cached with
  | some cached =>
    if isCacheEntryInvalid cached then throw .invalidApiKey
    else return .valid cached
  | none => do
    let payload ← resolveFromDbOrTombstone settings token
    return .valid payload

/-- `validate_api_key`. -/
def validateApiKey (token : String) : Handler Reply :=
  if h : isApiKey token = true then validateValue settings ⟨token, h⟩
  else return .malformed

/-! ## Cache maintenance -/

/-- `_delete_key_caches`. -/
def deleteKeyCaches (row : Row) : Handler Unit :=
  Prog.each (fun value => perform (.deleteApiKeyCache value)) row.values

/-- `_persist_cache_snapshot`. The copy carries the snapshot afterwards. -/
def persistCacheSnapshot (row : Row) (payload : Payload) : Handler Row := do
  let data : RowUpdate := { cachedData := some ((preservedBillingFields row).overlay payload) }
  perform (.update (data.dirty row))
  return row.apply data

/-- One hash of `_refresh_redis_cache`'s loop. -/
def writeValue (row : Row) (payload : Payload) (value : KeyValue) : Handler Unit := do
  let now : Time ← perform .now
  let ttl := cacheTtlFor settings row value now
  if ttl = 0 then
    return ()
  else
    perform (.setApiKeyCache value ttl payload)

/-- `_refresh_redis_cache`. -/
def refreshRedisCache (row : Row) (tenantId : Option Nat) (budgetEffectiveTo : Option Time) :
    Handler Row := do
  let now : Time ← perform .now
  if computeCacheTtl settings row now = 0 then
    return row
  else do
    let existing ← perform (.getApiKeyCache row.apiKey)
    let preserved := (preservedBillingFields row).overlay (billingFields (existing.getD ∅))
    let payload := buildCachePayload row tenantId budgetEffectiveTo
      ((preservedTierId row).overlay preserved)
    let now : Time ← perform .now
    Prog.each (writeValue settings row payload) (row.cacheKeyValues now)
    persistCacheSnapshot row payload

/-- `_persist_current_state_to_cached_data`. -/
def persistCurrentStateToCachedData (row : Row) (tenantId : Option Nat)
    (budgetEffectiveTo : Option Time) : Handler Row :=
  persistCacheSnapshot row
    (buildCachePayload row tenantId budgetEffectiveTo (preservedTierId row))

/-! ## The mutators -/

/-- `revoke_by_obj`. -/
def revokeByObj : Handler Reply := do
  perform .revoke
  let row ← loadRow
  deleteKeyCaches row
  return .revoked

/-- The columns `update_key_by_obj` sets on the copy `row`, permission names resolved. -/
def updateColumns (row : Row) (permissions : Option (List Nat)) (expiresDays : Option Int)
    (now : Time) : RowUpdate :=
  match expiresDays with
  | none => { permissions := permissions }
  | some days =>
    let expiresAt := now + daySeconds days.toNat * second
    { permissions := permissions
      expiresAt := some expiresAt
      rotatedKeyExpiresAt :=
        -- The rotated key never outlives the key itself.
        if row.rotatedKeyExpiresAt.any fun t => expiresAt < t then some expiresAt else none }

/-- `update_key_by_obj`. -/
def updateKeyByObj (row : Row) (permissions : Option (List Nat)) (expiresDays : Option Int) :
    Handler Reply := do
  if expiresDays.any fun days => days < 1 then throw .invalidExpiresDays
  else do
    let now : Time ← perform .now
    let data := updateColumns row permissions expiresDays now
    perform (.update (data.dirty row))
    let row := row.apply data
    let (application, tenant) ← perform .applicationAndTenant
    let tenantId := application.map Application.tenantId
    let budgetEffectiveTo := tenant.bind Tenant.budgetEffectiveTo
    let now : Time ← perform .now
    if application.isSome && effectiveIsActive row application tenant now then do
      let _ ← refreshRedisCache settings row tenantId budgetEffectiveTo
      let row ← loadRow
      return .updated row
    else do
      deleteKeyCaches row
      let _ ← persistCurrentStateToCachedData row tenantId budgetEffectiveTo
      let row ← loadRow
      return .updated row

/-- `_generate_unused_key`, on the values `secrets.token_hex` draws. -/
def generateUnusedKey : List KeyValue → Handler KeyValue
  | [] => throw .apiKeyGenerationFailed
  | value :: draws => do
    let inUse : Bool ← perform (.keyValueInUse value)
    if inUse then generateUnusedKey draws else return value

/-- Zero-day rotation window: the old value stops now. -/
def dropEndedValue (row : Row) (oldValue : KeyValue) : Handler Unit := do
  let now : Time ← perform .now
  if (row.liveRotatedKey now).isNone then perform (.deleteApiKeyCache oldValue)
  else return ()

/-- The `try` block of `rotate_by_obj`: rewrite the hashes, drop the old value's when its
window is over, and drop all of them when the row or its owners stopped being
active meanwhile. -/
def rotateCaches (row : Row) (oldValue : KeyValue) (application : Option Application)
    (tenant : Option Tenant) : Handler Unit := do
  let row ← refreshRedisCache settings row (application.map Application.tenantId)
    (tenant.bind Tenant.budgetEffectiveTo)
  dropEndedValue row oldValue
  let row ← loadRow
  -- The identity map still holds the application and tenant loaded before.
  let _ ← perform .applicationAndTenant
  let now : Time ← perform .now
  if application.isNone || !effectiveIsActive row application tenant now then
    deleteKeyCaches row
  else return ()

/-- `rotate_by_obj`. -/
def rotateByObj (row : Row) (graceDays : Nat) (draws : List KeyValue) : Handler Reply := do
  let (application, tenant) ← perform .applicationAndTenant
  let now : Time ← perform .now
  if application.isNone || !effectiveIsActive row application tenant now then
    throw .apiKeyNotRotatable
  else if (row.liveRotatedKey now).isSome then throw .rotationInProgress
  else do
    let rotatedKeyExpiresAt := now + daySeconds graceDays * second
    if row.expiresAt.any fun t => t < rotatedKeyExpiresAt then throw .invalidGracePeriod
    else do
      let newValue ← generateUnusedKey (draws.take 3)
      let oldValue := row.apiKey
      let now : Time ← perform .now
      let rotated : Bool ← perform (.rotate oldValue newValue rotatedKeyExpiresAt now)
      if rotated then do
        let row ← loadRow
        Prog.tryCatch (rotateCaches settings row oldValue application tenant) fun _ =>
          Prog.tryCatch (deleteKeyCaches row) fun _ => return ()
        return .rotated newValue row
      else throw .rotationInProgress

/-- `end_rotation_by_obj`. -/
def endRotationByObj (row : Row) : Handler Reply := do
  let now : Time ← perform .now
  match row.liveRotatedKeyExpiresAt now, row.liveRotatedKey now with
  | some _, some oldValue => do
    let ended : Bool ← perform (.endRotation oldValue now)
    if ended then do
      let row ← loadRow
      Prog.tryCatch (perform (.deleteApiKeyCache oldValue)) fun _ => return ()
      return .rotationEnded row
    else throw .noRotationInProgress
  | _, _ => throw .noRotationInProgress

/-- The `try` block of `extend_rotation_by_obj`. -/
def extendCaches (row : Row) : Handler Unit := do
  let (application, tenant) ← perform .applicationAndTenant
  let now : Time ← perform .now
  if application.isSome && effectiveIsActive row application tenant now then do
    let _ ← refreshRedisCache settings row (application.map Application.tenantId)
      (tenant.bind Tenant.budgetEffectiveTo)
    return ()
  else return ()

/-- `extend_rotation_by_obj`. -/
def extendRotationByObj (row : Row) (newExpiresAt : Time) : Handler Reply := do
  let now : Time ← perform .now
  match row.liveRotatedKeyExpiresAt now, row.liveRotatedKey now with
  | some currentEnd, some oldValue =>
    if newExpiresAt ≤ currentEnd then throw .invalidGraceExtension
    else if row.expiresAt.any fun t => t < newExpiresAt then throw .invalidGraceExtension
    else do
      let extended : Bool ← perform (.extendRotation oldValue newExpiresAt now)
      if extended then do
        let row ← loadRow
        Prog.tryCatch (extendCaches settings row) fun _ => return ()
        return .rotationExtended row
      else throw .noRotationInProgress
  | _, _ => throw .noRotationInProgress

/-! ## Requests -/

/-- A request to the service. Randomness is part of the request: `draws` are the values
`generate_api_key` returns. -/
inductive Request
  | validate (token : String)
  | revoke
  | update (permissions : Option (List Nat)) (expiresDays : Option Int)
  | rotate (graceDays : Nat) (draws : List KeyValue)
  | endRotation
  | extendRotation (newExpiresAt : Time)
deriving Repr, DecidableEq

/-- The program of a request: a mutator's route fetches the row first
(`get_by_id_for_scope`). -/
def code : Request → Handler Reply
  | .validate token => validateApiKey settings token
  | .revoke => do
    let _ ← loadRow
    revokeByObj
  | .update permissions expiresDays => do
    let row ← loadRow
    updateKeyByObj settings row permissions expiresDays
  | .rotate graceDays draws => do
    let row ← loadRow
    rotateByObj settings row graceDays draws
  | .endRotation => do
    let row ← loadRow
    endRotationByObj row
  | .extendRotation newExpiresAt => do
    let row ← loadRow
    extendRotationByObj settings row newExpiresAt

/-- The moves of the surroundings: time passes, and administrators change the state of
the application and the tenant. -/
inductive Env
  | tick (elapsed : Time)
  | setApplication (application : Option Application)
  | setTenant (tenant : Option Tenant)
deriving Repr, DecidableEq

/-- One move of the surroundings. -/
def env (s : Store) : Env → Option Store
  | .tick elapsed => some { s with now := s.now + elapsed }
  | .setApplication application => some { s with application := application }
  | .setTenant tenant => some { s with tenant := tenant }

/-- The key service. -/
def service : System sig Store Env Request Reply where
  exec := exec
  env := env
  code := code settings

end Handlers

end Ai4iCore.ApiKey
