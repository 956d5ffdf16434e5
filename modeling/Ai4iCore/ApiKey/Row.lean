import Ai4iCore.Base.Record
import Mathlib.Logic.Function.Basic

/-!
# API key rows and their Redis hashes

The data an API key lives in: its row of `api_key` (`models/api_key.py`), the
owning application and tenant, and the Redis hash of each of its values
(`cache_service.py`). The functions here are the ones that compute on this data
without any I/O: which values of a row are live, the TTL of their hashes, the
cache payload, and the guarded `UPDATE`s of `api_key_repository.py`.

Instants are microseconds, as a `datetime` has them; a TTL is whole seconds.
-/

namespace Ai4iCore.ApiKey

/-- Microseconds since the epoch. -/
abbrev Time := Nat

/-- One second. -/
def second : Time := 1000000

/-- `timedelta(days=n)`, in seconds. -/
def daySeconds (n : Nat) : Nat := n * 86400

/-! ## Key values -/

/-- One character of `[0-9a-f]`. -/
def isHexDigit (c : Char) : Bool := ('0' ≤ c && c ≤ '9') || ('a' ≤ c && c ≤ 'f')

/-- `_is_api_key`: `[0-9a-f]{32}`, the whole token. -/
def isApiKey (token : String) : Bool :=
  token.toList.length == 32 && token.toList.all isHexDigit

/-- A key value as `generate_api_key` makes it: 32 lower-case hex digits. A column
that holds one is therefore never the empty string. -/
abbrev KeyValue := { token : String // isApiKey token = true }

/-- A value for the sample runs. -/
def sampleKey : KeyValue := ⟨"0123456789abcdef0123456789abcdef", by decide⟩

/-! ## Cache payloads -/

/-- A value in `cached_data` or in a Redis hash. -/
inductive Field
  | int (n : Nat)
  | str (s : String)
  | ids (l : List Nat)
  | time (t : Time)
  | null
deriving Repr, DecidableEq

/-- A JSON object of `api_key.cached_data`, also the argument of
`set_api_key_cache`. -/
abbrev Payload := Record Field

/-- A Redis hash as `get_api_key_cache` returns it. -/
abbrev Hash := Record Field

/-- What `set_api_key_cache` stores for a value: everything but the permission list
(which goes through `json.dumps` and comes back through `json.loads`) becomes a
string, and `None` the empty one. -/
def Field.cached : Field → Field
  | .int n => .str (toString n)
  | .null => .str ""
  | v => v

/-- The negative-cache marker. -/
def alreadyInvalid : String := "is_already_invalid"

/-- The tier a request is forwarded under. -/
def tierIdField : String := "tier_id"

/-- The payload of `_tombstone_invalid_token`. -/
def tombstone : Payload := AList.singleton alreadyInvalid (.str "1")

/-- `_is_cache_entry_invalid`. -/
def isCacheEntryInvalid (cached : Hash) : Bool :=
  cached.lookup alreadyInvalid == some (.str "1")

/-- `_is_preserved_billing_field`. -/
def isPreservedBillingField (field : String) : Bool :=
  field == "budget-exhausted" || "quota-".toList.isPrefixOf field.toList

/-! ## Rows -/

/-- `ApplicationStatus`. -/
inductive ApplicationStatus
  | active
  | inactive
deriving Repr, DecidableEq

/-- `TenantStatus`. -/
inductive TenantStatus
  | pending
  | active
  | suspended
  | deactivated
deriving Repr, DecidableEq

/-- The columns of `applications` the key service reads. -/
structure Application where
  tenantId : Nat
  status : ApplicationStatus
deriving Repr, DecidableEq

/-- The text of a tier's UUID; it is never empty. -/
abbrev TierId := { text : String // text ≠ "" }

/-- A tier for the sample runs. -/
def goldTier : TierId := ⟨"gold", by decide⟩

/-- The columns of `tenants` the key service reads (`get_operational_fields`). -/
structure Tenant where
  id : Nat
  status : TenantStatus
  tierId : Option TierId
  budgetEffectiveTo : Option Time
deriving Repr, DecidableEq

/-- A row of `api_key`. -/
structure Row where
  id : Nat
  applicationId : Nat
  apiKey : KeyValue
  permissions : List Nat
  expiresAt : Option Time
  isActive : Bool
  createdBy : Option String
  cachedData : Option Payload
  rotatedKey : Option KeyValue
  rotatedKeyExpiresAt : Option Time
deriving DecidableEq

namespace Row

/-- Both values the row holds: the current one and the rotated-out one. -/
def values (row : Row) : List KeyValue := row.apiKey :: row.rotatedKey.toList

instance (row : Row) (value : KeyValue) : Decidable (value ∈ row.values) :=
  inferInstanceAs (Decidable (value ∈ row.apiKey :: row.rotatedKey.toList))

/-- `is_expired`. -/
def isExpired (row : Row) (now : Time) : Bool :=
  row.expiresAt.any fun t => t < now

/-- `live_rotated_key`. -/
def liveRotatedKey (row : Row) (now : Time) : Option KeyValue :=
  match row.rotatedKeyExpiresAt with
  | some t => if now < t then row.rotatedKey else none
  | none => none

/-- `live_rotated_key_expires_at`. -/
def liveRotatedKeyExpiresAt (row : Row) (now : Time) : Option Time :=
  if row.isActive && !row.isExpired now && (row.liveRotatedKey now).isSome then
    row.rotatedKeyExpiresAt
  else none

/-- `cache_key_values`. -/
def cacheKeyValues (row : Row) (now : Time) : List KeyValue :=
  row.apiKey :: (row.liveRotatedKey now).toList

/-- The SQL predicate `_active_key_conditions`. Unlike `is_expired` it also refuses
the instant of expiry itself. -/
def activeConditions (row : Row) (now : Time) : Bool :=
  row.isActive && row.expiresAt.all fun t => now < t

/-- The `WHERE` clause of `get_by_api_key_if_valid`. -/
def matchesIfValid (row : Row) (value : KeyValue) (now : Time) : Bool :=
  (row.apiKey = value ||
    (row.rotatedKey = some value && row.rotatedKeyExpiresAt.any fun t => now < t)) &&
  row.activeConditions now

/-- `APIKeyRepository.rotate`: the guarded `UPDATE`; `none` when no row matched. -/
def rotate (row : Row) (currentValue newValue : KeyValue) (expiresAt now : Time) :
    Option Row :=
  if row.apiKey = currentValue ∧ row.activeConditions now ∧
      (row.rotatedKey = none ∨ row.rotatedKeyExpiresAt.all fun t => t ≤ now) then
    some { row with
      rotatedKey := some row.apiKey
      apiKey := newValue
      rotatedKeyExpiresAt := some expiresAt
      cachedData := row.cachedData.map fun d => d.insert "api_key" (.str newValue.1) }
  else none

/-- `APIKeyRepository.end_rotation`. -/
def endRotation (row : Row) (rotatedValue : KeyValue) (now : Time) : Option Row :=
  if row.rotatedKey = some rotatedValue ∧ row.activeConditions now then
    some { row with rotatedKey := none, rotatedKeyExpiresAt := none }
  else none

/-- `APIKeyRepository.extend_rotation`. -/
def extendRotation (row : Row) (rotatedValue : KeyValue) (newExpiresAt now : Time) :
    Option Row :=
  if row.rotatedKey = some rotatedValue ∧
      (row.rotatedKeyExpiresAt.any fun t => now < t && t < newExpiresAt) ∧
      (row.expiresAt.all fun t => newExpiresAt ≤ t) ∧
      row.activeConditions now then
    some { row with rotatedKeyExpiresAt := some newExpiresAt }
  else none

theorem cacheKeyValues_subset (row : Row) (now : Time) : row.cacheKeyValues now ⊆ row.values := by
  refine List.cons_subset_cons _ fun v hv => ?_
  rw [Option.mem_toList, liveRotatedKey] at hv
  split at hv
  · split at hv
    · exact Option.mem_toList.mpr hv
    · cases hv
  · cases hv

/-- A key that is active later is active now. -/
theorem activeConditions_mono {row : Row} {now later : Time} (hle : now ≤ later)
    (h : row.activeConditions later = true) : row.activeConditions now = true := by
  unfold activeConditions at h ⊢
  rw [Bool.and_eq_true] at h ⊢
  refine ⟨h.1, ?_⟩
  cases hexpires : row.expiresAt with
  | none => rfl
  | some t =>
    have ht := h.2
    rw [hexpires] at ht
    exact decide_eq_true (lt_of_le_of_lt hle (of_decide_eq_true ht))

/-- A rotated value that is live later is live now. -/
theorem cacheKeyValues_mono {row : Row} {now later : Time} (hle : now ≤ later) {value : KeyValue}
    (h : value ∈ row.cacheKeyValues later) : value ∈ row.cacheKeyValues now := by
  unfold cacheKeyValues at h ⊢
  rcases List.mem_cons.mp h with rfl | h
  · exact List.mem_cons_self
  · refine List.mem_cons_of_mem _ ?_
    unfold liveRotatedKey at h ⊢
    cases hexpires : row.rotatedKeyExpiresAt with
    | none =>
      rw [hexpires] at h
      exact absurd h List.not_mem_nil
    | some t =>
      rw [hexpires] at h
      dsimp only at h ⊢
      split at h
      · rename_i hlater
        rw [if_pos (lt_of_le_of_lt hle hlater)]
        exact h
      · exact absurd h List.not_mem_nil

end Row

/-- The columns an `update` sets; `none` leaves a column alone. -/
structure RowUpdate where
  permissions : Option (List Nat) := none
  expiresAt : Option Time := none
  rotatedKeyExpiresAt : Option Time := none
  cachedData : Option Payload := none
deriving DecidableEq

/-- `setattr` for every given column. -/
def Row.apply (row : Row) (u : RowUpdate) : Row :=
  { row with
    permissions := u.permissions.getD row.permissions
    expiresAt := u.expiresAt.orElse fun _ => row.expiresAt
    rotatedKeyExpiresAt := u.rotatedKeyExpiresAt.orElse fun _ => row.rotatedKeyExpiresAt
    cachedData := u.cachedData.orElse fun _ => row.cachedData }

/-- What a flush writes: only the columns whose new value differs from the loaded
copy. -/
def RowUpdate.dirty (u : RowUpdate) (copy : Row) : RowUpdate where
  permissions := if u.permissions = some copy.permissions then none else u.permissions
  expiresAt := if u.expiresAt = copy.expiresAt then none else u.expiresAt
  rotatedKeyExpiresAt :=
    if u.rotatedKeyExpiresAt = copy.rotatedKeyExpiresAt then none else u.rotatedKeyExpiresAt
  cachedData := if u.cachedData = copy.cachedData then none else u.cachedData

/-- Flushing only what differs from an up-to-date copy is flushing everything. -/
theorem Row.apply_dirty (row : Row) (u : RowUpdate) : row.apply (u.dirty row) = row.apply u := by
  obtain ⟨permissions, expiresAt, rotatedKeyExpiresAt, cachedData⟩ := u
  simp only [Row.apply, RowUpdate.dirty]
  congr 1
  · split
    · rename_i h
      rw [h]
      rfl
    · rfl
  · split
    · rename_i h
      rw [h]
      cases row.expiresAt <;> rfl
    · rfl
  · split
    · rename_i h
      rw [h]
      cases row.cachedData <;> rfl
    · rfl
  · split
    · rename_i h
      rw [h]
      cases row.rotatedKeyExpiresAt <;> rfl
    · rfl

/-! ## Eligibility -/

/-- `application_may_use_api_keys`. -/
def applicationMayUseApiKeys (application : Option Application) (tenant : Option Tenant) :
    Bool :=
  (application.all fun a => a.status = .active) && tenant.all fun t => t.status = .active

/-- `effective_is_active`. -/
def effectiveIsActive (row : Row) (application : Option Application)
    (tenant : Option Tenant) (now : Time) : Bool :=
  row.isActive && !row.isExpired now && applicationMayUseApiKeys application tenant

/-- `_is_key_eligible`. -/
def isKeyEligible (application : Option Application) (tenant : Option Tenant) : Bool :=
  application.isSome && applicationMayUseApiKeys application tenant

/-! ## TTLs and payloads -/

/-- The settings the key service reads. -/
structure Settings where
  apiKeyExpireDays : Nat
  invalidApiKeyCacheTtlSeconds : Nat
deriving Repr, DecidableEq

/-- `_compute_cache_ttl`. -/
def computeCacheTtl (settings : Settings) (row : Row) (now : Time) : Nat :=
  match row.expiresAt with
  | some t => (t - now) / second
  | none => daySeconds settings.apiKeyExpireDays

/-- `_cache_ttl_for`. -/
def cacheTtlFor (settings : Settings) (row : Row) (value : KeyValue) (now : Time) : Nat :=
  if value ≠ row.apiKey ∧ row.rotatedKey = some value then
    match row.rotatedKeyExpiresAt with
    | none => 0
    | some t => min ((t - now) / second) (computeCacheTtl settings row now)
  else computeCacheTtl settings row now

/-- `_build_cache_payload`. -/
def buildCachePayload (row : Row) (tenantId : Option Nat) (budgetEffectiveTo : Option Time)
    (extraFields : Payload) : Payload :=
  Record.overlay
    (Record.ofList [("id", .int row.id),
      ("api_key", .str row.apiKey.1),
      ("permissions", .ids row.permissions),
      ("application_id", .str (toString row.applicationId)),
      ("tenant_id", match tenantId with
        | some t => .str (toString t)
        | none => .null),
      ("user_id", match row.createdBy with
        | some u => .str u
        | none => .null),
      ("budget_effective_to", match budgetEffectiveTo with
        | some t => .time t
        | none => .str "")])
    extraFields

/-- The billing fields of a payload or hash. -/
def billingFields (d : Record Field) : Record Field :=
  d.filterKeys isPreservedBillingField

/-- `_preserved_billing_fields`. -/
def preservedBillingFields (row : Row) : Payload :=
  billingFields (row.cachedData.getD ∅)

/-- `_preserved_tier_id`. -/
def preservedTierId (row : Row) : Payload :=
  match (row.cachedData.getD ∅).lookup tierIdField with
  | some v => AList.singleton tierIdField v
  | none => ∅

/-! ## Redis -/

/-- A hash with the instant its TTL ends. -/
structure CacheEntry where
  fields : Hash
  expiresAt : Time
deriving DecidableEq

/-- The `api_key:` part of Redis. -/
abbrev Redis := KeyValue → Option CacheEntry

namespace Redis

/-- The entry under `value` that Redis still holds at `now`. -/
def entryAt (r : Redis) (now : Time) (value : KeyValue) : Option CacheEntry :=
  (r value).filter fun e => now < e.expiresAt

/-- `get_api_key_cache`: `HGETALL`, `None` when the answer is empty. -/
def getApiKeyCache (r : Redis) (now : Time) (value : KeyValue) : Option Hash :=
  (r.entryAt now value).bind fun e => if e.fields.entries.isEmpty then none else some e.fields

/-- The fields after `HSET` of `data` on a hash, and the `HDEL` of the tombstone
marker unless `data` itself sets it. -/
def mergeFields (old : Hash) (data : Payload) : Hash :=
  let fields := Record.overlay old (data.mapValues Field.cached)
  if (data.lookup alreadyInvalid).isSome then fields else fields.erase alreadyInvalid

/-- `set_api_key_cache`: one transaction of `HSET`, `HDEL`, `EXPIRE`. -/
def setApiKeyCache (r : Redis) (now : Time) (value : KeyValue) (ttlSeconds : Nat)
    (data : Payload) : Redis :=
  Function.update r value (some
    { fields := mergeFields ((r.getApiKeyCache now value).getD ∅) data
      expiresAt := now + ttlSeconds * second })

/-- `delete_api_key_cache`. -/
def deleteApiKeyCache (r : Redis) (value : KeyValue) : Redis :=
  Function.update r value none

/-- An answer of `get_api_key_cache` is the fields of an entry that has not expired. -/
theorem entry_of_getApiKeyCache {r : Redis} {now : Time} {value : KeyValue} {h : Hash}
    (hget : r.getApiKeyCache now value = some h) :
    ∃ e, r value = some e ∧ now < e.expiresAt ∧ e.fields = h := by
  obtain ⟨e, he, hfields⟩ := Option.bind_eq_some_iff.mp hget
  obtain ⟨hentry, hunexpired⟩ := Option.filter_eq_some_iff.mp he
  split at hfields
  · cases hfields
  · exact ⟨e, hentry, by simpa using hunexpired, Option.some.inj hfields⟩

/-- A tombstone on any hash makes it invalid. -/
theorem isCacheEntryInvalid_merge_tombstone (old : Hash) :
    isCacheEntryInvalid (mergeFields old tombstone) = true := by
  have hmerge : mergeFields old tombstone =
      Record.overlay old (tombstone.mapValues Field.cached) := rfl
  have hlookup : (tombstone.mapValues Field.cached).lookup alreadyInvalid =
      some (.str "1") := rfl
  rw [hmerge, isCacheEntryInvalid, Record.lookup_overlay, hlookup]
  rfl

/-- The entry under `value` is one `validate_api_key` serves without looking further. -/
def Live (r : Redis) (now : Time) (value : KeyValue) : Prop :=
  ∃ e, r value = some e ∧ now < e.expiresAt ∧ isCacheEntryInvalid e.fields = false

end Redis

end Ai4iCore.ApiKey
