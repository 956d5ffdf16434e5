import Ai4iCore.Base.Checked
import Ai4iCore.ApiKey.Service
import Ai4iCore.Task.Tokens
import Mathlib

/-!
# The gateway's check of an API key

`_validate_api_key` (routes/validation.py) decides about a request from what `validate_api_key`
answers for its key, the path it is sent to, and what auth-service knows of tiers and inference
types. The checks come in a fixed order, and each refusal is an answer of its own.

The quota check looks at the path alone: `_resolve_service` maps it to the inference type whose
catalogue entry lists it, and the key is refused when the flag of that type is set
(`refused_service`, `not_ok_of_exhausted`).
-/

namespace Ai4iCore.Gateway

open Checked
open ApiKey (Field Reply Time tierIdField)
open Ai4iCore.Task (Text)

/-! ## The catalogue -/

/-- A row of `inference_types`. -/
structure InferenceType where
  id : Nat
  name : Text
  endpointPatterns : List Text
  deriving DecidableEq, Repr

/-- `uri.split("?", 1)[0]`. -/
def pathOf (uri : Text) : Text := uri.takeWhile (· ≠ '?')

/-- `s.rstrip("/")`. -/
def rstripSlash (s : Text) : Text := (s.reverse.dropWhile (· = '/')).reverse

/-- `get_by_path`, on the snapshot of the catalogue. -/
def getByPath (catalogue : List InferenceType) (uri : Text) : Option InferenceType :=
  if uri = [] then none
  else catalogue.find? fun entry =>
    entry.endpointPatterns.any fun pattern => rstripSlash pattern = rstripSlash (pathOf uri)

theorem mem_of_getByPath {catalogue : List InferenceType} {uri : Text} {entry : InferenceType}
    (h : getByPath catalogue uri = some entry) : entry ∈ catalogue := by
  unfold getByPath at h
  split at h
  · cases h
  · exact List.mem_of_find?_eq_some h

/-! ## The answers -/

/-- The body of a refusal, and the `X-Quota-Exhausted-Services` header of some. -/
structure Refusal where
  status : Nat
  error : String
  message : Text
  service : Option Text := none
  quotaExhaustedServices : Option (List Text) := none
  deriving DecidableEq, Repr

/-- `_unauthenticated`. -/
def unauthenticated : Refusal :=
  { status := 401, error := "UNAUTHENTICATED", message := "Authentication failed.".toList }

def insufficientPermissions : Refusal where
  status := 403
  error := "INSUFFICIENT_PERMISSIONS"
  message := "You do not have permission to access this endpoint.".toList

def noActiveTier : Refusal where
  status := 403
  error := "NO_ACTIVE_TIER"
  message := "Your institution has no tier assigned. Please contact your administrator.".toList

def tierDeactivated : Refusal where
  status := 403
  error := "TIER_DEACTIVATED"
  message := "Your tier has been deactivated. Please contact your administrator.".toList

def budgetExpired : Refusal where
  status := 403
  error := "BUDGET_EXPIRED"
  message := "Tenant's budget effective window has ended.".toList

def budgetExhausted (exhausted : List Text) : Refusal where
  status := 429
  error := "BUDGET_EXHAUSTED"
  message := "Tenant budget is exhausted for the current billing period.".toList
  quotaExhaustedServices := some exhausted

def quotaExceeded (service : Text) (exhausted : List Text) : Refusal where
  status := 429
  error := "QUOTA_EXCEEDED"
  message := "Quota exhausted for service '".toList ++ service ++
    "' in the current billing period.".toList
  service := some service
  quotaExhaustedServices := some exhausted

/-- What is set on the headers of a request that goes on. -/
structure Headers where
  userId : Option Field
  applicationId : Option Field
  apiKeyId : Option Field
  tierId : Option Field
  rateLimit : Option Nat
  quotaExhaustedServices : List Text
  permissionIds : List Nat
  tenantId : Option Field
  deriving DecidableEq

/-! ## The key -/

/-- `bool(v)`. -/
def truthy : Field → Bool
  | .int n => n ≠ 0
  | .str s => s ≠ ""
  | .ids l => l ≠ []
  | .time _ => true
  | .null => false

/-- `result.get(name)`, when it is truthy. -/
def present (result : Record Field) (name : String) : Option Field :=
  (result.lookup name).filter truthy

/-- `result.get("permissions") or result.get("permission_ids") or []`; the second is a copy of
the first. -/
def permissionIds (result : Record Field) : List Nat :=
  match result.lookup "permissions" with
  | some (.ids l) => l
  | _ => []

def quotaPrefix : Text := "quota-".toList

/-- The name behind `quota-` in the name of a field. -/
def quotaName? (name : String) : Option Text :=
  if quotaPrefix.isPrefixOf name.toList then some (name.toList.drop quotaPrefix.length) else none

/-- The order of `sorted` on texts. -/
def le (a b : Text) : Bool := decide (a ≤ b)

/-- `exhausted_services`. -/
def exhaustedServices (result : Record Field) : List Text :=
  (result.entries.filterMap fun e => if e.2 = .str "1" then quotaName? e.1 else none).mergeSort le

/-- `_cached_budget_window_is_expired`, by the days of the two times. -/
def cachedBudgetWindowIsExpired (now : Time) (result : Record Field) : Bool :=
  match result.lookup "budget_effective_to" with
  | some (.time budgetEffectiveTo) =>
    budgetEffectiveTo / ApiKey.daySeconds ApiKey.second < now / ApiKey.daySeconds ApiKey.second
  | _ => false

/-! ## The checks -/

/-- What auth-service knows when a request comes. -/
structure Gate where
  now : Time
  /-- the map from endpoints to permissions is loaded -/
  permissionMapLoaded : Bool
  /-- `get_required_permission` -/
  requiredPermission : Text → Text → Option Nat
  /-- `tier_lookup.get_tier`: status and rate limit -/
  getTier : String → Option String × Option Nat
  catalogue : List InferenceType

/-- `_resolve_service`. -/
def Gate.resolveService (gw : Gate) (uri : Text) : Option InferenceType :=
  getByPath gw.catalogue uri

/-- `_check_endpoint_permission`, on the headers `X-Original-Method` and `X-Original-URI`. -/
def Gate.checkEndpointPermission (gw : Gate) (method uri : Text) (ids : List Nat) : Bool :=
  if method = [] ∨ uri = [] ∨ !gw.permissionMapLoaded then true
  else
    match gw.requiredPermission method (pathOf uri) with
    | none => true
    | some required => required ∈ ids

/-- The tier of a key, unless it has none. -/
def Gate.tierOf (gw : Gate) (result : Record Field) : Option String × Option Nat :=
  match present result tierIdField with
  | some (.str tierId) => gw.getTier tierId
  | _ => (none, none)

/-- The quota check. -/
def Gate.checkQuota (gw : Gate) (uri : Text) (exhausted : List Text) : Except Refusal Unit :=
  match gw.resolveService uri with
  | none => .ok ()
  | some service => require (service.name ∉ exhausted) (quotaExceeded service.name exhausted)

/-- `_validate_api_key`, on a key that is valid. -/
def Gate.checkResult (gw : Gate) (method uri : Text) (result : Record Field) :
    Except Refusal Headers := do
  require (gw.checkEndpointPermission method uri (permissionIds result)) insufficientPermissions
  -- removed from its tier, not a key from before there were tiers
  require (result.lookup tierIdField ≠ some (.str "")) noActiveTier
  require ((gw.tierOf result).1.all (· = "ACTIVE")) tierDeactivated
  let exhausted := exhaustedServices result
  require (!cachedBudgetWindowIsExpired gw.now result) budgetExpired
  require (result.lookup "budget-exhausted" ≠ some (.str "1")) (budgetExhausted exhausted)
  gw.checkQuota uri exhausted
  return { userId := present result "user_id", applicationId := present result "application_id"
           apiKeyId := present result "id", tierId := present result tierIdField
           rateLimit := (gw.tierOf result).2, quotaExhaustedServices := exhausted
           permissionIds := permissionIds result, tenantId := present result "tenant_id" }

/-- `_validate_api_key`, with what `validate_api_key` replied; `none` is `InvalidAPIKeyError`. -/
def Gate.validateApiKey (gw : Gate) (method uri : Text) :
    Option Reply → Except Refusal Headers
  | some (.valid result) => gw.checkResult method uri result
  | _ => .error unauthenticated

/-! ## The flags -/

theorem toList_quotaField (type : Text) :
    ("quota-" ++ String.ofList type).toList = quotaPrefix ++ type := by
  unfold quotaPrefix
  rw [String.toList_append, @String.toList_ofList type]

theorem quotaName?_eq_some {name : String} {type : Text} :
    quotaName? name = some type ↔ name = "quota-" ++ String.ofList type := by
  unfold quotaName?
  constructor
  · intro h
    split at h
    · rename_i hprefix
      obtain ⟨rest, hrest⟩ := List.isPrefixOf_iff_prefix.mp hprefix
      rw [← hrest, List.drop_left] at h
      obtain rfl := Option.some.inj h
      apply String.toList_injective
      rw [toList_quotaField, hrest]
    · cases h
  · rintro rfl
    rw [toList_quotaField, List.drop_left, if_pos]
    exact List.isPrefixOf_iff_prefix.mpr (List.prefix_append _ _)

theorem mem_exhaustedServices {result : Record Field} {type : Text} :
    type ∈ exhaustedServices result ↔
      result.lookup ("quota-" ++ String.ofList type) = some (.str "1") := by
  unfold exhaustedServices
  rw [List.mem_mergeSort, List.mem_filterMap]
  constructor
  · rintro ⟨e, he, hname⟩
    split at hname
    · rename_i hflag
      rw [← quotaName?_eq_some.mp hname, ← hflag]
      exact AList.mem_lookup_iff.mpr he
    · cases hname
  · intro h
    refine ⟨_, AList.mem_lookup_iff.mp h, ?_⟩
    rw [if_pos rfl, quotaName?_eq_some]

/-! ## The quota check -/

section

variable {gw : Gate} {method uri : Text} {result : Record Field}

/-- A request that goes on has passed the quota check. -/
theorem checkQuota_of_ok {headers : Headers} (h : gw.checkResult method uri result = .ok headers) :
    gw.checkQuota uri (exhaustedServices result) = .ok () := by
  obtain ⟨-, h⟩ := require_bind h
  obtain ⟨-, h⟩ := require_bind h
  obtain ⟨-, h⟩ := require_bind h
  obtain ⟨-, h⟩ := require_bind h
  obtain ⟨-, h⟩ := require_bind h
  obtain ⟨u, hquota, -⟩ := bind_ok h
  exact hquota

theorem not_ok_of_exhausted {entry : InferenceType} (hpath : gw.resolveService uri = some entry)
    (hflag : entry.name ∈ exhaustedServices result) (headers : Headers) :
    gw.checkResult method uri result ≠ .ok headers := by
  intro h
  have hquota := checkQuota_of_ok h
  unfold Gate.checkQuota at hquota
  rw [hpath] at hquota
  exact of_decide_eq_true (require_ok hquota) hflag

/-- A refusal that names an inference type names that of the path. -/
theorem refused_service {refusal : Refusal} {type : Text}
    (h : gw.checkResult method uri result = .error refusal) (hservice : refusal.service = some type) :
    ∃ entry, gw.resolveService uri = some entry ∧ entry.name = type := by
  rcases require_bind_error h with rfl | h
  · cases hservice
  rcases require_bind_error h with rfl | h
  · cases hservice
  rcases require_bind_error h with rfl | h
  · cases hservice
  rcases require_bind_error h with rfl | h
  · cases hservice
  rcases require_bind_error h with rfl | h
  · cases hservice
  rcases bind_error h with hquota | ⟨u, -, hrest⟩
  · unfold Gate.checkQuota at hquota
    cases hpath : gw.resolveService uri with
    | none =>
      rw [hpath] at hquota
      cases hquota
    | some entry =>
      rw [hpath] at hquota
      obtain ⟨-, rfl⟩ := require_error hquota
      exact ⟨entry, rfl, Option.some.inj hservice⟩
  · cases hrest

theorem validateApiKey_service {reply : Option Reply} {refusal : Refusal} {type : Text}
    (h : gw.validateApiKey method uri reply = .error refusal)
    (hservice : refusal.service = some type) :
    ∃ entry, gw.resolveService uri = some entry ∧ entry.name = type := by
  unfold Gate.validateApiKey at h
  split at h
  · exact refused_service h hservice
  · obtain rfl := Except.error.inj h
    cases hservice

end

end Ai4iCore.Gateway
