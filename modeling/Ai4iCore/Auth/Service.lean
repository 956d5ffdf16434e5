import Ai4iCore.Auth.Store

/-!
# The authentication handlers

`auth_service.py`, `oauth_service.py` and the OAuth routes, `await` by `await`:
login, refresh, logout, password change and reset, registration and the e-mailed
links with their reissues, OAuth login with its state and exchange code.

Passwords are compared as such, their hashing being injective as far as a login
can tell; requests whose password fails the policy do nothing and are left out.
What the OAuth provider answers is part of the request.
-/

namespace Ai4iCore.Auth

open ApiKey (TenantStatus)
open Concurrent

/-- What a handler answers. -/
inductive Reply
  | done
  | session (pair : Pair)
  | accessToken (token : Token)
  | passwordChanged (pair : Pair)
  | authorizeUrl (state : Nat)
  | redirect (code : Nat)
  | exchanged (pair : Pair)
deriving Repr, DecidableEq

/-! ## Tenants -/

/-- `assert_tenant_allows_authentication`. -/
def assertTenantAllowsAuthentication : Option Tenant → Handler Unit
  | none => return ()
  | some t =>
    match t.status with
    | .active => return ()
    | .suspended => throw .tenantSuspended
    | _ => throw .tenantInactive

/-- `assert_tenant_allows_onboarding`. -/
def assertTenantAllowsOnboarding : Option Tenant → Handler Unit
  | none => return ()
  | some t =>
    match t.status with
    | .pending | .active => return ()
    | .suspended => throw .tenantSuspended
    | .deactivated => throw .tenantInactive

/-- `_assert_user_tenant_active`. -/
def assertUserTenantActive (user : User) : Handler Unit :=
  match user.tenantId with
  | none => return ()
  | some t => do
    let tenant ← perform (.tenant t)
    assertTenantAllowsAuthentication tenant
    if user.isTenantActive then return () else throw .tenantSuspended

/-- The tenant of a user, as the session's identity map then keeps it. -/
def loadTenant (user : User) : Handler (Option Tenant) :=
  match user.tenantId with
  | none => return none
  | some t => perform (.tenant t)

/-! ## Sessions -/

/-- `issue_session`. -/
def issueSession (user : User) (cause : SessionCause) : Handler Pair := do
  let permissionIds ← perform (.permissionIds user.id)
  let access ← perform (.mint .access user.id permissionIds none)
  let refresh ← perform (.mint .refresh user.id [] none)
  perform (.commitSession user.id ⟨access, refresh⟩ cause)
  return ⟨access, refresh⟩

/-- The password check of `login`. -/
def checkPassword (password : String) (stored : Option String) : Handler Unit :=
  if stored = some password then return () else throw .invalidCredentials

/-- `login`. -/
def login (email password : String) : Handler Reply := do
  match (← perform (.getByEmail email) : Option User) with
  | none => throw .invalidCredentials
  | some user =>
    if user.isActive then do
      assertUserTenantActive user
      let stored ← perform (.credentials user.id)
      checkPassword password stored
      let pair ← issueSession user .login
      return .session pair
    else throw .userInactive

/-- `_validate_token_of_type`. -/
def validateTokenOfType (token : Token) (type : TokenType) : Handler Unit := do
  let valid ← perform (.validateToken token)
  if valid && token.type = type then return () else throw .tokenInvalid

/-- The end of `refresh_token`: a new access token from the refresh token. -/
def mintFromRefresh (token : Token) : Handler Reply := do
  let permissionIds ← perform (.permissionIds token.sub)
  let access ← perform (.mint .access token.sub permissionIds (some token.jti))
  return .accessToken access

/-- `refresh_token`. -/
def refreshToken (token : Token) : Handler Reply := do
  validateTokenOfType token .refresh
  match (← perform (.getRefresh token) : Option RefreshRow) with
  | none => throw .tokenRevoked
  | some _ =>
    let active ← perform (.isActive token.sub)
    if active then do
      match (← perform (.getById token.sub) : Option User) with
      | some user => do
        assertUserTenantActive user
        mintFromRefresh token
      | none => mintFromRefresh token
    else throw .userInactive

/-- The logout route: `AuthService.logout`, then `revoke_all_sessions`. -/
def logout (id : UserId) : Handler Reply := do
  let row ← perform (.refreshRow id)
  perform (.deleteRefresh id (row.map RefreshRow.id))
  perform (.setLogoutTimestamp id true)
  return .done

/-- `revoke_all_sessions` in a `try` whose handler only logs. -/
def revokeAllSessions (id : UserId) (completes : Bool) : Handler Unit :=
  (perform (.setLogoutTimestamp id completes)).tryCatch fun _ => return ()

/-- The checks of `change_password` on the two passwords. -/
def checkNewPassword (current new : String) (stored : Option String) : Handler Unit :=
  if stored = some current then
    if new = current then throw .samePassword else return ()
  else throw .invalidCredentials

/-- `change_password`, for the user of `get_current_user`. -/
def changePassword (id : UserId) (current new : String) : Handler Reply := do
  match (← perform (.getById id) : Option User) with
  | none => throw .userNotFound
  | some user =>
    if user.isActive then do
      let stored ← perform (.credentials user.id)
      checkNewPassword current new stored
      perform (.updatePassword user.id new)
      -- the mark comes before the new pair, which it must not reject
      revokeAllSessions user.id false
      let pair ← issueSession user .passwordChange
      return .passwordChanged pair
    else throw .userInactive

/-! ## E-mailed links -/

/-- `_resolve_verified_token`. -/
def resolveVerifiedToken (token : Token) (type : TokenType) : Handler User := do
  validateTokenOfType token type
  match (← perform (.getLink token) : Option Link) with
  | none => throw .tokenInvalid
  | some link =>
    if link.isActive then do
      match (← perform (.getById token.sub) : Option User) with
      | none => throw .tokenInvalid
      | some user => return user
    else throw .tokenInvalid

/-- `verify_email_token`. -/
def verifyEmailToken (token : Token) : Handler Reply := do
  let user ← resolveVerifiedToken token .verify
  if user.isActivated then throw .tokenInvalid
  else do
    let tenant ← loadTenant user
    assertTenantAllowsOnboarding tenant
    perform (.activateByLink user token)
    return .done

/-- `reset_password_with_token`. -/
def resetPasswordWithToken (token : Token) (password : String) : Handler Reply := do
  let user ← resolveVerifiedToken token .reset
  match (← perform (.credentials user.id) : Option String) with
  | none => throw .tokenInvalid
  | some _ =>
    let row ← perform (.refreshRow user.id)
    perform (.resetPassword user.id password token (row.map RefreshRow.id))
    revokeAllSessions user.id true
    return .done

/-- A commit that may break a constraint. -/
def orIntegrityError (committed : Bool) : Handler Unit :=
  if committed then return () else throw .integrityError

/-- The tenant that `_activate_pending_tenant_for_contact_admin` activates. -/
def pendingTenantOfContactAdmin (user : User) (tenant : Option Tenant) : Option Nat :=
  (tenant.filter fun t => t.status = .pending && t.email = user.email).map Tenant.id

/-- `set_password_with_token`. -/
def setPasswordWithToken (token : Token) (password : String) : Handler Reply := do
  let user ← resolveVerifiedToken token .setup
  let tenant ← loadTenant user
  assertTenantAllowsOnboarding tenant
  let committed ← perform
    (.setPassword user password token (pendingTenantOfContactAdmin user tenant))
  orIntegrityError committed
  return .done

/-- `deactivate_all_for_user`, the new token and its row, with the commit of the caller. -/
def reissue (user : User) (type : TokenType) : Handler Unit := do
  let rows ← perform (.activeLinks user.id)
  let token ← perform (.mint type user.id [] none)
  let committed ← perform (.reissueLink user.id type rows token)
  orIntegrityError committed

/-- `reissue_verify_token`: whether a link was issued. -/
def reissueVerifyToken (user : User) : Handler Bool := do
  if user.isActive || user.isActivated then return false
  else do
    match (← perform (.credentials user.id) : Option String) with
    | none => return false
    | some _ => do
      reissue user .verify
      return true

/-- `reissue_setup_token`. -/
def reissueSetupToken (user : User) : Handler Bool := do
  match (← perform (.credentials user.id) : Option String) with
  | some _ => return false
  | none => do
    reissue user .setup
    return true

/-- `resend_verification`. -/
def resendVerification (email : String) : Handler Reply := do
  match (← perform (.getByEmail email) : Option User) with
  | none => return .done
  | some user => do
    let _ ← reissueVerifyToken user
    return .done

/-- `request_password_reset`. -/
def requestPasswordReset (email : String) : Handler Reply := do
  match (← perform (.getByEmail email) : Option User) with
  | none => return .done
  | some user =>
    if user.isActive then do
      match (← perform (.credentials user.id) : Option String) with
      | none => return .done
      | some _ => do
        reissue user .reset
        return .done
    else return .done

/-- `local` and `domain` of `partition("@")`, or of any separator. -/
def partition (separator : Char) (text : List Char) : List Char × List Char :=
  (text.takeWhile (· ≠ separator), (text.dropWhile (· ≠ separator)).tail)

/-- The first character and three stars. -/
def maskHead (text : List Char) : List Char := text.take 1 ++ ['*', '*', '*']

/-- `mask_email`. -/
def maskEmail (email : String) : String :=
  if '@' ∈ email.toList then
    let parts := partition '@' email.toList
    let domain :=
      if '.' ∈ parts.2 then
        maskHead (partition '.' parts.2).1 ++ '.' :: (partition '.' parts.2).2
      else maskHead parts.2
    String.ofList (maskHead parts.1 ++ '@' :: domain)
  else email

/-- `looks_masked`. -/
def looksMasked (email : String) : Bool := '*' ∈ email.toList

/-- `_caller_may_access_tenant_for_setup_resend`; without a caller there is no check. -/
def callerMayAccess (tenant : Tenant) : Option User → Handler Bool
  | none => return true
  | some caller => do
    let staff ← perform (.isPlatformStaff caller.id)
    return staff || caller.tenantId = some tenant.id

/-- `_resolve_masked_setup_user_by_tenant_id`. -/
def resolveMaskedByTenantId (email : String) (tenantId : Nat) (caller : Option User) :
    Handler (Option User) := do
  match (← perform (.tenant tenantId) : Option Tenant) with
  | none => return none
  | some tenant =>
    if tenant.status = .pending then do
      let allowed ← callerMayAccess tenant caller
      if allowed && maskEmail tenant.email = email then perform (.getByEmail tenant.email)
      else return none
    else return none

/-- `_resolve_masked_setup_user_by_scan`. -/
def resolveMaskedByScan (email : String) : Handler (Option User) := do
  let pending ← perform .pendingTenants
  match pending.filter fun t => maskEmail t.email = email with
  | [tenant] => perform (.getByEmail tenant.email)
  | _ => return none

/-- The rest of `_resolve_setup_link_user`, for a masked address. -/
def resolveMasked (email : String) (tenantId : Option Nat) (caller : Option User) :
    Handler (Option User) :=
  match tenantId, caller with
  | some t, _ => resolveMaskedByTenantId email t caller
  | none, none => return none
  | none, some c => do
    let staff ← perform (.isPlatformStaff c.id)
    if staff then resolveMaskedByScan email
    else match c.tenantId with
      | none => return none
      | some t => resolveMaskedByTenantId email t caller

/-- `_resolve_setup_link_user`. -/
def resolveSetupLinkUser (email : String) (tenantId : Option Nat) (caller : Option User) :
    Handler (Option User) := do
  match (← perform (.getByEmail email) : Option User) with
  | some user => return some user
  | none => if looksMasked email then resolveMasked email tenantId caller else return none

/-- `get_optional_current_user`. -/
def optionalCurrentUser : Option UserId → Handler (Option User)
  | none => return none
  | some id => do
    let user ← perform (.getById id)
    return user.filter User.isActive

/-- `resend_setup_link`. -/
def resendSetupLink (email : String) (tenantId : Option Nat) (caller : Option UserId) :
    Handler Reply := do
  let current ← optionalCurrentUser caller
  match ← resolveSetupLinkUser email tenantId current with
  | none => return .done
  | some user => do
    let _ ← reissueSetupToken user
    return .done

/-- `resend_tenant_user_setup_link`, after the checks on the caller. -/
def resendTenantUserSetupLink (tenantId : Nat) (id : UserId) : Handler Reply := do
  match (← perform (.tenant tenantId) : Option Tenant) with
  | none => throw .tenantNotFound
  | some tenant =>
    if tenant.status = .pending || tenant.status = .active then do
      match (← perform (.getById id) : Option User) with
      | none => throw .userNotFound
      | some user =>
        if user.tenantId = some tenantId then
          if user.isTenantActive then do
            let verified ← reissueVerifyToken user
            if verified then return .done
            else do
              let _ ← reissueSetupToken user
              return .done
          else throw .userSuspended
        else throw .userNotFound
    else throw .tenantNotActive

/-! ## Sign-up -/

/-- `resolve_tenant_id`. -/
def resolveTenantId : Option Nat → Handler (Option Nat)
  | some t => do
    match (← perform (.tenant t) : Option Tenant) with
    | none => throw .tenantNotFound
    | some _ => return some t
  | none => do
    let tenant ← perform .defaultTenant
    return tenant.map Tenant.id

/-- `register`. `id` is the UUID that is drawn. -/
def register (id : UserId) (email password : String) (tenantId : Option Nat) :
    Handler Reply := do
  let taken ← perform (.emailExists email)
  if taken then throw .duplicateEntity
  else do
    let tenant ← resolveTenantId tenantId
    let created ← perform
      (.createUser ⟨id, email, tenant, false, none, false, true, some .default⟩ (some password))
    orIntegrityError created
    let token ← perform (.mint .verify id [] none)
    let committed ← perform (.insertLink token id)
    orIntegrityError committed
    return .done

/-! ## OAuth -/

/-- What the provider says about the account, and the UUID a new user would get. -/
structure UserInfo where
  email : String
  emailVerified : Bool
  newId : UserId
deriving Repr, DecidableEq

/-- `_find_or_create_user`. -/
def findOrCreateUser (info : UserInfo) (provider : String) : Handler User := do
  match (← perform (.getByEmail info.email) : Option User) with
  | some user => return user
  | none => do
    let tenant ← perform .defaultTenant
    let now ← perform .now
    let creation : CreationType := if provider = "google" then .google else .default
    let user : User :=
      ⟨info.newId, info.email, tenant.map Tenant.id, true, some now, false, true,
        some creation⟩
    let created ← perform (.createUser user none)
    orIntegrityError created
    return user

/-- `complete_oauth_login`; `none` is a failed exchange of the authorization code. An
existing user is signed in as it is found. -/
def completeOauthLogin (state : Nat) (provider : String) (info : Option UserInfo) :
    Handler Pair :=
  match info with
  | none => throw .oauthCodeExchangeFailed
  | some info =>
    if info.emailVerified then do
      let user ← findOrCreateUser info provider
      issueSession user (.oauth state)
    else throw .oauthEmailUnverified

/-- `authorize`. -/
def authorize (provider : String) (redirect : Bool) : Handler Reply := do
  let state ← perform (.setState provider redirect)
  return .authorizeUrl state

/-- `callback`. -/
def callback (settings : Settings) (state : Nat) (provider : String) (info : Option UserInfo) :
    Handler Reply := do
  match (← perform (.getState state) : Option OAuthState) with
  | none => throw .oauthStateInvalid
  | some entry => do
    perform (.deleteState state)
    if entry.provider = provider then do
      let pair ← completeOauthLogin state provider info
      if entry.redirect && settings.redirectAllowed then do
        let code ← perform (.setCode pair)
        return .redirect code
      else return .session pair
    else throw .oauthProviderMismatch

/-- `exchange_code`. -/
def exchangeCode (code : Nat) : Handler Reply := do
  match (← perform (.getCode code) : Option ExchangeEntry) with
  | none => throw .oauthCodeInvalid
  | some entry => do
    perform (.deleteCode code)
    return .exchanged entry.pair

/-! ## The service -/

/-- A request. -/
inductive Request
  | login (email password : String)
  | refreshToken (token : Token)
  | logout (id : UserId)
  | changePassword (id : UserId) (current new : String)
  | verifyEmailToken (token : Token)
  | resetPasswordWithToken (token : Token) (password : String)
  | setPasswordWithToken (token : Token) (password : String)
  | resendVerification (email : String)
  | requestPasswordReset (email : String)
  | resendSetupLink (email : String) (tenantId : Option Nat) (caller : Option UserId)
  | resendTenantUserSetupLink (tenantId : Nat) (id : UserId)
  | register (id : UserId) (email password : String) (tenantId : Option Nat)
  | authorize (provider : String) (redirect : Bool)
  | callback (state : Nat) (provider : String) (info : Option UserInfo)
  | exchangeCode (code : Nat)
deriving Repr, DecidableEq

/-- The handler of a request. -/
def code (settings : Settings) : Request → Handler Reply
  | .login email password => login email password
  | .refreshToken token => refreshToken token
  | .logout id => logout id
  | .changePassword id current new => changePassword id current new
  | .verifyEmailToken token => verifyEmailToken token
  | .resetPasswordWithToken token password => resetPasswordWithToken token password
  | .setPasswordWithToken token password => setPasswordWithToken token password
  | .resendVerification email => resendVerification email
  | .requestPasswordReset email => requestPasswordReset email
  | .resendSetupLink email tenantId caller => resendSetupLink email tenantId caller
  | .resendTenantUserSetupLink tenantId id => resendTenantUserSetupLink tenantId id
  | .register id email password tenantId => register id email password tenantId
  | .authorize provider redirect => authorize provider redirect
  | .callback state provider info => callback settings state provider info
  | .exchangeCode code => exchangeCode code

/-- What moves the store besides the handlers: the clock, and the administrators, who set
rows of `users` and `tenants`. -/
inductive Env
  | tick (elapsed : ApiKey.Time)
  | setUser (user : User)
  | setTenant (tenant : Tenant)
deriving Repr, DecidableEq

/-- A row is inserted, or replaced by one with the same key. -/
def upsertRow {α κ : Type} [DecidableEq κ] (key : α → κ) (rows : List α) (row : α) : List α :=
  if (Table.get key rows (key row)).isSome then Table.modify key rows (key row) fun _ => row
  else rows ++ [row]

/-- The moves of the surroundings. -/
def env (s : Store) : Env → Option Store
  | .tick elapsed => some { s with now := s.now + elapsed }
  | .setUser user =>
    some { s with accounts := { s.accounts with users := upsertRow User.id s.accounts.users user } }
  | .setTenant tenant =>
    some { s with
      accounts := { s.accounts with tenants := upsertRow Tenant.id s.accounts.tenants tenant } }

/-- The authentication service. -/
def service (settings : Settings) : System sig Store Env Request Reply where
  exec := exec settings
  env := env
  code := code settings

end Ai4iCore.Auth
