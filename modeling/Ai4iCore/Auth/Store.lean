import Ai4iCore.Auth.Account
import Ai4iCore.Base.Pool

/-!
# The authentication store, operation by operation

What sign-in, sign-out and the e-mailed links work on: the tables `users`,
`tenants`, `user_credentials`, `token_verification` and `refresh`, and in Redis
the logout marks, the OAuth states and the exchange codes. Every statement that
reads, every commit and every Redis command is one operation; what a transaction
has flushed becomes visible with its commit.

A JWT is modelled by its claims. Signatures cannot be forged, so a token that
verifies was minted here (`Store.minted`), and `jti` makes every token unique.

The last group of fields of `Store` is history that no code reads: it records
what was issued, consumed and revoked, so that the properties can speak of it.
-/

namespace Ai4iCore.Auth

open ApiKey (TenantStatus Time second)
open Concurrent

/-! ## Tokens -/

/-- `TokenType`. -/
inductive TokenType
  | access
  | refresh
  | setup
  | reset
  | verify
deriving Repr, DecidableEq

/-- The claims of a JWT. `iat` and `exp` are whole seconds. `parent`, which is not a claim,
is the `jti` of the refresh token an access token was minted from. -/
structure Token where
  jti : Nat
  type : TokenType
  sub : UserId
  iat : Nat
  exp : Nat
  permissionIds : List Nat
  parent : Option Nat
deriving Repr, DecidableEq

/-- An access token and its refresh token. -/
structure Pair where
  access : Token
  refresh : Token
deriving Repr, DecidableEq

/-- The settings that the handlers read. `redirectAllowed` is the answer of
`_get_allowed_redirect`. -/
structure Settings where
  accessTokenExpireMinutes : Nat
  refreshTokenExpireDays : Nat
  setupTokenExpireHours : Nat
  resetTokenExpireMinutes : Nat
  jwtAudience : Option String
  oauthStateTtlSeconds : Nat
  oauthExchangeCodeTtlSeconds : Nat
  redirectAllowed : Bool
deriving Repr, DecidableEq

/-- The defaults of `config.py`. -/
def Settings.default : Settings where
  accessTokenExpireMinutes := 60
  refreshTokenExpireDays := 7
  setupTokenExpireHours := 48
  resetTokenExpireMinutes := 30
  jwtAudience := none
  oauthStateTtlSeconds := 600
  oauthExchangeCodeTtlSeconds := 120
  redirectAllowed := false

/-- The lifetime of a token, in seconds. -/
def Settings.lifetime (c : Settings) : TokenType → Nat
  | .access => c.accessTokenExpireMinutes * 60
  | .refresh => c.refreshTokenExpireDays * 86400
  | .setup | .verify => c.setupTokenExpireHours * 3600
  | .reset => c.resetTokenExpireMinutes * 60

/-! ## Rows and Redis entries -/

/-- A row of `token_verification`; `expires_at` is written and never read. -/
structure Link where
  token : Token
  isActive : Bool
  createdBy : UserId
deriving Repr, DecidableEq

/-- A row of `refresh`, one for each user. -/
structure RefreshRow where
  id : Nat
  token : Token
deriving Repr, DecidableEq

/-- The logout mark: a whole second, with a TTL. -/
structure Mark where
  seconds : Nat
  expiresAt : Time
deriving Repr, DecidableEq

/-- `auth:oauth_state:…`; `redirect` says whether a `redirect_uri` was stored. -/
structure OAuthState where
  provider : String
  redirect : Bool
  expiresAt : Time
deriving Repr, DecidableEq

/-- `auth:oauth_exchange:…`. -/
structure ExchangeEntry where
  pair : Pair
  expiresAt : Time
deriving Repr, DecidableEq

/-! ## History -/

/-- Why a session was issued. -/
inductive SessionCause
  | login
  | oauth (state : Nat)
  | passwordChange
deriving Repr, DecidableEq

/-- A logout, password reset or password change that has completed: the number of tokens
minted by then, and the tokens the request issued itself. -/
structure Revocation where
  user : UserId
  stamp : Nat
  own : List Nat
deriving Repr, DecidableEq

/-- The shared state. `markedAt` is the number of tokens minted by the user's last mark, and
`superseded` the links that were there when a reissue for their user and type committed. -/
structure Store where
  now : Time
  accounts : Accounts
  staff : List UserId
  permissions : UserId → List Nat
  credentials : UserId → Option String
  links : List Link
  refresh : UserId → Option RefreshRow
  marks : UserId → Option Mark
  states : Nat → Option OAuthState
  codes : Nat → Option ExchangeEntry
  nextJti : Nat
  nextRow : Nat
  nextNonce : Nat
  -- history
  minted : List Token
  consumed : List Token
  superseded : List Token
  sessions : List (UserId × SessionCause)
  revocations : List Revocation
  markedAt : UserId → Nat

namespace Store

/-- The Default Organisation and no users. -/
def empty : Store where
  now := 0
  accounts := ⟨[], [⟨1, "default organisation", "root@example.com", .active⟩]⟩
  staff := []
  permissions _ := []
  credentials _ := none
  links := []
  refresh _ := none
  marks _ := none
  states _ := none
  codes _ := none
  nextJti := 0
  nextRow := 0
  nextNonce := 0
  minted := []
  consumed := []
  superseded := []
  sessions := []
  revocations := []
  markedAt _ := 0

/-- User 7 with a password. -/
def signedUp : Store :=
  { empty with
    accounts := ⟨[⟨7, "user@example.com", some 1, true, some 0, false, true, some .default⟩],
      empty.accounts.tenants⟩
    credentials := fun _ => some "secret" }

/-- The whole second of the clock. -/
def seconds (s : Store) : Nat := s.now / second

/-- The row of a link. -/
def link (s : Store) (token : Token) : Option Link := Table.get Link.token s.links token

/-- `jwt.decode`: the signature and the expiry. -/
def validateToken (s : Store) (token : Token) : Bool :=
  decide (token ∈ s.minted) && decide (s.seconds < token.exp)

/-- `get_logout_timestamp`. -/
def logoutTimestamp (s : Store) (id : UserId) : Option Nat :=
  ((s.marks id).filter fun m => s.now < m.expiresAt).map Mark.seconds

/-- The user's row, as `mark_activated` on the copy `u` leaves it: only columns that change
in the copy are written. -/
def activateUser (s : Store) (u : User) : Accounts :=
  s.accounts.modifyUser u.id fun row =>
    { row with
      isActive := row.isActive || !u.isActive
      activatedAt := if u.activatedAt.isSome then row.activatedAt else some s.now }

/-- A tenant becomes ACTIVE, and its users get their access back
(`sync_tenant_users_for_status`). -/
def activateTenant (a : Accounts) (tenantId : Nat) : Accounts where
  users := a.users.map fun u =>
    if u.tenantId = some tenantId ∧ u.isDelete = false then { u with isTenantActive := true }
    else u
  tenants := Table.modify Tenant.id a.tenants tenantId fun t => { t with status := .active }

/-- `VerificationRepository.deactivate`. -/
def deactivate (links : List Link) (token : Token) : List Link :=
  Table.modify Link.token links token fun l => { l with isActive := false }

/-- The rows `deactivate_all_for_user` switches off, of those it has read. It decodes each
stored token without an audience, which PyJWT refuses for a token that has one: with
`JWT_AUDIENCE` set every row is left alone. -/
def staleTokens (settings : Settings) (rows : List Link) (type : TokenType) : List Token :=
  (rows.filter fun l => settings.jwtAudience.isNone && l.token.type = type).map Link.token

end Store

/-! ## Operations -/

/-- One read, commit or Redis command. -/
inductive Op
  | now
  | getByEmail (email : String)
  | emailExists (email : String)
  | getById (id : UserId)
  | isActive (id : UserId)
  | isPlatformStaff (id : UserId)
  | tenant (id : Nat)
  | defaultTenant
  | pendingTenants
  | credentials (id : UserId)
  | permissionIds (id : UserId)
  | getLink (token : Token)
  | activeLinks (id : UserId)
  | getRefresh (token : Token)
  | refreshRow (id : UserId)
  | validateToken (token : Token)
  | mint (type : TokenType) (sub : UserId) (permissionIds : List Nat) (parent : Option Nat)
  | createUser (user : User) (password : Option String)
  | insertLink (token : Token) (id : UserId)
  | activateByLink (user : User) (token : Token)
  | reissueLink (id : UserId) (type : TokenType) (rows : List Link) (token : Token)
  | resetPassword (id : UserId) (password : String) (token : Token) (row : Option Nat)
  | setPassword (user : User) (password : String) (token : Token) (activates : Option Nat)
  | commitSession (id : UserId) (pair : Pair) (cause : SessionCause)
  | deleteRefresh (id : UserId) (row : Option Nat)
  | updatePassword (id : UserId) (password : String)
  | setLogoutTimestamp (id : UserId) (completes : Bool)
  | setState (provider : String) (redirect : Bool)
  | getState (state : Nat)
  | deleteState (state : Nat)
  | setCode (pair : Pair)
  | getCode (code : Nat)
  | deleteCode (code : Nat)
deriving DecidableEq

/-- What an operation answers. A commit that may break a constraint answers whether it went
through. -/
abbrev Op.Res : Op → Type
  | .now => Time
  | .getByEmail _ | .getById _ => Option User
  | .emailExists _ | .isActive _ | .isPlatformStaff _ | .validateToken _ => Bool
  | .tenant _ | .defaultTenant => Option Tenant
  | .pendingTenants => List Tenant
  | .credentials _ => Option String
  | .permissionIds _ => List Nat
  | .getLink _ => Option Link
  | .activeLinks _ => List Link
  | .getRefresh _ | .refreshRow _ => Option RefreshRow
  | .mint _ _ _ _ => Token
  | .createUser _ _ | .insertLink _ _ | .reissueLink _ _ _ _ | .setPassword _ _ _ _ => Bool
  | .activateByLink _ _ | .resetPassword _ _ _ _ | .commitSession _ _ _ | .deleteRefresh _ _
  | .updatePassword _ _ | .setLogoutTimestamp _ _ | .deleteState _ | .deleteCode _ => Unit
  | .setState _ _ | .setCode _ => Nat
  | .getState _ => Option OAuthState
  | .getCode _ => Option ExchangeEntry

/-- The errors of the handlers. -/
inductive AuthError
  | invalidCredentials
  | userInactive
  | userNotFound
  | tenantInactive
  | tenantSuspended
  | tokenInvalid
  | tokenRevoked
  | duplicateEntity
  | samePassword
  | tenantNotFound
  | tenantNotActive
  | userSuspended
  | oauthStateInvalid
  | oauthProviderMismatch
  | oauthCodeExchangeFailed
  | oauthEmailUnverified
  | oauthCodeInvalid
  | integrityError
  | ioError
deriving Repr, DecidableEq

/-- The operations of the authentication service. -/
abbrev sig : Signature where
  Op := Op
  Res := Op.Res
  Err := AuthError
  ioError := .ioError

/-- A handler. -/
abbrev Handler := Prog sig

/-- Perform one operation. -/
def perform (o : Op) : Handler o.Res := Prog.perform (S := sig) o

namespace Store

/-- `_create_token`. Its two readings of the clock, with no `await` between them, are one. -/
def newToken (settings : Settings) (s : Store) (type : TokenType) (sub : UserId)
    (permissionIds : List Nat) (parent : Option Nat) : Token where
  jti := s.nextJti
  type := type
  sub := sub
  iat := s.seconds
  exp := s.seconds + settings.lifetime type
  permissionIds := permissionIds
  parent := parent

/-- The links of a user and a type, used or not. -/
def tokensOf (s : Store) (id : UserId) (type : TokenType) : List Token :=
  (s.links.filter fun l => l.createdBy = id && l.token.type = type).map Link.token

/-- An `INSERT` into `token_verification`; the token is unique. It supersedes `old`. -/
def insertLink (s : Store) (links : List Link) (token : Token) (id : UserId)
    (old : List Token) : Store × Bool :=
  if (Table.get Link.token links token).isSome then (s, false)
  else ({ s with links := links ++ [⟨token, true, id⟩], superseded := old ++ s.superseded }, true)

/-- `DELETE` of the refresh row that was read; nothing when that row is gone. -/
def deleteRefresh (s : Store) (id : UserId) (row : Option Nat) : UserId → Option RefreshRow :=
  if (s.refresh id).map RefreshRow.id = row then Function.update s.refresh id none else s.refresh

/-- `upsert`: an existing row keeps its `id`. -/
def upsertRefresh (s : Store) (id : UserId) (token : Token) : UserId → Option RefreshRow :=
  Function.update s.refresh id
    (some ⟨((s.refresh id).map RefreshRow.id).getD s.nextRow, token⟩)

/-- `set_logout_timestamp`, with the lifetime of an access token. -/
def mark (settings : Settings) (s : Store) (id : UserId) : Store :=
  { s with
    marks := Function.update s.marks id
      (some ⟨s.seconds, s.now + settings.accessTokenExpireMinutes * 60 * second⟩)
    markedAt := Function.update s.markedAt id s.nextJti }

/-- The history of a revocation that completes. -/
def complete (s : Store) (id : UserId) (own : List Nat) : Store :=
  { s with revocations := ⟨id, s.nextJti, own⟩ :: s.revocations }

end Store

/-- What an operation does. -/
def exec (settings : Settings) : (o : Op) → Store → Store × o.Res
  | .now, s => (s, s.now)
  | .getByEmail email, s => (s, s.accounts.getByEmail email)
  | .emailExists email, s => (s, s.accounts.emailExists email)
  | .getById id, s => (s, s.accounts.getById id)
  | .isActive id, s => (s, (s.accounts.getById id).any User.isActive)
  | .isPlatformStaff id, s => (s, decide (id ∈ s.staff))
  | .tenant id, s => (s, s.accounts.tenant id)
  | .defaultTenant, s => (s, s.accounts.tenants.find? isDefaultTenant)
  | .pendingTenants, s => (s, s.accounts.tenants.filter fun t => t.status = .pending)
  | .credentials id, s => (s, s.credentials id)
  | .permissionIds id, s => (s, s.permissions id)
  | .getLink token, s => (s, s.link token)
  | .activeLinks id, s => (s, s.links.filter fun l => l.createdBy = id && l.isActive)
  -- a token is only ever stored under its own subject
  | .getRefresh token, s => (s, (s.refresh token.sub).filter fun row => row.token = token)
  | .refreshRow id, s => (s, s.refresh id)
  | .validateToken token, s => (s, s.validateToken token)
  | .mint type sub permissionIds parent, s =>
    let token := s.newToken settings type sub permissionIds parent
    ({ s with nextJti := s.nextJti + 1, minted := token :: s.minted }, token)
  | .createUser user password, s =>
    if s.accounts.emailExists user.email || (s.accounts.user user.id).isSome then (s, false)
    else
      ({ s with
          accounts := { s.accounts with users := s.accounts.users ++ [user] }
          credentials := Function.update s.credentials user.id password }, true)
  | .insertLink token id, s => s.insertLink s.links token id []
  | .activateByLink user token, s =>
    ({ s with
        accounts := s.activateUser user
        links := Store.deactivate s.links token
        consumed := token :: s.consumed }, ())
  | .reissueLink id type rows token, s =>
    s.insertLink ((Store.staleTokens settings rows type).foldl Store.deactivate s.links) token id
      (s.tokensOf id type)
  | .resetPassword id password token row, s =>
    ({ s with
        credentials := Function.update s.credentials id (some password)
        links := Store.deactivate s.links token
        refresh := s.deleteRefresh id row
        consumed := token :: s.consumed }, ())
  | .setPassword user password token activates, s =>
    if (s.credentials user.id).isSome then (s, false)
    else
      ({ s with
          credentials := Function.update s.credentials user.id (some password)
          accounts := match activates with
            | some t => Store.activateTenant (s.activateUser user) t
            | none => s.activateUser user
          links := Store.deactivate s.links token
          consumed := token :: s.consumed }, true)
  | .commitSession id pair cause, s =>
    let stored := { s with
      refresh := s.upsertRefresh id pair.refresh
      nextRow := s.nextRow + 1
      sessions := (id, cause) :: s.sessions }
    (if cause = .passwordChange then
      stored.complete id [pair.access.jti, pair.refresh.jti] else stored, ())
  | .deleteRefresh id row, s => ({ s with refresh := s.deleteRefresh id row }, ())
  | .updatePassword id password, s =>
    ({ s with credentials := Function.update s.credentials id (some password) }, ())
  | .setLogoutTimestamp id completes, s =>
    (if completes then (s.mark settings id).complete id [] else s.mark settings id, ())
  | .setState provider redirect, s =>
    ({ s with
        states := Function.update s.states s.nextNonce
          (some ⟨provider, redirect, s.now + settings.oauthStateTtlSeconds * second⟩)
        nextNonce := s.nextNonce + 1 }, s.nextNonce)
  | .getState state, s => (s, (s.states state).filter fun e => s.now < e.expiresAt)
  | .deleteState state, s => ({ s with states := Function.update s.states state none }, ())
  | .setCode pair, s =>
    ({ s with
        codes := Function.update s.codes s.nextNonce
          (some ⟨pair, s.now + settings.oauthExchangeCodeTtlSeconds * second⟩)
        nextNonce := s.nextNonce + 1 }, s.nextNonce)
  | .getCode code, s => (s, (s.codes code).filter fun e => s.now < e.expiresAt)
  | .deleteCode code, s => ({ s with codes := Function.update s.codes code none }, ())

/-! ## The gateway -/

namespace Store

/-- `check_token_revocation`: issued in a second before that of the last logout mark. -/
def isRevoked (s : Store) (token : Token) : Bool :=
  (s.logoutTimestamp token.sub).any fun seconds => token.iat < seconds

/-- `_validate_jwt` accepts the token for an endpoint that asks for `required`. The type of
the token is not looked at. -/
def validateJwt (s : Store) (required : Option Nat) (token : Token) : Bool :=
  s.validateToken token && !s.isRevoked token &&
    required.all fun permission => decide (permission ∈ token.permissionIds)

end Store

end Ai4iCore.Auth
