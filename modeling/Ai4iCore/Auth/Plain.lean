import Ai4iCore.Auth.Service

/-!
# Handlers that touch no session

Most handlers sign nobody in, activate nobody and consume no OAuth state or exchange
code: their operations are all *plain*. The properties of the others can pass over
them.
-/

namespace Ai4iCore.Auth

open Concurrent Prog

variable {β : Type}

/-- The operation issues no session, activates nobody and deletes no OAuth state or code. -/
def Op.isPlain : Op → Bool
  | .mint type _ _ _ => type ≠ .access && type ≠ .refresh
  | .activateByLink _ _ | .setPassword _ _ _ _ | .commitSession _ _ _ | .deleteState _
  | .deleteCode _ => false
  | _ => true

/-- All operations of the handler are plain. -/
abbrev Plain (p : Handler β) : Prop := Only (fun o : Op => o.isPlain = true) p

theorem plain_perform {o : Op} (ho : o.isPlain = true) : Plain (perform o) := only_perform ho

/-- One operation and the rest. -/
theorem only_then {P : Op → Prop} {o : Op} {f : o.Res → Handler β} (ho : P o)
    (hf : ∀ a, Only P (f a)) : Only P (perform o >>= f) :=
  only_bind (only_perform ho) hf

theorem plain_then {o : Op} {f : o.Res → Handler β} (ho : o.isPlain = true)
    (hf : ∀ a, Plain (f a)) : Plain (perform o >>= f) :=
  only_then ho hf

theorem plain_assertTenantAllowsAuthentication (tenant : Option Tenant) :
    Plain (assertTenantAllowsAuthentication tenant) := by
  cases tenant with
  | none => trivial
  | some tenant =>
    rw [assertTenantAllowsAuthentication]
    cases tenant.status <;> trivial

theorem plain_assertTenantAllowsOnboarding (tenant : Option Tenant) :
    Plain (assertTenantAllowsOnboarding tenant) := by
  cases tenant with
  | none => trivial
  | some tenant =>
    rw [assertTenantAllowsOnboarding]
    cases tenant.status <;> trivial

theorem plain_assertUserTenantActive (user : User) : Plain (assertUserTenantActive user) := by
  unfold assertUserTenantActive
  cases user.tenantId with
  | none => trivial
  | some t =>
    refine plain_then rfl fun tenant => ?_
    refine only_bind (plain_assertTenantAllowsAuthentication tenant) fun _ => ?_
    split <;> trivial

theorem plain_loadTenant (user : User) : Plain (loadTenant user) := by
  unfold loadTenant
  cases user.tenantId with
  | none => trivial
  | some t => exact plain_perform rfl

theorem plain_orIntegrityError (committed : Bool) :
    Plain (orIntegrityError committed) := by
  unfold orIntegrityError
  split <;> trivial

/-- A reissued link is no session. -/
theorem plain_reissue (user : User) {type : TokenType} (haccess : type ≠ .access)
    (hrefresh : type ≠ .refresh) : Plain (reissue user type) := by
  have hmint : (Op.mint type user.id [] none).isPlain = true := by
    simp [Op.isPlain, haccess, hrefresh]
  unfold reissue
  refine plain_then rfl fun rows => ?_
  refine plain_then hmint fun token => ?_
  exact plain_then rfl fun committed => plain_orIntegrityError committed

theorem plain_reissueVerifyToken (user : User) : Plain (reissueVerifyToken user) := by
  unfold reissueVerifyToken
  split
  · trivial
  · refine plain_then rfl fun stored => ?_
    cases stored with
    | none => trivial
    | some password =>
      exact only_bind (plain_reissue user (by decide) (by decide)) fun _ => trivial

theorem plain_reissueSetupToken (user : User) : Plain (reissueSetupToken user) := by
  unfold reissueSetupToken
  refine plain_then rfl fun stored => ?_
  cases stored with
  | some password => trivial
  | none => exact only_bind (plain_reissue user (by decide) (by decide)) fun _ => trivial

theorem plain_resolveMaskedByTenantId (email : String) (tenantId : Nat) (caller : Option User) :
    Plain (resolveMaskedByTenantId email tenantId caller) := by
  unfold resolveMaskedByTenantId
  refine plain_then rfl fun tenant => ?_
  cases tenant with
  | none => trivial
  | some tenant =>
    dsimp only
    split
    · refine only_bind ?_ fun allowed => ?_
      · cases caller with
        | none => trivial
        | some c => exact plain_then rfl fun _ => trivial
      · split
        · exact plain_perform rfl
        · trivial
    · trivial

theorem plain_resolveMaskedByScan (email : String) :
    Plain (resolveMaskedByScan email) := by
  unfold resolveMaskedByScan
  refine plain_then rfl fun pending => ?_
  split
  · exact plain_perform rfl
  · trivial

theorem plain_resolveMasked (email : String) (tenantId : Option Nat) (caller : Option User) :
    Plain (resolveMasked email tenantId caller) := by
  unfold resolveMasked
  cases tenantId with
  | some t => exact plain_resolveMaskedByTenantId email t caller
  | none =>
    cases caller with
    | none => trivial
    | some c =>
      refine plain_then rfl fun staff => ?_
      split
      · exact plain_resolveMaskedByScan email
      · split
        · trivial
        · exact plain_resolveMaskedByTenantId email _ _

theorem plain_resolveSetupLinkUser (email : String) (tenantId : Option Nat)
    (caller : Option User) : Plain (resolveSetupLinkUser email tenantId caller) := by
  unfold resolveSetupLinkUser
  refine plain_then rfl fun found => ?_
  cases found with
  | some user => trivial
  | none =>
    dsimp only
    split
    · exact plain_resolveMasked email tenantId caller
    · trivial

/-- `resend_setup_link` issues a link, even to a barred user, and nothing else. -/
theorem plain_resendSetupLink (email : String) (tenantId : Option Nat)
    (caller : Option UserId) : Plain (resendSetupLink email tenantId caller) := by
  unfold resendSetupLink
  refine only_bind ?_ fun current => ?_
  · cases caller with
    | none => trivial
    | some id => exact plain_then rfl fun _ => trivial
  · refine only_bind (plain_resolveSetupLinkUser email tenantId current) fun user => ?_
    cases user with
    | none => trivial
    | some user => exact only_bind (plain_reissueSetupToken user) fun _ => trivial

theorem plain_resendVerification (email : String) :
    Plain (resendVerification email) := by
  unfold resendVerification
  refine plain_then rfl fun found => ?_
  cases found with
  | none => trivial
  | some user => exact only_bind (plain_reissueVerifyToken user) fun _ => trivial

theorem plain_requestPasswordReset (email : String) :
    Plain (requestPasswordReset email) := by
  unfold requestPasswordReset
  refine plain_then rfl fun found => ?_
  cases found with
  | none => trivial
  | some user =>
    dsimp only
    split
    · refine plain_then rfl fun stored => ?_
      cases stored with
      | none => trivial
      | some password =>
        exact only_bind (plain_reissue user (by decide) (by decide)) fun _ => trivial
    · trivial

theorem plain_validateTokenOfType (token : Token) (type : TokenType) :
    Plain (validateTokenOfType token type) := by
  unfold validateTokenOfType
  refine plain_then rfl fun valid => ?_
  dsimp only
  split <;> trivial

theorem plain_resolveVerifiedToken (token : Token) (type : TokenType) :
    Plain (resolveVerifiedToken token type) := by
  unfold resolveVerifiedToken
  refine only_bind (plain_validateTokenOfType token type) fun _ => ?_
  refine plain_then rfl fun link => ?_
  cases link with
  | none => trivial
  | some link =>
    dsimp only
    split
    · refine plain_then rfl fun user => ?_
      cases user <;> trivial
    · trivial

/-- A password reset signs everybody out and activates nobody. -/
theorem plain_resetPasswordWithToken (token : Token) (password : String) :
    Plain (resetPasswordWithToken token password) := by
  unfold resetPasswordWithToken
  refine only_bind (plain_resolveVerifiedToken token .reset) fun user => ?_
  refine plain_then rfl fun stored => ?_
  cases stored with
  | none => trivial
  | some old =>
    refine plain_then rfl fun row => ?_
    refine plain_then rfl fun _ => ?_
    refine only_bind ?_ fun _ => trivial
    exact only_tryCatch (plain_perform rfl) fun _ => trivial

theorem plain_register (id : UserId) (email password : String) (tenantId : Option Nat) :
    Plain (register id email password tenantId) := by
  unfold register
  refine plain_then rfl fun taken => ?_
  dsimp only
  split
  · trivial
  · refine only_bind ?_ fun tenant => ?_
    · cases tenantId with
      | none => exact plain_then rfl fun _ => trivial
      | some t =>
        refine plain_then rfl fun found => ?_
        cases found <;> trivial
    · refine plain_then rfl fun created => ?_
      refine only_bind (plain_orIntegrityError created) fun _ => ?_
      refine plain_then rfl fun token => ?_
      refine plain_then rfl fun committed => ?_
      exact only_bind (plain_orIntegrityError committed) fun _ => trivial

theorem plain_resendTenantUserSetupLink (tenantId : Nat) (id : UserId) :
    Plain (resendTenantUserSetupLink tenantId id) := by
  unfold resendTenantUserSetupLink
  refine plain_then rfl fun tenant => ?_
  cases tenant with
  | none => trivial
  | some tenant =>
    dsimp only
    split
    · refine plain_then rfl fun user => ?_
      cases user with
      | none => trivial
      | some user =>
        dsimp only
        split
        · split
          · refine only_bind (plain_reissueVerifyToken user) fun verified => ?_
            split
            · trivial
            · exact only_bind (plain_reissueSetupToken user) fun _ => trivial
          · trivial
        · trivial
    · trivial

theorem plain_findOrCreateUser (info : UserInfo) (provider : String) :
    Plain (findOrCreateUser info provider) := by
  unfold findOrCreateUser
  refine plain_then rfl fun found => ?_
  cases found with
  | some user => trivial
  | none =>
    refine plain_then rfl fun tenant => ?_
    refine plain_then rfl fun now => ?_
    refine plain_then rfl fun created => ?_
    exact only_bind (plain_orIntegrityError created) fun _ => trivial

theorem plain_logout (id : UserId) : Plain (logout id) := by
  unfold logout
  refine plain_then rfl fun row => ?_
  refine plain_then rfl fun _ => ?_
  exact plain_then rfl fun _ => trivial

theorem plain_authorize (provider : String) (redirect : Bool) :
    Plain (authorize provider redirect) := by
  unfold authorize
  exact plain_then rfl fun _ => trivial

end Ai4iCore.Auth
