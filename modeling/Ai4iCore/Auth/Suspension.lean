import Ai4iCore.Auth.Plain

/-!
# Suspension against self-service

A user is *barred* when it was activated once and now is not active or is deleted,
or when its tenant is SUSPENDED or DEACTIVATED. Login, refresh and e-mail
verification test for that before they issue or activate anything. Two handlers
do not:

* `complete_oauth_login` signs an existing user in as it is found
  (`oauth_signs_in_suspended`);
* `set_password_with_token` calls `mark_activated` on a user that was activated
  before, which `verify_email_token` refuses to do; `resend_setup_link` issues the
  link for it to any user without a password.

`suspension_holds` shows that these two are the only ways around a suspension.
Each request runs from start to end here; the administrators move in between.
-/

namespace Ai4iCore.Auth

open ApiKey (TenantStatus)
open Concurrent StepSystem

/-! ## Barred users -/

/-- The tenant of the user is SUSPENDED or DEACTIVATED. -/
def TenantBarred (a : Accounts) (u : User) : Prop :=
  ∃ t tenant, u.tenantId = some t ∧ a.tenant t = some tenant ∧
    (tenant.status = .suspended ∨ tenant.status = .deactivated)

/-- The user is barred. -/
def Barred (a : Accounts) (b : UserId) : Prop :=
  ∃ u, a.user b = some u ∧
    ((u.isActivated = true ∧ (u.isActive = false ∨ u.isDelete = true)) ∨ TenantBarred a u)

/-- A token of a session. -/
def Token.IsSession (t : Token) : Prop := t.type = .access ∨ t.type = .refresh

/-- Since `s₀` the user has been barred and got no token. -/
structure Held (b : UserId) (s₀ s : Store) : Prop where
  wellFormed : s.accounts.WellFormed
  barred : Barred s.accounts b
  noToken : ∀ t ∈ s.minted, t.sub = b → t.IsSession → t ∈ s₀.minted

variable {settings : Settings} {b : UserId} {s₀ s : Store}

/-! ## Operations that keep the bar -/

/-- The operation issues no session for `b`, does not activate `b`, and activates no tenant
but a pending one. -/
def Harmless (b : UserId) (s : Store) : Op → Prop
  | .mint type sub _ _ => sub ≠ b ∨ (type ≠ .access ∧ type ≠ .refresh)
  | .activateByLink user _ => user.id ≠ b
  | .setPassword user _ _ activates => (s.credentials user.id).isSome ∨
      (user.id ≠ b ∧ ∀ t ∈ activates, ∀ tenant, s.accounts.tenant t = some tenant →
        tenant.status = .pending)
  | _ => True

/-- Changing another user. -/
theorem Barred.modifyUser {a : Accounts} {id : UserId} {f : User → User} (h : Barred a b)
    (hf : ∀ u, (f u).id = u.id) (hne : id ≠ b) : Barred (a.modifyUser id f) b := by
  obtain ⟨u, hu, hcase⟩ := h
  refine ⟨u, ?_, hcase⟩
  rw [Accounts.user_modifyUser a id b f hf, hu]
  simp [hne.symm]

/-- A new user. -/
theorem Barred.insertUser {a : Accounts} (h : Barred a b) (new : User) :
    Barred { a with users := a.users ++ [new] } b := by
  obtain ⟨u, hu, hcase⟩ := h
  exact ⟨u, Table.get_append_of_some hu _, hcase⟩

/-- Activating a tenant that is pending. -/
theorem Barred.activateTenant {a : Accounts} {t : Nat} (h : Barred a b)
    (ht : ∀ tenant, a.tenant t = some tenant → tenant.status = .pending) :
    Barred (Store.activateTenant a t) b := by
  obtain ⟨u, hu, hcase⟩ := h
  have huser : ∀ rows : List User, Table.get User.id rows b = some u →
      ∃ u', Table.get User.id (rows.map fun u =>
          if u.tenantId = some t ∧ u.isDelete = false then { u with isTenantActive := true }
          else u) b = some u' ∧
        u'.isActivated = u.isActivated ∧ u'.isActive = u.isActive ∧
        u'.isDelete = u.isDelete ∧ u'.tenantId = u.tenantId := by
    intro rows hrows
    refine ⟨if u.tenantId = some t ∧ u.isDelete = false then
      { u with isTenantActive := true } else u, ?_, ?_⟩
    · rw [Table.get, List.find?_map]
      rw [Table.get] at hrows
      have hsame : ((fun r : User => decide (r.id = b)) ∘ fun u : User =>
          if u.tenantId = some t ∧ u.isDelete = false then { u with isTenantActive := true }
          else u) = fun r => decide (r.id = b) := by
        funext r
        simp only [Function.comp_apply]
        split <;> rfl
      rw [hsame, hrows]
      rfl
    · split
      · exact ⟨rfl, rfl, rfl, rfl⟩
      · exact ⟨rfl, rfl, rfl, rfl⟩
  obtain ⟨u', hu', hactivated, hactive, hdelete, htenant⟩ := huser a.users hu
  refine ⟨u', hu', ?_⟩
  rw [hactivated, hactive, hdelete]
  refine hcase.imp_right ?_
  rintro ⟨t', tenant, hut, hget, hstatus⟩
  refine ⟨t', tenant, htenant.trans hut, ?_, hstatus⟩
  -- the tenant of `b` is not pending, so it is another one
  have hne : t' ≠ t := by
    rintro rfl
    rw [ht tenant hget] at hstatus
    obtain hstatus | hstatus := hstatus <;> cases hstatus
  exact (Table.get_modify_of_ne (f := fun t : Tenant => { t with status := .active })
    (fun _ => rfl) hne).trans hget

theorem wellFormed_activateUser (h : s.accounts.WellFormed) (u : User) :
    (s.activateUser u).WellFormed := by
  rw [Accounts.WellFormed, Store.activateUser, Accounts.modifyUser, Table.map_key_modify]
  · exact h
  · exact fun _ hr => hr

theorem wellFormed_activateTenant {a : Accounts} (h : a.WellFormed) (t : Nat) :
    (Store.activateTenant a t).WellFormed := by
  rw [Accounts.WellFormed, Store.activateTenant, List.map_map]
  rw [Accounts.WellFormed] at h
  have hsame : (User.id ∘ fun u : User =>
      if u.tenantId = some t ∧ u.isDelete = false then { u with isTenantActive := true }
      else u) = User.id := by
    funext u
    simp only [Function.comp_apply]
    split <;> rfl
  rw [hsame]
  exact h

/-- The operations that change the accounts or mint a token. -/
def Op.issuesOrActivates : Op → Bool
  | .mint _ _ _ _ | .createUser _ _ | .activateByLink _ _ | .setPassword _ _ _ _ => true
  | _ => false

/-- The others leave the accounts and the tokens alone. -/
theorem exec_frame (settings : Settings) (o : Op) (s : Store) (ho : o.issuesOrActivates = false) :
    (exec settings o s).1.accounts = s.accounts ∧ (exec settings o s).1.minted = s.minted := by
  cases o with
  | mint type sub ids parent => cases ho
  | createUser user password => cases ho
  | activateByLink user token => cases ho
  | setPassword user password token activates => cases ho
  | insertLink token id =>
    simp only [exec, Store.insertLink]
    split <;> exact ⟨rfl, rfl⟩
  | reissueLink id type rows token =>
    simp only [exec, Store.insertLink]
    split <;> exact ⟨rfl, rfl⟩
  | commitSession id pair cause =>
    simp only [exec]
    split <;> exact ⟨rfl, rfl⟩
  | setLogoutTimestamp id completes =>
    simp only [exec]
    split <;> exact ⟨rfl, rfl⟩
  | _ => exact ⟨rfl, rfl⟩

/-- User ids stay unique. -/
theorem exec_wellFormed (settings : Settings) (o : Op) (h : s.accounts.WellFormed) :
    (exec settings o s).1.accounts.WellFormed := by
  have hframe : o.issuesOrActivates = false →
      (exec settings o s).1.accounts.WellFormed :=
    fun hother => (exec_frame settings o s hother).1 ▸ h
  cases o with
  | mint type sub ids parent => exact h
  | createUser user password =>
    simp only [exec]
    split
    · exact h
    · rename_i hfresh
      rw [Bool.or_eq_true, not_or] at hfresh
      have hnone : Table.get User.id s.accounts.users user.id = none := by
        simpa [Accounts.user] using hfresh.2
      exact Table.nodup_append_singleton h hnone
  | activateByLink user token => exact wellFormed_activateUser h user
  | setPassword user password token activates =>
    simp only [exec]
    split
    · exact h
    · cases activates with
      | none => exact wellFormed_activateUser h user
      | some t => exact wellFormed_activateTenant (wellFormed_activateUser h user) t
  | _ => exact hframe rfl

/-- **A harmless operation keeps the bar.** -/
theorem exec_held (settings : Settings) (o : Op) (h : Held b s₀ s) (ho : Harmless b s o) :
    Held b s₀ (exec settings o s).1 := by
  have hwellFormed := exec_wellFormed settings o h.wellFormed
  have hframe : o.issuesOrActivates = false → Held b s₀ (exec settings o s).1 := by
    intro hother
    obtain ⟨haccounts, hminted⟩ := exec_frame settings o s hother
    exact ⟨hwellFormed, haccounts ▸ h.barred, hminted ▸ h.noToken⟩
  cases o with
  | mint type sub ids parent =>
    refine ⟨hwellFormed, h.barred, fun t ht hsub hsession => ?_⟩
    obtain rfl | ht := List.mem_cons.mp ht
    · obtain hne | hother := ho
      · exact absurd hsub hne
      · obtain htype | htype := hsession
        · exact absurd htype hother.1
        · exact absurd htype hother.2
    · exact h.noToken t ht hsub hsession
  | createUser user password =>
    refine ⟨hwellFormed, ?_, ?_⟩
    · simp only [exec]
      split
      · exact h.barred
      · exact h.barred.insertUser user
    · simp only [exec]
      split
      · exact h.noToken
      · exact h.noToken
  | activateByLink user token =>
    exact ⟨hwellFormed, h.barred.modifyUser (fun _ => rfl) ho, h.noToken⟩
  | setPassword user password token activates =>
    simp only [exec] at hwellFormed ⊢
    split
    · exact h
    · rename_i hnone
      rw [if_neg hnone] at hwellFormed
      obtain hsome | ⟨hne, hpending⟩ := ho
      · exact absurd hsome hnone
      · refine ⟨hwellFormed, ?_, h.noToken⟩
        have hbarred : Barred (s.activateUser user) b :=
          h.barred.modifyUser (fun _ => rfl) hne
        cases activates with
        | none => exact hbarred
        | some t =>
          exact hbarred.activateTenant fun tenant htenant => hpending t rfl tenant htenant
  | _ => exact hframe rfl

/-! ## Handlers that never come near the bar -/

/-- Harmless in every state. -/
def Quiet (b : UserId) : Op → Prop
  | .mint type sub _ _ => sub ≠ b ∨ (type ≠ .access ∧ type ≠ .refresh)
  | .activateByLink user _ => user.id ≠ b
  | .setPassword _ _ _ _ => False
  | _ => True

theorem Quiet.harmless {o : Op} (ho : Quiet b o) (s : Store) : Harmless b s o := by
  cases o with
  | mint type sub ids parent => exact ho
  | activateByLink user token => exact ho
  | setPassword user password token activates => exact ho.elim
  | _ => trivial

/-- The handler keeps the bar. -/
abbrev Keeps (settings : Settings) (b : UserId) (s₀ : Store) {α : Type} (p : Handler α)
    (s : Store) : Prop :=
  Prog.Yields (exec settings) (fun _ t => Held b s₀ t) p s

theorem keeps_of_only {α : Type} {p : Handler α} (hp : Prog.Only (Quiet b) p)
    (h : Held b s₀ s) : Keeps settings b s₀ p s :=
  hp.yields (fun s o hs ho => exec_held settings o hs (ho.harmless s)) h

theorem Quiet.of_plain {o : Op} (ho : o.isPlain = true) : Quiet b o := by
  cases o with
  | mint type sub ids parent =>
    simp only [Op.isPlain, Bool.and_eq_true, decide_eq_true_eq] at ho
    exact .inr ho
  | activateByLink user token => cases ho
  | setPassword user password token activates => cases ho
  | _ => trivial

theorem keeps_of_plain {α : Type} {p : Handler α} (hp : Plain p) (h : Held b s₀ s) :
    Keeps settings b s₀ p s :=
  keeps_of_only (hp.mono fun _ => Quiet.of_plain) h

section Quiet

open Prog

variable {β : Type}

theorem quiet_perform {o : Op} (ho : Quiet b o) : Only (Quiet b) (perform o) := only_perform ho

theorem quiet_then {o : Op} {f : o.Res → Handler β} (ho : Quiet b o)
    (hf : ∀ a, Only (Quiet b) (f a)) : Only (Quiet b) (perform o >>= f) :=
  only_bind (quiet_perform ho) hf

theorem quiet_issueSession {user : User} (h : user.id ≠ b) (cause : SessionCause) :
    Only (Quiet b) (issueSession user cause) := by
  unfold issueSession
  refine quiet_then trivial fun ids => ?_
  refine quiet_then (.inl h) fun access => ?_
  refine quiet_then (.inl h) fun refresh => ?_
  exact quiet_then trivial fun _ => trivial

end Quiet

/-! ## Handlers that test for the bar -/

/-- The row a barred user that is not deleted has. -/
theorem Held.cases {u : User} (h : Held b s₀ s) (hu : s.accounts.user b = some u)
    (hdelete : u.isDelete = false) :
    (u.isActivated = true ∧ u.isActive = false) ∨ TenantBarred s.accounts u := by
  obtain ⟨u', hu', hcase⟩ := h.barred
  obtain rfl := Option.some.inj (hu'.symm.trans hu)
  obtain ⟨hactivated, hinactive | hdeleted⟩ | htenant := hcase
  · exact .inl ⟨hactivated, hinactive⟩
  · rw [hdelete] at hdeleted
    cases hdeleted
  · exact .inr htenant

/-- A check that reads only: the store stays, and it fails for users of a barred tenant. -/
def RejectsTenant {α : Type} (settings : Settings) (u : User) (p : Handler α) (s : Store) :
    Prop :=
  Prog.Yields (exec settings)
    (fun r t => t = s ∧ (TenantBarred s.accounts u → ∀ a, r ≠ .ok a)) p s

theorem assertUserTenantActive_rejects (u : User) (s : Store) :
    RejectsTenant settings u (assertUserTenantActive u) s := by
  unfold assertUserTenantActive RejectsTenant
  cases hid : u.tenantId with
  | none =>
    refine ⟨rfl, ?_⟩
    rintro ⟨t, tenant, ht, -, -⟩
    rw [hid] at ht
    cases ht
  | some t =>
    refine Prog.yields_perform ?_
    show Prog.Yields _ _ ((assertTenantAllowsAuthentication (s.accounts.tenant t)).bind _) s
    -- a barred tenant fails the first check
    have hbarred : TenantBarred s.accounts u → ∃ e,
        assertTenantAllowsAuthentication (s.accounts.tenant t) = .raise e := by
      rintro ⟨t', tenant, ht', htenant, hstatus⟩
      obtain rfl := Option.some.inj (hid.symm.trans ht')
      rw [htenant, assertTenantAllowsAuthentication]
      obtain hstatus | hstatus := hstatus
      · rw [hstatus]
        exact ⟨_, rfl⟩
      · rw [hstatus]
        exact ⟨_, rfl⟩
    cases htenant : s.accounts.tenant t with
    | none =>
      refine ⟨?_, fun h => ?_⟩
      · show (Prog.run _ (if u.isTenantActive = true then _ else _) s).1 = s
        split <;> rfl
      · obtain ⟨e, he⟩ := hbarred h
        rw [htenant] at he
        cases he
    | some tenant =>
      cases hstatus : tenant.status with
      | active =>
        have hok : assertTenantAllowsAuthentication (some tenant) = .ret () := by
          rw [assertTenantAllowsAuthentication, hstatus]
          rfl
        rw [hok]
        refine ⟨?_, fun h => ?_⟩
        · show (Prog.run _ (if u.isTenantActive = true then _ else _) s).1 = s
          split <;> rfl
        · obtain ⟨e, he⟩ := hbarred h
          rw [htenant, hok] at he
          cases he
      | _ =>
        have hraise : ∃ e, assertTenantAllowsAuthentication (some tenant) = .raise e := by
          rw [assertTenantAllowsAuthentication, hstatus]
          exact ⟨_, rfl⟩
        obtain ⟨e, he⟩ := hraise
        rw [he]
        exact ⟨rfl, fun _ a ha => by cases ha⟩

theorem loadTenant_yields (u : User) (s : Store) :
    Prog.Yields (exec settings)
      (fun r t => t = s ∧ r = .ok (u.tenantId.bind s.accounts.tenant)) (loadTenant u) s := by
  unfold loadTenant
  cases u.tenantId with
  | none => exact ⟨rfl, rfl⟩
  | some t => exact ⟨rfl, rfl⟩

/-- The onboarding check is a plain test, and a barred tenant fails it. -/
theorem assertTenantAllowsOnboarding_cases (tenant : Option Tenant) :
    assertTenantAllowsOnboarding tenant = .ret () ∨
      ∃ e, assertTenantAllowsOnboarding tenant = .raise e := by
  cases tenant with
  | none => exact .inl rfl
  | some tenant =>
    rw [assertTenantAllowsOnboarding]
    cases tenant.status with
    | pending => exact .inl rfl
    | active => exact .inl rfl
    | suspended => exact .inr ⟨_, rfl⟩
    | deactivated => exact .inr ⟨_, rfl⟩

theorem assertTenantAllowsOnboarding_of_barred {a : Accounts} {u : User}
    (h : TenantBarred a u) :
    ∃ e, assertTenantAllowsOnboarding (u.tenantId.bind a.tenant) = .raise e := by
  obtain ⟨t, tenant, ht, htenant, hstatus⟩ := h
  rw [ht, Option.bind_some, htenant, assertTenantAllowsOnboarding]
  obtain hstatus | hstatus := hstatus
  · rw [hstatus]
    exact ⟨_, rfl⟩
  · rw [hstatus]
    exact ⟨_, rfl⟩

/-- The token is one of the type, and its link is active. -/
def LiveLink (s : Store) (token : Token) (type : TokenType) : Prop :=
  s.validateToken token = true ∧ token.type = type ∧ (s.link token).any Link.isActive = true

/-- `_validate_token_of_type` reads. -/
theorem validateTokenOfType_yields (token : Token) (type : TokenType) (s : Store) :
    Prog.Yields (exec settings)
      (fun r t => t = s ∧ ∀ x, r = .ok x → s.validateToken token = true ∧ token.type = type)
      (validateTokenOfType token type) s := by
  unfold validateTokenOfType
  refine Prog.yields_perform ?_
  dsimp only [exec]
  split
  · rename_i hvalid
    rw [Bool.and_eq_true, decide_eq_true_eq] at hvalid
    exact ⟨rfl, fun _ _ => hvalid⟩
  · exact ⟨rfl, fun x hx => (nomatch hx)⟩

/-- `_resolve_verified_token` reads, and finds the user of a live link. -/
theorem resolveVerifiedToken_yields (token : Token) (type : TokenType) (s : Store) :
    Prog.Yields (exec settings)
      (fun r t => t = s ∧ ∀ u, r = .ok u → s.accounts.getById token.sub = some u ∧
        LiveLink s token type)
      (resolveVerifiedToken token type) s := by
  unfold resolveVerifiedToken
  refine Prog.yields_bind (Prog.Yields.mono (fun r t hrt => ?_)
    (validateTokenOfType_yields token type s))
  obtain ⟨rfl, hvalid⟩ := hrt
  cases r with
  | error e => exact ⟨rfl, fun u hu => (nomatch hu)⟩
  | ok x =>
    obtain ⟨hvalid, htype⟩ := hvalid x rfl
    refine Prog.yields_perform ?_
    dsimp only [exec]
    cases hlink : t.link token with
    | none => exact ⟨rfl, fun u hu => (nomatch hu)⟩
    | some link =>
      dsimp only
      split
      · rename_i hactive
        refine Prog.yields_perform ?_
        dsimp only [exec]
        cases huser : t.accounts.getById token.sub with
        | none => exact ⟨rfl, fun u hu => (nomatch hu)⟩
        | some user =>
          refine ⟨rfl, fun u hu => ⟨congrArg some (Except.ok.inj hu), hvalid, htype, ?_⟩⟩
          rw [hlink]
          exact hactive
      · exact ⟨rfl, fun u hu => (nomatch hu)⟩

/-- **`login`** refuses a barred user. -/
theorem login_keeps (email password : String) (h : Held b s₀ s) :
    Keeps settings b s₀ (login email password) s := by
  unfold login
  refine Prog.yields_perform ?_
  dsimp only [exec]
  cases hfound : s.accounts.getByEmail email with
  | none => exact h
  | some user =>
    dsimp only
    split
    · rename_i hactive
      refine Prog.yields_bind (Prog.Yields.mono (fun r t hrt => ?_)
        (assertUserTenantActive_rejects user s))
      obtain ⟨rfl, hrejects⟩ := hrt
      cases r with
      | error e => exact h
      | ok x =>
        obtain ⟨hrow, hdelete⟩ := Accounts.user_of_getByEmail h.wellFormed hfound
        by_cases hb : user.id = b
        · obtain ⟨-, hinactive⟩ | htenant := h.cases (hb ▸ hrow) hdelete
          · rw [hactive] at hinactive
            cases hinactive
          · exact absurd rfl (hrejects htenant x)
        · refine keeps_of_only ?_ h
          refine quiet_then trivial fun stored => ?_
          refine Prog.only_bind ?_ fun _ => ?_
          · unfold checkPassword
            split <;> trivial
          · exact Prog.only_bind (quiet_issueSession hb _) fun _ => trivial
    · exact h

theorem quiet_mintFromRefresh {token : Token} (hb : token.sub ≠ b) :
    Prog.Only (Quiet b) (mintFromRefresh token) := by
  unfold mintFromRefresh
  refine quiet_then trivial fun ids => ?_
  exact quiet_then (.inl hb) fun access => trivial

/-- **`refresh_token`** mints nothing for a barred user. -/
theorem refreshToken_keeps (token : Token) (h : Held b s₀ s) :
    Keeps settings b s₀ (refreshToken token) s := by
  unfold refreshToken
  refine Prog.yields_bind (Prog.Yields.mono (fun r t hrt => ?_)
    (validateTokenOfType_yields token .refresh s))
  obtain ⟨rfl, -⟩ := hrt
  cases r with
  | error e => exact h
  | ok x =>
    refine Prog.yields_perform ?_
    dsimp only [exec]
    split
    · exact h
    · refine Prog.yields_perform ?_
      dsimp only [exec]
      split
      · rename_i hactive
        refine Prog.yields_perform ?_
        dsimp only [exec]
        cases huser : t.accounts.getById token.sub with
        | none =>
          rw [huser] at hactive
          cases hactive
        | some user =>
          rw [huser, Option.any_some] at hactive
          obtain ⟨hrow, hdelete⟩ := Accounts.getById_eq_some.mp huser
          refine Prog.yields_bind (Prog.Yields.mono (fun r t hrt => ?_)
            (assertUserTenantActive_rejects user _))
          obtain ⟨rfl, hrejects⟩ := hrt
          cases r with
          | error e => exact h
          | ok x =>
            by_cases hb : token.sub = b
            · subst hb
              obtain ⟨-, hinactive⟩ | htenant := h.cases hrow hdelete
              · rw [hactive] at hinactive
                cases hinactive
              · exact absurd rfl (hrejects htenant x)
            · exact keeps_of_only (quiet_mintFromRefresh hb) h
      · exact h

/-- **`verify_email_token`** activates nobody who was activated before. -/
theorem verifyEmailToken_keeps (token : Token) (h : Held b s₀ s) :
    Keeps settings b s₀ (verifyEmailToken token) s := by
  unfold verifyEmailToken
  refine Prog.yields_bind (Prog.Yields.mono (fun r t hrt => ?_)
    (resolveVerifiedToken_yields token .verify s))
  obtain ⟨rfl, hresolved⟩ := hrt
  cases r with
  | error e => exact h
  | ok user =>
    obtain ⟨hrow, hdelete⟩ := Accounts.getById_eq_some.mp (hresolved user rfl).1
    dsimp only
    split
    · exact h
    · rename_i hactivated
      refine Prog.yields_bind (Prog.Yields.mono (fun r t hrt => ?_) (loadTenant_yields user t))
      obtain ⟨rfl, rfl⟩ := hrt
      refine Prog.yields_bind ?_
      obtain hok | ⟨e, he⟩ :=
        assertTenantAllowsOnboarding_cases (user.tenantId.bind t.accounts.tenant)
      · rw [hok]
        have hb : user.id ≠ b := by
          rintro rfl
          obtain ⟨hwas, -⟩ | htenant := h.cases (Accounts.id_of_user hrow ▸ hrow) hdelete
          · exact hactivated hwas
          · obtain ⟨e, he⟩ := assertTenantAllowsOnboarding_of_barred htenant
            rw [hok] at he
            cases he
        exact exec_held settings (.activateByLink user token) h hb
      · rw [he]
        exact h

/-! ## The two ways around -/

/-- The link sets the first password of a user that was activated once and then suspended. -/
def ReactivatesByLink (b : UserId) (s : Store) (token : Token) : Prop :=
  token.sub = b ∧ LiveLink s token .setup ∧ s.credentials b = none ∧
    ∃ u, s.accounts.getById b = some u ∧ u.isActivated = true ∧ u.isActive = false ∧
      ¬ TenantBarred s.accounts u

/-- The tenant that a contact admin activates is pending. -/
theorem pendingTenantOfContactAdmin_pending {a : Accounts} {u : User} {t : Nat}
    (ht : t ∈ pendingTenantOfContactAdmin u (u.tenantId.bind a.tenant)) {tenant : Tenant}
    (htenant : a.tenant t = some tenant) : tenant.status = .pending := by
  obtain ⟨found, hfound, rfl⟩ := Option.map_eq_some_iff.mp ht
  obtain ⟨hload, hpending⟩ := Option.filter_eq_some_iff.mp hfound
  obtain ⟨t', -, hget⟩ := Option.bind_eq_some_iff.mp hload
  have hid : found.id = t' := Table.key_of_get hget
  rw [hid, hget] at htenant
  obtain rfl := Option.some.inj htenant
  rw [Bool.and_eq_true, decide_eq_true_eq] at hpending
  exact hpending.1

/-- **`set_password_with_token`** lifts the bar in one case only. -/
theorem setPasswordWithToken_keeps (token : Token) (password : String) (h : Held b s₀ s)
    (hno : ¬ ReactivatesByLink b s token) :
    Keeps settings b s₀ (setPasswordWithToken token password) s := by
  unfold setPasswordWithToken
  refine Prog.yields_bind (Prog.Yields.mono (fun r t hrt => ?_)
    (resolveVerifiedToken_yields token .setup s))
  obtain ⟨rfl, hresolved⟩ := hrt
  cases r with
  | error e => exact h
  | ok user =>
    obtain ⟨hfound, hlive⟩ := hresolved user rfl
    obtain ⟨hrow, hdelete⟩ := Accounts.getById_eq_some.mp hfound
    refine Prog.yields_bind (Prog.Yields.mono (fun r t hrt => ?_) (loadTenant_yields user t))
    obtain ⟨rfl, rfl⟩ := hrt
    refine Prog.yields_bind ?_
    obtain hok | ⟨e, he⟩ :=
      assertTenantAllowsOnboarding_cases (user.tenantId.bind t.accounts.tenant)
    · rw [hok]
      have hharmless : Harmless b t (.setPassword user password token
          (pendingTenantOfContactAdmin user (user.tenantId.bind t.accounts.tenant))) := by
        by_cases hstored : (t.credentials user.id).isSome = true
        · exact .inl hstored
        · refine .inr ⟨?_, fun t ht tenant htenant =>
            pendingTenantOfContactAdmin_pending ht htenant⟩
          rintro rfl
          have hsub : user.id = token.sub := Accounts.id_of_user hrow
          have htenant : ¬ TenantBarred t.accounts user := by
            intro hbarred
            obtain ⟨e, he⟩ := assertTenantAllowsOnboarding_of_barred hbarred
            rw [hok] at he
            cases he
          obtain ⟨hwas, hinactive⟩ := (h.cases (hsub ▸ hrow) hdelete).resolve_right htenant
          exact hno ⟨hsub.symm, hlive, by simpa using hstored, user, hsub ▸ hfound, hwas,
            hinactive, htenant⟩
      refine Prog.yields_perform (keeps_of_plain ?_ (exec_held settings _ h hharmless))
      exact Prog.only_bind (plain_orIntegrityError _) fun _ => trivial
    · rw [he]
      exact h

/-- The user the provider vouches for is not barred, or is new. -/
theorem findOrCreateUser_yields (info : UserInfo) (provider : String) (h : Held b s₀ s)
    (hno : ∀ u, s.accounts.getByEmail info.email = some u → u.id ≠ b) :
    Prog.Yields (exec settings) (fun r t => Held b s₀ t ∧ ∀ u, r = .ok u → u.id ≠ b)
      (findOrCreateUser info provider) s := by
  unfold findOrCreateUser
  refine Prog.yields_perform ?_
  dsimp only [exec]
  cases hfound : s.accounts.getByEmail info.email with
  | some user => exact ⟨h, fun u hu => Except.ok.inj hu ▸ hno user hfound⟩
  | none =>
    refine Prog.yields_perform (Prog.yields_perform (Prog.yields_perform ?_))
    dsimp only
    generalize hnew : User.mk info.newId _ _ _ _ _ _ _ = new
    have hheld := exec_held settings (.createUser new none) h trivial
    by_cases hcreated : (exec settings (.createUser new none) s).2 = true
    · -- the id of a user that was inserted is not the id of `b`
      have hne : new.id ≠ b := by
        rintro rfl
        obtain ⟨u, hu, -⟩ := h.barred
        simp [exec, hu] at hcreated
      have hkept : Prog.Yields (exec settings) (fun r t => Held b s₀ t ∧ ∀ u, r = .ok u → u.id ≠ b)
          ((orIntegrityError true).bind fun _ => pure new)
          (exec settings (.createUser new none) s).1 :=
        ⟨hheld, fun u hu => Except.ok.inj hu ▸ hne⟩
      rw [← hcreated] at hkept
      exact hkept
    · have hkept : Prog.Yields (exec settings) (fun r t => Held b s₀ t ∧ ∀ u, r = .ok u → u.id ≠ b)
          ((orIntegrityError false).bind fun _ => pure new)
          (exec settings (.createUser new none) s).1 :=
        ⟨hheld, fun u hu => (nomatch hu)⟩
      rw [← eq_false_of_ne_true hcreated] at hkept
      exact hkept

/-- The callback completes the login of a user at a verified address. -/
def SignsInByOAuth (b : UserId) (s : Store) (state : Nat) (provider : String)
    (info : Option UserInfo) : Prop :=
  (∃ entry, (s.states state).filter (fun e => s.now < e.expiresAt) = some entry ∧
      entry.provider = provider) ∧
    ∃ i u, info = some i ∧ i.emailVerified = true ∧
      s.accounts.getByEmail i.email = some u ∧ u.id = b

/-- **`callback`** signs the user in that the provider vouches for, and nobody else. -/
theorem callback_keeps (state : Nat) (provider : String) (info : Option UserInfo)
    (h : Held b s₀ s) (hno : ¬ SignsInByOAuth b s state provider info) :
    Keeps settings b s₀ (callback settings state provider info) s := by
  unfold callback
  refine Prog.yields_perform ?_
  dsimp only [exec]
  cases hentry : (s.states state).filter fun e => s.now < e.expiresAt with
  | none => exact h
  | some entry =>
    have hdeleted := exec_held settings (.deleteState state) h trivial
    refine Prog.yields_perform ?_
    dsimp only
    split
    · rename_i hprovider
      unfold completeOauthLogin
      cases info with
      | none => exact hdeleted
      | some info =>
        dsimp only
        split
        · rename_i hverified
          refine Prog.yields_bind (Prog.yields_bind (Prog.Yields.mono (fun r t hrt => ?_)
            (findOrCreateUser_yields info provider hdeleted fun u hu hub => ?_)))
          · obtain ⟨hheld, hother⟩ := hrt
            cases r with
            | error e => exact hheld
            | ok user =>
              refine Prog.Yields.mono (fun r t ht => ?_)
                (keeps_of_only (quiet_issueSession (hother user rfl) (.oauth state)) hheld)
              cases r with
              | error e => exact ht
              | ok pair =>
                refine keeps_of_only ?_ ht
                split
                · exact quiet_then trivial fun _ => trivial
                · trivial
          · exact hno ⟨⟨entry, hentry, hprovider⟩, info, u, rfl, hverified, hu, hub⟩
        · exact hdeleted
    · exact hdeleted

/-! ## Sequences of operations -/

/-- A request is served, or an administrator or the clock moves. -/
inductive Action
  | request (r : Request)
  | env (e : Env)
deriving Repr, DecidableEq

/-- The operations that anyone may use. -/
def Request.isSelfService : Request → Bool
  | .login _ _ | .refreshToken _ | .authorize _ _ | .callback _ _ _ | .register _ _ _ _
  | .verifyEmailToken _ | .resendVerification _ | .resendSetupLink _ _ _
  | .requestPasswordReset _ | .resetPasswordWithToken _ _ | .setPasswordWithToken _ _ => true
  | _ => false

/-- One request after the other. -/
def serve (settings : Settings) (s : Store) : Action → Option Store
  | .request r => some ((code settings r).run (exec settings) s).1
  | .env e => env s e

/-- Self-service, and administrators that leave the bar up. -/
def KeepsBar (b : UserId) (s : Store) : Action → Prop
  | .request r => r.isSelfService = true
  | .env e => ∀ s', env s e = some s' → Barred s'.accounts b

/-- The operation is not one of the two that forget to test for the bar. -/
def Tested (b : UserId) (s : Store) : Action → Prop
  | .request (.callback state provider info) => ¬ SignsInByOAuth b s state provider info
  | .request (.setPasswordWithToken token _) => ¬ ReactivatesByLink b s token
  | _ => True

theorem wellFormed_upsertRow {users : List User} (h : (users.map User.id).Nodup)
    (user : User) : ((upsertRow User.id users user).map User.id).Nodup := by
  unfold upsertRow
  split
  · rw [Table.map_key_modify fun _ _ => rfl]
    exact h
  · rename_i hnone
    exact Table.nodup_append_singleton h (by simpa using hnone)

/-- User ids are unique in every reachable state. -/
theorem serve_wellFormed {s s' : Store} {a : Action} (h : s.accounts.WellFormed)
    (hstep : serve settings s a = some s') : s'.accounts.WellFormed := by
  cases a with
  | request r =>
    obtain rfl := Option.some.inj hstep
    exact Prog.Only.yields (P := fun _ => True)
      (I := fun s : Store => s.accounts.WellFormed)
      (fun s o hs _ => exec_wellFormed settings o hs)
      (Prog.only_of_forall (fun _ => trivial) _) h
  | env e =>
    cases e with
    | tick elapsed =>
      obtain rfl := Option.some.inj hstep
      exact h
    | setUser user =>
      obtain rfl := Option.some.inj hstep
      exact wellFormed_upsertRow h user
    | setTenant tenant =>
      obtain rfl := Option.some.inj hstep
      exact h

/-- **A self-service request keeps the bar**, the two exceptions apart. -/
theorem request_held {r : Request} (h : Held b s₀ s) (hself : r.isSelfService = true)
    (htested : Tested b s (.request r)) : Keeps settings b s₀ (code settings r) s := by
  cases r with
  | login email password => exact login_keeps email password h
  | refreshToken token => exact refreshToken_keeps token h
  | logout id => cases hself
  | changePassword id current new => cases hself
  | verifyEmailToken token => exact verifyEmailToken_keeps token h
  | resetPasswordWithToken token password =>
    exact keeps_of_plain (plain_resetPasswordWithToken token password) h
  | setPasswordWithToken token password => exact setPasswordWithToken_keeps token password h htested
  | resendVerification email => exact keeps_of_plain (plain_resendVerification email) h
  | requestPasswordReset email => exact keeps_of_plain (plain_requestPasswordReset email) h
  | resendSetupLink email tenantId caller =>
    exact keeps_of_plain (plain_resendSetupLink email tenantId caller) h
  | resendTenantUserSetupLink tenantId id => cases hself
  | register id email password tenantId =>
    exact keeps_of_plain (plain_register id email password tenantId) h
  | authorize provider redirect => exact keeps_of_plain (plain_authorize provider redirect) h
  | callback state provider info => exact callback_keeps state provider info h htested
  | exchangeCode code => cases hself

/-- The surroundings mint nothing. -/
theorem env_minted {s s' : Store} {e : Env} (h : env s e = some s') : s'.minted = s.minted := by
  cases e <;> exact Option.some.inj h ▸ rfl

/-- One step of a suspension. -/
theorem serve_held {s s' : Store} {a : Action} (h : Held b s₀ s) (hbar : KeepsBar b s a)
    (htested : Tested b s a) (hstep : serve settings s a = some s') : Held b s₀ s' := by
  cases a with
  | request r =>
    obtain rfl := Option.some.inj hstep
    exact request_held h hbar htested
  | env e =>
    refine ⟨serve_wellFormed h.wellFormed hstep, hbar s' hstep, ?_⟩
    rw [env_minted hstep]
    exact h.noToken

/-- **Suspension holds against self-service**: from any reachable state `s` in which `b` is
barred, through self-service and administrators that do not lift the bar, as long as neither
of the two untested operations is used on `b`. -/
theorem suspension_holds (init s s' : Store) (before after : List Action) (b : UserId)
    (hinit : init.accounts.WellFormed) (hreach : Run (serve settings) init before s)
    (hbarred : Barred s.accounts b) (hrun : Run (serve settings) s after s')
    (hbar : Guarded (serve settings) (KeepsBar b) s after)
    (htested : Guarded (serve settings) (Tested b) s after) :
    Barred s'.accounts b ∧
      ∀ t ∈ s'.minted, t.sub = b → t.IsSession → t ∈ s.minted := by
  have hwellFormed : s.accounts.WellFormed :=
    Run.invariant (P := fun s : Store => s.accounts.WellFormed)
      (fun _ _ _ hm hstep => serve_wellFormed hm hstep) hreach hinit
  have hheld : Held b s s' :=
    Run.guardedInvariant (G := fun m a => KeepsBar b m a ∧ Tested b m a) (P := Held b s)
      (fun _ _ _ hm hG hstep => serve_held hm hG.1 hG.2 hstep) hrun (hbar.and htested)
      ⟨hwellFormed, hbarred, fun t ht _ _ => ht⟩
  exact ⟨hheld.barred, hheld.noToken⟩

/-! ### A suspended user -/

/-- A test for what `suspension_holds` asks of an operation. -/
def keepsBarCheck (b : UserId) (s : Store) : Action → Bool
  | .request (.callback _ _ info) =>
    (info.bind fun i => s.accounts.getByEmail i.email).all fun u => u.id ≠ b
  | .request (.setPasswordWithToken token _) => token.sub ≠ b
  | .request r => r.isSelfService
  | .env e => (env s e).all fun s' =>
    (s'.accounts.user b).any fun u => u.isActivated && !u.isActive

theorem keepsBar_of_check (a : Action) (h : keepsBarCheck b s a = true) :
    KeepsBar b s a ∧ Tested b s a := by
  cases a with
  | env e =>
    refine ⟨fun s' hs' => ?_, trivial⟩
    rw [keepsBarCheck, hs', Option.all_some, Option.any_eq_true] at h
    obtain ⟨u, hu, hsuspended⟩ := h
    rw [Bool.and_eq_true, Bool.not_eq_true'] at hsuspended
    exact ⟨u, hu, .inl ⟨hsuspended.1, .inl hsuspended.2⟩⟩
  | request r =>
    cases r with
    | callback state provider info =>
      refine ⟨rfl, ?_⟩
      rintro ⟨-, i, u, rfl, -, hu, hub⟩
      rw [keepsBarCheck, Option.bind_some, hu] at h
      simp [hub] at h
    | setPasswordWithToken token password =>
      refine ⟨rfl, ?_⟩
      rintro ⟨hsub, -⟩
      simp [keepsBarCheck, hsub] at h
    | _ => exact ⟨h, trivial⟩

/-- User 7, as an administrator suspends it. -/
def suspendedUser : User :=
  ⟨7, "user@example.com", some 1, false, some 0, false, true, some .google⟩

/-- The user signs up by OAuth and is suspended. -/
def suspends : List Action :=
  [.request (.authorize "google" false),
    .request (.callback 0 "google" (some ⟨"user@example.com", true, 7⟩)),
    .env (.setUser suspendedUser)]

/-- After the suspension. -/
def suspendedStore : Store := final (serve .default) .empty suspends

theorem run_suspends : Run (serve .default) .empty suspends suspendedStore :=
  run_final (by decide +kernel)

theorem suspendedStore_barred : Barred suspendedStore.accounts 7 :=
  ⟨suspendedUser, by decide +kernel, .inl ⟨rfl, .inl rfl⟩⟩

/-- The suspended user tries everything else, while another one signs up. -/
def attempts : List Action :=
  [.request (.refreshToken ⟨1, .refresh, 7, 0, 604800, [], none⟩),
    .request (.login "user@example.com" "secret"), .request (.authorize "google" false),
    .request (.callback 1 "google" (some ⟨"other@example.com", true, 8⟩)),
    .request (.resendSetupLink "user@example.com" none none),
    .request (.register 9 "user@example.com" "secret" none), .env (.tick 5)]

theorem suspension_holds_sample :
    Barred (final (serve .default) suspendedStore attempts).accounts 7 ∧
      ∀ t ∈ (final (serve .default) suspendedStore attempts).minted,
        t.sub = 7 → t.IsSession → t ∈ suspendedStore.minted := by
  have hguarded : Guarded (serve .default) (fun s a => KeepsBar 7 s a ∧ Tested 7 s a)
      suspendedStore attempts :=
    guarded_of_check (fun _ => keepsBar_of_check) (by decide +kernel)
  exact suspension_holds .empty suspendedStore _ suspends attempts 7 List.nodup_nil
    run_suspends suspendedStore_barred (run_final (by decide +kernel))
    (hguarded.mono fun _ _ _ h => h.1) (hguarded.mono fun _ _ _ h => h.2)

/-- The suspended user signs in by OAuth. -/
def signsIn : List Action :=
  [.request (.authorize "google" false),
    .request (.callback 1 "google" (some ⟨"user@example.com", true, 8⟩))]

/-- The suspended user asks for a setup link and sets a password. -/
def setsPassword : List Action :=
  [.request (.resendSetupLink "user@example.com" none none),
    .request (.setPasswordWithToken ⟨2, .setup, 7, 0, 172800, [], none⟩ "secret")]

/-- A suspended user gets a session by OAuth, and by a setup link is active again. -/
theorem oauth_signs_in_suspended :
    Run (serve .default) .empty suspends suspendedStore ∧
    Barred suspendedStore.accounts 7 ∧
    (∃ s', Guarded (serve .default) (KeepsBar 7) suspendedStore signsIn ∧
      Run (serve .default) suspendedStore signsIn s' ∧
      ∃ t ∈ s'.minted, t.sub = 7 ∧ t.IsSession ∧ t ∉ suspendedStore.minted) ∧
    ∃ s', Guarded (serve .default) (KeepsBar 7) suspendedStore setsPassword ∧
      Run (serve .default) suspendedStore setsPassword s' ∧ ¬ Barred s'.accounts 7 := by
  have hself : ∀ r₁ r₂ : Request, r₁.isSelfService = true → r₂.isSelfService = true →
      Guarded (serve .default) (KeepsBar 7) suspendedStore [.request r₁, .request r₂] :=
    fun _ _ h₁ h₂ => ⟨h₁, fun _ _ => ⟨h₂, fun _ _ => trivial⟩⟩
  refine ⟨run_suspends, suspendedStore_barred, ⟨_, hself _ _ rfl rfl,
    run_final (by decide +kernel), ?_⟩, _, hself _ _ rfl rfl, run_final (by decide +kernel), ?_⟩
  · exact ⟨⟨2, .access, 7, 0, 3600, [], none⟩, by decide +kernel, rfl, .inl rfl,
      by decide +kernel⟩
  · rintro ⟨u, hu, hcase⟩
    have huser : (final (serve .default) suspendedStore setsPassword).accounts.user 7 =
        some { suspendedUser with isActive := true } := by decide +kernel
    obtain rfl := Option.some.inj (huser.symm.trans hu)
    obtain ⟨-, hinactive | hdelete⟩ | ⟨t, tenant, ht, htenant, hstatus⟩ := hcase
    · cases hinactive
    · cases hdelete
    · obtain rfl := Option.some.inj ht
      have hactive : (final (serve .default) suspendedStore setsPassword).accounts.tenant 1 =
          some ⟨1, "default organisation", "root@example.com", .active⟩ := by decide +kernel
      obtain rfl := Option.some.inj (hactive.symm.trans htenant)
      obtain hstatus | hstatus := hstatus <;> cases hstatus

end Ai4iCore.Auth
