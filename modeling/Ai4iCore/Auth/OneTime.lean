import Ai4iCore.Auth.Plain
import Ai4iCore.Base.OneShot

/-!
# One-time credentials

An e-mailed link is read, and only later switched off with the commit of what it was
for; an OAuth state or an exchange code is read from Redis and deleted in a second
command, whose answer nobody looks at. Two requests that both read before either
writes both go on. A reissue switches off the rows it has read, so of two reissues
that overlap each leaves the other's link active; and with `JWT_AUDIENCE` set it
switches off nothing, for `deactivate_all_for_user` decodes the stored tokens
without an audience and PyJWT refuses.

`Store.unraced` says that none of this happens at an operation: what is consumed is
still there, and a reissue switches off every active link of its kind. Then
everything works once (`credentials_work_once`).
-/

namespace Ai4iCore.Auth

open Concurrent StepSystem

/-! ## Links -/

/-- The link was stored and no longer works. -/
def DeadIn (links : List Link) (t : Token) : Prop :=
  ∃ l, Table.get Link.token links t = some l ∧ l.isActive = false

variable {links : List Link} {t t' : Token}

theorem get_deactivate (links : List Link) (t t' : Token) :
    Table.get Link.token (Store.deactivate links t') t =
      (Table.get Link.token links t).map fun l => if t = t' then { l with isActive := false } else l :=
  Table.get_modify fun _ => rfl

theorem DeadIn.deactivate (h : DeadIn links t) (t' : Token) :
    DeadIn (Store.deactivate links t') t := by
  obtain ⟨l, hl, hinactive⟩ := h
  refine ⟨if t = t' then { l with isActive := false } else l, ?_, ?_⟩
  · rw [get_deactivate, hl]
    rfl
  · split
    · rfl
    · exact hinactive

theorem deadIn_deactivate (h : (Table.get Link.token links t).isSome = true) :
    DeadIn (Store.deactivate links t) t := by
  obtain ⟨l, hl⟩ := Option.isSome_iff_exists.mp h
  refine ⟨{ l with isActive := false }, ?_, rfl⟩
  rw [get_deactivate, hl]
  simp

theorem DeadIn.foldl (h : DeadIn links t) (ts : List Token) :
    DeadIn (ts.foldl Store.deactivate links) t := by
  induction ts generalizing links with
  | nil => exact h
  | cons t' ts ih => exact ih (h.deactivate t')

/-- A link that is switched off in bulk. -/
theorem deadIn_foldl {ts : List Token} (ht : t ∈ ts)
    (h : (Table.get Link.token links t).isSome = true) :
    DeadIn (ts.foldl Store.deactivate links) t := by
  induction ts generalizing links with
  | nil => cases ht
  | cons t' ts ih =>
    by_cases heq : t = t'
    · subst heq
      exact (deadIn_deactivate h).foldl ts
    · have hrest : t ∈ ts := (List.mem_cons.mp ht).resolve_left heq
      refine ih hrest ?_
      rw [get_deactivate, Option.isSome_map]
      exact h

theorem DeadIn.append (h : DeadIn links t) (new : List Link) : DeadIn (links ++ new) t := by
  obtain ⟨l, hl, hinactive⟩ := h
  exact ⟨l, Table.get_append_of_some hl new, hinactive⟩

theorem map_token_deactivate (links : List Link) (t : Token) :
    (Store.deactivate links t).map Link.token = links.map Link.token :=
  Table.map_key_modify fun _ h => h

theorem map_token_foldl (ts : List Token) (links : List Link) :
    (ts.foldl Store.deactivate links).map Link.token = links.map Link.token := by
  induction ts generalizing links with
  | nil => rfl
  | cons t ts ih =>
    rw [List.foldl_cons, ih]
    exact map_token_deactivate links t

namespace Store

/-- The link was used, or another one was issued in its place. -/
def Dead (s : Store) (t : Token) : Prop := DeadIn s.links t

/-- No other request comes between a check and what is done on the strength of it: a link
that is consumed is active, an OAuth state or a code that is deleted is there, and a reissue
switches off all active links of the user and the type. -/
def unraced (settings : Settings) (s : Store) : Op → Bool
  | .activateByLink _ token | .resetPassword _ _ token _ | .setPassword _ _ token _ =>
    (s.link token).any Link.isActive
  | .reissueLink id type rows _ => s.links.all fun l =>
    l.createdBy ≠ id || l.token.type ≠ type || !l.isActive ||
      l.token ∈ staleTokens settings rows type
  | .deleteState state => (s.states state).isSome
  | .deleteCode code => (s.codes code).isSome
  | _ => true

end Store

/-! ## The invariant -/

/-- What was consumed or superseded is dead, and nothing was consumed twice. -/
structure Once (s : Store) : Prop where
  unique : (s.links.map Link.token).Nodup
  consumed : s.consumed.Nodup
  consumed_dead : ∀ t ∈ s.consumed, s.Dead t
  superseded_dead : ∀ t ∈ s.superseded, s.Dead t
  states : ∀ k, (s.states k).isSome = true → k < s.nextNonce
  codes : ∀ k, (s.codes k).isSome = true → k < s.nextNonce

variable {settings : Settings} {s : Store}

/-- The operations on links, OAuth states and codes. -/
def Op.movesCredentials : Op → Bool
  | .activateByLink _ _ | .resetPassword _ _ _ _ | .setPassword _ _ _ _ | .insertLink _ _
  | .reissueLink _ _ _ _ | .setState _ _ | .deleteState _ | .setCode _ | .deleteCode _ => true
  | _ => false

/-- The others leave them alone. -/
theorem exec_credentials_frame (settings : Settings) (o : Op) (s : Store)
    (ho : o.movesCredentials = false) :
    ∃ accounts credentials refresh marks nextJti nextRow minted sessions revocations markedAt,
      (exec settings o s).1 =
        { s with
          accounts := accounts, credentials := credentials, refresh := refresh, marks := marks
          nextJti := nextJti, nextRow := nextRow, minted := minted, sessions := sessions
          revocations := revocations, markedAt := markedAt } := by
  cases o with
  | activateByLink user token => cases ho
  | resetPassword id password token row => cases ho
  | setPassword user password token activates => cases ho
  | insertLink token id => cases ho
  | reissueLink id type rows token => cases ho
  | setState provider redirect => cases ho
  | deleteState state => cases ho
  | setCode pair => cases ho
  | deleteCode code => cases ho
  | createUser user password =>
    simp only [exec]
    split <;> exact ⟨_, _, _, _, _, _, _, _, _, _, rfl⟩
  | commitSession id pair cause =>
    simp only [exec]
    split <;> exact ⟨_, _, _, _, _, _, _, _, _, _, rfl⟩
  | setLogoutTimestamp id completes =>
    simp only [exec]
    split <;> exact ⟨_, _, _, _, _, _, _, _, _, _, rfl⟩
  | _ => exact ⟨_, _, _, _, _, _, _, _, _, _, rfl⟩

/-- What was dead stays dead. -/
theorem exec_dead (settings : Settings) (o : Op) {t : Token} (h : s.Dead t) :
    (exec settings o s).1.Dead t := by
  by_cases hmoves : o.movesCredentials = true
  · cases o with
    | activateByLink user token => exact DeadIn.deactivate h token
    | resetPassword id password token row => exact DeadIn.deactivate h token
    | setPassword user password token activates =>
      simp only [exec]
      split
      · exact h
      · exact DeadIn.deactivate h token
    | insertLink token id =>
      simp only [exec, Store.insertLink]
      split
      · exact h
      · exact DeadIn.append h _
    | reissueLink id type rows token =>
      simp only [exec, Store.insertLink]
      split
      · exact h
      · exact (DeadIn.foldl h _).append _
    | setState provider redirect => exact h
    | deleteState state => exact h
    | setCode pair => exact h
    | deleteCode code => exact h
    | _ => cases hmoves
  · obtain ⟨accounts, credentials, refresh, marks, nextJti, nextRow, minted, sessions,
      revocations, markedAt, heq⟩ :=
      exec_credentials_frame settings o s (eq_false_of_ne_true hmoves)
    rw [heq]
    exact h

/-- A link that works is consumed. -/
theorem Once.consume (h : Once s) {t : Token} (hactive : (s.link t).any Link.isActive = true) :
    (((Store.deactivate s.links t).map Link.token).Nodup ∧ (t :: s.consumed).Nodup ∧
      (∀ t' ∈ t :: s.consumed, DeadIn (Store.deactivate s.links t) t') ∧
      ∀ t' ∈ s.superseded, DeadIn (Store.deactivate s.links t) t') := by
  obtain ⟨l, hl, hlive⟩ := (Option.any_eq_true _ _).mp hactive
  have hfresh : t ∉ s.consumed := by
    intro hmem
    obtain ⟨l', hl', hinactive⟩ := h.consumed_dead t hmem
    obtain rfl := Option.some.inj (hl.symm.trans hl')
    rw [hlive] at hinactive
    cases hinactive
  refine ⟨?_, List.nodup_cons.mpr ⟨hfresh, h.consumed⟩, fun t' ht' => ?_, fun t' ht' => ?_⟩
  · rw [map_token_deactivate]
    exact h.unique
  · obtain rfl | ht' := List.mem_cons.mp ht'
    · exact deadIn_deactivate (Option.isSome_of_eq_some hl)
    · exact (h.consumed_dead t' ht').deactivate t
  · exact (h.superseded_dead t' ht').deactivate t

/-- A link is stored, after others were switched off. -/
theorem Once.insertLink (h : Once s) {ts old : List Token} {t : Token} {id : UserId}
    (hold : ∀ t ∈ old, DeadIn (ts.foldl Store.deactivate s.links) t) :
    Once (s.insertLink (ts.foldl Store.deactivate s.links) t id old).1 := by
  unfold Store.insertLink
  split
  · exact h
  · rename_i hnone
    refine ⟨?_, h.consumed, fun t' ht' => ?_, fun t' ht' => ?_, h.states, h.codes⟩
    · refine Table.nodup_append_singleton ?_ (by simpa using hnone)
      rw [map_token_foldl]
      exact h.unique
    · exact (DeadIn.foldl (h.consumed_dead t' ht') ts).append _
    · obtain ht' | ht' := List.mem_append.mp ht'
      · exact (hold t' ht').append _
      · exact (DeadIn.foldl (h.superseded_dead t' ht') ts).append _

/-- The links that a reissue supersedes are dead with its commit. -/
theorem Once.superseded (h : Once s) {id : UserId} {type : TokenType} {rows : List Link}
    {token : Token} (ho : s.unraced settings (.reissueLink id type rows token) = true) :
    ∀ t ∈ s.tokensOf id type,
      DeadIn ((Store.staleTokens settings rows type).foldl Store.deactivate s.links) t := by
  intro t ht
  obtain ⟨l, hl, rfl⟩ := List.mem_map.mp ht
  obtain ⟨hmem, hkind⟩ := List.mem_filter.mp hl
  have hget := Table.get_of_mem h.unique hmem
  cases hactive : l.isActive with
  | false => exact DeadIn.foldl ⟨l, hget, hactive⟩ _
  | true =>
    have hstale := List.all_eq_true.mp ho l hmem
    rw [Bool.and_eq_true, decide_eq_true_eq, decide_eq_true_eq] at hkind
    simp only [hkind.1, hkind.2, hactive, ne_eq, not_true_eq_false, decide_false, Bool.not_true,
      Bool.or_self, Bool.false_or, decide_eq_true_eq] at hstale
    exact deadIn_foldl hstale (Option.isSome_of_eq_some hget)

/-- Redis keys come from a counter that is ahead of them. -/
theorem lt_nextNonce_update {α : Type} {keys : Nat → Option α} {n k : Nat} {x : Option α}
    (hkeys : ∀ k, (keys k).isSome = true → k < n) (hk : (Function.update keys n x k).isSome = true) :
    k < n + 1 := by
  by_cases heq : k = n
  · omega
  · rw [Function.update_of_ne heq] at hk
    exact Nat.lt_succ_of_lt (hkeys k hk)

theorem isSome_of_delete {α : Type} {keys : Nat → Option α} {n k : Nat}
    (hk : (Function.update keys n none k).isSome = true) : (keys k).isSome = true := by
  by_cases heq : k = n
  · subst heq
    rw [Function.update_self] at hk
    cases hk
  · rwa [Function.update_of_ne heq] at hk

/-- **Every unraced operation keeps the invariant.** -/
theorem exec_once (o : Op) (h : Once s) (ho : s.unraced settings o = true) :
    Once (exec settings o s).1 := by
  by_cases hmoves : o.movesCredentials = true
  · cases o with
    | activateByLink user token =>
      obtain ⟨hunique, hnodup, hconsumed, hsuperseded⟩ := h.consume ho
      exact ⟨hunique, hnodup, hconsumed, hsuperseded, h.states, h.codes⟩
    | resetPassword id password token row =>
      obtain ⟨hunique, hnodup, hconsumed, hsuperseded⟩ := h.consume ho
      exact ⟨hunique, hnodup, hconsumed, hsuperseded, h.states, h.codes⟩
    | setPassword user password token activates =>
      obtain ⟨hunique, hnodup, hconsumed, hsuperseded⟩ := h.consume ho
      simp only [exec]
      split
      · exact h
      · exact ⟨hunique, hnodup, hconsumed, hsuperseded, h.states, h.codes⟩
    | insertLink token id =>
      have hnone : ∀ t ∈ ([] : List Token), DeadIn (([] : List Token).foldl Store.deactivate s.links) t :=
        fun t ht => absurd ht List.not_mem_nil
      exact h.insertLink hnone
    | reissueLink id type rows token => exact h.insertLink (h.superseded ho)
    | setState provider redirect =>
      exact ⟨h.unique, h.consumed, h.consumed_dead, h.superseded_dead,
        fun k hk => lt_nextNonce_update h.states hk,
        fun k hk => Nat.lt_succ_of_lt (h.codes k hk)⟩
    | deleteState state =>
      exact ⟨h.unique, h.consumed, h.consumed_dead, h.superseded_dead,
        fun k hk => h.states k (isSome_of_delete hk), h.codes⟩
    | setCode pair =>
      exact ⟨h.unique, h.consumed, h.consumed_dead, h.superseded_dead,
        fun k hk => Nat.lt_succ_of_lt (h.states k hk),
        fun k hk => lt_nextNonce_update h.codes hk⟩
    | deleteCode code =>
      exact ⟨h.unique, h.consumed, h.consumed_dead, h.superseded_dead, h.states,
        fun k hk => h.codes k (isSome_of_delete hk)⟩
    | _ => cases hmoves
  · obtain ⟨accounts, credentials, refresh, marks, nextJti, nextRow, minted, sessions,
      revocations, markedAt, heq⟩ :=
      exec_credentials_frame settings o s (eq_false_of_ne_true hmoves)
    rw [heq]
    exact ⟨h.unique, h.consumed, h.consumed_dead, h.superseded_dead, h.states, h.codes⟩

/-- The surroundings change the clock and the accounts only. -/
theorem env_eq {s s' : Store} {e : Env} (h : env s e = some s') :
    ∃ now accounts, s' = { s with now := now, accounts := accounts } := by
  cases e with
  | tick elapsed => exact ⟨_, _, (Option.some.inj h).symm⟩
  | setUser user => exact ⟨_, _, (Option.some.inj h).symm⟩
  | setTenant tenant => exact ⟨_, _, (Option.some.inj h).symm⟩

/-- Between two operations of a request the others keep the invariant. -/
def unracedOnly (settings : Settings) : Interference sig Store where
  rely s t := (Once s → Once t) ∧ ∀ token, s.Dead token → t.Dead token
  allowed s o := s.unraced settings o = true
  refl _ := ⟨fun h => h, fun _ h => h⟩
  trans _ _ _ hst htu := ⟨fun h => htu.1 (hst.1 h), fun token h => htu.2 token (hst.2 token h)⟩

theorem unracedOnly_op (s : Store) (o : Op) (ho : (unracedOnly settings).allowed s o) :
    (unracedOnly settings).rely s ((service settings).exec o s).1 :=
  ⟨fun h => exec_once o h ho, fun _ => exec_dead settings o⟩

theorem unracedOnly_env (s : Store) (e : Env) (t : Store)
    (he : (service settings).env s e = some t) : (unracedOnly settings).rely s t := by
  obtain ⟨now, accounts, rfl⟩ := env_eq he
  exact ⟨fun h => ⟨h.unique, h.consumed, h.consumed_dead, h.superseded_dead, h.states, h.codes⟩,
    fun _ h => h⟩

/-! ## Dead links -/

/-- The link that a request presents. -/
def Request.presents : Request → Option Token
  | .verifyEmailToken token | .resetPasswordWithToken token _ | .setPasswordWithToken token _ =>
    some token
  | _ => none

/-- The program never returns. -/
abbrev Fails (settings : Settings) {α : Type} (p : Handler α) (s : Store) : Prop :=
  Prog.Ensures (exec settings) (unracedOnly settings) (fun r _ => ∀ a, r ≠ .ok a) p s

/-- Meanwhile the link stays dead. -/
theorem validateTokenOfType_dead {token : Token} (type : TokenType) (h : s.Dead token) :
    Prog.Ensures (exec settings) (unracedOnly settings) (fun _ t => t.Dead token)
      (validateTokenOfType token type) s := by
  intro t ht _
  have hdead : t.Dead token := ht.2 token h
  refine ⟨?_, fun u hu => hu.2 token hdead, fun u hu => hu.2 token hdead⟩
  show Prog.Ensures _ _ _
    (if (t.validateToken token && decide (token.type = type)) = true then _ else _) t
  split
  · exact fun u hu => hu.2 token hdead
  · exact fun u hu => hu.2 token hdead

theorem resolveVerifiedToken_fails {token : Token} (type : TokenType) (h : s.Dead token) :
    Fails settings (resolveVerifiedToken token type) s := by
  unfold resolveVerifiedToken
  refine Prog.ensures_bind (Prog.Ensures.mono (fun r t hdead => ?_)
    (validateTokenOfType_dead type h))
  cases r with
  | error e => exact fun _ _ _ he => (nomatch he)
  | ok x =>
    refine Prog.ensures_perform (fun u hu _ => ?_) fun _ _ he => (nomatch he)
    obtain ⟨l, hl, hinactive⟩ := hu.2 token hdead
    have hlink : u.link token = some l := hl
    dsimp only [exec]
    rw [hlink]
    dsimp only
    rw [hinactive]
    exact fun _ _ _ he => (nomatch he)

/-- A handler that starts with the link of a dead token. -/
theorem fails_bind {α β : Type} {p : Handler β} {f : β → Handler α} (hp : Fails settings p s) :
    Fails settings (p.bind f) s := by
  refine Prog.ensures_bind (Prog.Ensures.mono (fun r t hr => ?_) hp)
  cases r with
  | error e => exact fun _ _ _ he => (nomatch he)
  | ok b => exact absurd rfl (hr b)

theorem presents_fails {r : Request} {token : Token} (hr : r.presents = some token)
    (h : s.Dead token) : Fails settings (code settings r) s := by
  cases r with
  | verifyEmailToken t =>
    obtain rfl := Option.some.inj hr
    exact fails_bind (resolveVerifiedToken_fails .verify h)
  | resetPasswordWithToken t password =>
    obtain rfl := Option.some.inj hr
    exact fails_bind (resolveVerifiedToken_fails .reset h)
  | setPasswordWithToken t password =>
    obtain rfl := Option.some.inj hr
    exact fails_bind (resolveVerifiedToken_fails .setup h)
  | _ => cases hr

/-! ## OAuth states -/

/-- The OAuth state that a session is stored for. -/
def Op.oauthState : Op → Option Nat
  | .commitSession _ _ (.oauth state) => some state
  | _ => none

section OAuthState

open Prog

variable {state : Nat}

/-- The handler stores no session for the state. -/
abbrev Avoids (state : Nat) {α : Type} (p : Handler α) : Prop :=
  Only (fun o : Op => ¬ o.oauthState = some state) p

theorem avoids_of_plain {α : Type} {p : Handler α} (hp : Plain p) : Avoids state p := by
  refine hp.mono fun o ho hstate => ?_
  cases o with
  | commitSession id pair cause => cases ho
  | _ => cases hstate

theorem avoids_issueSession (user : User) {cause : SessionCause} (hcause : cause ≠ .oauth state) :
    Avoids state (issueSession user cause) := by
  unfold issueSession
  refine only_then nofun fun ids => ?_
  refine only_then nofun fun access => ?_
  refine only_then nofun fun refresh => ?_
  refine only_then (fun hstate => hcause ?_) fun _ => trivial
  cases cause with
  | login => cases hstate
  | oauth k => rw [Option.some.inj hstate]
  | passwordChange => cases hstate

theorem avoids_login (email password : String) : Avoids state (login email password) := by
  unfold login
  refine only_then nofun fun found => ?_
  cases found with
  | none => trivial
  | some user =>
    dsimp only
    split
    · refine only_bind (avoids_of_plain (plain_assertUserTenantActive user)) fun _ => ?_
      refine only_then nofun fun stored => ?_
      refine only_bind ?_ fun _ => only_bind (avoids_issueSession user nofun) fun _ => trivial
      unfold checkPassword
      split <;> trivial
    · trivial

theorem avoids_mintFromRefresh (token : Token) : Avoids state (mintFromRefresh token) := by
  unfold mintFromRefresh
  refine only_then nofun fun ids => ?_
  exact only_then nofun fun access => trivial

theorem avoids_refreshToken (token : Token) : Avoids state (refreshToken token) := by
  unfold refreshToken
  refine only_bind (avoids_of_plain (plain_validateTokenOfType token .refresh)) fun _ => ?_
  refine only_then nofun fun row => ?_
  cases row with
  | none => trivial
  | some row =>
    refine only_then nofun fun active => ?_
    dsimp only
    split
    · refine only_then nofun fun user => ?_
      cases user with
      | none => exact avoids_mintFromRefresh token
      | some user =>
        exact only_bind (avoids_of_plain (plain_assertUserTenantActive user)) fun _ =>
          avoids_mintFromRefresh token
    · trivial

theorem avoids_changePassword (id : UserId) (current new : String) :
    Avoids state (changePassword id current new) := by
  unfold changePassword
  refine only_then nofun fun user => ?_
  cases user with
  | none => trivial
  | some user =>
    dsimp only
    split
    · refine only_then nofun fun stored => ?_
      refine only_bind ?_ fun _ => ?_
      · unfold checkNewPassword
        split
        · split <;> trivial
        · trivial
      · refine only_then nofun fun _ => ?_
        refine only_bind (only_tryCatch (only_perform nofun) fun _ => trivial) fun _ => ?_
        exact only_bind (avoids_issueSession user nofun) fun _ => trivial
    · trivial

theorem avoids_verifyEmailToken (token : Token) : Avoids state (verifyEmailToken token) := by
  unfold verifyEmailToken
  refine only_bind (avoids_of_plain (plain_resolveVerifiedToken token .verify)) fun user => ?_
  dsimp only
  split
  · trivial
  · refine only_bind (avoids_of_plain (plain_loadTenant user)) fun tenant => ?_
    refine only_bind (avoids_of_plain (plain_assertTenantAllowsOnboarding tenant)) fun _ => ?_
    exact only_then nofun fun _ => trivial

theorem avoids_setPasswordWithToken (token : Token) (password : String) :
    Avoids state (setPasswordWithToken token password) := by
  unfold setPasswordWithToken
  refine only_bind (avoids_of_plain (plain_resolveVerifiedToken token .setup)) fun user => ?_
  refine only_bind (avoids_of_plain (plain_loadTenant user)) fun tenant => ?_
  refine only_bind (avoids_of_plain (plain_assertTenantAllowsOnboarding tenant)) fun _ => ?_
  refine only_then nofun fun committed => ?_
  exact only_bind (avoids_of_plain (plain_orIntegrityError committed)) fun _ => trivial

theorem avoids_exchangeCode (code : Nat) : Avoids state (exchangeCode code) := by
  unfold exchangeCode
  refine only_then nofun fun entry => ?_
  cases entry with
  | none => trivial
  | some entry => exact only_then nofun fun _ => trivial

/-- The end of `callback`. -/
theorem avoids_answer (settings : Settings) (entry : OAuthState) (pair : Pair) :
    Avoids state (if entry.redirect && settings.redirectAllowed then do
      let code ← perform (.setCode pair)
      return Reply.redirect code
    else return Reply.session pair) := by
  split
  · exact only_then nofun fun _ => trivial
  · trivial

/-- One session for the state. -/
theorem holds_completeOauthLogin (provider : String) (info : Option UserInfo) :
    Holds (fun o : Op => o.oauthState = some state) (fun _ : Pair => False)
      (completeOauthLogin state provider info) := by
  unfold completeOauthLogin
  cases info with
  | none => trivial
  | some info =>
    dsimp only
    split
    · refine holds_bind_of_only (avoids_of_plain (plain_findOrCreateUser info provider))
        fun user => ?_
      unfold issueSession
      refine holds_bind_of_only (only_perform nofun) fun ids => ?_
      refine holds_bind_of_only (only_perform nofun) fun access => ?_
      refine holds_bind_of_only (only_perform nofun) fun refresh => ?_
      exact holds_perform rfl fun _ h => h
    · trivial

theorem avoids_completeOauthLogin {k : Nat} (hk : k ≠ state) (provider : String)
    (info : Option UserInfo) : Avoids state (completeOauthLogin k provider info) := by
  unfold completeOauthLogin
  cases info with
  | none => trivial
  | some info =>
    dsimp only
    split
    · refine only_bind (avoids_of_plain (plain_findOrCreateUser info provider)) fun user => ?_
      exact avoids_issueSession user fun h => hk (SessionCause.oauth.inj h)
    · trivial

/-- A callback deletes its state before it stores a session. -/
theorem waits_callback (settings : Settings) (k : Nat) (provider : String)
    (info : Option UserInfo) :
    Waits (fun o => o = Op.deleteState state) (fun o : Op => o.oauthState = some state)
      (fun _ : Reply => False) (callback settings k provider info) := by
  unfold callback
  refine waits_perform nofun nofun fun found => ?_
  cases found with
  | none => trivial
  | some entry =>
    by_cases hk : k = state
    · subst hk
      refine waits_claim nofun rfl fun _ => ?_
      dsimp only
      split
      · refine holds_bind (holds_completeOauthLogin provider info) fun pair => ?_
        exact (avoids_answer settings entry pair).spent fun _ h => h
      · trivial
    · refine (Only.spent (only_then nofun fun _ => ?_) fun _ h => h).waits
      dsimp only
      split
      · refine only_bind (avoids_completeOauthLogin hk provider info) fun pair => ?_
        exact avoids_answer settings entry pair
      · trivial

theorem code_waits_state (settings : Settings) (r : Request) :
    Waits (fun o => o = Op.deleteState state) (fun o : Op => o.oauthState = some state)
      (fun _ : Reply => False) (code settings r) := by
  have hspent : ∀ {p : Handler Reply}, Avoids state p →
      Waits (fun o => o = Op.deleteState state) (fun o : Op => o.oauthState = some state)
        (fun _ : Reply => False) p :=
    fun h => (Only.spent h fun _ h => h).waits
  cases r with
  | login email password => exact hspent (avoids_login email password)
  | refreshToken token => exact hspent (avoids_refreshToken token)
  | logout id => exact hspent (avoids_of_plain (plain_logout id))
  | changePassword id current new => exact hspent (avoids_changePassword id current new)
  | verifyEmailToken token => exact hspent (avoids_verifyEmailToken token)
  | resetPasswordWithToken token password =>
    exact hspent (avoids_of_plain (plain_resetPasswordWithToken token password))
  | setPasswordWithToken token password =>
    exact hspent (avoids_setPasswordWithToken token password)
  | resendVerification email => exact hspent (avoids_of_plain (plain_resendVerification email))
  | requestPasswordReset email =>
    exact hspent (avoids_of_plain (plain_requestPasswordReset email))
  | resendSetupLink email tenantId caller =>
    exact hspent (avoids_of_plain (plain_resendSetupLink email tenantId caller))
  | resendTenantUserSetupLink tenantId id =>
    exact hspent (avoids_of_plain (plain_resendTenantUserSetupLink tenantId id))
  | register id email password tenantId =>
    exact hspent (avoids_of_plain (plain_register id email password tenantId))
  | authorize provider redirect =>
    exact hspent (avoids_of_plain (plain_authorize provider redirect))
  | callback k provider info => exact waits_callback settings k provider info
  | exchangeCode code => exact hspent (avoids_exchangeCode code)

end OAuthState

/-! ## Keys of Redis -/

/-- Which Redis keys an operation sets and deletes. -/
theorem exec_nonces (settings : Settings) (o : Op) (s : Store) :
    let s' := (exec settings o s).1
    s.nextNonce ≤ s'.nextNonce ∧
    (∀ k < s.nextNonce, s.states k = none → s'.states k = none) ∧
    ∀ k < s.nextNonce, s.codes k = none → s'.codes k = none := by
  by_cases hmoves : o.movesCredentials = true
  · cases o with
    | setState provider redirect =>
      refine ⟨Nat.le_succ _, fun k hk hnone => ?_, fun k _ hnone => hnone⟩
      exact (Function.update_of_ne (Nat.ne_of_lt hk) _ _).trans hnone
    | setCode pair =>
      refine ⟨Nat.le_succ _, fun k _ hnone => hnone, fun k hk hnone => ?_⟩
      exact (Function.update_of_ne (Nat.ne_of_lt hk) _ _).trans hnone
    | deleteState state =>
      refine ⟨Nat.le_refl _, fun k _ hnone => ?_, fun k _ hnone => hnone⟩
      by_cases heq : k = state
      · subst heq
        exact Function.update_self _ _ _
      · exact (Function.update_of_ne heq _ _).trans hnone
    | deleteCode code =>
      refine ⟨Nat.le_refl _, fun k _ hnone => hnone, fun k _ hnone => ?_⟩
      by_cases heq : k = code
      · subst heq
        exact Function.update_self _ _ _
      · exact (Function.update_of_ne heq _ _).trans hnone
    | setPassword user password token activates =>
      simp only [exec]
      split <;> exact ⟨Nat.le_refl _, fun _ _ hnone => hnone, fun _ _ hnone => hnone⟩
    | insertLink token id =>
      simp only [exec, Store.insertLink]
      split <;> exact ⟨Nat.le_refl _, fun _ _ hnone => hnone, fun _ _ hnone => hnone⟩
    | reissueLink id type rows token =>
      simp only [exec, Store.insertLink]
      split <;> exact ⟨Nat.le_refl _, fun _ _ hnone => hnone, fun _ _ hnone => hnone⟩
    | activateByLink user token =>
      exact ⟨Nat.le_refl _, fun _ _ hnone => hnone, fun _ _ hnone => hnone⟩
    | resetPassword id password token row =>
      exact ⟨Nat.le_refl _, fun _ _ hnone => hnone, fun _ _ hnone => hnone⟩
    | _ => cases hmoves
  · obtain ⟨accounts, credentials, refresh, marks, nextJti, nextRow, minted, sessions,
      revocations, markedAt, heq⟩ :=
      exec_credentials_frame settings o s (eq_false_of_ne_true hmoves)
    rw [heq]
    exact ⟨Nat.le_refl _, fun _ _ hnone => hnone, fun _ _ hnone => hnone⟩

/-- Sessions are only stored by their own operation. -/
theorem exec_sessions (settings : Settings) (o : Op) (s : Store) :
    (exec settings o s).1.sessions = s.sessions ∨
      ∃ id pair cause, o = .commitSession id pair cause ∧
        (exec settings o s).1.sessions = (id, cause) :: s.sessions := by
  cases o with
  | commitSession id pair cause =>
    refine .inr ⟨id, pair, cause, rfl, ?_⟩
    simp only [exec]
    split <;> rfl
  | createUser user password =>
    simp only [exec]
    split <;> exact .inl rfl
  | insertLink token id =>
    simp only [exec, Store.insertLink]
    split <;> exact .inl rfl
  | reissueLink id type rows token =>
    simp only [exec, Store.insertLink]
    split <;> exact .inl rfl
  | setPassword user password token activates =>
    simp only [exec]
    split <;> exact .inl rfl
  | setLogoutTimestamp id completes =>
    simp only [exec]
    split <;> exact .inl rfl
  | _ => exact .inl rfl

/-- The sessions stored for an OAuth state. -/
def Store.sessionsOf (s : Store) (state : Nat) : Nat :=
  s.sessions.countP fun e => e.2 = .oauth state

/-- An OAuth state is claimed by its deletion. -/
def stateOnce (settings : Settings) (state : Nat) :
    OneShot (service settings) (unracedOnly settings) where
  claim o := o = .deleteState state
  use o := o.oauthState = some state
  good _ _ := False
  claimed s := s.states state = none ∧ state < s.nextNonce
  uses s := s.sessionsOf state
  inv := Once
  code_waits r := code_waits_state settings r
  inv_op s o ho h := exec_once o h ho
  inv_env s e t he h := (unracedOnly_env s e t he).1 h
  claimed_op s o ho h hclaimed := by
    obtain ⟨hnonce, hstates, -⟩ := exec_nonces settings o s
    obtain ⟨hnone, hlt⟩ | rfl := hclaimed
    · exact ⟨hstates state hlt hnone, Nat.lt_of_lt_of_le hlt hnonce⟩
    · exact ⟨Function.update_self _ _ _, h.states state ho⟩
  claimed_env s e t he hclaimed := by
    obtain ⟨now, accounts, rfl⟩ := env_eq he
    exact hclaimed
  claim_once s o ho hclaim hclaimed := by
    subst hclaim
    have hsome : (s.states state).isSome = true := ho
    rw [hclaimed.1] at hsome
    cases hsome
  uses_use s o := by
    unfold Store.sessionsOf
    obtain heq | ⟨id, pair, cause, -, heq⟩ := exec_sessions settings o s
    · rw [show ((service settings).exec o s).1.sessions = s.sessions from heq]
      exact Nat.le_succ _
    · rw [show ((service settings).exec o s).1.sessions = (id, cause) :: s.sessions from heq,
        List.countP_cons]
      split <;> omega
  uses_op s o huse := by
    obtain heq | ⟨id, pair, cause, rfl, heq⟩ := exec_sessions settings o s
    · exact congrArg _ heq
    · refine (congrArg _ heq).trans (List.countP_cons_of_neg ?_)
      rw [decide_eq_true_eq]
      rintro rfl
      exact huse rfl
  uses_env s e t he := by
    obtain ⟨now, accounts, rfl⟩ := env_eq he
    rfl

/-! ## Exchange codes -/

/-- An exchange deletes its code before it answers. -/
theorem waits_exchangeCode (c : Nat) :
    Prog.Waits (fun o => o = Op.deleteCode c) (fun _ => False)
      (fun _ : Reply => Request.exchangeCode c = .exchangeCode c) (exchangeCode c) := by
  unfold exchangeCode
  refine Prog.waits_perform (fun h => h) nofun fun found => ?_
  cases found with
  | none => trivial
  | some entry => exact Prog.waits_claim (fun h => h) rfl fun _ => trivial

theorem code_waits_code (settings : Settings) (c : Nat) (r : Request) :
    Prog.Waits (fun o => o = Op.deleteCode c) (fun _ => False)
      (fun _ : Reply => r = .exchangeCode c) (code settings r) := by
  by_cases hr : r = .exchangeCode c
  · subst hr
    exact waits_exchangeCode c
  · exact (Prog.Only.spent (Prog.only_of_forall (fun _ h => h) _) fun _ => hr).waits

/-- An exchange code is claimed by its deletion. -/
def codeOnce (settings : Settings) (c : Nat) :
    OneShot (service settings) (unracedOnly settings) where
  claim o := o = .deleteCode c
  use _ := False
  good r _ := r = .exchangeCode c
  claimed s := s.codes c = none ∧ c < s.nextNonce
  uses _ := 0
  inv := Once
  code_waits r := code_waits_code settings c r
  inv_op s o ho h := exec_once o h ho
  inv_env s e t he h := (unracedOnly_env s e t he).1 h
  claimed_op s o ho h hclaimed := by
    obtain ⟨hnonce, -, hcodes⟩ := exec_nonces settings o s
    obtain ⟨hnone, hlt⟩ | rfl := hclaimed
    · exact ⟨hcodes c hlt hnone, Nat.lt_of_lt_of_le hlt hnonce⟩
    · exact ⟨Function.update_self _ _ _, h.codes c ho⟩
  claimed_env s e t he hclaimed := by
    obtain ⟨now, accounts, rfl⟩ := env_eq he
    exact hclaimed
  claim_once s o ho hclaim hclaimed := by
    subst hclaim
    have hsome : (s.codes c).isSome = true := ho
    rw [hclaimed.1] at hsome
    cases hsome
  uses_use _ _ := Nat.zero_le _
  uses_op _ _ _ := rfl
  uses_env _ _ _ _ := rfl

/-! ## Runs -/

/-- Nothing was consumed yet, and stored links and Redis keys are unique. -/
structure Unused (s : Store) : Prop where
  unique : (s.links.map Link.token).Nodup
  consumed : s.consumed = []
  superseded : s.superseded = []
  sessions : s.sessions = []
  states : ∀ k, (s.states k).isSome = true → k < s.nextNonce
  codes : ∀ k, (s.codes k).isSome = true → k < s.nextNonce

theorem Unused.once (h : Unused s) : Once s := by
  refine ⟨h.unique, ?_, fun t ht => ?_, fun t ht => ?_, h.states, h.codes⟩
  · rw [h.consumed]
    exact List.nodup_nil
  · rw [h.consumed] at ht
    cases ht
  · rw [h.superseded] at ht
    cases ht

/-- A request that starts with a dead link never returns. -/
theorem presents_never_returns {p p' : Pool sig Store Request Reply}
    {ls : List (Label Env Request)} {t : Token} (hdead : p.shared.Dead t)
    (hrun : Run (service settings).step p ls p')
    (hunraced : Guarded (service settings).step (System.Obeys (unracedOnly settings)) p ls)
    {j : Nat} {r : Request} (hnew : p.threads j = none) (hr : r.presents = some t)
    (out : Reply) : ¬ p'.Returned j r out := by
  intro hout
  have hcode : ∀ r s, (unracedOnly settings).rely p.shared s →
      Prog.Ensures (exec settings) (unracedOnly settings)
        (fun res _ => r.presents = some t → ∀ a, res ≠ .ok a) (code settings r) s := by
    intro r s hs
    by_cases hpresents : r.presents = some t
    · exact (presents_fails hpresents (hs.2 t hdead)).mono fun _ _ h _ => h
    · exact Prog.Ensures.of_forall (fun _ _ h => absurd h hpresents) _ _
  have hfails := System.follow_new unracedOnly_op unracedOnly_env hrun hunraced hcode hnew hout
  exact hfails p'.shared ((unracedOnly settings).refl _) hr out rfl

/-- **One-time credentials work once**, in every run whose operations are unraced: every link
has its effect at most once, every OAuth state leads to at most one session, every exchange
code is answered at most once, and a request that starts after a reissue has committed fails
with every link the reissue supersedes. -/
theorem credentials_work_once (s₀ : Store) (p p' : Pool sig Store Request Reply)
    (before after : List (Label Env Request)) (hinit : Unused s₀)
    (hbefore : Run (service settings).step (Pool.idle s₀) before p)
    (hafter : Run (service settings).step p after p')
    (hunraced : Guarded (service settings).step (System.Obeys (unracedOnly settings))
      (Pool.idle s₀) (before ++ after)) :
    (∀ t, p'.shared.consumed.count t ≤ 1) ∧
    (∀ state, p'.shared.sessionsOf state ≤ 1) ∧
    (∀ c i j a b, p'.Returned i (.exchangeCode c) a → p'.Returned j (.exchangeCode c) b → i = j) ∧
    ∀ t ∈ p.shared.superseded, ∀ j r, p.threads j = none → r.presents = some t →
      ∀ out, ¬ p'.Returned j r out := by
  have hrun := run_append_iff.mpr ⟨p, hbefore, hafter⟩
  obtain ⟨hguard, hguard'⟩ := guarded_append hunraced hbefore
  have honce : Once p'.shared :=
    (System.run_rely unracedOnly_op unracedOnly_env hrun hunraced).1 hinit.once
  have hmiddle : Once p.shared :=
    (System.run_rely unracedOnly_op unracedOnly_env hbefore hguard).1 hinit.once
  refine ⟨fun t => ?_, fun state => ?_, fun c i j a b hi hj => ?_, fun t ht j r hnew hr out hout => ?_⟩
  · exact List.nodup_iff_count_le_one.mp honce.consumed t
  · refine (OneShot.used_once (R := stateOnce settings state) hinit.once ?_ hrun hunraced).1
    show s₀.sessionsOf state = 0
    rw [Store.sessionsOf, hinit.sessions]
    rfl
  · exact (OneShot.used_once (R := codeOnce settings c) hinit.once rfl hrun hunraced).2 i j _ _ a b
      hi rfl hj rfl
  · exact presents_never_returns (hmiddle.superseded_dead t ht) hafter hguard' hnew hr out hout

/-! ### Two requests at a time -/

theorem signedUp_unused : Unused .signedUp :=
  ⟨List.nodup_nil, rfl, rfl, rfl, fun _ h => (nomatch h), fun _ h => (nomatch h)⟩

/-- The reset link with the given `jti`. -/
def resetToken (jti : Nat) : Token := ⟨jti, .reset, 7, 0, 1800, [], none⟩

/-- A reset link is issued twice. -/
def issuesTwice : List (Label Env Request) :=
  performs 0 (.requestPasswordReset "user@example.com") 5 ++
    performs 1 (.requestPasswordReset "user@example.com") 5

/-- The first link is tried, the second one used; and the user signs in by OAuth. -/
def usesSecond : List (Label Env Request) :=
  performs 2 (.resetPasswordWithToken (resetToken 0) "new") 2 ++
    performs 3 (.resetPasswordWithToken (resetToken 1) "new") 7 ++
    performs 4 (.authorize "google" false) 1 ++
    performs 5 (.callback 0 "google" (some ⟨"user@example.com", true, 8⟩)) 7

theorem credentials_work_once_sample :
    let p := final (service .default).step (Pool.idle .signedUp) issuesTwice
    let p' := final (service .default).step p usesSecond
    (∀ t, p'.shared.consumed.count t ≤ 1) ∧
    (∀ state, p'.shared.sessionsOf state ≤ 1) ∧
    (∀ c i j a b, p'.Returned i (.exchangeCode c) a → p'.Returned j (.exchangeCode c) b → i = j) ∧
    ∀ t ∈ p.shared.superseded, ∀ j r, p.threads j = none → r.presents = some t →
      ∀ out, ¬ p'.Returned j r out :=
  credentials_work_once .signedUp _ _ issuesTwice usesSecond signedUp_unused
    (run_final (by decide +kernel)) (run_final (by decide +kernel))
    (guarded_of_check (g := System.obeysCheck (Store.unraced .default))
      (System.obeys_of_check fun _ _ h => h) (by decide +kernel))

/-- Two requests with one link check it before either commits. -/
def resetsTwice : List (Label Env Request) :=
  performs 0 (.requestPasswordReset "user@example.com") 5 ++
    performs 1 (.resetPasswordWithToken (resetToken 0) "one") 5 ++
    performs 2 (.resetPasswordWithToken (resetToken 0) "two") 7 ++ List.replicate 2 (.run 1 .ok)

/-- Two callbacks read one state before either deletes it. -/
def callsBackTwice : List (Label Env Request) :=
  performs 0 (.authorize "google" false) 1 ++
    performs 1 (.callback 0 "google" (some ⟨"user@example.com", true, 8⟩)) 1 ++
    performs 2 (.callback 0 "google" (some ⟨"user@example.com", true, 8⟩)) 7 ++
    List.replicate 6 (.run 1 .ok)

/-- A single-page client, and two exchanges that read the code before either deletes it. -/
def exchangesTwice : List (Label Env Request) :=
  performs 0 (.authorize "google" true) 1 ++
    performs 1 (.callback 0 "google" (some ⟨"user@example.com", true, 8⟩)) 8 ++
    performs 2 (.exchangeCode 1) 1 ++ performs 3 (.exchangeCode 1) 2 ++ [.run 2 .ok]

/-- Two reissues that read the active links before either commits. -/
def reissuesTwice : List (Label Env Request) :=
  performs 0 (.requestPasswordReset "user@example.com") 4 ++
    performs 1 (.requestPasswordReset "user@example.com") 4 ++ [.run 0 .ok, .run 1 .ok]

/-- One link resets the password twice, one state leads to two sessions, one code is
exchanged twice, and a link works after it was superseded. -/
theorem credentials_work_twice :
    (∃ p, Run (service .default).step (Pool.idle .signedUp) resetsTwice p ∧
      p.shared.consumed.count (resetToken 0) = 2) ∧
    (∃ p, Run (service .default).step (Pool.idle .signedUp) callsBackTwice p ∧
      p.shared.sessionsOf 0 = 2) ∧
    (∃ p pair, Run (service { Settings.default with redirectAllowed := true }).step
        (Pool.idle .signedUp) exchangesTwice p ∧
      p.Returned 2 (.exchangeCode 1) (.exchanged pair) ∧
      p.Returned 3 (.exchangeCode 1) (.exchanged pair)) ∧
    ∃ p p', Run (service .default).step (Pool.idle .signedUp) reissuesTwice p ∧
      Run (service .default).step p (performs 2 (.resetPasswordWithToken (resetToken 0) "one") 7) p' ∧
      resetToken 0 ∈ p.shared.superseded ∧ p.threads 2 = none ∧
      p'.Returned 2 (.resetPasswordWithToken (resetToken 0) "one") .done := by
  refine ⟨⟨_, run_final (by decide +kernel), by decide +kernel⟩,
    ⟨_, run_final (by decide +kernel), by decide +kernel⟩,
    ⟨_, ⟨⟨0, .access, 7, 0, 3600, [], none⟩, ⟨1, .refresh, 7, 0, 604800, [], none⟩⟩,
      run_final (by decide +kernel), Pool.returned_of_answer (by decide +kernel),
      Pool.returned_of_answer (by decide +kernel)⟩,
    _, _, run_final (by decide +kernel), run_final (by decide +kernel), by decide +kernel, ?_,
    Pool.returned_of_answer (by decide +kernel)⟩
  exact Option.isNone_iff_eq_none.mp (by decide +kernel)

end Ai4iCore.Auth
