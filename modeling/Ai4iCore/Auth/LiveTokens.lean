import Ai4iCore.Auth.Service

/-!
# Which tokens open the gateway

A logout, a password reset and a password change revoke the tokens issued before.
The gateway knows of it by the logout mark alone: a whole second, which it compares
with the whole second a token was issued in. The mark lives as long as an access
token, and `marked_rejected` shows that this is long enough.

What does not hold in every run:

* the gateway does not look at the type of a token, so a refresh token opens it too;
* a token issued in the second of the mark is not rejected;
* `refresh_token` mints from a refresh token that was revoked since it was read;
* a sign-in that overlaps a revocation stores a refresh token from before it, or
  mints an access token between the mark and the commit of a password change.

`Store.timely` says of each operation that none of this happens there, and
`accepted_token_live` that nothing else goes wrong. Redis is up: a password reset
whose mark fails has revoked nothing and does not count as one.
-/

namespace Ai4iCore.Auth

open ApiKey (Time second)
open Concurrent StepSystem

/-! ## Revoked tokens -/

/-- The token is one the revocation issued itself, or it was issued later, and so was the
refresh token it was minted from. -/
def Revocation.Spares (e : Revocation) (t : Token) : Prop :=
  t.jti ∈ e.own ∨ (e.stamp ≤ t.jti ∧ ∀ p ∈ t.parent, e.stamp ≤ p ∨ p ∈ e.own)

/-- The token was issued in a second before that of the user's last mark. -/
def Store.Marked (s : Store) (t : Token) : Prop :=
  ∃ m, s.marks t.sub = some m ∧ t.iat < m.seconds

/-- An access token of the user. -/
def Token.isAccessOf (t : Token) (id : UserId) : Bool := t.sub = id && t.type = .access

theorem Token.isAccessOf_iff {t : Token} {id : UserId} :
    t.isAccessOf id = true ↔ t.sub = id ∧ t.type = .access := by
  simp [Token.isAccessOf]

/-- The operation is not run at one of the moments at which revocation fails:

* a mark is written in a later second than every access token of the user was issued in,
  and a revocation that ends with it finds no refresh token stored;
* an access token is minted from a refresh token that is still the stored one;
* a session is stored when no revocation of the user has completed since its refresh token
  was issued; and that of a password change when no other access token of the user was
  issued since the mark. -/
def Store.timely (s : Store) : Op → Bool
  | .setLogoutTimestamp id completes =>
    s.minted.all (fun t => !t.isAccessOf id || t.iat < s.seconds) &&
      (!completes || (s.refresh id).isNone)
  | .mint .access sub _ (some parent) => (s.refresh sub).any fun row => row.token.jti = parent
  | .commitSession id pair cause =>
    s.revocations.all (fun e => e.user ≠ id || e.stamp ≤ pair.refresh.jti) &&
      (cause ≠ .passwordChange || s.minted.all fun t =>
        !t.isAccessOf id || t.jti < s.markedAt id || t.jti = pair.access.jti)
  | _ => true

/-! ## The invariant -/

/-- Revoked access tokens are expired or marked, and no stored refresh token is revoked. -/
structure Sound (settings : Settings) (s : Store) : Prop where
  fresh : ∀ t ∈ s.minted, t.jti < s.nextJti
  stamps : ∀ e ∈ s.revocations, e.stamp ≤ s.nextJti
  markedAt : ∀ id, s.markedAt id ≤ s.nextJti
  issued : ∀ t ∈ s.minted, t.iat ≤ s.seconds
  lifetime : ∀ t ∈ s.minted, t.type = .access → t.exp = t.iat + settings.lifetime .access
  -- a mark outlives the access tokens issued before it
  marks : ∀ id m, s.marks id = some m → m.seconds ≤ s.seconds ∧
    (m.seconds + settings.lifetime .access) * second ≤ m.expiresAt
  since : ∀ t ∈ s.minted, s.markedAt t.sub ≤ t.jti → ∀ m, s.marks t.sub = some m →
    m.seconds ≤ t.iat
  before : ∀ t ∈ s.minted, t.type = .access → t.jti < s.markedAt t.sub → s.Marked t
  access : ∀ t ∈ s.minted, t.type = .access → ∀ e ∈ s.revocations, e.user = t.sub →
    e.Spares t ∨ s.Marked t
  stored : ∀ id row, s.refresh id = some row → ∀ e ∈ s.revocations, e.user = id →
    e.stamp ≤ row.token.jti ∨ row.token.jti ∈ e.own

variable {settings : Settings} {s : Store}

/-- No token was issued yet. -/
structure NoSessions (s : Store) : Prop where
  minted : s.minted = []
  revocations : s.revocations = []
  refresh : ∀ id, s.refresh id = none
  marks : ∀ id, s.marks id = none
  markedAt : ∀ id, s.markedAt id = 0

theorem NoSessions.sound (h : NoSessions s) : Sound settings s := by
  have hminted : ∀ t ∈ s.minted, False := by
    intro t ht
    rw [h.minted] at ht
    cases ht
  have hmarks : ∀ id m, s.marks id = some m → False := by
    intro id m hm
    rw [h.marks id] at hm
    cases hm
  refine ⟨fun t ht => (hminted t ht).elim, fun e he => ?_, fun id => ?_,
    fun t ht => (hminted t ht).elim, fun t ht => (hminted t ht).elim,
    fun id m hm => (hmarks id m hm).elim, fun t ht => (hminted t ht).elim,
    fun t ht => (hminted t ht).elim, fun t ht => (hminted t ht).elim, fun id row hrow => ?_⟩
  · rw [h.revocations] at he
    cases he
  · rw [h.markedAt id]
    exact Nat.zero_le _
  · rw [h.refresh id] at hrow
    cases hrow

/-! ## Operations -/

/-- The operations on tokens, refresh rows and marks. -/
def Op.movesSessions : Op → Bool
  | .mint _ _ _ _ | .resetPassword _ _ _ _ | .commitSession _ _ _ | .deleteRefresh _ _
  | .setLogoutTimestamp _ _ => true
  | _ => false

/-- The others leave them alone. -/
theorem exec_sessions_frame (settings : Settings) (o : Op) (s : Store)
    (ho : o.movesSessions = false) :
    ∃ accounts credentials links states codes nextNonce consumed superseded,
      (exec settings o s).1 =
        { s with
          accounts := accounts, credentials := credentials, links := links, states := states
          codes := codes, nextNonce := nextNonce, consumed := consumed
          superseded := superseded } := by
  cases o with
  | mint type sub ids parent => cases ho
  | resetPassword id password token row => cases ho
  | commitSession id pair cause => cases ho
  | deleteRefresh id row => cases ho
  | setLogoutTimestamp id completes => cases ho
  | createUser user password =>
    simp only [exec]
    split <;> exact ⟨_, _, _, _, _, _, _, _, rfl⟩
  | insertLink token id =>
    simp only [exec, Store.insertLink]
    split <;> exact ⟨_, _, _, _, _, _, _, _, rfl⟩
  | reissueLink id type rows token =>
    simp only [exec, Store.insertLink]
    split <;> exact ⟨_, _, _, _, _, _, _, _, rfl⟩
  | setPassword user password token activates =>
    simp only [exec]
    split <;> exact ⟨_, _, _, _, _, _, _, _, rfl⟩
  | _ => exact ⟨_, _, _, _, _, _, _, _, rfl⟩

theorem Sound.mint (h : Sound settings s) {type : TokenType} {sub : UserId} {ids : List Nat}
    {parent : Option Nat} (ho : s.timely (.mint type sub ids parent) = true) :
    Sound settings (exec settings (.mint type sub ids parent) s).1 where
  fresh t ht := by
    obtain rfl | ht := List.mem_cons.mp ht
    · exact Nat.lt_succ_self _
    · exact Nat.lt_succ_of_lt (h.fresh t ht)
  stamps e he := Nat.le_succ_of_le (h.stamps e he)
  markedAt id := Nat.le_succ_of_le (h.markedAt id)
  issued t ht := by
    obtain rfl | ht := List.mem_cons.mp ht
    · exact Nat.le_refl _
    · exact h.issued t ht
  lifetime t ht htype := by
    obtain rfl | ht := List.mem_cons.mp ht
    · exact congrArg (fun k => s.seconds + settings.lifetime k) htype
    · exact h.lifetime t ht htype
  marks := h.marks
  since t ht hsince m hm := by
    obtain rfl | ht := List.mem_cons.mp ht
    · exact (h.marks _ m hm).1
    · exact h.since t ht hsince m hm
  before t ht htype hbefore := by
    obtain rfl | ht := List.mem_cons.mp ht
    · exact absurd hbefore (Nat.not_lt.mpr (h.markedAt _))
    · exact h.before t ht htype hbefore
  access t ht htype e he heu := by
    obtain rfl | ht := List.mem_cons.mp ht
    · -- the new token is later than every revocation, and its parent is stored
      refine .inl (.inr ⟨h.stamps e he, fun p hp => ?_⟩)
      obtain rfl : type = .access := htype
      obtain rfl : parent = some p := hp
      obtain ⟨row, hrow, hjti⟩ := (Option.any_eq_true _ _).mp ho
      obtain rfl := of_decide_eq_true hjti
      exact h.stored sub row hrow e he heu
    · exact h.access t ht htype e he heu
  stored := h.stored

/-- Deleting refresh rows. -/
theorem Sound.deleteRefresh (h : Sound settings s) (id : UserId) (row : Option Nat) :
    Sound settings { s with refresh := s.deleteRefresh id row } where
  fresh := h.fresh
  stamps := h.stamps
  markedAt := h.markedAt
  issued := h.issued
  lifetime := h.lifetime
  marks := h.marks
  since := h.since
  before := h.before
  access := h.access
  stored v stored hstored := by
    refine h.stored v stored ?_
    change s.deleteRefresh id row v = some stored at hstored
    unfold Store.deleteRefresh at hstored
    split at hstored
    · by_cases hv : v = id
      · subst hv
        rw [Function.update_self] at hstored
        cases hstored
      · rwa [Function.update_of_ne hv] at hstored
    · exact hstored

/-- A revocation completes: all access tokens of the user but its own are marked, and no
refresh token but its own is stored. -/
theorem Sound.complete (h : Sound settings s) {id : UserId} {own : List Nat}
    (haccess : ∀ t ∈ s.minted, t.sub = id → t.type = .access → t.jti ∈ own ∨ s.Marked t)
    (hstored : ∀ row, s.refresh id = some row → row.token.jti ∈ own) :
    Sound settings (s.complete id own) where
  fresh := h.fresh
  stamps e he := by
    obtain rfl | he := List.mem_cons.mp he
    · exact Nat.le_refl _
    · exact h.stamps e he
  markedAt := h.markedAt
  issued := h.issued
  lifetime := h.lifetime
  marks := h.marks
  since := h.since
  before := h.before
  access t ht htype e he heu := by
    obtain rfl | he := List.mem_cons.mp he
    · exact (haccess t ht heu.symm htype).imp_left .inl
    · exact h.access t ht htype e he heu
  stored v row hrow e he heu := by
    obtain rfl | he := List.mem_cons.mp he
    · obtain rfl : id = v := heu
      exact .inr (hstored row hrow)
    · exact h.stored v row hrow e he heu

theorem Sound.commitSession (h : Sound settings s) {id : UserId} {pair : Pair}
    {cause : SessionCause} (ho : s.timely (.commitSession id pair cause) = true) :
    Sound settings (exec settings (.commitSession id pair cause) s).1 := by
  simp only [Store.timely, Bool.and_eq_true, List.all_eq_true, Bool.or_eq_true,
    decide_eq_true_eq] at ho
  obtain ⟨hcompleted, hchange⟩ := ho
  have hrow : ∀ row, s.upsertRefresh id pair.refresh id = some row → row.token = pair.refresh := by
    intro row hrow
    rw [Store.upsertRefresh, Function.update_self] at hrow
    exact Option.some.inj hrow ▸ rfl
  have hstored : Sound settings { s with
      refresh := s.upsertRefresh id pair.refresh
      nextRow := s.nextRow + 1
      sessions := (id, cause) :: s.sessions } := by
    refine ⟨h.fresh, h.stamps, h.markedAt, h.issued, h.lifetime, h.marks, h.since, h.before,
      h.access, fun v row hv e he heu => ?_⟩
    by_cases hvid : v = id
    · subst hvid
      rw [hrow row hv]
      exact .inl ((hcompleted e he).resolve_left fun hne => hne heu)
    · refine h.stored v row ?_ e he heu
      exact (Function.update_of_ne hvid _ _).symm.trans hv
  simp only [exec]
  split
  · rename_i hcause
    refine hstored.complete (fun t ht hsub htype => ?_) fun row hid => ?_
    · -- what was issued before the mark is marked, and nothing else was issued since
      by_cases hbefore : t.jti < s.markedAt id
      · exact .inr (h.before t ht htype (hsub ▸ hbefore))
      · have hother := (hchange.resolve_left fun hne => hne hcause) t ht
        have hown : t.jti = pair.access.jti := by
          refine (hother.resolve_left ?_)
          rintro (hnot | hlt)
          · rw [Token.isAccessOf_iff.mpr ⟨hsub, htype⟩] at hnot
            cases hnot
          · exact hbefore hlt
        exact .inl (by simp [hown])
    · rw [hrow row hid]
      simp
  · exact hstored

/-- The whole second of the clock is not later than the clock. -/
theorem seconds_mul_le (s : Store) : s.seconds * second ≤ s.now := Nat.div_mul_le_self _ _

theorem lt_seconds_succ_mul (s : Store) : s.now < (s.seconds + 1) * second := by
  rw [Nat.mul_comm]
  exact Nat.lt_mul_div_succ s.now (by decide)

theorem marks_mark (settings : Settings) (s : Store) (id v : UserId) : (s.mark settings id).marks v =
    if v = id then some ⟨s.seconds, s.now + settings.accessTokenExpireMinutes * 60 * second⟩
    else s.marks v :=
  Function.update_apply _ _ _ _

theorem markedAt_mark (s : Store) (id v : UserId) :
    (s.mark settings id).markedAt v = if v = id then s.nextJti else s.markedAt v :=
  Function.update_apply _ _ _ _

/-- A mark that is later than the access tokens of the user. -/
theorem Store.Marked.of_mark {id : UserId} {t : Token} (hsub : t.sub = id)
    (hiat : t.iat < s.seconds) : (s.mark settings id).Marked t := by
  have hmark := marks_mark settings s id t.sub
  rw [if_pos hsub] at hmark
  exact ⟨_, hmark, hiat⟩

theorem Store.Marked.mark_of_ne {id : UserId} {t : Token} (h : s.Marked t) (hne : t.sub ≠ id) :
    (s.mark settings id).Marked t := by
  obtain ⟨m, hm, hlt⟩ := h
  refine ⟨m, ?_, hlt⟩
  rw [marks_mark, if_neg hne]
  exact hm

/-- The mark alone, before the history of the revocation. -/
theorem Sound.mark (h : Sound settings s) {id : UserId}
    (hiat : ∀ t ∈ s.minted, t.sub = id → t.type = .access → t.iat < s.seconds) :
    Sound settings (s.mark settings id) where
  fresh := h.fresh
  stamps := h.stamps
  markedAt v := by
    rw [markedAt_mark]
    split
    · exact Nat.le_refl _
    · exact h.markedAt v
  issued := h.issued
  lifetime := h.lifetime
  marks v m hm := by
    rw [marks_mark] at hm
    split at hm
    · obtain rfl := Option.some.inj hm
      refine ⟨Nat.le_refl _, ?_⟩
      show (s.seconds + settings.accessTokenExpireMinutes * 60) * second ≤ _
      rw [Nat.add_mul]
      exact Nat.add_le_add_right (seconds_mul_le s) _
    · exact h.marks v m hm
  since t ht hsince m hm := by
    rw [markedAt_mark] at hsince
    rw [marks_mark] at hm
    by_cases hv : t.sub = id
    · -- nothing was issued since
      rw [if_pos hv] at hsince
      exact absurd (h.fresh t ht) (Nat.not_lt.mpr hsince)
    · rw [if_neg hv] at hsince hm
      exact h.since t ht hsince m hm
  before t ht htype hbefore := by
    by_cases hv : t.sub = id
    · exact .of_mark hv (hiat t ht hv htype)
    · rw [markedAt_mark, if_neg hv] at hbefore
      exact (h.before t ht htype hbefore).mark_of_ne hv
  access t ht htype e he heu := by
    by_cases hv : t.sub = id
    · exact .inr (.of_mark hv (hiat t ht hv htype))
    · exact (h.access t ht htype e he heu).imp_right fun hmarked => hmarked.mark_of_ne hv
  stored := h.stored

theorem Sound.setLogoutTimestamp (h : Sound settings s) {id : UserId} {completes : Bool}
    (ho : s.timely (.setLogoutTimestamp id completes) = true) :
    Sound settings (exec settings (.setLogoutTimestamp id completes) s).1 := by
  rw [Store.timely, Bool.and_eq_true, List.all_eq_true] at ho
  obtain ⟨hearlier, hgone⟩ := ho
  have hiat : ∀ t ∈ s.minted, t.sub = id → t.type = .access → t.iat < s.seconds := by
    intro t ht hsub htype
    have hearlier := hearlier t ht
    rw [Token.isAccessOf_iff.mpr ⟨hsub, htype⟩] at hearlier
    exact of_decide_eq_true hearlier
  have hsound := h.mark hiat
  simp only [exec]
  split
  · rename_i hcompletes
    refine hsound.complete (fun t ht hsub htype => ?_) fun row hrow => ?_
    · exact .inr (.of_mark hsub (hiat t ht hsub htype))
    change s.refresh id = some row at hrow
    rw [hcompletes, hrow] at hgone
    cases hgone
  · exact hsound

/-- **Every timely operation keeps the invariant.** -/
theorem exec_sound (o : Op) (h : Sound settings s) (ho : s.timely o = true) :
    Sound settings (exec settings o s).1 := by
  by_cases hmoves : o.movesSessions = true
  · cases o with
    | mint type sub ids parent => exact h.mint ho
    | resetPassword id password token row =>
      have hdeleted := h.deleteRefresh id row
      exact ⟨hdeleted.fresh, hdeleted.stamps, hdeleted.markedAt, hdeleted.issued,
        hdeleted.lifetime, hdeleted.marks, hdeleted.since, hdeleted.before, hdeleted.access,
        hdeleted.stored⟩
    | commitSession id pair cause => exact h.commitSession ho
    | deleteRefresh id row => exact h.deleteRefresh id row
    | setLogoutTimestamp id completes => exact h.setLogoutTimestamp ho
    | _ => cases hmoves
  · obtain ⟨accounts, credentials, links, states, codes, nextNonce, consumed, superseded, heq⟩ :=
      exec_sessions_frame settings o s (eq_false_of_ne_true hmoves)
    rw [heq]
    exact ⟨h.fresh, h.stamps, h.markedAt, h.issued, h.lifetime, h.marks, h.since, h.before,
      h.access, h.stored⟩

/-- Time passes, and administrators move. -/
theorem env_sound {s' : Store} {e : Env} (h : Sound settings s) (he : env s e = some s') :
    Sound settings s' := by
  cases e with
  | tick elapsed =>
    obtain rfl := Option.some.inj he
    have hlater : s.seconds ≤ Store.seconds { s with now := s.now + elapsed } :=
      Nat.div_le_div_right (Nat.le_add_right _ _)
    refine ⟨h.fresh, h.stamps, h.markedAt, fun t ht => Nat.le_trans (h.issued t ht) hlater, h.lifetime,
      fun id m hm => ?_, h.since, h.before, h.access, h.stored⟩
    obtain ⟨hseconds, hexpires⟩ := h.marks id m hm
    exact ⟨Nat.le_trans hseconds hlater, hexpires⟩
  | setUser user =>
    obtain rfl := Option.some.inj he
    exact ⟨h.fresh, h.stamps, h.markedAt, h.issued, h.lifetime, h.marks, h.since, h.before,
      h.access, h.stored⟩
  | setTenant tenant =>
    obtain rfl := Option.some.inj he
    exact ⟨h.fresh, h.stamps, h.markedAt, h.issued, h.lifetime, h.marks, h.since, h.before,
      h.access, h.stored⟩

/-! ## The gateway -/

/-- The mark of a revoked token is there as long as the token has not expired. -/
theorem marked_rejected (h : Sound settings s) {t : Token} (ht : t ∈ s.minted)
    (htype : t.type = .access) (hunexpired : s.seconds < t.exp) (hmarked : s.Marked t) :
    s.isRevoked t = true := by
  obtain ⟨m, hm, hlt⟩ := hmarked
  have hlive : s.now < m.expiresAt := by
    have hexp := h.lifetime t ht htype
    have hle : s.seconds + 1 ≤ m.seconds + settings.lifetime .access := by omega
    calc s.now < (s.seconds + 1) * second := lt_seconds_succ_mul s
      _ ≤ (m.seconds + settings.lifetime .access) * second := Nat.mul_le_mul_right _ hle
      _ ≤ m.expiresAt := (h.marks t.sub m hm).2
  rw [Store.isRevoked, Store.logoutTimestamp, hm, Option.filter_some, if_pos (by simpa using hlive)]
  simpa using hlt

/-- The token is accepted: verified, unexpired and not revoked. -/
theorem validateJwt_cases {required : Option Nat} {t : Token}
    (h : s.validateJwt required t = true) :
    t ∈ s.minted ∧ s.seconds < t.exp ∧ s.isRevoked t = false := by
  simp only [Store.validateJwt, Store.validateToken, Bool.and_eq_true, decide_eq_true_eq,
    Bool.not_eq_true'] at h
  exact ⟨h.1.1.1, h.1.1.2, h.1.2⟩

/-- **An accepted access token is live.** -/
theorem Sound.live (h : Sound settings s) {required : Option Nat} {t : Token}
    (htype : t.type = .access) (haccepted : s.validateJwt required t = true) :
    s.seconds < t.exp ∧ ∀ e ∈ s.revocations, e.user = t.sub → e.Spares t := by
  obtain ⟨hminted, hunexpired, hnot⟩ := validateJwt_cases haccepted
  refine ⟨hunexpired, fun e he heu => (h.access t hminted htype e he heu).resolve_right ?_⟩
  intro hmarked
  rw [marked_rejected h hminted htype hunexpired hmarked] at hnot
  cases hnot

/-- **A token issued since the last mark is accepted.** -/
theorem Sound.accepts (h : Sound settings s) {t : Token} (ht : t ∈ s.minted)
    (hunexpired : s.seconds < t.exp) (hsince : s.markedAt t.sub ≤ t.jti) :
    s.validateJwt none t = true := by
  have hnot : s.isRevoked t = false := by
    rw [Store.isRevoked, Option.any_eq_false]
    rintro seconds hseconds
    obtain ⟨m, hm, rfl⟩ := Option.map_eq_some_iff.mp hseconds
    have hle := h.since t ht hsince m (Option.filter_eq_some_iff.mp hm).1
    simpa using hle
  simp [Store.validateJwt, Store.validateToken, ht, hunexpired, hnot]

/-! ## Runs -/

/-- A token that was issued stays issued. -/
theorem exec_minted (settings : Settings) (o : Op) (s : Store) :
    ∀ t ∈ s.minted, t ∈ (exec settings o s).1.minted := by
  intro t ht
  by_cases hmoves : o.movesSessions = true
  · cases o with
    | mint type sub ids parent => exact List.mem_cons_of_mem _ ht
    | resetPassword id password token row => exact ht
    | commitSession id pair cause =>
      simp only [exec]
      split <;> exact ht
    | deleteRefresh id row => exact ht
    | setLogoutTimestamp id completes =>
      simp only [exec]
      split <;> exact ht
    | _ => cases hmoves
  · obtain ⟨accounts, credentials, links, states, codes, nextNonce, consumed, superseded, heq⟩ :=
      exec_sessions_frame settings o s (eq_false_of_ne_true hmoves)
    rw [heq]
    exact ht

/-- Between two operations of a request the others keep the invariant. -/
def timelyOnly (settings : Settings) : Interference sig Store where
  rely s t := (Sound settings s → Sound settings t) ∧ ∀ token ∈ s.minted, token ∈ t.minted
  allowed s o := s.timely o = true
  refl _ := ⟨fun h => h, fun _ h => h⟩
  trans _ _ _ hst htu := ⟨fun h => htu.1 (hst.1 h), fun token h => htu.2 token (hst.2 token h)⟩

theorem timelyOnly_op (s : Store) (o : Op) (ho : (timelyOnly settings).allowed s o) :
    (timelyOnly settings).rely s ((service settings).exec o s).1 :=
  ⟨fun h => exec_sound o h ho, exec_minted settings o s⟩

theorem timelyOnly_env (s : Store) (e : Env) (t : Store)
    (he : (service settings).env s e = some t) : (timelyOnly settings).rely s t := by
  refine ⟨fun h => env_sound h he, fun token ht => ?_⟩
  cases e <;> exact Option.some.inj he ▸ ht

/-- The access token of the pair was issued for the user. -/
def IssuedTo (id : UserId) (pair : Pair) (t : Store) : Prop :=
  pair.access ∈ t.minted ∧ pair.access.sub = id

theorem issueSession_ensures (user : User) (cause : SessionCause) (s : Store) :
    Prog.Ensures (exec settings) (timelyOnly settings)
      (fun r t => ∀ pair, r = .ok pair → IssuedTo user.id pair t) (issueSession user cause) s := by
  unfold issueSession
  refine Prog.ensures_perform (fun t₁ _ _ => ?_) fun _ _ h => (nomatch h)
  refine Prog.ensures_perform (fun t₂ _ _ => ?_) fun _ _ h => (nomatch h)
  have hissued : ∀ u, (timelyOnly settings).rely
      (exec settings (.mint .access user.id (t₁.permissions user.id) none) t₂).1 u →
      t₂.newToken settings .access user.id (t₁.permissions user.id) none ∈ u.minted :=
    fun u hu => hu.2 _ List.mem_cons_self
  refine Prog.ensures_perform (fun t₃ ht₃ ho₃ => ?_) fun _ _ h => (nomatch h)
  have ht₃ := (timelyOnly settings).trans _ _ _ ht₃ (timelyOnly_op t₃ _ ho₃)
  refine Prog.ensures_perform (fun t₄ ht₄ ho₄ => ?_) fun _ _ h => (nomatch h)
  have ht₄ := (timelyOnly settings).trans _ _ _ ht₄ (timelyOnly_op t₄ _ ho₄)
  intro t₅ ht₅ pair hpair
  obtain rfl := Except.ok.inj hpair
  refine ⟨hissued t₅ ?_, rfl⟩
  exact (timelyOnly settings).trans _ _ _ ht₃ ((timelyOnly settings).trans _ _ _ ht₄ ht₅)

/-- What `change_password` returns is a pair of the user. -/
def ChangesPassword (id : UserId) (r : Except AuthError Reply) (t : Store) : Prop :=
  ∀ pair, r = .ok (.passwordChanged pair) → IssuedTo id pair t

theorem changePassword_ensures (id : UserId) (current new : String) (s : Store) :
    Prog.Ensures (exec settings) (timelyOnly settings) (ChangesPassword id)
      (changePassword id current new) s := by
  have hfail : ∀ (e : AuthError) (t : Store), ChangesPassword id (.error e) t :=
    fun _ _ _ h => (nomatch h)
  unfold changePassword
  refine Prog.ensures_perform (fun t _ _ => ?_) (hfail _)
  dsimp only [exec]
  cases huser : t.accounts.getById id with
  | none => exact fun u _ => hfail _ u
  | some user =>
    have hid : user.id = id := Accounts.id_of_user (Accounts.getById_eq_some.mp huser).1
    dsimp only
    split
    · refine Prog.ensures_perform (fun t₁ _ _ => ?_) (hfail _)
      refine Prog.ensures_bind (Prog.Ensures.of_forall (fun r t₂ => ?_) _ _)
      cases r with
      | error e => exact fun u _ => hfail _ u
      | ok x =>
        refine Prog.ensures_perform (fun t₃ _ _ => ?_) (hfail _)
        -- whether the mark could be written makes no difference to the pair
        refine Prog.ensures_bind (Prog.Ensures.of_forall (fun r t₄ => ?_) _ _)
        cases r with
        | error e => exact fun u _ => hfail _ u
        | ok x =>
          refine Prog.ensures_bind (Prog.Ensures.mono (fun r t₅ hr => ?_)
            (issueSession_ensures user .passwordChange t₄))
          cases r with
          | error e => exact fun u _ => hfail _ u
          | ok pair =>
            intro u hu pair' hpair'
            obtain rfl : pair = pair' := Reply.passwordChanged.inj (Except.ok.inj hpair')
            obtain ⟨hminted, hsub⟩ := hr pair rfl
            exact ⟨hu.2 _ hminted, hsub.trans hid⟩
    · exact fun u _ => hfail _ u

/-- What each request ensures of its answer. -/
def Answers : Request → Except AuthError Reply → Store → Prop
  | .changePassword id _ _ => ChangesPassword id
  | _ => fun _ _ => True

theorem code_answers (r : Request) (s : Store) :
    Prog.Ensures (exec settings) (timelyOnly settings) (Answers r) (code settings r) s := by
  cases r with
  | changePassword id current new => exact changePassword_ensures id current new s
  | _ => exact Prog.Ensures.of_forall (fun _ _ => trivial) _ _

/-- **Only live access tokens open the gateway**, in every run whose operations are timely:
an access token that is accepted is unexpired, and no revocation of its user has completed
since it, or the refresh token it was minted from, was issued. The pair that a password
change returned is accepted until it expires or another mark is written. -/
theorem accepted_token_live (s₀ : Store) (p : Pool sig Store Request Reply)
    (ls : List (Label Env Request)) (hinit : NoSessions s₀)
    (hrun : Run (service settings).step (Pool.idle s₀) ls p)
    (htimely : Guarded (service settings).step (System.Obeys (timelyOnly settings))
      (Pool.idle s₀) ls) :
    (∀ (t : Token) (required : Option Nat), t.type = .access →
      p.shared.validateJwt required t = true → p.shared.seconds < t.exp ∧
        ∀ e ∈ p.shared.revocations, e.user = t.sub → e.Spares t) ∧
    ∀ i id current new pair, p.Returned i (.changePassword id current new) (.passwordChanged pair) →
      p.shared.seconds < pair.access.exp → p.shared.markedAt id ≤ pair.access.jti →
      p.shared.validateJwt none pair.access = true := by
  have hsound : Sound settings p.shared :=
    (System.run_rely timelyOnly_op timelyOnly_env hrun htimely).1 hinit.sound
  refine ⟨fun t required htype haccepted => hsound.live htype haccepted, ?_⟩
  intro i id current new pair hreturned hunexpired hsince
  have hanswers := System.follow_all timelyOnly_op timelyOnly_env hrun htimely
    (fun r s _ => code_answers r s) (fun _ => rfl) hreturned
  obtain ⟨hminted, hsub⟩ := hanswers p.shared ((timelyOnly settings).refl _) pair rfl
  exact hsound.accepts hminted hunexpired (hsub ▸ hsince)

/-! ### A user that signs in and out -/

theorem signedUp_noSessions : NoSessions .signedUp :=
  ⟨rfl, rfl, fun _ => rfl, fun _ => rfl, fun _ => rfl⟩

/-- The user signs in, changes the password two seconds later, refreshes, and signs out in
yet another second. -/
def sampleRun : List (Label Env Request) :=
  performs 0 (.login "user@example.com" "secret") 7 ++ [.env (.tick (2 * second))] ++
    performs 1 (.changePassword 7 "secret" "changed") 8 ++
    performs 2 (.refreshToken ⟨3, .refresh, 7, 2, 604802, [], none⟩) 7 ++
    [.env (.tick (2 * second))] ++ performs 3 (.logout 7) 3 ++
    performs 4 (.login "user@example.com" "changed") 7

theorem accepted_token_live_sample :
    let p := final (service .default).step (Pool.idle .signedUp) sampleRun
    (∀ (t : Token) (required : Option Nat), t.type = .access →
      p.shared.validateJwt required t = true → p.shared.seconds < t.exp ∧
        ∀ e ∈ p.shared.revocations, e.user = t.sub → e.Spares t) ∧
    ∀ i id current new pair, p.Returned i (.changePassword id current new) (.passwordChanged pair) →
      p.shared.seconds < pair.access.exp → p.shared.markedAt id ≤ pair.access.jti →
      p.shared.validateJwt none pair.access = true :=
  accepted_token_live .signedUp _ sampleRun signedUp_noSessions (run_final (by decide +kernel))
    (guarded_of_check (g := System.obeysCheck Store.timely)
      (System.obeys_of_check fun _ _ h => h) (by decide +kernel))

/-- The user signs in. -/
def signsInByPassword : List (Label Env Request) :=
  performs 0 (.login "user@example.com" "secret") 7

/-- The user signs out in the same second. -/
def signsOut : List (Label Env Request) := signsInByPassword ++ performs 1 (.logout 7) 3

/-- A refresh has read its token when the user signs out, and then mints. -/
def refreshesLate : List (Label Env Request) :=
  signsInByPassword ++ performs 1 (.refreshToken ⟨1, .refresh, 7, 0, 604800, [], none⟩) 6 ++
    [.env (.tick (2 * second))] ++ performs 2 (.logout 7) 3 ++ [.run 1 .ok]

/-- A refresh token opens the gateway; so does an access token after a logout in the second
it was issued in, and one minted after a logout from a refresh token from before it. -/
theorem gateway_accepts_revoked :
    (∃ p t, Run (service .default).step (Pool.idle .signedUp) signsInByPassword p ∧
      p.shared.validateJwt none t = true ∧ t.type = .refresh) ∧
    (∃ p t e, Run (service .default).step (Pool.idle .signedUp) signsOut p ∧
      p.shared.validateJwt none t = true ∧ t.type = .access ∧ e ∈ p.shared.revocations ∧
      e.user = t.sub ∧ ¬ e.Spares t) ∧
    ∃ p t e, Run (service .default).step (Pool.idle .signedUp) refreshesLate p ∧
      p.shared.validateJwt none t = true ∧ t.type = .access ∧ e ∈ p.shared.revocations ∧
      e.user = t.sub ∧ ¬ e.Spares t := by
  refine ⟨?_, ?_, ?_⟩
  · exact ⟨_, ⟨1, .refresh, 7, 0, 604800, [], none⟩, run_final (by decide +kernel),
      by decide +kernel, rfl⟩
  · refine ⟨_, ⟨0, .access, 7, 0, 3600, [], none⟩, ⟨7, 2, []⟩, run_final (by decide +kernel),
      by decide +kernel, rfl, by decide +kernel, rfl, ?_⟩
    rintro (hown | ⟨hle, -⟩)
    · cases hown
    · exact absurd hle (by decide)
  · refine ⟨_, ⟨2, .access, 7, 2, 3602, [], some 1⟩, ⟨7, 2, []⟩, run_final (by decide +kernel),
      by decide +kernel, rfl, by decide +kernel, rfl, ?_⟩
    rintro (hown | ⟨-, hparent⟩)
    · cases hown
    · obtain hle | hown := hparent 1 rfl
      · exact absurd hle (by decide)
      · cases hown

end Ai4iCore.Auth
