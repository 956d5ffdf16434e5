import Ai4iCore.ApiKey.Revocation
import Mathlib.Data.Set.Card
import Mathlib.Logic.Relation

/-!
# The rotation of a key

A row holds its current value and at most one value that was rotated out
(`rotate_by_obj`, `end_rotation_by_obj`, `extend_rotation_by_obj`), and the two stop
authenticating at different times. Here the requests are taken one after another, at
one instant each, with failures and with time passing in between
(`System.serialStep`); the races between them are decided by the guarded `UPDATE`s, for
any interleaving.

Every request is a sequence of `RowStep`s, and the laws of the state machine are
properties of these (`rotation_state_machine`).
-/

namespace Ai4iCore.ApiKey

open Concurrent StepSystem Relation

/-! ## What a request does to the row -/

/-- One `UPDATE` of the row at the instant `now`; a rotation installs one of `draws`. -/
inductive RowStep (now : Time) (draws : List KeyValue) : Row → Row → Prop
  | snapshot (row : Row) (cachedData : Option Payload) :
    RowStep now draws row { row with cachedData := cachedData }
  | revoke (row : Row) : RowStep now draws row { row with isActive := false }
  | update (row : Row) (permissions : Option (List Nat)) (expiresDays : Option Int) :
    RowStep now draws row (row.apply (updateColumns row permissions expiresDays now))
  | rotate {row row' : Row} {current new : KeyValue} {expiresAt : Time} (hnew : new ∈ draws)
    (hgrace : ∀ t, row.expiresAt = some t → expiresAt ≤ t)
    (h : row.rotate current new expiresAt now = some row') : RowStep now draws row row'
  | endRotation {row row' : Row} {rotated : KeyValue}
    (h : row.endRotation rotated now = some row') : RowStep now draws row row'
  | extendRotation {row row' : Row} {rotated : KeyValue} {newExpiresAt : Time}
    (h : row.extendRotation rotated newExpiresAt now = some row') : RowStep now draws row row'

/-- The values `generate_api_key` returns during a request. -/
def Request.draws : Request → List KeyValue
  | .rotate _ draws => draws
  | _ => []

/-- A request that started in `s` is at `t`: at the same instant, some `UPDATE`s later. -/
structure Reaches (draws : List KeyValue) (s t : Store) : Prop where
  now : t.now = s.now
  row : ReflTransGen (RowStep s.now draws) s.row t.row

variable {draws : List KeyValue} {s t : Store} {settings : Settings}

theorem Reaches.refl (draws : List KeyValue) (s : Store) : Reaches draws s s := ⟨rfl, .refl⟩

theorem Reaches.tail {row : Row} (h : Reaches draws s t) (hrow : RowStep s.now draws t.row row) :
    Reaches draws s { t with row := row } :=
  ⟨h.now, h.row.tail hrow⟩

/-! ### Operations that leave the values and the dates alone -/

/-- An operation that writes nothing to the row but its snapshot. -/
def Quiet : Op → Prop
  | .revoke | .rotate _ _ _ _ | .endRotation _ _ | .extendRotation _ _ _ => False
  | .update data =>
    data.permissions = none ∧ data.expiresAt = none ∧ data.rotatedKeyExpiresAt = none
  | _ => True

theorem Reaches.quiet (h : Reaches draws s t) {o : Op} (ho : Quiet o) :
    Reaches draws s (exec o t).1 := by
  cases o with
  | update data =>
    obtain ⟨permissions, expiresAt, rotatedKeyExpiresAt, cachedData⟩ := data
    obtain ⟨rfl, rfl, rfl⟩ := ho
    exact h.tail (.snapshot t.row _)
  | revoke => exact ho.elim
  | rotate current new expiresAt now => exact ho.elim
  | endRotation rotated now => exact ho.elim
  | extendRotation rotated new now => exact ho.elim
  | now => exact h
  | getApiKeyCache value => exact h
  | setApiKeyCache value ttl data => exact ⟨h.now, h.row⟩
  | deleteApiKeyCache value => exact ⟨h.now, h.row⟩
  | selectRow => exact h
  | getByApiKeyIfValid value now => exact h
  | applicationAndTenant => exact h
  | keyValueInUse value => exact h

theorem quiet_each {f : KeyValue → Handler Unit} (hf : ∀ v, Prog.Only Quiet (f v))
    (vs : List KeyValue) : Prog.Only Quiet (Prog.each f vs) := by
  induction vs with
  | nil => trivial
  | cons v vs ih => exact Prog.only_bind (hf v) fun _ => ih

theorem quiet_deleteKeyCaches (row : Row) : Prog.Only Quiet (deleteKeyCaches row) :=
  quiet_each (fun _ => Prog.only_perform trivial) _

theorem quiet_persistCacheSnapshot (row : Row) (payload : Payload) :
    Prog.Only Quiet (persistCacheSnapshot row payload) := by
  refine Prog.only_bind (Prog.only_perform ⟨?_, ?_, ?_⟩) fun _ => trivial
  · simp [RowUpdate.dirty]
  · simp [RowUpdate.dirty]
  · simp [RowUpdate.dirty]

theorem quiet_loadRow : Prog.Only Quiet loadRow := by
  refine Prog.only_bind (Prog.only_perform trivial) fun row => ?_
  cases row with
  | none => trivial
  | some row => trivial

theorem quiet_writeValue (settings : Settings) (row : Row) (payload : Payload)
    (value : KeyValue) : Prog.Only Quiet (writeValue settings row payload value) := by
  refine Prog.only_bind (Prog.only_perform trivial) fun now => ?_
  dsimp only
  split
  · trivial
  · exact Prog.only_perform trivial

theorem quiet_refreshRedisCache (settings : Settings) (row : Row) (tenantId : Option Nat)
    (budgetEffectiveTo : Option Time) :
    Prog.Only Quiet (refreshRedisCache settings row tenantId budgetEffectiveTo) := by
  refine Prog.only_bind (Prog.only_perform trivial) fun now => ?_
  split
  · trivial
  · refine Prog.only_bind (Prog.only_perform trivial) fun existing => ?_
    refine Prog.only_bind (Prog.only_perform trivial) fun now => ?_
    refine Prog.only_bind (quiet_each (quiet_writeValue settings row _) _) fun _ => ?_
    exact quiet_persistCacheSnapshot row _

theorem quiet_dropEndedValue (row : Row) (value : KeyValue) :
    Prog.Only Quiet (dropEndedValue row value) := by
  refine Prog.only_bind (Prog.only_perform trivial) fun now => ?_
  split
  · exact Prog.only_perform trivial
  · trivial

theorem quiet_rotateCaches (settings : Settings) (row : Row) (oldValue : KeyValue)
    (application : Option Application) (tenant : Option Tenant) :
    Prog.Only Quiet (rotateCaches settings row oldValue application tenant) := by
  refine Prog.only_bind (quiet_refreshRedisCache settings row _ _) fun row => ?_
  refine Prog.only_bind (quiet_dropEndedValue row oldValue) fun _ => ?_
  refine Prog.only_bind quiet_loadRow fun row => ?_
  refine Prog.only_bind (Prog.only_perform trivial) fun _ => ?_
  refine Prog.only_bind (Prog.only_perform trivial) fun now => ?_
  split
  · exact quiet_deleteKeyCaches row
  · trivial

theorem quiet_extendCaches (settings : Settings) (row : Row) :
    Prog.Only Quiet (extendCaches settings row) := by
  refine Prog.only_bind (Prog.only_perform trivial) fun owners => ?_
  refine Prog.only_bind (Prog.only_perform trivial) fun now => ?_
  split
  · exact Prog.only_bind (quiet_refreshRedisCache settings row _ _) fun _ => trivial
  · trivial

theorem quiet_rehydrateCacheFromDb (settings : Settings) (row : Row) (token : KeyValue) :
    Prog.Only Quiet (rehydrateCacheFromDb settings row token) := by
  unfold rehydrateCacheFromDb
  split
  · trivial
  · split
    · trivial
    · refine Prog.only_bind (Prog.only_perform trivial) fun now => ?_
      dsimp only
      split
      · trivial
      · exact Prog.only_bind (Prog.only_perform trivial) fun _ => trivial

theorem quiet_resolveFromDbOrTombstone (settings : Settings) (token : KeyValue) :
    Prog.Only Quiet (resolveFromDbOrTombstone settings token) := by
  have htombstone : Prog.Only Quiet (tombstoneInvalidToken settings token) :=
    Prog.only_perform trivial
  refine Prog.only_bind (Prog.only_perform trivial) fun now => ?_
  refine Prog.only_bind (Prog.only_perform trivial) fun found => ?_
  dsimp only
  split
  · exact Prog.only_bind htombstone fun _ => trivial
  · split
    · exact quiet_rehydrateCacheFromDb settings _ token
    · exact Prog.only_bind htombstone fun _ => trivial
  · trivial

theorem quiet_validateApiKey (settings : Settings) (token : String) :
    Prog.Only Quiet (validateApiKey settings token) := by
  unfold validateApiKey
  split
  · refine Prog.only_bind (Prog.only_perform trivial) fun cached => ?_
    cases cached with
    | some cached =>
      dsimp only
      split
      · trivial
      · trivial
    | none => exact Prog.only_bind (quiet_resolveFromDbOrTombstone settings _) fun _ => trivial
  · trivial

/-- A program without other operations runs on as the request's `UPDATE`s have left the row. -/
theorem Reaches.throughout {α : Type} (h : Reaches draws s t) {p : Handler α}
    (hp : Prog.Only Quiet p) :
    Prog.Throughout exec (Reaches draws s) (fun _ _ => True) p t :=
  hp.throughout (fun _ _ hreaches ho => hreaches.quiet ho) h

/-! ### The requests -/

/-- Loading the row when it is as the request found it. -/
theorem loadRow_throughout {α : Type} {f : Row → Handler α} {Q : α → Store → Prop}
    (hs : Reaches draws s t) (h : Prog.Throughout exec (Reaches draws s) Q (f t.row) t) :
    Prog.Throughout exec (Reaches draws s) Q (loadRow >>= f) t := by
  refine Prog.throughout_bind (Prog.throughout_perform hs ⟨hs, ?_⟩)
  exact h

/-- A guarded `UPDATE`: the row it leaves is one `RowStep` further, if it matched. -/
theorem Reaches.updateRow (h : Reaches draws s t) {row? : Option Row}
    (hrow : ∀ row, row? = some row → RowStep s.now draws t.row row) :
    Reaches draws s (t.updateRow row?).1 := by
  cases row? with
  | none => exact h
  | some row => exact h.tail (hrow row rfl)

theorem revoke_throughout (s : Store) :
    Prog.Throughout exec (Reaches draws s) (fun _ _ => True) revokeByObj s := by
  have hrevoked : Reaches draws s (exec .revoke s).1 := (Reaches.refl draws s).tail (.revoke s.row)
  refine Prog.throughout_perform (Reaches.refl draws s) (hrevoked.throughout ?_)
  exact Prog.only_bind quiet_loadRow fun row =>
    Prog.only_bind (quiet_deleteKeyCaches row) fun _ => trivial

theorem update_throughout (settings : Settings) (s : Store) (permissions : Option (List Nat))
    (expiresDays : Option Int) :
    Prog.Throughout exec (Reaches draws s) (fun _ _ => True)
      (updateKeyByObj settings s.row permissions expiresDays) s := by
  unfold updateKeyByObj
  split
  · exact Reaches.refl draws s
  · refine Prog.throughout_perform (Reaches.refl draws s) ?_
    have hupdated : Reaches draws s (exec (.update
        ((updateColumns s.row permissions expiresDays s.now).dirty s.row)) s).1 := by
      have hstep : RowStep s.now draws s.row (s.row.apply
          ((updateColumns s.row permissions expiresDays s.now).dirty s.row)) := by
        rw [Row.apply_dirty]
        exact .update s.row permissions expiresDays
      exact (Reaches.refl draws s).tail hstep
    refine Prog.throughout_perform (Reaches.refl draws s) (hupdated.throughout ?_)
    refine Prog.only_bind (Prog.only_perform trivial) fun owners => ?_
    refine Prog.only_bind (Prog.only_perform trivial) fun now => ?_
    split
    · refine Prog.only_bind (quiet_refreshRedisCache settings _ _ _) fun _ => ?_
      exact Prog.only_bind quiet_loadRow fun _ => trivial
    · refine Prog.only_bind (quiet_deleteKeyCaches _) fun _ => ?_
      refine Prog.only_bind (quiet_persistCacheSnapshot _ _) fun _ => ?_
      exact Prog.only_bind quiet_loadRow fun _ => trivial

/-- A drawn value, with the row untouched. -/
theorem generateUnusedKey_throughout (s : Store) (candidates : List KeyValue) :
    Prog.Throughout exec (Reaches draws s) (fun value t => t = s ∧ value ∈ candidates)
      (generateUnusedKey candidates) s := by
  induction candidates with
  | nil => exact Reaches.refl draws s
  | cons value candidates ih =>
    refine Prog.throughout_perform (Reaches.refl draws s) ?_
    dsimp only
    split
    · exact ih.mono fun _ _ h => ⟨h.1, List.mem_cons_of_mem value h.2⟩
    · exact ⟨Reaches.refl draws s, rfl, List.mem_cons_self⟩

theorem rotate_throughout (settings : Settings) (s : Store) (graceDays : Nat)
    (draws : List KeyValue) :
    Prog.Throughout exec (Reaches draws s) (fun _ _ => True)
      (rotateByObj settings s.row graceDays draws) s := by
  refine Prog.throughout_perform (Reaches.refl draws s) ?_
  refine Prog.throughout_perform (Reaches.refl draws s) ?_
  split
  · exact Reaches.refl draws s
  split
  · exact Reaches.refl draws s
  dsimp only
  split
  · exact Reaches.refl draws s
  rename_i hgrace
  refine Prog.throughout_bind ((generateUnusedKey_throughout s (draws.take 3)).mono ?_)
  rintro newValue t ⟨rfl, hnew⟩
  refine Prog.throughout_perform (Reaches.refl draws _) ?_
  have hrotated : ∀ expiresAt, (∀ e, t.row.expiresAt = some e → expiresAt ≤ e) →
      Reaches draws t (exec (.rotate t.row.apiKey newValue expiresAt t.now) t).1 :=
    fun _ hexpiry => (Reaches.refl draws t).updateRow fun row hrow =>
      .rotate (List.mem_of_mem_take hnew) hexpiry hrow
  refine Prog.throughout_perform (Reaches.refl draws _)
    ((hrotated _ fun e he => ?_).throughout ?_)
  · rw [he, Option.any_some, decide_eq_true_eq, Nat.not_lt] at hgrace
    exact hgrace
  dsimp only
  split
  · refine Prog.only_bind quiet_loadRow fun row => ?_
    refine Prog.only_bind (Prog.only_tryCatch (quiet_rotateCaches settings row _ _ _) fun _ => ?_)
      fun _ => trivial
    exact Prog.only_tryCatch (quiet_deleteKeyCaches row) fun _ => trivial
  · trivial

theorem endRotation_throughout (s : Store) :
    Prog.Throughout exec (Reaches draws s) (fun _ _ => True) (endRotationByObj s.row) s := by
  refine Prog.throughout_perform (Reaches.refl draws s) ?_
  dsimp only
  split
  · rename_i oldValue _ _
    have hended : Reaches draws s (exec (.endRotation oldValue s.now) s).1 :=
      (Reaches.refl draws s).updateRow fun row hrow => .endRotation hrow
    refine Prog.throughout_perform (Reaches.refl draws s) (hended.throughout ?_)
    dsimp only
    split
    · refine Prog.only_bind quiet_loadRow fun row => ?_
      refine Prog.only_bind (Prog.only_tryCatch (Prog.only_perform trivial) fun _ => ?_)
        fun _ => trivial
      trivial
    · trivial
  · exact Reaches.refl draws s

theorem extendRotation_throughout (settings : Settings) (s : Store) (newExpiresAt : Time) :
    Prog.Throughout exec (Reaches draws s) (fun _ _ => True)
      (extendRotationByObj settings s.row newExpiresAt) s := by
  refine Prog.throughout_perform (Reaches.refl draws s) ?_
  dsimp only
  split
  · rename_i oldValue _ _
    split
    · exact Reaches.refl draws s
    split
    · exact Reaches.refl draws s
    have hextended : Reaches draws s (exec (.extendRotation oldValue newExpiresAt s.now) s).1 :=
      (Reaches.refl draws s).updateRow fun row hrow => .extendRotation hrow
    refine Prog.throughout_perform (Reaches.refl draws s) (hextended.throughout ?_)
    dsimp only
    split
    · refine Prog.only_bind quiet_loadRow fun row => ?_
      refine Prog.only_bind (Prog.only_tryCatch (quiet_extendCaches settings row) fun _ => ?_)
        fun _ => trivial
      trivial
    · trivial
  · exact Reaches.refl draws s

/-- **One request**, wherever it ends or dies: some `UPDATE`s of the row, all at its instant. -/
theorem code_reaches (settings : Settings) (r : Request) (ios : List IoOutcome) (s : Store) :
    Reaches r.draws s ((code settings r).execute exec ios s) := by
  refine Prog.Throughout.execute (Q := fun _ _ => True) ?_ ios
  have hload : ∀ {f : Row → Handler Reply},
      Prog.Throughout exec (Reaches r.draws s) (fun _ _ => True) (f s.row) s →
        Prog.Throughout exec (Reaches r.draws s) (fun _ _ => True) (loadRow >>= f) s :=
    fun h => loadRow_throughout (Reaches.refl _ s) h
  cases r with
  | validate token => exact (Reaches.refl _ s).throughout (quiet_validateApiKey settings token)
  | revoke => exact hload (f := fun _ => revokeByObj) (revoke_throughout s)
  | update permissions expiresDays =>
    exact hload (update_throughout settings s permissions expiresDays)
  | rotate graceDays draws => exact hload (rotate_throughout settings s graceDays draws)
  | endRotation => exact hload (endRotation_throughout s)
  | extendRotation newExpiresAt => exact hload (extendRotation_throughout settings s newExpiresAt)

/-! ## The laws of one `UPDATE` -/

variable {now : Time} {row row' : Row} {v : KeyValue}

/-- The rotated-out value does not outlive the key. -/
def WithinExpiry (row : Row) : Prop :=
  ∀ t e, row.rotatedKeyExpiresAt = some t → row.expiresAt = some e → t ≤ e

/-- The value has stopped authenticating, and not because the key has expired: the key is
revoked, or the value is neither the current one nor in its rotation window. -/
def Retired (row : Row) (v : KeyValue) (now : Time) : Prop :=
  row.isActive = false ∨
    (v ≠ row.apiKey ∧ ∀ t, row.rotatedKey = some v → row.rotatedKeyExpiresAt = some t → t ≤ now)

/-- The columns after a rotation. -/
theorem rotate_ok {current new : KeyValue} {expiresAt : Time}
    (h : row.rotate current new expiresAt now = some row') :
    row.apiKey = current ∧ row.isActive = true ∧ row' = { row with
      rotatedKey := some row.apiKey
      apiKey := new
      rotatedKeyExpiresAt := some expiresAt
      cachedData := row.cachedData.map fun d => d.insert "api_key" (.str new.1) } := by
  unfold Row.rotate at h
  split at h
  · rename_i hguard
    refine ⟨hguard.1, ?_, (Option.some.inj h).symm⟩
    have hactive := hguard.2.1
    rw [Row.activeConditions, Bool.and_eq_true] at hactive
    exact hactive.1
  · cases h

theorem endRotation_ok {rotated : KeyValue} (h : row.endRotation rotated now = some row') :
    row.rotatedKey = some rotated ∧
      row' = { row with rotatedKey := none, rotatedKeyExpiresAt := none } := by
  unfold Row.endRotation at h
  split at h
  · rename_i hguard
    exact ⟨hguard.1, (Option.some.inj h).symm⟩
  · cases h

theorem extendRotation_ok {rotated : KeyValue} {newExpiresAt : Time}
    (h : row.extendRotation rotated newExpiresAt now = some row') :
    row.isActive = true ∧ row.rotatedKey = some rotated ∧
      (∃ t, row.rotatedKeyExpiresAt = some t ∧ now < t) ∧
      (∀ e, row.expiresAt = some e → newExpiresAt ≤ e) ∧
      row' = { row with rotatedKeyExpiresAt := some newExpiresAt } := by
  unfold Row.extendRotation at h
  split at h
  · rename_i hguard
    obtain ⟨hrotated, hwindow, hexpiry, hactive⟩ := hguard
    rw [Row.activeConditions, Bool.and_eq_true] at hactive
    obtain ⟨t, ht, hcond⟩ := (Option.any_eq_true ..).mp hwindow
    refine ⟨hactive.1, hrotated, ⟨t, ht, ?_⟩, fun e he => ?_, (Option.some.inj h).symm⟩
    · rw [Bool.and_eq_true] at hcond
      exact of_decide_eq_true hcond.1
    · rw [he] at hexpiry
      exact of_decide_eq_true hexpiry
  · cases h

/-- The end of the rotation window that an update leaves. -/
theorem orElse_clamp (rotatedKeyExpiresAt : Option Time) (e : Time) :
    ((if rotatedKeyExpiresAt.any fun t => e < t then some e else none).orElse fun _ =>
      rotatedKeyExpiresAt) = rotatedKeyExpiresAt.map fun t => min t e := by
  cases rotatedKeyExpiresAt with
  | none => rfl
  | some t =>
    by_cases hlt : e < t
    · simp [hlt, Nat.min_eq_right (Nat.le_of_lt hlt)]
    · simp [hlt, Nat.min_eq_left (Nat.not_lt.mp hlt)]

/-- The dates after an update: a new expiry cuts the rotation window. -/
theorem updateColumns_cases (row : Row) (permissions : Option (List Nat))
    (expiresDays : Option Int) (now : Time) :
    (row.apply (updateColumns row permissions expiresDays now)).expiresAt = row.expiresAt ∧
        (row.apply (updateColumns row permissions expiresDays now)).rotatedKeyExpiresAt =
          row.rotatedKeyExpiresAt ∨
      ∃ e, now ≤ e ∧
        (row.apply (updateColumns row permissions expiresDays now)).expiresAt = some e ∧
        (row.apply (updateColumns row permissions expiresDays now)).rotatedKeyExpiresAt =
          row.rotatedKeyExpiresAt.map fun t => min t e := by
  cases expiresDays with
  | none => exact .inl ⟨rfl, rfl⟩
  | some days =>
    refine .inr ⟨_, ?_, rfl, ?_⟩
    · exact Nat.le_add_right _ _
    · exact orElse_clamp row.rotatedKeyExpiresAt _

theorem RowStep.withinExpiry (h : RowStep now draws row row') (hrow : WithinExpiry row) :
    WithinExpiry row' := by
  cases h with
  | snapshot cachedData => exact hrow
  | revoke => exact hrow
  | update permissions expiresDays =>
    intro t e ht he
    obtain ⟨hexpires, hrotated⟩ | ⟨e', -, hexpires, hrotated⟩ :=
      updateColumns_cases row permissions expiresDays now
    · exact hrow t e (hrotated.symm.trans ht) (hexpires.symm.trans he)
    · obtain rfl := Option.some.inj (hexpires.symm.trans he)
      obtain ⟨t', -, rfl⟩ := Option.map_eq_some_iff.mp (hrotated.symm.trans ht)
      exact Nat.min_le_right t' e'
  | rotate hnew hgrace h =>
    obtain ⟨-, -, rfl⟩ := rotate_ok h
    intro t e ht he
    obtain rfl := Option.some.inj ht
    exact hgrace e he
  | endRotation h =>
    obtain ⟨-, rfl⟩ := endRotation_ok h
    nofun
  | extendRotation h =>
    obtain ⟨-, -, -, hexpiry, rfl⟩ := extendRotation_ok h
    intro t e ht he
    obtain rfl := Option.some.inj ht
    exact hexpiry e he

theorem RowStep.retired (h : RowStep now draws row row') (hdraws : v ∉ draws)
    (hrow : Retired row v now) : Retired row' v now := by
  obtain hrevoked | ⟨hne, hwindow⟩ := hrow
  · -- a revoked row is only ever updated or stored again
    cases h with
    | snapshot cachedData => exact .inl hrevoked
    | revoke => exact .inl rfl
    | update permissions expiresDays => exact .inl hrevoked
    | rotate hnew hgrace h =>
      exact absurd (hrevoked.symm.trans (rotate_ok h).2.1) Bool.false_ne_true
    | endRotation h =>
      obtain ⟨-, rfl⟩ := endRotation_ok h
      exact .inl hrevoked
    | extendRotation h =>
      exact absurd (hrevoked.symm.trans (extendRotation_ok h).1) Bool.false_ne_true
  · cases h with
    | snapshot cachedData => exact .inr ⟨hne, hwindow⟩
    | revoke => exact .inl rfl
    | update permissions expiresDays =>
      refine .inr ⟨hne, fun t hv ht => ?_⟩
      obtain ⟨-, hrotated⟩ | ⟨e, -, -, hrotated⟩ :=
        updateColumns_cases row permissions expiresDays now
      · exact hwindow t hv (hrotated.symm.trans ht)
      · obtain ⟨t', ht', rfl⟩ := Option.map_eq_some_iff.mp (hrotated.symm.trans ht)
        exact (Nat.min_le_left t' e).trans (hwindow t' hv ht')
    | rotate hnew hgrace h =>
      obtain ⟨-, -, rfl⟩ := rotate_ok h
      refine .inr ⟨fun heq => hdraws (heq ▸ hnew), fun t hv _ => ?_⟩
      exact absurd (Option.some.inj hv).symm hne
    | endRotation h =>
      obtain ⟨-, rfl⟩ := endRotation_ok h
      exact .inr ⟨hne, nofun⟩
    | extendRotation h =>
      obtain ⟨-, hrotated, ⟨t, ht, hlive⟩, -, rfl⟩ := extendRotation_ok h
      refine .inr ⟨hne, fun _ hv _ => ?_⟩
      exact absurd hlive (not_lt.mpr (hwindow t hv ht))

theorem Retired.later {later : Time} (h : Retired row v now) (hle : now ≤ later) :
    Retired row v later :=
  h.imp_right fun ⟨hne, hwindow⟩ => ⟨hne, fun t hv ht => (hwindow t hv ht).trans hle⟩

/-- A retired value does not authenticate. -/
theorem Retired.not_matches (h : Retired row v now) : row.matchesIfValid v now = false := by
  rw [Bool.eq_false_iff]
  intro hmatches
  simp only [Row.matchesIfValid, Row.activeConditions, Bool.and_eq_true, Bool.or_eq_true,
    decide_eq_true_eq] at hmatches
  obtain ⟨hvalue, hactive, -⟩ := hmatches
  obtain hrevoked | ⟨hne, hwindow⟩ := h
  · exact absurd (hrevoked.symm.trans hactive) Bool.false_ne_true
  · obtain heq | ⟨hrotated, hlive⟩ := hvalue
    · exact hne heq.symm
    · obtain ⟨t, ht, hlt⟩ := (Option.any_eq_true ..).mp hlive
      exact absurd (of_decide_eq_true hlt) (not_lt.mpr (hwindow t hrotated ht))

/-- Only the current value and the one rotated out authenticate. -/
theorem encard_matches_le (row : Row) (now : Time) :
    {v | row.matchesIfValid v now = true}.encard ≤ 2 := by
  have hsub : {v | row.matchesIfValid v now = true} ⊆
      {row.apiKey, row.rotatedKey.getD row.apiKey} := by
    intro v hv
    simp only [Set.mem_ofPred_eq, Row.matchesIfValid, Bool.and_eq_true, Bool.or_eq_true,
      decide_eq_true_eq] at hv
    obtain ⟨heq | ⟨hrotated, -⟩, -⟩ := hv
    · exact .inl heq.symm
    · exact .inr (by rw [hrotated]; rfl)
  calc {v | row.matchesIfValid v now = true}.encard
      ≤ ({row.apiKey, row.rotatedKey.getD row.apiKey} : Set KeyValue).encard :=
        Set.encard_le_encard hsub
    _ ≤ ({row.rotatedKey.getD row.apiKey} : Set KeyValue).encard + 1 := Set.encard_insert_le _ _
    _ = 2 := by rw [Set.encard_singleton, one_add_one_eq_two]

/-! ## Requests one after another -/

/-- The values drawn during a move. -/
def drawn : Move Env Request → List KeyValue
  | .env _ => []
  | .request r _ => r.draws

/-- One move: time goes on, and the row takes some steps. -/
theorem serialStep_row {m : Move Env Request}
    (h : (service settings).serialStep s m = some t) :
    s.now ≤ t.now ∧ ReflTransGen (RowStep s.now (drawn m)) s.row t.row := by
  cases m with
  | request r ios =>
    obtain rfl := Option.some.inj h
    have hreaches := code_reaches settings r ios s
    exact ⟨hreaches.now.ge, hreaches.row⟩
  | env e =>
    cases e with
    | tick elapsed =>
      obtain rfl := Option.some.inj h
      exact ⟨Nat.le_add_right _ _, .refl⟩
    | setApplication application =>
      obtain rfl := Option.some.inj h
      exact ⟨le_rfl, .refl⟩
    | setTenant tenant =>
      obtain rfl := Option.some.inj h
      exact ⟨le_rfl, .refl⟩

theorem serialRun_withinExpiry {moves : List (Move Env Request)}
    (hrun : Run (service settings).serialStep s moves t) (hs : WithinExpiry s.row) :
    WithinExpiry t.row := by
  refine Run.invariant (P := fun u => WithinExpiry u.row) (fun u m u' hu hstep => ?_) hrun hs
  refine ReflTransGen.head_induction_on (motive := fun r _ => WithinExpiry r → WithinExpiry u'.row)
    (serialStep_row hstep).2 id (fun hfirst _ ih hr => ih (hfirst.withinExpiry hr)) hu

theorem serialRun_retired {moves : List (Move Env Request)}
    (hrun : Run (service settings).serialStep s moves t) (hdraws : ∀ m ∈ moves, v ∉ drawn m)
    (hs : Retired s.row v s.now) : Retired t.row v t.now := by
  induction moves generalizing s with
  | nil =>
    rw [run_nil_iff] at hrun
    exact hrun ▸ hs
  | cons m moves ih =>
    obtain ⟨u, hstep, hrest⟩ := run_cons_iff.mp hrun
    obtain ⟨hnow, hrows⟩ := serialStep_row hstep
    refine ih hrest (fun m' hm' => hdraws m' (List.mem_cons_of_mem m hm')) ?_
    refine Retired.later ?_ hnow
    refine ReflTransGen.head_induction_on
      (motive := fun r _ => Retired r v s.now → Retired u.row v s.now) hrows id
      (fun hfirst _ ih hr => ih (hfirst.retired (hdraws m List.mem_cons_self) hr)) hs

/-! ## Requests in any interleaving -/

/-- The operation a move performs, if it takes effect. -/
def performed (p : Pool sig Store Request Reply) : Label Env Request → Option Op
  | .run i io =>
    match p.threads i with
    | some ⟨_, .op o _⟩ => if io = .failed false then none else some o
    | _ => none
  | _ => none

/-- The move is a rotation conditioned on the current value `v`, and it takes effect. -/
def rotatesFrom (v : KeyValue) (p : Pool sig Store Request Reply) (l : Label Env Request) : Bool :=
  match performed p l with
  | some (.rotate current new expiresAt now) =>
    current = v && (p.shared.row.rotate current new expiresAt now).isSome
  | _ => false

/-- The move ends the rotation of the rotated-out value `v`. -/
def endsRotationOf (v : KeyValue) (p : Pool sig Store Request Reply) (l : Label Env Request) :
    Bool :=
  match performed p l with
  | some (.endRotation rotated now) =>
    rotated = v && (p.shared.row.endRotation rotated now).isSome
  | _ => false

/-- A rotation installs a value outside of `held`. -/
def InstallsOutside (held : Row → List KeyValue) (p : Pool sig Store Request Reply)
    (l : Label Env Request) : Prop :=
  ∀ current new expiresAt now, performed p l = some (.rotate current new expiresAt now) →
    new ∉ held p.shared.row

/-- A move leaves the row alone or performs an operation on it. -/
theorem step_row {p p' : Pool sig Store Request Reply} {l : Label Env Request}
    (h : (service settings).step p l = some p') :
    (performed p l = none ∧ p'.shared.row = p.shared.row) ∨
      ∃ o, performed p l = some o ∧ p'.shared.row = (exec o p.shared).1.row := by
  cases l with
  | env e =>
    left
    obtain ⟨s, hs, rfl⟩ := Option.map_eq_some_iff.mp h
    cases e with
    | tick elapsed => exact Option.some.inj hs ▸ ⟨rfl, rfl⟩
    | setApplication application => exact Option.some.inj hs ▸ ⟨rfl, rfl⟩
    | setTenant tenant => exact Option.some.inj hs ▸ ⟨rfl, rfl⟩
  | spawn i r => exact .inl ⟨rfl, by rw [((service settings).step_spawn h).1]⟩
  | run i io =>
    simp only [System.step] at h
    simp only [performed]
    split at h
    · rename_i r o k ht
      rw [ht]
      cases io with
      | ok =>
        obtain rfl := Option.some.inj h
        exact .inr ⟨o, rfl, rfl⟩
      | failed applied =>
        obtain rfl := Option.some.inj h
        cases applied with
        | true => exact .inr ⟨o, rfl, rfl⟩
        | false => exact .inl ⟨rfl, rfl⟩
    · cases h

theorem updateRow_row (s : Store) (row? : Option Row) :
    (s.updateRow row?).1.row = row?.getD s.row := by
  cases row? with
  | none => rfl
  | some row => rfl

/-- What a move does to the two values of the row. -/
theorem step_values {p p' : Pool sig Store Request Reply} {l : Label Env Request}
    (h : (service settings).step p l = some p') :
    (p'.shared.row.apiKey = p.shared.row.apiKey ∧
        (p'.shared.row.rotatedKey = p.shared.row.rotatedKey ∨ p'.shared.row.rotatedKey = none)) ∨
      ∃ current new expiresAt now, performed p l = some (.rotate current new expiresAt now) ∧
        p'.shared.row.apiKey = new ∧ p'.shared.row.rotatedKey = some p.shared.row.apiKey := by
  obtain ⟨-, hrow⟩ | ⟨o, ho, hrow⟩ := step_row h
  · rw [hrow]
    exact .inl ⟨rfl, .inl rfl⟩
  rw [hrow]
  cases o with
  | rotate current new expiresAt now =>
    rw [exec, updateRow_row]
    cases hrotate : p.shared.row.rotate current new expiresAt now with
    | none => exact .inl ⟨rfl, .inl rfl⟩
    | some row =>
      obtain ⟨-, -, rfl⟩ := rotate_ok hrotate
      exact .inr ⟨current, new, expiresAt, now, ho, rfl, rfl⟩
  | endRotation rotated now =>
    rw [exec, updateRow_row]
    cases hend : p.shared.row.endRotation rotated now with
    | none => exact .inl ⟨rfl, .inl rfl⟩
    | some row =>
      obtain ⟨-, rfl⟩ := endRotation_ok hend
      exact .inl ⟨rfl, .inr rfl⟩
  | extendRotation rotated new now =>
    rw [exec, updateRow_row]
    cases hextend : p.shared.row.extendRotation rotated new now with
    | none => exact .inl ⟨rfl, .inl rfl⟩
    | some row =>
      obtain ⟨-, -, -, -, rfl⟩ := extendRotation_ok hextend
      exact .inl ⟨rfl, .inl rfl⟩
  | _ => exact .inl ⟨rfl, .inl rfl⟩

/-- In a pool that began with a created key, the two values of the row differ. -/
theorem values_differ {p : Pool sig Store Request Reply} {before : List (Label Env Request)}
    (hcreated : s.row.rotatedKey = none)
    (hrun : Run (service settings).step (Pool.idle s) before p)
    (hfresh : Guarded (service settings).step (InstallsOutside Row.values) (Pool.idle s) before) :
    p.shared.row.rotatedKey ≠ some p.shared.row.apiKey := by
  refine Run.guardedInvariant
    (P := fun q => q.shared.row.rotatedKey ≠ some q.shared.row.apiKey)
    (fun q l q' hq hG hstep => ?_) hrun hfresh (by rw [Pool.idle, hcreated]; nofun)
  obtain ⟨hkey, hrotated | hrotated⟩ | ⟨current, new, expiresAt, now, hperformed, hkey, hrotated⟩ :=
    step_values hstep
  · rw [hkey, hrotated]
    exact hq
  · rw [hrotated]
    nofun
  · rw [hkey, hrotated]
    intro heq
    refine hG current new expiresAt now hperformed ?_
    rw [← Option.some.inj heq]
    exact List.mem_cons_self

theorem rotatesFrom_ok {p : Pool sig Store Request Reply} {l : Label Env Request}
    (h : rotatesFrom v p l = true) : ∃ new expiresAt now row,
      performed p l = some (.rotate v new expiresAt now) ∧
        p.shared.row.rotate v new expiresAt now = some row := by
  unfold rotatesFrom at h
  split at h
  · rename_i current new expiresAt now hperformed
    rw [Bool.and_eq_true, decide_eq_true_eq] at h
    obtain ⟨rfl, hsome⟩ := h
    obtain ⟨row, hrow⟩ := Option.isSome_iff_exists.mp hsome
    exact ⟨new, expiresAt, now, row, hperformed, hrow⟩
  · cases h

theorem endsRotationOf_ok {p : Pool sig Store Request Reply} {l : Label Env Request}
    (h : endsRotationOf v p l = true) : ∃ now row,
      performed p l = some (.endRotation v now) ∧ p.shared.row.endRotation v now = some row := by
  unfold endsRotationOf at h
  split at h
  · rename_i rotated now hperformed
    rw [Bool.and_eq_true, decide_eq_true_eq] at h
    obtain ⟨rfl, hsome⟩ := h
    obtain ⟨row, hrow⟩ := Option.isSome_iff_exists.mp hsome
    exact ⟨now, row, hperformed, hrow⟩
  · cases h

/-- A value that is not current stays so, as nothing installs it. -/
theorem step_apiKey_ne {p p' : Pool sig Store Request Reply} {l : Label Env Request}
    {held : List KeyValue} (hv : v ∈ held) (hG : InstallsOutside (fun _ => held) p l)
    (hstep : (service settings).step p l = some p') (hne : p.shared.row.apiKey ≠ v) :
    p'.shared.row.apiKey ≠ v := by
  obtain ⟨hkey, -⟩ | ⟨current, new, expiresAt, now, hperformed, hkey, -⟩ := step_values hstep
  · rw [hkey]
    exact hne
  · rw [hkey]
    exact fun heq => hG current new expiresAt now hperformed (heq ▸ hv)

/-- **One rotation.** Of the rotations conditioned on one value, one takes effect. -/
theorem occurrences_rotatesFrom_le_one {p : Pool sig Store Request Reply}
    {during : List (Label Env Request)} {held : List KeyValue} (hv : v ∈ held)
    (hfresh : Guarded (service settings).step (InstallsOutside fun _ => held) p during) :
    occurrences (service settings).step (rotatesFrom v) p during ≤ 1 := by
  refine occurrences_le_one (I := fun _ => True) (N := fun q => q.shared.row.apiKey ≠ v)
    (fun _ _ _ _ _ _ => trivial) (fun q l q' _ hG hl hstep => ?_)
    (fun q l q' hq hG hstep => step_apiKey_ne hv hG hstep hq) (fun q l hq => ?_) hfresh trivial
  · obtain ⟨new, expiresAt, now, row, hperformed, hrotate⟩ := rotatesFrom_ok hl
    obtain ⟨hnone, -⟩ | ⟨o, ho, hrow⟩ := step_row hstep
    · rw [hperformed] at hnone
      cases hnone
    · obtain rfl := Option.some.inj (hperformed.symm.trans ho)
      obtain ⟨-, -, rfl⟩ := rotate_ok hrotate
      rw [hrow, exec, updateRow_row, hrotate]
      exact fun heq : new = v => hG v new expiresAt now hperformed (heq ▸ hv)
  · rw [Bool.eq_false_iff]
    intro hl
    obtain ⟨new, expiresAt, now, row, -, hrotate⟩ := rotatesFrom_ok hl
    exact hq (rotate_ok hrotate).1

/-- **One end.** Of the requests to end the rotation of one value, one takes effect. -/
theorem occurrences_endsRotationOf_le_one {p : Pool sig Store Request Reply}
    {during : List (Label Env Request)} {held : List KeyValue} (hv : v ∈ held)
    (hne : p.shared.row.apiKey ≠ v)
    (hfresh : Guarded (service settings).step (InstallsOutside fun _ => held) p during) :
    occurrences (service settings).step (endsRotationOf v) p during ≤ 1 := by
  refine occurrences_le_one (I := fun q => q.shared.row.apiKey ≠ v)
    (N := fun q => q.shared.row.apiKey ≠ v ∧ q.shared.row.rotatedKey ≠ some v)
    (fun q l q' hq hG hstep => step_apiKey_ne hv hG hstep hq) (fun q l q' hq hG hl hstep => ?_)
    (fun q l q' hq hG hstep => ⟨step_apiKey_ne hv hG hstep hq.1, ?_⟩) (fun q l hq => ?_) hfresh hne
  · obtain ⟨now, row, hperformed, hend⟩ := endsRotationOf_ok hl
    obtain ⟨hnone, -⟩ | ⟨o, ho, hrow⟩ := step_row hstep
    · rw [hperformed] at hnone
      cases hnone
    · obtain rfl := Option.some.inj (hperformed.symm.trans ho)
      obtain ⟨-, rfl⟩ := endRotation_ok hend
      rw [hrow, exec, updateRow_row, hend]
      exact ⟨hq, (Option.some_ne_none v).symm⟩
  · obtain ⟨-, hrotated | hrotated⟩ | ⟨current, new, expiresAt, now, -, -, hrotated⟩ :=
      step_values hstep
    · rw [hrotated]
      exact hq.2
    · rw [hrotated]
      exact (Option.some_ne_none v).symm
    · rw [hrotated]
      exact fun heq => hq.1 (Option.some.inj heq)
  · rw [Bool.eq_false_iff]
    intro hl
    obtain ⟨now, row, -, hend⟩ := endsRotationOf_ok hl
    exact hq.2 (endRotation_ok hend).1

/-! ## The state machine -/

/-- **The rotation state machine** of a created key. After any requests, one after another,
at most two values authenticate, the one rotated out does not outlive the key, and a value
that has been retired does not come back unless it is drawn again. Of any requests in
flight that are conditioned on what the row holds, at most one rotation and at most one end
of a rotation takes effect. -/
theorem rotation_state_machine (settings : Settings) (s₀ : Store)
    (hkey : s₀.row.rotatedKey = none) (hwindow : s₀.row.rotatedKeyExpiresAt = none) :
    (∀ moves s, Run (service settings).serialStep s₀ moves s →
      {v | s.row.matchesIfValid v s.now = true}.encard ≤ 2 ∧ WithinExpiry s.row ∧
      ∀ v later t, Retired s.row v s.now → (∀ m ∈ later, v ∉ drawn m) →
        Run (service settings).serialStep s later t → t.row.matchesIfValid v t.now = false) ∧
    ∀ before p during p', Run (service settings).step (Pool.idle s₀) before p →
      Guarded (service settings).step (InstallsOutside Row.values) (Pool.idle s₀) before →
      Run (service settings).step p during p' →
      Guarded (service settings).step (InstallsOutside fun _ => p.shared.row.values) p during →
      occurrences (service settings).step (rotatesFrom p.shared.row.apiKey) p during ≤ 1 ∧
      ∀ v, p.shared.row.rotatedKey = some v →
        occurrences (service settings).step (endsRotationOf v) p during ≤ 1 := by
  constructor
  · intro moves s hrun
    refine ⟨encard_matches_le s.row s.now, ?_, ?_⟩
    · refine serialRun_withinExpiry hrun fun t _ ht => ?_
      rw [hwindow] at ht
      cases ht
    · intro v later t hretired hdraws hlater
      exact (serialRun_retired hlater hdraws hretired).not_matches
  · intro before p during p' hbefore hfresh _ hduring
    refine ⟨occurrences_rotatesFrom_le_one List.mem_cons_self hduring, fun v hv => ?_⟩
    have hdiffer := values_differ hkey hbefore hfresh
    refine occurrences_endsRotationOf_le_one ?_ (fun heq => hdiffer ?_) hduring
    · rw [Row.values, hv]
      exact List.mem_cons_of_mem _ List.mem_cons_self
    · rw [hv, heq]

/-- The value a rotation of the sample key installs. -/
def rotatedInKey : KeyValue := ⟨"fedcba9876543210fedcba9876543210", by decide⟩

/-- A rotation without a grace period, up to its `UPDATE`. -/
def rotateNow : List (Move Env Request) :=
  [.request (.rotate 0 [rotatedInKey]) (List.replicate 6 .ok)]

/-- Some time later, the key's expiry is moved. -/
def renewLater : List (Move Env Request) :=
  [.env (.tick second), .request (.update none (some 90)) (List.replicate 3 .ok)]

/-- Two rotations have read the same row, and both go on. -/
def rotateTwice : List (Label Env Request) :=
  performs 0 (.rotate 1 [rotatedInKey]) 5 ++ performs 1 (.rotate 1 [rotatedInKey]) 5 ++
    [.run 0 .ok, .run 1 .ok]

theorem installsOutside_of_check {held : Row → List KeyValue}
    {p : Pool sig Store Request Reply} {l : Label Env Request}
    (h : (match performed p l with
      | some (.rotate _ new _ _) => decide (new ∉ held p.shared.row)
      | _ => true) = true) : InstallsOutside held p l := by
  intro current new expiresAt now hperformed
  rw [hperformed] at h
  exact of_decide_eq_true h

theorem rotation_state_machine_sample :
    (∃ s t, Run (service sampleSettings).serialStep sampleStore rotateNow s ∧
      Run (service sampleSettings).serialStep s renewLater t ∧
      sampleStore.row.matchesIfValid sampleKey 0 = true ∧
      t.row.matchesIfValid rotatedInKey t.now = true ∧
      t.row.matchesIfValid sampleKey t.now = false) ∧
    occurrences (service sampleSettings).step (rotatesFrom sampleKey) (Pool.idle sampleStore)
      rotateTwice ≤ 1 := by
  obtain ⟨hserial, hpool⟩ := rotation_state_machine sampleSettings sampleStore rfl rfl
  constructor
  · obtain ⟨t, hrun, ht⟩ := exists_run_of_map (service sampleSettings).serialStep sampleStore
      (rotateNow ++ renewLater) (fun t => t.row.matchesIfValid rotatedInKey t.now) (x := true)
      (by decide +kernel)
    obtain ⟨s, hs, hlater⟩ := run_append_iff.mp hrun
    obtain ⟨s', hs', hrow⟩ := exists_run_of_map (service sampleSettings).serialStep sampleStore
      rotateNow (fun s => (s.row.apiKey, s.row.rotatedKeyExpiresAt, s.now))
      (x := (rotatedInKey, some 0, 0)) (by decide +kernel)
    obtain rfl : s = s' := Option.some.inj (Eq.trans (Eq.symm hs) hs')
    simp only [Prod.mk.injEq] at hrow
    obtain ⟨hkey, hwindow, hnow⟩ := hrow
    have hretired : Retired s.row sampleKey s.now := by
      refine .inr ⟨by rw [hkey]; decide +kernel, fun t' _ ht' => ?_⟩
      obtain rfl := Option.some.inj (hwindow.symm.trans ht')
      exact Nat.zero_le _
    exact ⟨s, t, hs, hlater, by decide +kernel, ht,
      (hserial rotateNow s hs).2.2 sampleKey renewLater t hretired (by decide) hlater⟩
  · have hrun := @run_final _ _ (service sampleSettings).step (Pool.idle sampleStore) rotateTwice
      (by decide +kernel)
    exact (hpool [] (Pool.idle sampleStore) rotateTwice _ (Run.nil _) trivial hrun
      (guarded_of_check (fun _ _ h => installsOutside_of_check h) (by decide +kernel))).1

end Ai4iCore.ApiKey
