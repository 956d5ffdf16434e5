import Ai4iCore.Base.Checked
import Ai4iCore.Base.Dict

/-!
# The notification catalog

`update_catalog` of platform-core on the row of a notification: which recipients and which scope
a PATCH leads to, and which columns the session writes for it. The session writes a column when
its value is another than the one it has loaded or written last, so a PATCH may write the scope
and leave the recipients, or the other way round.
-/

namespace Ai4iCore.Notification

open Checked

inductive NotificationType
  | notification
  | alert
  | monitoring
  deriving DecidableEq, Repr

inductive NotificationScope
  | global
  | institution
  deriving DecidableEq, Repr

/-- A row of `configs_notification_alert`, found by its name. -/
structure ConfigNotificationAlert where
  type : NotificationType
  channels : List String
  recipientRoles : Dict String Bool
  scope : NotificationScope
  updatedBy : Option String
  deriving DecidableEq, Repr

structure ThresholdBand where
  percentage : Int
  active : Bool
  deriving DecidableEq, Repr

/-- The body of the PATCH. -/
structure CatalogUpdate where
  channels : Option (List String) := none
  recipientRoles : Option (Dict String Bool) := none
  scope : Option NotificationScope := none
  thresholds : Option (List ThresholdBand) := none
  deriving DecidableEq, Repr

inductive CatalogError
  | entityNotFound
  | invalidThresholds
  | invalidRecipientRoles
  deriving DecidableEq, Repr

/-- `RecipientRole.ADMIN`. -/
def admin : String := "ADMIN"

/-- The Adopter Admin is a recipient. -/
def adminEnabled (roles : Dict String Bool) : Bool := roles.get? admin = some true

/-! ## Recipients -/

/-- `MONITORING_ALERT_NAMES`. -/
def monitoringAlertNames : List String :=
  ["ERROR_RATE_4XX", "ERROR_RATE_5XX", "LATENCY_P50", "LATENCY_P95", "LATENCY_P99"]

/-- `LEGAL_RECIPIENT_ROLES[name]`. -/
def legalRecipientRoles (name : String) : List String :=
  if name ∈ monitoringAlertNames then [admin, "MODERATOR"] else ["TENANT ADMIN", admin]

/-- `_apply_admin_recipient_scope_invariant`. -/
def applyAdminRecipientScopeInvariant (recipientRoles : Dict String Bool)
    (scope : NotificationScope) : Dict String Bool :=
  match scope with
  | .institution => recipientRoles.set admin false
  | .global =>
    match recipientRoles.get? admin with
    | some _ => recipientRoles
    | none => recipientRoles.set admin false

/-- `_validate_recipient_roles`. -/
def validateRecipientRoles (name : String) (recipientRoles : Dict String Bool) :
    Except CatalogError Unit :=
  require (recipientRoles.all fun e => e.1 ∈ legalRecipientRoles name) .invalidRecipientRoles

/-- The stored recipients with those that the PATCH names. -/
def mergeRecipientRoles (row : ConfigNotificationAlert) (payload : CatalogUpdate) :
    Dict String Bool :=
  match payload.recipientRoles with
  | none => row.recipientRoles
  | some roles => row.recipientRoles.setAll roles

/-! ## Thresholds -/

/-- `THRESHOLD_BAND_COUNT`, `MIN_THRESHOLD_PERCENT` and `MAX_THRESHOLD_PERCENT`. -/
def thresholdBandCount : Nat := 3
def minThresholdPercent : Int := 1
def maxThresholdPercent : Int := 99

/-- `_validate_thresholds`. -/
def validateThresholds (thresholds : List ThresholdBand) : Except CatalogError Unit := do
  require (thresholds.length = thresholdBandCount) .invalidThresholds
  require (thresholds.map ThresholdBand.percentage).Nodup .invalidThresholds
  require (thresholds.all fun band =>
    minThresholdPercent ≤ band.percentage ∧ band.percentage ≤ maxThresholdPercent)
    .invalidThresholds

/-! ## The row that a PATCH leads to -/

def scopeAfter (row : ConfigNotificationAlert) (payload : CatalogUpdate) : NotificationScope :=
  payload.scope.getD row.scope

def recipientRolesAfter (row : ConfigNotificationAlert) (payload : CatalogUpdate) :
    Dict String Bool :=
  applyAdminRecipientScopeInvariant (mergeRecipientRoles row payload) (scopeAfter row payload)

/-- The PATCH switches the row from GLOBAL to INSTITUTION, which resets the subscriptions. -/
def resetsSubscriptions (row : ConfigNotificationAlert) (payload : CatalogUpdate) : Bool :=
  payload.scope = some .institution && row.scope ≠ .institution

/-- `update_catalog` on the row it has read: the row as it stands at each flush of the session,
and how the function ends. The UPDATE of the subscriptions, the DELETE of the old bands and the
commit flush the session. -/
def updateCatalog (name : String) (payload : CatalogUpdate) (updatedBy : Option String)
    (row : ConfigNotificationAlert) :
    List ConfigNotificationAlert × Except CatalogError Unit :=
  if payload.thresholds.isSome && row.type ≠ .alert then ([], .error .invalidThresholds)
  else
    let rescoped := { row with scope := scopeAfter row payload }
    let reset := if resetsSubscriptions row payload then [rescoped] else []
    let addressed := { rescoped with recipientRoles := recipientRolesAfter row payload }
    let final := { addressed with
      channels := payload.channels.getD addressed.channels
      updatedBy := updatedBy.or addressed.updatedBy }
    match payload.recipientRoles.map fun _ =>
        validateRecipientRoles name (mergeRecipientRoles row payload) with
    | some (.error e) => (reset, .error e)
    | _ =>
      match payload.thresholds.map validateThresholds with
      | some (.error e) => (reset, .error e)
      | some (.ok ()) => (reset ++ [addressed, final], .ok ())
      | none => (reset ++ [final], .ok ())

/-! ## The columns that are written -/

/-- An UPDATE of the row: the columns that it sets. -/
structure Patch where
  scope : Option NotificationScope
  recipientRoles : Option (Dict String Bool)
  channels : Option (List String)
  updatedBy : Option (Option String)
  deriving DecidableEq, Repr

/-- The value of a column for an UPDATE, when it has changed. -/
def changed {γ : Type} [DecidableEq γ] (stored current : γ) : Option γ :=
  if current = stored then none else some current

/-- The UPDATE of a flush. -/
def flush (stored current : ConfigNotificationAlert) : Patch where
  scope := changed stored.scope current.scope
  recipientRoles := changed stored.recipientRoles current.recipientRoles
  channels := changed stored.channels current.channels
  updatedBy := changed stored.updatedBy current.updatedBy

def Patch.isEmpty (p : Patch) : Bool :=
  p.scope.isNone && p.recipientRoles.isNone && p.channels.isNone && p.updatedBy.isNone

/-- What an UPDATE makes of the row that is stored when it is executed. -/
def Patch.apply (p : Patch) (row : ConfigNotificationAlert) : ConfigNotificationAlert :=
  { row with
    scope := p.scope.getD row.scope
    recipientRoles := p.recipientRoles.getD row.recipientRoles
    channels := p.channels.getD row.channels
    updatedBy := p.updatedBy.getD row.updatedBy }

/-- The UPDATEs of a session that has loaded `stored`; a flush without changes has none. -/
def updates (stored : ConfigNotificationAlert) : List ConfigNotificationAlert → List Patch
  | [] => []
  | current :: rest =>
    let patch := flush stored current
    if patch.isEmpty then updates current rest else patch :: updates current rest

def applyAll (patches : List Patch) (row : ConfigNotificationAlert) : ConfigNotificationAlert :=
  patches.foldl (fun row p => p.apply row) row

/-- The value of a column when the flushes of a session that has loaded `stored` are executed on
a row that has `base`. -/
def writeBack {γ : Type} [DecidableEq γ] (stored : γ) : List γ → γ → γ
  | [], base => base
  | current :: rest, base => writeBack current rest ((changed stored current).getD base)

/-- A column that the session leaves as it was loaded keeps what is stored, and else it gets the
session's last value. -/
theorem writeBack_eq {γ : Type} [DecidableEq γ] (stored base : γ) (versions : List γ) :
    writeBack stored versions base =
      if ∀ v ∈ versions, v = stored then base else versions.getLast?.getD base := by
  induction versions generalizing stored base with
  | nil => rw [writeBack, if_pos fun v hv => absurd hv List.not_mem_nil]
  | cons current rest ih =>
    rw [writeBack, ih, List.getLast?_cons, Option.getD_some]
    by_cases hsame : current = stored
    · subst hsame
      have hall : (∀ v ∈ current :: rest, v = current) ↔ ∀ v ∈ rest, v = current := by simp
      rw [changed, if_pos rfl, Option.getD_none, if_congr hall rfl rfl]
      split
      · rfl
      · rename_i hne
        cases hlast : rest.getLast? with
        | none =>
          rw [List.getLast?_eq_none_iff.mp hlast] at hne
          exact absurd (fun v hv => absurd hv List.not_mem_nil) hne
        | some v => rfl
    · have hchanged : ¬ ∀ v ∈ current :: rest, v = stored :=
        fun h => hsame (h current List.mem_cons_self)
      rw [changed, if_neg hsame, Option.getD_some, if_neg hchanged]
      split
      · rename_i hrest
        cases hlast : rest.getLast? with
        | none => rfl
        | some v => exact (hrest v (List.mem_of_getLast? hlast)).symm
      · rfl

/-- An UPDATE without columns changes nothing. -/
theorem apply_isEmpty {p : Patch} (h : p.isEmpty = true) (row : ConfigNotificationAlert) :
    p.apply row = row := by
  obtain ⟨scope, recipientRoles, channels, updatedBy⟩ := p
  unfold Patch.isEmpty at h
  simp only [Bool.and_eq_true, Option.isNone_iff_eq_none] at h
  obtain ⟨⟨⟨rfl, rfl⟩, rfl⟩, rfl⟩ := h
  rfl

theorem applyAll_updates_cons (stored current : ConfigNotificationAlert)
    (rest : List ConfigNotificationAlert) (row : ConfigNotificationAlert) :
    applyAll (updates stored (current :: rest)) row =
      applyAll (updates current rest) ((flush stored current).apply row) := by
  rw [updates]
  split
  · rename_i hempty
    rw [apply_isEmpty hempty]
  · rfl

theorem applyAll_scope (stored row : ConfigNotificationAlert)
    (versions : List ConfigNotificationAlert) :
    (applyAll (updates stored versions) row).scope =
      writeBack stored.scope (versions.map ConfigNotificationAlert.scope) row.scope := by
  induction versions generalizing stored row with
  | nil => rfl
  | cons current rest ih =>
    rw [applyAll_updates_cons, ih]
    rfl

theorem applyAll_recipientRoles (stored row : ConfigNotificationAlert)
    (versions : List ConfigNotificationAlert) :
    (applyAll (updates stored versions) row).recipientRoles =
      writeBack stored.recipientRoles (versions.map ConfigNotificationAlert.recipientRoles)
        row.recipientRoles := by
  induction versions generalizing stored row with
  | nil => rfl
  | cons current rest ih =>
    rw [applyAll_updates_cons, ih]
    rfl

/-! ## What a PATCH writes -/

section Writes

variable {name : String} {payload : CatalogUpdate} {updatedBy : Option String}
  {row : ConfigNotificationAlert} {versions : List ConfigNotificationAlert}

/-- An accepted PATCH ends with its scope and its recipients; before, the row had its scope and
the recipients that were read, or both. -/
theorem updateCatalog_versions
    (h : updateCatalog name payload updatedBy row = (versions, .ok ())) :
    ∃ final before, versions = before ++ [final] ∧
      final.scope = scopeAfter row payload ∧
      final.recipientRoles = recipientRolesAfter row payload ∧
      ∀ v ∈ before, v.scope = scopeAfter row payload ∧
        (v.recipientRoles = row.recipientRoles ∨
          v.recipientRoles = recipientRolesAfter row payload) := by
  unfold updateCatalog at h
  split at h
  · cases h
  · dsimp only at h
    have hreset : ∀ v ∈ (if resetsSubscriptions row payload then
        [{ row with scope := scopeAfter row payload }] else []),
        v.scope = scopeAfter row payload ∧ (v.recipientRoles = row.recipientRoles ∨
          v.recipientRoles = recipientRolesAfter row payload) := by
      intro v hv
      split at hv
      · obtain rfl := List.mem_singleton.mp hv
        exact ⟨rfl, .inl rfl⟩
      · cases hv
    split at h
    · cases h
    · split at h
      · cases h
      · obtain ⟨rfl, -⟩ := Prod.mk.inj h
        refine ⟨_, _ ++ [_], (List.append_assoc _ [_] [_]).symm, rfl, rfl, ?_⟩
        intro v hv
        rcases List.mem_append.mp hv with hv | hv
        · exact hreset v hv
        · obtain rfl := List.mem_singleton.mp hv
          exact ⟨rfl, .inr rfl⟩
      · obtain ⟨rfl, -⟩ := Prod.mk.inj h
        exact ⟨_, _, rfl, rfl, rfl, hreset⟩

/-- The last version decides whether a column is written, when the ones before have its value or
the one that was read. -/
theorem writeBack_concat {γ : Type} [DecidableEq γ] {stored base final : γ} {before : List γ}
    (h : ∀ v ∈ before, v = stored ∨ v = final) :
    writeBack stored (before ++ [final]) base = if final = stored then base else final := by
  rw [writeBack_eq, List.getLast?_concat, Option.getD_some]
  by_cases hsame : final = stored
  · subst hsame
    rw [if_pos rfl, if_pos]
    intro v hv
    rcases List.mem_append.mp hv with hv | hv
    · exact (h v hv).elim id id
    · exact List.mem_singleton.mp hv
  · rw [if_neg hsame, if_neg fun hall => hsame (hall final (by simp))]

/-- The scope and the recipients of the row `base` after the PATCH that was computed on `row`:
what the PATCH has not changed is what is stored. -/
theorem applyAll_updateCatalog (base : ConfigNotificationAlert)
    (h : updateCatalog name payload updatedBy row = (versions, .ok ())) :
    (applyAll (updates row versions) base).scope =
        (if scopeAfter row payload = row.scope then base.scope else scopeAfter row payload) ∧
      (applyAll (updates row versions) base).recipientRoles =
        if recipientRolesAfter row payload = row.recipientRoles then base.recipientRoles
        else recipientRolesAfter row payload := by
  obtain ⟨final, before, rfl, hscope, hroles, hbefore⟩ := updateCatalog_versions h
  rw [applyAll_scope, applyAll_recipientRoles, List.map_append, List.map_append,
    List.map_singleton, List.map_singleton, hscope, hroles]
  constructor
  · refine writeBack_concat fun s hs => ?_
    obtain ⟨v, hv, rfl⟩ := List.mem_map.mp hs
    exact .inr (hbefore v hv).1
  · refine writeBack_concat fun r hr => ?_
    obtain ⟨v, hv, rfl⟩ := List.mem_map.mp hr
    exact (hbefore v hv).2

/-- What a PATCH computes is in order. -/
theorem recipientRolesAfter_institution (h : scopeAfter row payload = .institution) :
    adminEnabled (recipientRolesAfter row payload) = false := by
  unfold recipientRolesAfter
  rw [h]
  unfold applyAdminRecipientScopeInvariant adminEnabled
  dsimp only
  rw [Dict.get?_set, if_pos rfl]
  rfl

end Writes

end Ai4iCore.Notification
