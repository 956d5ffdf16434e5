import Mathlib.Order.Defs.LinearOrder
import Mathlib.Data.List.Basic
import Mathlib.Algebra.Order.Ring.Int

/-!
# The producer ledger

`ledger.py`, with the value objects of `models.py`, `bands.py` and `specs.py`
that it reads. A ledger row is identified by a notification, a tenant and a
subject (`LedgerRef`); a BAND row holds `current_band`, `triggered` and
`triggered_at`. The guarded upsert `claimBand` is the only authority for
*fire*, the guarded update `resetBand` the only one for *re-arm*: both are one
SQL statement, so both are one function from the stored row to the row that
`RETURNING` gives back (`none` when the statement touched nothing).

Band values are `Decimal`s of a `NUMERIC(12, 4)` column and only their order is
ever used, so they are an arbitrary linear order `ν`. Instants are integers, in
microseconds.
-/

namespace Ai4iCore.Kafka

universe u

/-! ## Value objects -/

/-- `NotificationName` (constants.py). -/
inductive NotificationName where
  | tierAssigned | tierChanged | budgetAssigned | budgetUpdated | quotaLimitUpdated
  | quotaExhausted | budgetExhausted | quotaThreshold | budgetThreshold
  | errorRate4xx | errorRate5xx | latencyP50 | latencyP95 | latencyP99
  deriving DecidableEq, Repr

/-- `DedupRule` (constants.py). -/
inductive DedupRule where
  | band | state
  deriving DecidableEq, Repr

/-- `NotificationSpec` (specs.py), the facts the BAND pipeline reads. -/
structure NotificationSpec where
  name : NotificationName
  dedupRule : DedupRule
  /-- RESET applies: a triggered row re-arms once the cooldown is over. -/
  resets : Bool := false
  /-- `tenant_id` is always PLATFORM. -/
  platformScoped : Bool := false
  deriving DecidableEq, Repr

def stateSpec (name : NotificationName) : NotificationSpec := ⟨name, .state, false, false⟩

def usageSpec (name : NotificationName) : NotificationSpec := ⟨name, .band, false, false⟩

def monitoringSpec (name : NotificationName) : NotificationSpec := ⟨name, .band, true, true⟩

/-- `SPECS` (specs.py): the fixed table of notification types. -/
def specs : NotificationName → NotificationSpec
  | .tierAssigned => stateSpec .tierAssigned
  | .tierChanged => stateSpec .tierChanged
  | .budgetAssigned => stateSpec .budgetAssigned
  | .budgetUpdated => stateSpec .budgetUpdated
  | .quotaLimitUpdated => stateSpec .quotaLimitUpdated
  | .quotaExhausted => usageSpec .quotaExhausted
  | .budgetExhausted => usageSpec .budgetExhausted
  | .quotaThreshold => usageSpec .quotaThreshold
  | .budgetThreshold => usageSpec .budgetThreshold
  | .errorRate4xx => monitoringSpec .errorRate4xx
  | .errorRate5xx => monitoringSpec .errorRate5xx
  | .latencyP50 => monitoringSpec .latencyP50
  | .latencyP95 => monitoringSpec .latencyP95
  | .latencyP99 => monitoringSpec .latencyP99

/-- `LedgerRef` (models.py): the identity of one ledger row. -/
structure LedgerRef where
  name : NotificationName
  tenantId : String
  subject : List (String × String)
  deriving DecidableEq, Repr

/-- The spec of the row's notification type. -/
def LedgerRef.spec (r : LedgerRef) : NotificationSpec := specs r.name

/-- `Severity` (constants.py). -/
inductive Severity where
  | info | warning | critical
  deriving DecidableEq, Repr

/-- `Band` (models.py): one active threshold of a settings row. -/
structure Band (ν : Type u) where
  value : ν
  severity : Severity

/-- `LedgerState` (models.py): the state of one BAND row, as readers hold it. -/
structure LedgerState (ν : Type u) where
  exists? : Bool
  currentBand : Option ν
  triggered : Bool
  triggeredAt : Option Int

/-- `NO_LEDGER_ROW`. -/
def noLedgerRow {ν : Type u} : LedgerState ν := ⟨false, none, false, none⟩

/-- A row of `ledger_notification_alert`, the columns of a BAND row. -/
structure Row (ν : Type u) where
  currentBand : Option ν
  triggered : Bool
  triggeredAt : Int

section

variable {ν : Type u}

/-- `_state(row)`, and `NO_LEDGER_ROW` for a missing row (`read_states`, `reread`). -/
def stateOf : Option (Row ν) → LedgerState ν
  | some row => ⟨true, row.currentBand, row.triggered, some row.triggeredAt⟩
  | none => noLedgerRow

/-- `iso_z` keeps milliseconds: what a moment becomes through JSON. -/
def truncateMs (t : Int) : Int := t - t % 1000

/-- `LedgerState.from_json (json.loads (json.dumps st.to_json()))`: a Redis round
trip. A `NUMERIC(12, 4)` value survives the JSON number; the moment is cut to
milliseconds. -/
def LedgerState.throughJson (st : LedgerState ν) : LedgerState ν :=
  { st with triggeredAt := st.triggeredAt.map truncateMs }

/-! ## Evaluation -/

/-- `Decision` (constants.py). -/
inductive Decision where
  | fire | reset | skip | duplicate
  deriving DecidableEq, Repr

/-- `_RESET_SQL`: re-arm an open incident past the cooldown. -/
def resetBand (row : Option (Row ν)) (cooldownS now : Int) : Option (Row ν) :=
  match row with
  | none => none
  | some r =>
    if r.triggered && r.triggeredAt ≤ now - cooldownS * 1000000 then
      some { r with triggered := false }
    else none

/-- Everything a successful reset says. -/
theorem resetBand_eq_some {row : Option (Row ν)} {cooldownS now : Int} {r' : Row ν}
    (h : resetBand row cooldownS now = some r') :
    ∃ r, row = some r ∧ r.triggered = true ∧ r.triggeredAt + cooldownS * 1000000 ≤ now ∧
      r' = { r with triggered := false } := by
  cases row with
  | none => exact (nomatch h)
  | some r =>
    unfold resetBand at h
    dsimp only at h
    split at h
    · rename_i hc
      rw [Bool.and_eq_true, decide_eq_true_iff] at hc
      exact ⟨r, rfl, hc.1, by omega, (Option.some.inj h).symm⟩
    · cases h

variable [LinearOrder ν]

/-- `max(reached, key=lambda band: band.value)`: the first of the highest. -/
def maxBand : Band ν → List (Band ν) → Band ν
  | best, [] => best
  | best, b :: bs => if best.value < b.value then maxBand b bs else maxBand best bs

/-- `band_for` (bands.py): the highest band at or below the observed value. -/
def bandFor (observed : ν) (bands : List (Band ν)) : Option (Band ν) :=
  match bands.filter fun b => b.value ≤ observed with
  | [] => none
  | b :: bs => some (maxBand b bs)

/-- `decide` (ledger.py): the BAND rule. -/
def Ledger.decide (spec : NotificationSpec) (band : Option ν) (state : LedgerState ν)
    (now cooldownS : Int) : Decision :=
  let openIncident := state.exists? && state.triggered
  match band with
  | none =>
    match state.triggeredAt with
    | some t =>
      if openIncident && spec.resets && cooldownS * 1000000 ≤ now - t then .reset else .skip
    | none => .skip
  | some v =>
    if !openIncident then .fire
    else
      match state.currentBand with
      | none => .fire
      | some c => if c < v then .fire else .skip

/-- SQL `band > current_band`: not true when the stored band is NULL. -/
def above (band : ν) : Option ν → Bool
  | some c => c < band
  | none => false

/-- `_CLAIM_BAND_SQL`: insert the row, or take over one that is re-armed or holds
a lower band. -/
def claimBand (row : Option (Row ν)) (band : ν) (now : Int) : Option (Row ν) :=
  match row with
  | none => some ⟨some band, true, now⟩
  | some r =>
    if !r.triggered || above band r.currentBand then some ⟨some band, true, now⟩ else none

/-! ## What a claim and a decision can do -/

/-- Everything a won claim says: the row it writes, and that no open incident
held this band or a higher one. -/
theorem claimBand_eq_some {row : Option (Row ν)} {band : ν} {now : Int} {r' : Row ν}
    (h : claimBand row band now = some r') :
    r' = ⟨some band, true, now⟩ ∧
      ∀ r, row = some r → r.triggered = true → ∃ c, r.currentBand = some c ∧ c < band := by
  cases row with
  | none => exact ⟨(Option.some.inj h).symm, fun r hr => (nomatch hr)⟩
  | some r =>
    unfold claimBand at h
    dsimp only at h
    split at h
    · rename_i hc
      refine ⟨(Option.some.inj h).symm, ?_⟩
      rintro r₀ hr htrig
      obtain rfl := Option.some.inj hr
      rw [htrig] at hc
      cases hb : r.currentBand with
      | none => simp [hb, above] at hc
      | some c => exact ⟨c, rfl, by simpa [hb, above] using hc⟩
    · cases h

/-- A claim against an open incident of this band or a higher one is lost. -/
theorem claimBand_eq_none {r : Row ν} {band c : ν} {now : Int}
    (htrig : r.triggered = true) (hband : r.currentBand = some c) (hle : band ≤ c) :
    claimBand (some r) band now = none := by
  unfold claimBand
  dsimp only
  rw [htrig, hband]
  simp [above, not_lt.mpr hle]

/-- A row type that does not reset is never told to. -/
theorem decide_ne_reset {spec : NotificationSpec} (hspec : spec.resets = false)
    (band : Option ν) (state : LedgerState ν) (now cooldownS : Int) :
    Ledger.decide spec band state now cooldownS ≠ .reset := by
  unfold Ledger.decide
  dsimp only
  cases band with
  | none =>
    cases state.triggeredAt with
    | none => exact fun h => (nomatch h)
    | some t => simp [hspec]
  | some v =>
    dsimp only
    split
    · exact fun h => (nomatch h)
    · split
      · exact fun h => (nomatch h)
      · split <;> exact fun h => (nomatch h)

/-- SKIP on a reached band means the state shows an open incident of that band
or a higher one. -/
theorem decide_eq_skip {spec : NotificationSpec} {v : ν} {state : LedgerState ν}
    {now cooldownS : Int} (h : Ledger.decide spec (some v) state now cooldownS = .skip) :
    state.exists? = true ∧ state.triggered = true ∧
      ∃ c, state.currentBand = some c ∧ v ≤ c := by
  unfold Ledger.decide at h
  dsimp only at h
  split at h
  · cases h
  · rename_i hopen
    have hopen' : (state.exists? && state.triggered) = true := by simpa using hopen
    rw [Bool.and_eq_true] at hopen'
    refine ⟨hopen'.1, hopen'.2, ?_⟩
    split at h
    · cases h
    · rename_i c hc
      split at h
      · cases h
      · rename_i hlt
        exact ⟨c, hc, not_lt.mp hlt⟩

end

end Ai4iCore.Kafka
