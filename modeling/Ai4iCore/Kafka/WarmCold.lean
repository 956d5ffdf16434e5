import Ai4iCore.Kafka.Emit

/-!
# Warm and cold caches

`TieredCache.read` (cache.py) answers from L1, then Redis, then the database, and
`emit_band_batch` already drops what the settings in L1 rule out before it reads. With copies
that equal the database this should not show in what fires.

It does. The ledger rows that no cache holds are read with one query, whose catalog ids come
from the settings; one notification without a catalog row raises for all of them. Settings in
L1 drop such an item before the read. So a batch fires the same alerts over all caches exactly
when each of its notifications is in the catalog, or nothing in it is due (`warm_cold_agree`).

One call is considered, with no other call in flight and no failure of Redis or the database.
-/

namespace Ai4iCore.Kafka

universe u

variable {ν : Type u}

/-! ## The database and its copies -/

/-- What the producer reads of the database: the catalog with its active bands, the
subscriptions and the ledger. -/
structure Database (ν : Type u) where
  settings : SettingsSnapshot ν
  subscriptions : String → TenantSubscriptions
  ledger : LedgerRef → Option (Row ν)
  /-- `ck_ledger_notification_alert_one_value`: a BAND row has its band. -/
  banded : ∀ ref row, ledger ref = some row → row.currentBand ≠ none

/-- The entries one cache layer holds. -/
structure Layer (ν : Type u) where
  settings : Option (SettingsSnapshot ν) := none
  subscriptions : String → Option TenantSubscriptions := fun _ => none
  ledger : LedgerRef → Option (LedgerState ν) := fun _ => none

structure Caches (ν : Type u) where
  l1 : Layer ν := {}
  redis : Layer ν := {}

/-- Each entry equals the database, a ledger entry up to `copy`. -/
structure Layer.Holds (l : Layer ν) (db : Database ν)
    (copy : LedgerState ν → LedgerState ν → Prop) : Prop where
  settings : ∀ s, l.settings = some s → s = db.settings
  subscriptions : ∀ tenant s, l.subscriptions tenant = some s → s = db.subscriptions tenant
  ledger : ∀ ref st, l.ledger ref = some st → copy (stateOf (db.ledger ref)) st

structure Caches.Hold (c : Caches ν) (db : Database ν)
    (copy : LedgerState ν → LedgerState ν → Prop) : Prop where
  l1 : c.l1.Holds db copy
  redis : c.redis.Holds db copy

/-- A copy that may have gone through Redis, which keeps milliseconds. -/
def LedgerState.Copied (st copy : LedgerState ν) : Prop := copy = st ∨ copy = st.throughJson

/-! ## Reading through the caches -/

def Caches.cachedLedger (c : Caches ν) (ref : LedgerRef) : Option (LedgerState ν) :=
  c.l1.ledger ref <|> c.redis.ledger ref

def Caches.snapshot (c : Caches ν) (db : Database ν) : SettingsSnapshot ν :=
  (c.l1.settings <|> c.redis.settings).getD db.settings

/-- The query for the ledger rows that no cache holds succeeds: each has a catalog id. -/
def Caches.loads (c : Caches ν) (db : Database ν) (refs : List LedgerRef) : Bool :=
  (refs.filter fun ref => (c.cachedLedger ref).isNone).all fun ref =>
    (c.snapshot db ref.name).isSome

/-- The ledger state of one of `refs`, when some layer gives it. -/
def Caches.state (c : Caches ν) (db : Database ν) (refs : List LedgerRef) (ref : LedgerRef) :
    Option (LedgerState ν) :=
  c.cachedLedger ref <|> if c.loads db refs then some (stateOf (db.ledger ref)) else none

/-- `TieredCache.read` and `_load_owned`. -/
def Caches.read (c : Caches ν) (db : Database ν) (tenants : List String)
    (refs : List LedgerRef) : CacheRead ν where
  settings := some (c.snapshot db)
  subscriptions := fun tenant =>
    if tenant ∈ tenants then
      some ((c.l1.subscriptions tenant <|> c.redis.subscriptions tenant).getD
        (db.subscriptions tenant))
    else none
  ledger := fun ref => if ref ∈ refs then c.state db refs ref else none
  subscriptionError := false

/-- The rest of a call's surroundings: the checks, the recipients, `utc_now()`, the database
clock at each statement and the cooldown. -/
structure Call (ν : Type u) extends DeliveryIo ν where
  checks : TextChecks
  now : Int
  clock : Nat → Int
  cooldownS : Int
  freshId : Nat

/-- What `emit_band_batch` meets over these caches. What its first read loads into L1 is in
that read's answer. -/
def Call.io (call : Call ν) (db : Database ν) (c : Caches ν) : BatchIo ν where
  toDeliveryIo := call.toDeliveryIo
  peekSettings := c.l1.settings
  peekSubscriptions := c.l1.subscriptions
  read := c.read db
  peekAgain := c.l1.subscriptions
  readAgain := fun tenants => c.read db tenants []
  now := call.now
  sessionOpens := true
  statement := fun n => some (call.clock n)
  freshId := call.freshId

section Alerts

variable [LinearOrder ν]

/-- The alerts a batch fires: name, tenant, subject and band. -/
def Call.alerts (call : Call ν) (db : Database ν) (c : Caches ν) (items : List (BandItem ν)) :
    List (LedgerRef × ν) :=
  let io := call.io db c
  let prepared := prepare io.freshId [] (io.active call.checks call.cooldownS items).1
  (io.fired call.cooldownS db.ledger prepared.1).1.map fun m => (m.ref, m.band.value)

/-! ## Claims and resets -/

/-- A statement of the claim loop. -/
inductive LedgerOp (ν : Type u)
  | claim (ref : LedgerRef) (band : ν)
  | reset (ref : LedgerRef)

def LedgerOp.claim? : LedgerOp ν → Option (LedgerRef × ν)
  | .claim ref band => some (ref, band)
  | .reset _ => none

/-- A FIRE has a band, a RESET has none. -/
def ActiveEvaluation.op (a : ActiveEvaluation ν) : LedgerOp ν :=
  match a.band with
  | some band => .claim a.ref band.value
  | none => .reset a.ref

/-- The claims that win. -/
def wins (cooldownS : Int) (clock : Nat → Int) :
    Nat → (LedgerRef → Option (Row ν)) → List (LedgerOp ν) → List (LedgerRef × ν)
  | _, _, [] => []
  | n, table, .claim ref band :: rest =>
    match claimBand (table ref) band (clock n) with
    | some row => (ref, band) :: wins cooldownS clock (n + 1) (Function.update table ref (some row)) rest
    | none => wins cooldownS clock (n + 1) table rest
  | n, table, .reset ref :: rest =>
    match resetBand (table ref) cooldownS (clock n) with
    | some row => wins cooldownS clock (n + 1) (Function.update table ref (some row)) rest
    | none => wins cooldownS clock (n + 1) table rest

/-- An evaluation as `judge` leaves it: FIRE with a band, or RESET without. -/
def ActiveEvaluation.Judged (a : ActiveEvaluation ν) : Prop :=
  a.decision = if a.band.isSome then .fire else .reset

/-- The claim loop makes the claims and resets in order, and its fired evaluations are the
claims that win. -/
theorem claimLoop_wins (cooldownS : Int) (clock : Nat → Int) {active : List (ActiveEvaluation ν)}
    (hjudged : ∀ a ∈ active, a.Judged)
    (hids : ∀ a ∈ active, a.decision = .fire → a.eventId.isSome) (n : Nat)
    (table : LedgerRef → Option (Row ν)) :
    (claimLoop cooldownS (fun n => some (clock n)) n table active).1.map
      (fun m => (m.ref, m.band.value)) =
    wins cooldownS clock n table (active.map ActiveEvaluation.op) := by
  induction active generalizing n table with
  | nil => rfl
  | cons a rest ih =>
    have ih' := ih (fun b hb => hjudged b (List.mem_cons_of_mem _ hb))
      fun b hb => hids b (List.mem_cons_of_mem _ hb)
    have hj : a.decision = if a.band.isSome then .fire else .reset :=
      hjudged a List.mem_cons_self
    have hid := hids a List.mem_cons_self
    cases hband : a.band with
    | some band =>
      rw [hband] at hj
      have hfire : a.decision = .fire := hj
      obtain ⟨eventId, hevent⟩ := Option.isSome_iff_exists.mp (hid hfire)
      have hop : a.op = .claim a.ref band.value := by
        unfold ActiveEvaluation.op
        rw [hband]
      unfold claimLoop
      rw [if_pos hfire, hband, hevent, List.map_cons, hop]
      unfold wins
      dsimp only
      cases claimBand (table a.ref) band.value (clock n) with
      | some row => exact congrArg (List.cons _) (ih' _ _)
      | none => exact ih' _ _
    | none =>
      rw [hband] at hj
      have hreset : a.decision ≠ .fire := by
        rw [show a.decision = .reset from hj]
        exact fun h => nomatch h
      have hop : a.op = .reset a.ref := by
        unfold ActiveEvaluation.op
        rw [hband]
      unfold claimLoop
      rw [if_neg hreset, List.map_cons, hop]
      unfold wins
      dsimp only
      cases resetBand (table a.ref) cooldownS (clock n) with
      | some row => exact ih' _ _
      | none => exact ih' _ _

/-- A row that a claim of this band wins, at any time. -/
def Grants (row : Option (Row ν)) (band : ν) : Prop :=
  ∀ now, claimBand row band now = some ⟨some band, true, now⟩

/-- A re-armed row grants every claim. -/
theorem grants_resetBand {row : Option (Row ν)} {cooldownS now : Int} {r' : Row ν}
    (h : resetBand row cooldownS now = some r') (band : ν) : Grants (some r') band := by
  intro t
  obtain ⟨r, -, -, -, rfl⟩ := resetBand_eq_some h
  rfl

theorem grants_update_reset {table : LedgerRef → Option (Row ν)} {ref : LedgerRef}
    {cooldownS now : Int} {r' : Row ν} (h : resetBand (table ref) cooldownS now = some r')
    {ref' : LedgerRef} {band : ν} (hg : Grants (table ref') band) :
    Grants (Function.update table ref (some r') ref') band := by
  by_cases heq : ref' = ref
  · subst heq
    rw [Function.update_self]
    exact grants_resetBand h band
  · rw [Function.update_of_ne heq]
    exact hg

/-- Without a claim nothing is won. -/
theorem wins_eq_nil (cooldownS : Int) (clock : Nat → Int) {ops : List (LedgerOp ν)}
    (h : ops.filterMap LedgerOp.claim? = []) (n : Nat) (table : LedgerRef → Option (Row ν)) :
    wins cooldownS clock n table ops = [] := by
  induction ops generalizing n table with
  | nil => rfl
  | cons op rest ih =>
    cases op with
    | claim ref band => exact absurd h (List.cons_ne_nil _ _)
    | reset ref =>
      have hrest : rest.filterMap LedgerOp.claim? = [] := h
      unfold wins
      cases resetBand (table ref) cooldownS (clock n) with
      | some row => exact ih hrest _ _
      | none => exact ih hrest _ _

/-- The first claim is won when its row grants it: before it there are only resets. -/
theorem wins_ne_nil (cooldownS : Int) (clock : Nat → Int) {ops : List (LedgerOp ν)}
    (h : ops.filterMap LedgerOp.claim? ≠ []) (n : Nat) {table : LedgerRef → Option (Row ν)}
    (hgrants : ∀ p ∈ ops.filterMap LedgerOp.claim?, Grants (table p.1) p.2) :
    wins cooldownS clock n table ops ≠ [] := by
  induction ops generalizing n table with
  | nil => exact absurd rfl h
  | cons op rest ih =>
    cases op with
    | claim ref band =>
      have hwon := hgrants (ref, band) List.mem_cons_self (clock n)
      unfold wins
      rw [hwon]
      exact List.cons_ne_nil _ _
    | reset ref =>
      have hrest : rest.filterMap LedgerOp.claim? ≠ [] := h
      unfold wins
      cases hreset : resetBand (table ref) cooldownS (clock n) with
      | some row => exact ih hrest _ fun p hp => grants_update_reset hreset (hgrants p hp)
      | none => exact ih hrest _ hgrants

/-- The claims that raise the band of their row; `won` holds what was won so far. -/
def raises : (LedgerRef → Option ν) → List (LedgerRef × ν) → List (LedgerRef × ν)
  | _, [] => []
  | won, (ref, band) :: rest =>
    if above band (won ref) || (won ref).isNone then
      (ref, band) :: raises (Function.update won ref (some band)) rest
    else raises won rest

/-- The table during the claims: a row that was won holds its band since a statement of this
batch, and every other row grants the claims that are left. -/
structure Progress (clock : Nat → Int) (table : LedgerRef → Option (Row ν))
    (won : LedgerRef → Option ν) (claims : List (LedgerRef × ν)) : Prop where
  held : ∀ ref band, won ref = some band → ∃ k, table ref = some ⟨some band, true, clock k⟩
  grants : ∀ p ∈ claims, won p.1 = none → Grants (table p.1) p.2

/-- When a batch takes less than the cooldown, its resets do not bear on what is won. -/
theorem wins_eq_raises {cooldownS : Int} {clock : Nat → Int}
    (hclock : ∀ i j, clock j - clock i < cooldownS * 1000000) (ops : List (LedgerOp ν)) (n : Nat)
    {table : LedgerRef → Option (Row ν)} {won : LedgerRef → Option ν}
    (hp : Progress clock table won (ops.filterMap LedgerOp.claim?)) :
    wins cooldownS clock n table ops = raises won (ops.filterMap LedgerOp.claim?) := by
  induction ops generalizing n table won with
  | nil => rfl
  | cons op rest ih =>
    cases op with
    | claim ref band =>
      show _ = raises won ((ref, band) :: rest.filterMap LedgerOp.claim?)
      have hclaims : ∀ p ∈ rest.filterMap LedgerOp.claim?, won p.1 = none →
          Grants (table p.1) p.2 := fun p hp' => hp.grants p (List.mem_cons_of_mem _ hp')
      have hwon : Progress clock (Function.update table ref (some ⟨some band, true, clock n⟩))
          (Function.update won ref (some band)) (rest.filterMap LedgerOp.claim?) := by
        constructor
        · intro ref' band' h
          by_cases heq : ref' = ref
          · subst heq
            rw [Function.update_self] at h ⊢
            exact ⟨n, by rw [Option.some.inj h]⟩
          · rw [Function.update_of_ne heq] at h ⊢
            exact hp.held ref' band' h
        · intro p hmem h
          by_cases heq : p.1 = ref
          · rw [heq, Function.update_self] at h
            cases h
          · rw [Function.update_of_ne heq] at h ⊢
            exact hclaims p hmem h
      unfold wins raises
      cases hheld : won ref with
      | none =>
        rw [hp.grants (ref, band) List.mem_cons_self hheld (clock n)]
        exact congrArg (List.cons _) (ih _ hwon)
      | some c =>
        obtain ⟨k, hrow⟩ := hp.held ref c hheld
        rw [hrow]
        unfold claimBand
        by_cases hlt : c < band
        · simp only [above, hlt, decide_true, Bool.or_true, if_true]
          exact congrArg (List.cons _) (ih _ hwon)
        · simp only [above, hlt, decide_false, Bool.not_true, Bool.or_false, Option.isNone_some,
            Bool.false_eq_true, if_false]
          exact ih _ ⟨hp.held, hclaims⟩
    | reset ref =>
      show _ = raises won (rest.filterMap LedgerOp.claim?)
      unfold wins
      cases hreset : resetBand (table ref) cooldownS (clock n) with
      | none => exact ih _ hp
      | some row =>
        refine ih _ ⟨fun ref' band' h => ?_, fun p hmem h => ?_⟩
        · by_cases heq : ref' = ref
          · -- a row of this batch is too young to be re-armed
            obtain ⟨k, hrow⟩ := hp.held ref' band' h
            obtain ⟨r, hr, -, hage, -⟩ := resetBand_eq_some hreset
            rw [← heq, hrow] at hr
            obtain rfl := Option.some.inj hr
            have hk := hclock k n
            dsimp only at hage
            omega
          · rw [Function.update_of_ne heq]
            exact hp.held ref' band' h
        · exact grants_update_reset hreset (hp.grants p hmem h)

/-! ## What the database says -/

/-- The settings row of an alert that can fire: with bands, enabled, and someone assigned. -/
def Database.gate (db : Database ν) (ref : LedgerRef) : Option (SettingsRow ν) :=
  (db.settings ref.name).filter fun row =>
    !row.bands.isEmpty && row.enabled (ref.subsOf (some (db.subscriptions ref.tenantId))) &&
      row.someoneAssigned

/-- The statement an evaluation leads to, by the ledger state it is given. -/
def Call.op? (call : Call ν) (db : Database ν) (e : BandEvaluation ν) (st : LedgerState ν) :
    Option (LedgerOp ν) :=
  (db.gate e.ref).bind fun row =>
    (judge call.cooldownS call.now e row none st).map ActiveEvaluation.op

/-- The valid items of a batch. -/
def Call.evaluations (call : Call ν) (items : List (BandItem ν)) : List (BandEvaluation ν) :=
  (items.map fun item => item.evaluation call.checks).filterMap Except.toOption

omit [LinearOrder ν] in
theorem gate_eq {db : Database ν} {ref : LedgerRef} {row : SettingsRow ν}
    (hrow : db.settings ref.name = some row) :
    db.gate ref =
      if !row.bands.isEmpty && row.enabled (ref.subsOf (some (db.subscriptions ref.tenantId))) &&
        row.someoneAssigned then some row else none := by
  unfold Database.gate
  rw [hrow]
  exact Option.filter_some

omit [LinearOrder ν] in
/-- A subscription that was found is the database's, and one is found where the gate needs
it: the gate then decides as the database does. -/
theorem enabled_eq {row : SettingsRow ν} {ref : LedgerRef} {subs : TenantSubscriptions}
    {found : Option TenantSubscriptions} (hfound : ∀ s, found = some s → s = subs)
    (hneeds : ref.spec.platformScoped = false → row.gateNeedsSubscription = true → found ≠ none) :
    row.enabled (ref.subsOf found) = row.enabled (ref.subsOf (some subs)) := by
  unfold LedgerRef.subsOf
  cases hplat : ref.spec.platformScoped with
  | true => rfl
  | false =>
    cases found with
    | some s => rw [hfound s rfl]
    | none =>
      have hgate : row.gateNeedsSubscription ≠ true := fun h => hneeds hplat h rfl
      have hglobal : row.scope = .global := by
        unfold SettingsRow.gateNeedsSubscription at hgate
        split at hgate
        · rename_i hmon
          exact row.monScope hmon
        · cases hscope : row.scope with
          | global => rfl
          | institution => simp [hscope] at hgate
      simp [SettingsRow.enabled, hglobal]

theorem judge_op (cooldownS now : Int) (e : BandEvaluation ν) (row : SettingsRow ν)
    (subs : Option TenantSubscriptions) (st : LedgerState ν) :
    (judge cooldownS now e row subs st).map ActiveEvaluation.op =
      (judge cooldownS now e row none st).map ActiveEvaluation.op := by
  unfold judge
  dsimp only
  split <;> rfl

/-- Without a band nothing fires. -/
theorem decide_none_ne_fire (spec : NotificationSpec) (st : LedgerState ν) (now cooldownS : Int) :
    Ledger.decide spec none st now cooldownS ≠ .fire := by
  intro h
  unfold Ledger.decide at h
  dsimp only at h
  split at h
  · split at h <;> cases h
  · cases h

/-- A reached band is never a reset. -/
theorem decide_some_ne_reset (spec : NotificationSpec) (v : ν) (st : LedgerState ν)
    (now cooldownS : Int) : Ledger.decide spec (some v) st now cooldownS ≠ .reset := by
  intro h
  unfold Ledger.decide at h
  dsimp only at h
  split at h
  · cases h
  · split at h
    · cases h
    · split at h <;> cases h

theorem judge_judged {cooldownS now : Int} {e : BandEvaluation ν} {row : SettingsRow ν}
    {subs : Option TenantSubscriptions} {st : LedgerState ν} {a : ActiveEvaluation ν}
    (h : judge cooldownS now e row subs st = some a) : a.Judged := by
  unfold judge at h
  dsimp only at h
  split at h
  · rename_i hdec
    obtain rfl := Option.some.inj h
    show Ledger.decide _ _ _ _ _ = _
    cases hband : bandFor e.item.observed row.bands with
    | none =>
      rw [hband] at hdec
      exact hdec.resolve_left (decide_none_ne_fire _ _ _ _)
    | some b =>
      rw [hband] at hdec
      exact hdec.resolve_right (decide_some_ne_reset _ _ _ _ _)
  · cases h

/-- One candidate, over a read that agrees with the database. -/
theorem evaluate_op (call : Call ν) (db : Database ν) {read : CacheRead ν}
    {peek : String → Option TenantSubscriptions} {e : BandEvaluation ν}
    (hfound : ∀ s, (read.subscriptions e.ref.tenantId <|> peek e.ref.tenantId) = some s →
      s = db.subscriptions e.ref.tenantId)
    (hneeds : ∀ row, db.settings e.ref.name = some row → row.bands.isEmpty = false →
      e.ref.spec.platformScoped = false → row.gateNeedsSubscription = true →
      (read.subscriptions e.ref.tenantId <|> peek e.ref.tenantId) ≠ none) :
    (evaluate call.cooldownS call.now read db.settings peek e).toOption.map ActiveEvaluation.op =
      (read.ledger e.ref).bind (call.op? db e) := by
  unfold evaluate Call.op?
  cases hrow : db.settings e.ref.name with
  | none =>
    have hgate : db.gate e.ref = none := by
      unfold Database.gate
      rw [hrow]
      rfl
    rw [hgate]
    cases read.ledger e.ref <;> rfl
  | some row =>
    rw [gate_eq hrow]
    dsimp only
    cases hbands : row.bands.isEmpty with
    | true => cases read.ledger e.ref <;> rfl
    | false =>
      have hneeds' := hneeds row hrow hbands
      rw [enabled_eq hfound hneeds']
      have havailable : (!e.ref.spec.platformScoped &&
          (e.ref.subsOf (read.subscriptions e.ref.tenantId <|> peek e.ref.tenantId)).isNone &&
          row.gateNeedsSubscription) = false := by
        cases hplat : e.ref.spec.platformScoped with
        | true => rfl
        | false =>
          cases hgate : row.gateNeedsSubscription with
          | false => simp
          | true =>
            obtain ⟨s, hs⟩ := Option.ne_none_iff_exists'.mp (hneeds' hplat hgate)
            simp [LedgerRef.subsOf, hplat, hs]
      rw [havailable]
      simp only [Bool.false_eq_true, if_false, Bool.not_false, Bool.true_and]
      cases row.enabled (e.ref.subsOf (some (db.subscriptions e.ref.tenantId))) &&
          row.someoneAssigned with
      | false => cases read.ledger e.ref <;> rfl
      | true =>
        cases read.ledger e.ref with
        | none => rfl
        | some st =>
          have hj := judge_op call.cooldownS call.now e row
            (e.ref.subsOf (read.subscriptions e.ref.tenantId <|> peek e.ref.tenantId)) st
          simp only [if_true, Option.bind_some]
          rw [← hj]
          cases judge call.cooldownS call.now e row _ st <;> rfl

/-! ## Behind the gates -/

omit [LinearOrder ν] in
/-- With no failure the subscriptions of every FIRE are found. -/
theorem backfill_eq (call : Call ν) (db : Database ν) (c : Caches ν)
    (active : List (ActiveEvaluation ν)) :
    ∃ f : ActiveEvaluation ν → ActiveEvaluation ν,
      (∀ a, (f a).op = a.op ∧ ((f a).Judged ↔ a.Judged)) ∧
      ((call.io db c).backfill active).1 = active.map f := by
  let tenants := (active.filter ActiveEvaluation.lacksSubs).map fun a => a.ref.tenantId
  refine ⟨fun a => if a.lacksSubs then
    { a with subs := (c.read db tenants []).subscriptions a.ref.tenantId } else a, ?_, ?_⟩
  · intro a
    dsimp only
    split <;> exact ⟨rfl, Iff.rfl⟩
  · refine List.filter_eq_self.mpr fun b hb => ?_
    obtain ⟨a, ha, rfl⟩ := List.mem_map.mp hb
    cases hlacks : a.lacksSubs with
    | false => simp [hlacks]
    | true =>
      have htenant : a.ref.tenantId ∈ tenants :=
        List.mem_map.mpr ⟨a, List.mem_filter.mpr ⟨ha, hlacks⟩, rfl⟩
      have hfound : ((c.read db tenants []).subscriptions a.ref.tenantId).isNone = false := by
        simp only [Caches.read, if_pos htenant, Option.isNone_some]
      show (!(_ && _ && ((c.read db tenants []).subscriptions a.ref.tenantId).isNone)) = true
      rw [hfound, Bool.and_false, Bool.not_false]

omit [LinearOrder ν] in
theorem prepare_op (id : Nat) (groups : Dict (NotificationName × String) Nat)
    (active : List (ActiveEvaluation ν)) :
    (prepare id groups active).1.map ActiveEvaluation.op = active.map ActiveEvaluation.op := by
  induction active generalizing id groups with
  | nil => rfl
  | cons a rest ih =>
    rw [prepare]
    split <;> exact congrArg (List.cons _) (ih _ _)

omit [LinearOrder ν] in
/-- `prepare` gives every FIRE its event id. -/
theorem prepare_judged {active : List (ActiveEvaluation ν)} (h : ∀ a ∈ active, a.Judged) (id : Nat)
    (groups : Dict (NotificationName × String) Nat) :
    ∀ a ∈ (prepare id groups active).1, a.Judged ∧ (a.decision = .fire → a.eventId.isSome) := by
  induction active generalizing id groups with
  | nil => exact fun a ha => absurd ha List.not_mem_nil
  | cons a rest ih =>
    have hrest := ih fun b hb => h b (List.mem_cons_of_mem _ hb)
    have hjudged : a.Judged := h a List.mem_cons_self
    intro b hb
    rw [prepare] at hb
    split at hb
    · obtain rfl | hb := List.mem_cons.mp hb
      · exact ⟨hjudged, fun _ => rfl⟩
      · exact hrest _ _ b hb
    · rename_i hfire
      obtain rfl | hb := List.mem_cons.mp hb
      · exact ⟨hjudged, fun h' => absurd h' hfire⟩
      · exact hrest _ _ b hb

/-- The alerts of a batch are the claims that win, in its order of statements. -/
theorem alerts_eq (call : Call ν) (db : Database ν) (c : Caches ν) (items : List (BandItem ν))
    (hjudged : ∀ a ∈ ((call.io db c).active call.checks call.cooldownS items).1, a.Judged) :
    call.alerts db c items = wins call.cooldownS call.clock 0 db.ledger
      (((call.io db c).active call.checks call.cooldownS items).1.map ActiveEvaluation.op) := by
  have hprepared := prepare_judged hjudged call.freshId []
  rw [← prepare_op call.freshId []]
  exact claimLoop_wins call.cooldownS call.clock (fun a ha => (hprepared a ha).1)
    (fun a ha => (hprepared a ha).2) 0 db.ledger

/-! ## The candidates -/

/-- The evaluations the caches are read for. -/
def Call.candidates (call : Call ν) (db : Database ν) (c : Caches ν) (items : List (BandItem ν)) :
    List (BandEvaluation ν) :=
  ((call.io db c).candidates (call.evaluations items)).1

section Consistent

variable {db : Database ν} {c : Caches ν} {copy : LedgerState ν → LedgerState ν → Prop}
  (hc : c.Hold db copy)

include hc

omit [LinearOrder ν] in
theorem snapshot_eq : c.snapshot db = db.settings := by
  unfold Caches.snapshot
  cases h1 : c.l1.settings with
  | some s => exact hc.l1.settings s h1
  | none =>
    cases h2 : c.redis.settings with
    | some s => exact hc.redis.settings s h2
    | none => rfl

omit [LinearOrder ν] in
theorem subscriptions_eq {tenants : List String} {refs : List LedgerRef} {tenant : String}
    {s : TenantSubscriptions}
    (h : ((c.read db tenants refs).subscriptions tenant <|> c.l1.subscriptions tenant) = some s) :
    s = db.subscriptions tenant := by
  unfold Caches.read at h
  dsimp only at h
  cases h1 : c.l1.subscriptions tenant with
  | some s1 =>
    have hs1 := hc.l1.subscriptions tenant s1 h1
    rw [h1] at h
    split at h <;> exact Option.some.inj h ▸ hs1
  | none =>
    rw [h1] at h
    split at h
    · cases h2 : c.redis.subscriptions tenant with
      | some s2 =>
        rw [h2] at h
        exact Option.some.inj h ▸ hc.redis.subscriptions tenant s2 h2
      | none =>
        rw [h2] at h
        exact (Option.some.inj h).symm
    · cases h

omit [LinearOrder ν] in
/-- What the settings in L1 drop cannot fire. -/
theorem gate_of_dropped {ref : LedgerRef} (h : narrow db.settings c.l1.subscriptions ref = .dropped) :
    db.gate ref = none := by
  unfold narrow at h
  cases hrow : db.settings ref.name with
  | none =>
    unfold Database.gate
    rw [hrow]
    rfl
  | some row =>
    rw [hrow] at h
    dsimp only at h
    rw [gate_eq hrow]
    split at h
    · rename_i hbands
      rw [hbands]
      rfl
    · split at h
      · cases h
      · rename_i hsubs
        have hneeds : ref.spec.platformScoped = false → row.gateNeedsSubscription = true →
            c.l1.subscriptions ref.tenantId ≠ none := by
          intro hplat hgate hnone
          simp [hplat, hgate, hnone, LedgerRef.subsOf] at hsubs
        rw [enabled_eq (hc.l1.subscriptions ref.tenantId) hneeds] at h
        split at h
        · cases h
        · rename_i hgate
          rw [Bool.and_assoc, Bool.eq_false_iff.mpr hgate, Bool.and_false]
          rfl

omit [LinearOrder ν] hc in
/-- What L1 keeps has its subscriptions in L1 where the gate needs them. -/
theorem kept_spec {ref : LedgerRef} (h : narrow db.settings c.l1.subscriptions ref = .kept)
    {row : SettingsRow ν} (hrow : db.settings ref.name = some row)
    (hplat : ref.spec.platformScoped = false) (hgate : row.gateNeedsSubscription = true) :
    c.l1.subscriptions ref.tenantId ≠ none := by
  intro hnone
  unfold narrow at h
  rw [hrow] at h
  simp only [hplat, hgate, hnone, LedgerRef.subsOf, Bool.false_eq_true, if_false, Bool.not_false,
    Bool.and_self, Option.isNone_none, if_true] at h
  split at h <;> cases h

omit [LinearOrder ν] in
/-- The candidates: what they leave out cannot fire, and for those they hold the gate finds
the subscriptions it needs. -/
theorem candidates_spec (call : Call ν) (evaluations : List (BandEvaluation ν)) :
    ∃ keeps : BandEvaluation ν → Bool,
      ((call.io db c).candidates evaluations).1 = evaluations.filter keeps ∧
      (∀ e ∈ evaluations, keeps e = false → db.gate e.ref = none) ∧
      ∀ e ∈ evaluations, keeps e = true → ∀ row, db.settings e.ref.name = some row →
        e.ref.spec.platformScoped = false → row.gateNeedsSubscription = true →
        e.ref.tenantId ∈ ((call.io db c).candidates evaluations).2 ∨
          c.l1.subscriptions e.ref.tenantId ≠ none := by
  have hpeek : (call.io db c).peekSettings = c.l1.settings := rfl
  unfold BatchIo.candidates
  rw [hpeek]
  cases h1 : c.l1.settings with
  | none =>
    refine ⟨fun _ => true, (List.filter_eq_self.mpr fun _ _ => rfl).symm, ?_, ?_⟩
    · exact fun e _ h => nomatch h
    · intro e he _ row _ hplat _
      refine .inl (List.mem_map.mpr ⟨e, List.mem_filter.mpr ⟨he, ?_⟩, rfl⟩)
      rw [hplat]
      rfl
  | some snapshot =>
    obtain rfl := hc.l1.settings snapshot h1
    refine ⟨fun e => narrow db.settings c.l1.subscriptions e.ref ≠ .dropped, rfl, ?_, ?_⟩
    · intro e _ h
      exact gate_of_dropped hc (not_not.mp (of_decide_eq_false h))
    · intro e he hkeep row hrow hplat hgate
      cases hnarrow : narrow db.settings c.l1.subscriptions e.ref with
      | dropped => exact absurd hnarrow (of_decide_eq_true hkeep)
      | kept => exact .inr (kept_spec hnarrow hrow hplat hgate)
      | keptWithTenant =>
        exact .inl (List.mem_map.mpr
          ⟨e, List.mem_filter.mpr ⟨he, decide_eq_true hnarrow⟩, rfl⟩)

/-- The statements of a batch: what the database says of each valid item, by the ledger states
that the caches give. -/
def Call.ops (call : Call ν) (db : Database ν) (c : Caches ν) (items : List (BandItem ν)) :
    List (LedgerOp ν) :=
  (call.evaluations items).filterMap fun e =>
    (c.state db ((call.candidates db c items).map BandEvaluation.ref) e.ref).bind (call.op? db e)

omit hc in
theorem op?_of_gate (call : Call ν) {e : BandEvaluation ν} (h : db.gate e.ref = none)
    (st : Option (LedgerState ν)) : st.bind (call.op? db e) = none := by
  cases st with
  | none => rfl
  | some st =>
    show (db.gate e.ref).bind _ = none
    rw [h]
    rfl

theorem active_ops (call : Call ν) (items : List (BandItem ν)) :
    (∀ a ∈ ((call.io db c).active call.checks call.cooldownS items).1, a.Judged) ∧
    ((call.io db c).active call.checks call.cooldownS items).1.map ActiveEvaluation.op =
      call.ops db c items := by
  obtain ⟨keeps, hkeeps, hdropped, hneeds⟩ := candidates_spec hc call (call.evaluations items)
  have hops : call.ops db c items = (call.candidates db c items).filterMap fun e =>
      (c.state db ((call.candidates db c items).map BandEvaluation.ref) e.ref).bind
        (call.op? db e) := by
    unfold Call.ops
    rw [show call.candidates db c items = (call.evaluations items).filter keeps from hkeeps,
      List.filterMap_filter]
    refine List.filterMap_congr fun e he => ?_
    cases hkeep : keeps e with
    | true => rfl
    | false => exact op?_of_gate call (hdropped e he hkeep) _
  rw [hops]
  unfold BatchIo.active
  dsimp only
  split
  · rename_i hempty
    have hnil : call.candidates db c items = [] := List.isEmpty_iff.mp hempty
    rw [hnil]
    exact ⟨fun a ha => absurd ha List.not_mem_nil, rfl⟩
  · split
    · rename_i hsettings
      cases hsettings
    · rename_i settings hsettings
      obtain rfl : db.settings = settings :=
        (snapshot_eq hc).symm.trans (Option.some.inj hsettings)
      obtain ⟨f, hf, hfilled⟩ := backfill_eq call db c
        (((call.candidates db c items).map (evaluate call.cooldownS call.now
          (c.read db ((call.io db c).candidates (call.evaluations items)).2
            ((call.candidates db c items).map BandEvaluation.ref))
          db.settings c.l1.subscriptions)).filterMap Except.toOption)
      refine ⟨fun a ha => ?_, ?_⟩
      · obtain ⟨b, hb, rfl⟩ := List.mem_map.mp (hfilled ▸ ha)
        obtain ⟨r, hr, hok⟩ := List.mem_filterMap.mp hb
        obtain ⟨e, -, rfl⟩ := List.mem_map.mp hr
        cases heval : evaluate call.cooldownS call.now _ db.settings c.l1.subscriptions e with
        | error x =>
          rw [heval] at hok
          cases hok
        | ok a =>
          rw [heval] at hok
          cases hok
          obtain ⟨row, subs, st, hjudge⟩ := evaluate_eq_ok heval
          exact (hf _).2.mpr (judge_judged hjudge)
      · refine (congrArg (List.map ActiveEvaluation.op) hfilled).trans ?_
        rw [List.map_map, List.filterMap_map, List.map_filterMap]
        refine List.filterMap_congr fun e he => ?_
        have hmem : e ∈ (call.evaluations items).filter keeps := hkeeps ▸ he
        obtain ⟨hvalid, hkeep⟩ := List.mem_filter.mp hmem
        have hstate : (c.read db ((call.io db c).candidates (call.evaluations items)).2
            ((call.candidates db c items).map BandEvaluation.ref)).ledger e.ref =
            c.state db ((call.candidates db c items).map BandEvaluation.ref) e.ref :=
          if_pos (List.mem_map_of_mem he)
        rw [← hstate, ← evaluate_op call db (fun s hs => subscriptions_eq hc hs) ?_]
        · exact Option.map_congr fun a _ => (hf a).1
        · intro row hrow _ hplat hgate
          obtain hread | hpeek := hneeds e hvalid hkeep row hrow hplat hgate
          · simp [Caches.read, hread]
          · cases hl1 : c.l1.subscriptions e.ref.tenantId with
            | none => exact absurd hl1 hpeek
            | some s => cases (c.read db _ _).subscriptions e.ref.tenantId <;> simp

theorem alerts_ops (call : Call ν) (items : List (BandItem ν)) :
    call.alerts db c items =
      wins call.cooldownS call.clock 0 db.ledger (call.ops db c items) := by
  obtain ⟨hjudged, hops⟩ := active_ops hc call items
  rw [alerts_eq call db c items hjudged, hops]

end Consistent

/-! ## What is due -/

/-- An item that is due: its alert can fire, and by the stored ledger row it does. -/
def Call.Due (call : Call ν) (db : Database ν) (e : BandEvaluation ν) : Prop :=
  ∃ row, db.gate e.ref = some row ∧
    Ledger.decide e.ref.spec ((bandFor e.item.observed row.bands).map Band.value)
      (stateOf (db.ledger e.ref)) call.now call.cooldownS = .fire

/-- The claim that the stored row leads to. -/
def Call.claim? (call : Call ν) (db : Database ν) (e : BandEvaluation ν) :
    Option (LedgerRef × ν) :=
  (call.op? db e (stateOf (db.ledger e.ref))).bind LedgerOp.claim?

/-- A claim by a given state. -/
theorem op?_claim {call : Call ν} {db : Database ν} {e : BandEvaluation ν} {st : LedgerState ν}
    {p : LedgerRef × ν} :
    (call.op? db e st).bind LedgerOp.claim? = some p ↔
      ∃ row band, db.gate e.ref = some row ∧ bandFor e.item.observed row.bands = some band ∧
        Ledger.decide e.ref.spec (some band.value) st call.now call.cooldownS = .fire ∧
        p = (e.ref, band.value) := by
  unfold Call.op?
  cases hgate : db.gate e.ref with
  | none => simp
  | some row =>
    constructor
    · intro h
      obtain ⟨op, hop, hclaim⟩ := Option.bind_eq_some_iff.mp h
      obtain ⟨a, ha, rfl⟩ := Option.map_eq_some_iff.mp hop
      have hjudged : a.decision = if a.band.isSome then .fire else .reset := judge_judged ha
      unfold judge at ha
      dsimp only at ha
      split at ha
      · obtain rfl := Option.some.inj ha
        cases hband : bandFor e.item.observed row.bands with
        | none =>
          rw [hband] at hclaim
          cases hclaim
        | some band =>
          rw [hband] at hclaim hjudged
          exact ⟨row, band, rfl, hband, hjudged, (Option.some.inj hclaim).symm⟩
      · cases ha
    · rintro ⟨row', band, hrow, hband, hfire, rfl⟩
      obtain rfl := Option.some.inj hrow
      show ((judge _ _ e row none st).map ActiveEvaluation.op).bind LedgerOp.claim? = _
      unfold judge
      simp only [hband, Option.map_some, hfire, true_or, if_true]
      rfl

/-- A copy leads to the same claim: the moment bears on resets only. -/
theorem op?_copied {call : Call ν} {db : Database ν} {e : BandEvaluation ν}
    {st copy : LedgerState ν} (h : st.Copied copy) :
    (call.op? db e copy).bind LedgerOp.claim? = (call.op? db e st).bind LedgerOp.claim? := by
  have hsame : ∀ v, Ledger.decide e.ref.spec (some v) copy call.now call.cooldownS =
      Ledger.decide e.ref.spec (some v) st call.now call.cooldownS := by
    obtain rfl | rfl := h
    · exact fun v => rfl
    · exact fun v => rfl
  refine Option.ext fun p => ?_
  rw [op?_claim, op?_claim]
  simp only [hsame]

theorem due_iff {call : Call ν} {db : Database ν} {e : BandEvaluation ν} :
    call.Due db e ↔ call.claim? db e ≠ none := by
  constructor
  · rintro ⟨row, hgate, hfire⟩
    cases hband : bandFor e.item.observed row.bands with
    | none =>
      rw [hband] at hfire
      exact absurd hfire (decide_none_ne_fire _ _ _ _)
    | some band =>
      rw [hband] at hfire
      exact Option.ne_none_iff_exists'.mpr ⟨_, op?_claim.mpr ⟨row, band, hgate, hband, hfire, rfl⟩⟩
  · intro h
    obtain ⟨p, hp⟩ := Option.ne_none_iff_exists'.mp h
    obtain ⟨row, band, hgate, hband, hfire, -⟩ := op?_claim.mp hp
    refine ⟨row, hgate, ?_⟩
    rw [hband]
    exact hfire

/-- The stored row grants a claim that is due. -/
theorem claim?_grants {call : Call ν} {db : Database ν} {e : BandEvaluation ν} {p : LedgerRef × ν}
    (h : call.claim? db e = some p) : Grants (db.ledger p.1) p.2 := by
  obtain ⟨row, band, -, -, hfire, rfl⟩ := op?_claim.mp h
  intro now
  cases hrow : db.ledger e.ref with
  | none => rfl
  | some r =>
    rw [hrow] at hfire
    cases htrig : r.triggered with
    | false => simp [claimBand, htrig]
    | true =>
      obtain ⟨c, hc⟩ := Option.ne_none_iff_exists'.mp (db.banded e.ref r hrow)
      have hlt : c < band.value := by
        by_contra hle
        simp [Ledger.decide, stateOf, htrig, hc, hle] at hfire
      simp [claimBand, htrig, above, hc, hlt]

/-! ## Warm and cold -/

/-- The notification of an item has a catalog row. -/
def BandItem.catalogued (db : Database ν) (item : BandItem ν) : Bool :=
  (getSpec item.name).any fun spec => (db.settings spec.name).isSome

/-- A batch fires the same alerts over all caches that hold copies of the database, and the
items that are not in the catalog make no difference. -/
def Call.Agrees (call : Call ν) (db : Database ν) (copy : LedgerState ν → LedgerState ν → Prop)
    (items : List (BandItem ν)) : Prop :=
  ∀ c : Caches ν, c.Hold db copy →
    (∀ x, x ∈ call.alerts db c items ↔ x ∈ call.alerts db {} items) ∧
    ∀ x, x ∈ call.alerts db c items ↔ x ∈ call.alerts db c (items.filter (·.catalogued db))

/-- Every valid item is in the catalog. -/
def Call.Catalogued (call : Call ν) (db : Database ν) (items : List (BandItem ν)) : Prop :=
  ∀ e ∈ call.evaluations items, (db.settings e.ref.name).isSome

section Loads

variable {call : Call ν} {db : Database ν} {c : Caches ν}
  {copy : LedgerState ν → LedgerState ν → Prop} {items : List (BandItem ν)}

omit [LinearOrder ν] in
theorem state_of_loads {refs : List LedgerRef} (hl : c.loads db refs = true) (ref : LedgerRef) :
    ∃ st, c.state db refs ref = some st := by
  unfold Caches.state
  rw [hl]
  cases c.cachedLedger ref with
  | none => exact ⟨_, rfl⟩
  | some st => exact ⟨st, rfl⟩

omit [LinearOrder ν] in
theorem state_copy (hc : c.Hold db copy) (hrefl : ∀ st, copy st st) {refs : List LedgerRef}
    {ref : LedgerRef} {st : LedgerState ν} (h : c.state db refs ref = some st) :
    copy (stateOf (db.ledger ref)) st := by
  unfold Caches.state Caches.cachedLedger at h
  cases h1 : c.l1.ledger ref with
  | some st1 =>
    rw [h1] at h
    exact Option.some.inj h ▸ hc.l1.ledger ref st1 h1
  | none =>
    cases h2 : c.redis.ledger ref with
    | some st2 =>
      rw [h1, h2] at h
      exact Option.some.inj h ▸ hc.redis.ledger ref st2 h2
    | none =>
      rw [h1, h2] at h
      cases hl : c.loads db refs with
      | false =>
        rw [hl] at h
        cases h
      | true =>
        rw [hl] at h
        exact Option.some.inj h ▸ hrefl _

omit [LinearOrder ν] in
theorem loads_of_catalogued (hc : c.Hold db copy) {evaluations : List (BandEvaluation ν)}
    (h : ∀ e ∈ evaluations, (db.settings e.ref.name).isSome) :
    c.loads db (evaluations.map BandEvaluation.ref) = true := by
  unfold Caches.loads
  rw [snapshot_eq hc, List.all_eq_true]
  intro ref href
  obtain ⟨e, he, rfl⟩ := List.mem_map.mp (List.mem_of_mem_filter href)
  exact h e he

omit [LinearOrder ν] in
theorem candidates_subset (hc : c.Hold db copy) :
    call.candidates db c items ⊆ call.evaluations items := by
  obtain ⟨keeps, hkeeps, -, -⟩ := candidates_spec hc call (call.evaluations items)
  intro e he
  have hmem : e ∈ (call.evaluations items).filter keeps := hkeeps ▸ he
  exact List.mem_of_mem_filter hmem

omit [LinearOrder ν] in
theorem loads_candidates (hc : c.Hold db copy) (h : call.Catalogued db items) :
    c.loads db ((call.candidates db c items).map BandEvaluation.ref) = true :=
  loads_of_catalogued hc fun e he => h e (candidates_subset hc he)

/-- With every ledger row at hand, exact copies give the statements of the database. -/
theorem ops_exact (hc : c.Hold db Eq)
    (hl : c.loads db ((call.candidates db c items).map BandEvaluation.ref) = true) :
    call.ops db c items =
      (call.evaluations items).filterMap fun e => call.op? db e (stateOf (db.ledger e.ref)) := by
  refine List.filterMap_congr fun e _ => ?_
  obtain ⟨st, hst⟩ := state_of_loads hl e.ref
  rw [hst, ← state_copy hc (fun _ => rfl) hst]
  rfl

/-- Copies give the claims of the database, where a ledger row is at hand. -/
theorem ops_claims (hc : c.Hold db LedgerState.Copied) :
    (call.ops db c items).filterMap LedgerOp.claim? = (call.evaluations items).filterMap fun e =>
      (c.state db ((call.candidates db c items).map BandEvaluation.ref) e.ref).bind fun _ =>
        call.claim? db e := by
  unfold Call.ops
  rw [List.filterMap_filterMap]
  refine List.filterMap_congr fun e _ => ?_
  cases hst : c.state db ((call.candidates db c items).map BandEvaluation.ref) e.ref with
  | none => rfl
  | some st => exact op?_copied (state_copy hc (fun _ => .inl rfl) hst)

theorem ops_claims_of_loads (hc : c.Hold db LedgerState.Copied)
    (hl : c.loads db ((call.candidates db c items).map BandEvaluation.ref) = true) :
    (call.ops db c items).filterMap LedgerOp.claim? =
      (call.evaluations items).filterMap (call.claim? db) := by
  rw [ops_claims hc]
  refine List.filterMap_congr fun e _ => ?_
  obtain ⟨st, hst⟩ := state_of_loads hl e.ref
  rw [hst]
  rfl

theorem alerts_of_not_due (hc : c.Hold db LedgerState.Copied)
    (h : ∀ e ∈ call.evaluations items, ¬call.Due db e) : call.alerts db c items = [] := by
  rw [alerts_ops hc]
  refine wins_eq_nil _ _ ?_ _ _
  rw [ops_claims hc]
  refine List.filterMap_eq_nil_iff.mpr fun e he => ?_
  have hnone : call.claim? db e = none := not_not.mp (mt due_iff.mpr (h e he))
  rw [hnone]
  cases c.state db ((call.candidates db c items).map BandEvaluation.ref) e.ref <;> rfl

/-- Resets aside, the alerts are the claims that raise their row. -/
theorem alerts_raises (hc : c.Hold db LedgerState.Copied)
    (hl : c.loads db ((call.candidates db c items).map BandEvaluation.ref) = true)
    (hclock : ∀ i j, call.clock j - call.clock i < call.cooldownS * 1000000) :
    call.alerts db c items =
      raises (fun _ => none) ((call.evaluations items).filterMap (call.claim? db)) := by
  rw [alerts_ops hc, ← ops_claims_of_loads hc hl]
  refine wins_eq_raises hclock _ _ ⟨(fun _ _ h => nomatch h), fun p hp _ => ?_⟩
  rw [ops_claims_of_loads hc hl] at hp
  obtain ⟨e, -, he⟩ := List.mem_filterMap.mp hp
  exact claim?_grants he

theorem validate_eq_ok {t : TextChecks} {name tenantId : String} {subject valid : Subject}
    {expectState : Bool} {spec : NotificationSpec}
    (h : validate t name tenantId subject expectState = .ok (spec, valid)) :
    getSpec name = some spec := by
  unfold validate at h
  split at h
  · cases h
  · rename_i spec' hspec
    split at h
    · cases h
    · split at h
      · cases h
      · split at h
        · cases h
          exact hspec
        · cases h

omit [LinearOrder ν] in
/-- The ledger row of a valid item is of the item's notification. -/
theorem evaluation_name {t : TextChecks} {item : BandItem ν} {e : BandEvaluation ν}
    (h : item.evaluation t = .ok e) : ∃ spec, getSpec item.name = some spec ∧
      e.ref.name = spec.name := by
  unfold BandItem.evaluation at h
  dsimp only at h
  split at h
  · cases h
  · rename_i spec subject hvalid
    obtain rfl := Except.ok.inj h
    exact ⟨spec, validate_eq_ok hvalid, rfl⟩

omit [LinearOrder ν] in
theorem evaluations_filter :
    call.evaluations (items.filter (·.catalogued db)) =
      (call.evaluations items).filter fun e => (db.settings e.ref.name).isSome := by
  unfold Call.evaluations
  rw [List.filterMap_map, List.filterMap_map, List.filterMap_filter, List.filter_filterMap]
  refine List.filterMap_congr fun item _ => ?_
  cases heval : item.evaluation call.checks with
  | error f => simp [heval, Except.toOption]
  | ok e =>
    obtain ⟨spec, hspec, hname⟩ := evaluation_name heval
    have hcat : item.catalogued db = (db.settings e.ref.name).isSome := by
      unfold BandItem.catalogued
      rw [hspec, hname]
      rfl
    have hok : (Except.ok e : Except FailureRecord (BandEvaluation ν)).toOption = some e := rfl
    simp only [Function.comp_apply, heval, hcat, hok]
    exact (Option.filter_some
      (p := fun e : BandEvaluation ν => (db.settings e.ref.name).isSome)).symm

omit [LinearOrder ν] in
theorem evaluations_filter_of_catalogued (h : call.Catalogued db items) :
    call.evaluations (items.filter (·.catalogued db)) = call.evaluations items := by
  rw [evaluations_filter]
  exact List.filter_eq_self.mpr h

end Loads

omit [LinearOrder ν] in
theorem hold_empty (db : Database ν) (copy : LedgerState ν → LedgerState ν → Prop) :
    ({} : Caches ν).Hold db copy :=
  ⟨⟨fun _ h => (nomatch h), fun _ _ h => (nomatch h), fun _ _ h => (nomatch h)⟩,
    ⟨fun _ h => (nomatch h), fun _ _ h => (nomatch h), fun _ _ h => (nomatch h)⟩⟩

/-- L1 holds the settings, and nothing else is cached. -/
def warmSettings (db : Database ν) : Caches ν := { l1 := { settings := some db.settings } }

omit [LinearOrder ν] in
theorem hold_warmSettings (db : Database ν) (copy : LedgerState ν → LedgerState ν → Prop) :
    (warmSettings db).Hold db copy :=
  ⟨⟨fun _ h => (Option.some.inj h).symm, fun _ _ h => (nomatch h), fun _ _ h => (nomatch h)⟩,
    (hold_empty db copy).redis⟩

omit [LinearOrder ν] in
/-- Settings in L1 drop what is not in the catalog, so the ledger is read. -/
theorem loads_warmSettings (call : Call ν) (db : Database ν) (items : List (BandItem ν)) :
    (warmSettings db).loads db
      ((call.candidates db (warmSettings db) items).map BandEvaluation.ref) = true := by
  refine loads_of_catalogued (hold_warmSettings db Eq) fun e he => ?_
  have hkept : narrow db.settings (fun _ => none) e.ref ≠ .dropped :=
    of_decide_eq_true (List.mem_filter.mp he).2
  cases hrow : db.settings e.ref.name with
  | some row => rfl
  | none =>
    refine absurd ?_ hkept
    unfold narrow
    rw [hrow]

/-- Over empty caches one item outside the catalog keeps every alert of the batch from firing. -/
theorem alerts_cold {call : Call ν} {db : Database ν} {items : List (BandItem ν)}
    {e : BandEvaluation ν} (he : e ∈ call.evaluations items) (hrow : db.settings e.ref.name = none) :
    call.alerts db {} items = [] := by
  have hl : ({} : Caches ν).loads db ((call.candidates db {} items).map BandEvaluation.ref) =
      false := by
    refine List.all_eq_false.mpr ⟨e.ref, List.mem_filter.mpr ⟨List.mem_map_of_mem he, rfl⟩, ?_⟩
    rw [snapshot_eq (hold_empty db Eq), hrow]
    exact Bool.false_ne_true
  have hops : call.ops db {} items = [] := by
    refine List.filterMap_eq_nil_iff.mpr fun e' _ => ?_
    unfold Caches.state
    rw [hl]
    rfl
  rw [alerts_ops (hold_empty db Eq), hops]
  rfl

/-- Over warm settings a due item makes the batch fire. -/
theorem alerts_warm {call : Call ν} {db : Database ν} {items : List (BandItem ν)}
    {e : BandEvaluation ν} (he : e ∈ call.evaluations items) (hdue : call.Due db e) :
    call.alerts db (warmSettings db) items ≠ [] := by
  have hclaims := ops_claims_of_loads (hold_warmSettings db LedgerState.Copied)
    (loads_warmSettings call db items)
  rw [alerts_ops (hold_warmSettings db LedgerState.Copied)]
  obtain ⟨p, hp⟩ := Option.ne_none_iff_exists'.mp (due_iff.mp hdue)
  refine wins_ne_nil _ _ ?_ _ fun q hq => ?_
  · rw [hclaims]
    exact List.ne_nil_of_mem (List.mem_filterMap.mpr ⟨e, he, hp⟩)
  · rw [hclaims] at hq
    obtain ⟨e', -, he'⟩ := List.mem_filterMap.mp hq
    exact claim?_grants he'

/-- A batch that agrees over the caches is all in the catalog, or has nothing due. -/
theorem catalogued_of_agrees {call : Call ν} {db : Database ν} {items : List (BandItem ν)}
    {copy : LedgerState ν → LedgerState ν → Prop} (h : call.Agrees db copy items) :
    call.Catalogued db items ∨ ∀ e ∈ call.evaluations items, ¬call.Due db e := by
  by_contra hcon
  rw [not_or] at hcon
  obtain ⟨hcat, hdue⟩ := hcon
  unfold Call.Catalogued at hcat
  push Not at hcat hdue
  obtain ⟨e, he, hrow⟩ := hcat
  obtain ⟨e', he', hdue⟩ := hdue
  have hcold := alerts_cold he (Option.isNone_iff_eq_none.mp (by simpa using hrow))
  obtain ⟨x, hx⟩ := List.exists_mem_of_ne_nil _ (alerts_warm he' hdue)
  have hagree := ((h (warmSettings db) (hold_warmSettings db copy)).1 x).mp hx
  rw [hcold] at hagree
  exact List.not_mem_nil hagree

omit [LinearOrder ν] in
theorem Caches.Hold.copied {c : Caches ν} {db : Database ν} (h : c.Hold db Eq) :
    c.Hold db LedgerState.Copied :=
  ⟨{ h.l1 with ledger := fun ref st hst => .inl (h.l1.ledger ref st hst).symm },
    { h.redis with ledger := fun ref st hst => .inl (h.redis.ledger ref st hst).symm }⟩

/-- Nothing due, nothing fires, whatever else is in the batch. -/
theorem agrees_of_not_due {call : Call ν} {db : Database ν} {items : List (BandItem ν)}
    (h : ∀ e ∈ call.evaluations items, ¬call.Due db e) :
    call.Agrees db LedgerState.Copied items := by
  intro c hc
  have hrest : ∀ e ∈ call.evaluations (items.filter (·.catalogued db)), ¬call.Due db e := by
    intro e he
    rw [evaluations_filter] at he
    exact h e (List.mem_of_mem_filter he)
  rw [alerts_of_not_due hc h, alerts_of_not_due (hold_empty db _) h, alerts_of_not_due hc hrest]
  exact ⟨fun x => Iff.rfl, fun x => Iff.rfl⟩

/-- All in the catalog, the alerts depend on the valid items only. -/
theorem agrees_of_catalogued {call : Call ν} {db : Database ν} {items : List (BandItem ν)}
    {copy : LedgerState ν → LedgerState ν → Prop}
    (fires : List (BandEvaluation ν) → List (LedgerRef × ν))
    (hfires : ∀ c : Caches ν, c.Hold db copy → ∀ l, call.Catalogued db l →
      call.alerts db c l = fires (call.evaluations l))
    (hcat : call.Catalogued db items) : call.Agrees db copy items := by
  have hevals := evaluations_filter_of_catalogued hcat
  have hcat' : call.Catalogued db (items.filter (·.catalogued db)) := by
    unfold Call.Catalogued
    rwa [hevals]
  intro c hc
  rw [hfires c hc _ hcat, hfires {} (hold_empty db copy) _ hcat, hfires c hc _ hcat', hevals]
  exact ⟨fun x => Iff.rfl, fun x => Iff.rfl⟩

/-- **Warm and cold caches.** A batch fires the same alerts over all caches whose entries equal
the database, and items outside the catalog make no difference to the others, exactly when all
its notifications are in the catalog or nothing in it is due. The same holds over copies that
lost their microseconds in Redis, if the claims of the batch take less than the cooldown. -/
theorem warm_cold_agree (call : Call ν) (db : Database ν) (items : List (BandItem ν)) :
    (call.Agrees db Eq items ↔
      call.Catalogued db items ∨ ∀ e ∈ call.evaluations items, ¬call.Due db e) ∧
    ((∀ i j, call.clock j - call.clock i < call.cooldownS * 1000000) →
      (call.Agrees db LedgerState.Copied items ↔
        call.Catalogued db items ∨ ∀ e ∈ call.evaluations items, ¬call.Due db e)) := by
  refine ⟨⟨catalogued_of_agrees, ?_⟩, fun hclock => ⟨catalogued_of_agrees, ?_⟩⟩
  · rintro (hcat | hdue)
    · refine agrees_of_catalogued (fun evaluations =>
        wins call.cooldownS call.clock 0 db.ledger (evaluations.filterMap fun e =>
          call.op? db e (stateOf (db.ledger e.ref)))) (fun c hc l hl => ?_) hcat
      rw [alerts_ops hc, ops_exact hc (loads_candidates hc hl)]
    · exact fun c hc => agrees_of_not_due hdue c hc.copied
  · rintro (hcat | hdue)
    · refine agrees_of_catalogued (fun evaluations =>
        raises (fun _ => none) (evaluations.filterMap (call.claim? db))) (fun c hc l hl => ?_) hcat
      exact alerts_raises hc (loads_candidates hc hl) hclock
    · exact agrees_of_not_due hdue

end Alerts

/-- A catalog that holds QUOTA_THRESHOLD with a band at 80, and no BUDGET_THRESHOLD. -/
def quotaOnly : Database Nat where
  settings := fun name =>
    if name = .quotaThreshold then
      some { id := 7, name := .quotaThreshold, type := .alert, scope := .global,
             channels := ["EMAIL"], recipientRoles := [("TENANT ADMIN", true)],
             bands := [⟨80, .warning⟩], monScope := fun _ => rfl }
    else none
  subscriptions := fun _ => ⟨fun _ => none⟩
  ledger := fun _ => none
  banded := fun _ row h => absurd h.symm (Option.some_ne_none row)

def billedSpan : Call Nat where
  lookup := fun _ _ => none
  send := fun _ => true
  checks := ⟨fun _ => false, fun _ _ => true⟩
  now := 0
  clock := fun _ => 0
  cooldownS := 3600
  freshId := 0

def thresholdItem (name : String) (subject : Subject) : BandItem Nat where
  name := name
  tenantId := some "a"
  subject := subject
  observed := 85
  details := .values []
  fallbackDetails := []
  groupDetails := none

def quotaAt85 : BandItem Nat :=
  thresholdItem "QUOTA_THRESHOLD" [("billing_month", "2025-01"), ("model_task_type", "asr")]

def budgetAt85 : BandItem Nat :=
  thresholdItem "BUDGET_THRESHOLD" [("budget_ceiling", "100.00"), ("budget_window", "2025-01")]

/-- A billed span over both thresholds: with the settings in L1 the quota alert fires, with
empty caches the budget item keeps it from firing. -/
theorem uncatalogued_item_silences_batch :
    (billedSpan.alerts quotaOnly (warmSettings quotaOnly) [quotaAt85, budgetAt85]).length = 1 ∧
    billedSpan.alerts quotaOnly {} [quotaAt85, budgetAt85] = [] ∧
    ¬billedSpan.Agrees quotaOnly Eq [quotaAt85, budgetAt85] := by
  have hwarm : billedSpan.alerts quotaOnly (warmSettings quotaOnly) [quotaAt85, budgetAt85] =
      [(LedgerRef.of .quotaThreshold "a" [("billing_month", "2025-01"),
        ("model_task_type", "asr")], 80)] := by
    decide +kernel
  have hcold : billedSpan.alerts quotaOnly {} [quotaAt85, budgetAt85] = [] := by decide +kernel
  refine ⟨by rw [hwarm]; rfl, hcold, fun h => ?_⟩
  have hmem := ((h (warmSettings quotaOnly) (hold_warmSettings quotaOnly Eq)).1 _).mp
    (by rw [hwarm]; exact List.mem_cons_self)
  rw [hcold] at hmem
  exact List.not_mem_nil hmem

/-- The quota item alone agrees, also over copies that went through Redis. -/
theorem warm_cold_agree_quota :
    billedSpan.alerts quotaOnly {} [quotaAt85] ≠ [] ∧
    billedSpan.Agrees quotaOnly LedgerState.Copied [quotaAt85] := by
  refine ⟨by decide +kernel, ((warm_cold_agree billedSpan quotaOnly [quotaAt85]).2 ?_).mpr (.inl ?_)⟩
  · intro i j
    show (0 : Int) - 0 < 3600 * 1000000
    decide
  · intro e he
    have hall : ((billedSpan.evaluations [quotaAt85]).all fun e =>
        (quotaOnly.settings e.ref.name).isSome) = true := by decide +kernel
    exact List.all_eq_true.mp hall e he

end Ai4iCore.Kafka
