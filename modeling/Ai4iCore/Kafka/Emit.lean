import Ai4iCore.Base.Dict
import Ai4iCore.Kafka.Ledger
import Ai4iCore.Kafka.State
import Mathlib.Data.List.Sort

/-!
# The producer pipeline

`emit_state`, `emit_state_bulk` and `emit_band_batch` (pipeline.py), from the items they are
given to the events and failure rows they leave, with `_deliver` and the publisher's `send`
below them. The cache writes behind the claims of a batch are in `Pipeline`.

What a call gets from its surroundings is collected in `EmitIo` and `BatchIo`: what the
cache answers, which statements fail, who the recipients are and which sends succeed. The
functions are otherwise pure: an `Output` holds the events handed to Kafka and the failure
rows, in order, and the claims that were won.

An event id is a number, a fresh one for every `uuid4()`. `_check_value`, `str.strip` and the
loaders of the details are left open.
-/

namespace Ai4iCore.Kafka

universe u

variable {ν : Type u}

/-! ## Validation -/

/-- `NotificationName` by its value. -/
def NotificationName.value : NotificationName → String
  | .tierAssigned => "TIER_ASSIGNED"
  | .tierChanged => "TIER_CHANGED"
  | .budgetAssigned => "BUDGET_ASSIGNED"
  | .budgetUpdated => "BUDGET_UPDATED"
  | .quotaLimitUpdated => "QUOTA_LIMIT_UPDATED"
  | .quotaExhausted => "QUOTA_EXHAUSTED"
  | .budgetExhausted => "BUDGET_EXHAUSTED"
  | .quotaThreshold => "QUOTA_THRESHOLD"
  | .budgetThreshold => "BUDGET_THRESHOLD"
  | .errorRate4xx => "ERROR_RATE_4XX"
  | .errorRate5xx => "ERROR_RATE_5XX"
  | .latencyP50 => "LATENCY_P50"
  | .latencyP95 => "LATENCY_P95"
  | .latencyP99 => "LATENCY_P99"

def NotificationName.all : List NotificationName :=
  [.tierAssigned, .tierChanged, .budgetAssigned, .budgetUpdated, .quotaLimitUpdated,
    .quotaExhausted, .budgetExhausted, .quotaThreshold, .budgetThreshold, .errorRate4xx,
    .errorRate5xx, .latencyP50, .latencyP95, .latencyP99]

/-- Each notification is found by its value. -/
theorem NotificationName.find?_value (name : NotificationName) :
    NotificationName.all.find? (fun n => n.value = name.value) = some name := by
  cases name <;> decide

/-- `get_spec` (specs.py). -/
def getSpec (name : String) : Option NotificationSpec :=
  (NotificationName.all.find? fun n => n.value = name).map specs

def NotificationSpec.isState (spec : NotificationSpec) : Bool := spec.dedupRule = .state

/-- `SubjectKey` (constants.py). -/
inductive SubjectKey
  | modelTaskType | billingMonth | budgetCeiling | budgetWindow | serviceId
  deriving DecidableEq, Repr

def SubjectKey.value : SubjectKey → String
  | .modelTaskType => "model_task_type"
  | .billingMonth => "billing_month"
  | .budgetCeiling => "budget_ceiling"
  | .budgetWindow => "budget_window"
  | .serviceId => "service_id"

/-- `subject_keys` of each spec (specs.py). -/
def subjectKeys : NotificationName → List SubjectKey
  | .tierAssigned | .tierChanged | .budgetAssigned | .budgetUpdated => []
  | .quotaLimitUpdated => [.modelTaskType]
  | .quotaExhausted | .quotaThreshold => [.billingMonth, .modelTaskType]
  | .budgetExhausted | .budgetThreshold => [.budgetCeiling, .budgetWindow]
  | .errorRate4xx | .errorRate5xx | .latencyP50 | .latencyP95 | .latencyP99 => [.serviceId]

/-- The values of a subject by their keys. -/
abbrev Subject := Dict String String

/-- `not text.strip()`, and `_check_value` (keys.py). -/
structure TextChecks where
  blank : String → Bool
  check : SubjectKey → String → Bool

inductive FailureStage
  | validation | settings | subscription | ledger | details | recipients | publish
  deriving DecidableEq, Repr

inductive FailureCode
  | unknownNotification | invalidSubject | settingsUnavailable | subscriptionUnavailable
  | ledgerReadFailed | ledgerWriteFailed | detailsPartial | recipientsLookupFailed
  | noRecipients | kafkaSendFailed
  deriving DecidableEq, Repr

/-- What is passed to `failures.record`. -/
structure FailureRecord where
  stage : FailureStage
  code : FailureCode
  notificationName : String
  notificationId : Option Nat := none
  tenantId : Option String := none
  subject : Option Subject := none
  eventId : Option Nat := none
  stateHash : Option String := none
  deriving DecidableEq, Repr

/-- `validate_subject` (keys.py): exactly the keys of the type, each with a legal value. -/
def validateSubject (t : TextChecks) (name : NotificationName) (subject : Subject) :
    Option Subject :=
  let expected := (subjectKeys name).map SubjectKey.value
  if (subject.map Prod.fst).all (· ∈ expected) && expected.all (· ∈ subject.map Prod.fst) then
    (subjectKeys name).mapM fun key =>
      (subject.get? key.value).bind fun v => if t.check key v then some (key.value, v) else none
  else none

/-- `_validate` (pipeline.py). -/
def validate (t : TextChecks) (name tenantId : String) (subject : Subject) (expectState : Bool) :
    Except FailureRecord (NotificationSpec × Subject) :=
  match getSpec name with
  | none => .error ⟨.validation, .unknownNotification, name, none, tenantId, none, none, none⟩
  | some spec =>
    if spec.isState ≠ expectState then
      .error ⟨.validation, .unknownNotification, name, none, tenantId, none, none, none⟩
    else if t.blank tenantId then
      .error ⟨.validation, .invalidSubject, spec.name.value, none, tenantId, subject, none, none⟩
    else
      match validateSubject t spec.name subject with
      | some valid => .ok (spec, valid)
      | none =>
        .error ⟨.validation, .invalidSubject, spec.name.value, none, tenantId, subject, none, none⟩

/-! ## Settings and gates -/

inductive NotificationType
  | notification | alert | monitoring
  deriving DecidableEq, Repr

inductive NotificationScope
  | global | institution
  deriving DecidableEq, Repr

/-- `SettingsRow` (models.py): a catalog row with its active bands. The table's own check
keeps monitoring rows GLOBAL. -/
structure SettingsRow (ν : Type u) where
  id : Nat
  name : NotificationName
  type : NotificationType
  scope : NotificationScope
  channels : List String
  recipientRoles : Dict String Bool
  bands : List (Band ν)
  monScope : type = .monitoring → scope = .global

def SettingsRow.anyRoleEnabled (row : SettingsRow ν) : Bool := row.recipientRoles.any Prod.snd

def SettingsRow.enabledRoles (row : SettingsRow ν) : List String :=
  ((row.recipientRoles.filter Prod.snd).map Prod.fst).insertionSort (· ≤ ·)

/-- `SettingsSnapshot` (models.py). -/
abbrev SettingsSnapshot (ν : Type u) := NotificationName → Option (SettingsRow ν)

structure SubscriptionEntry where
  subscribed : Bool := false
  recipients : List String := []
  deriving DecidableEq, Repr

/-- `TenantSubscriptions` (models.py). -/
structure TenantSubscriptions where
  rows : NotificationName → Option SubscriptionEntry

def TenantSubscriptions.entry (subs : TenantSubscriptions) (name : NotificationName) :
    SubscriptionEntry := (subs.rows name).getD {}

/-- `_enabled`. -/
def SettingsRow.enabled (row : SettingsRow ν) (subs : Option TenantSubscriptions) : Bool :=
  row.scope = .global || subs.any fun s => (s.entry row.name).subscribed

/-- `_gate_needs_subscription`. -/
def SettingsRow.gateNeedsSubscription (row : SettingsRow ν) : Bool :=
  if row.type = .monitoring then false else row.scope = .institution

/-- `_someone_assigned`. -/
def SettingsRow.someoneAssigned (row : SettingsRow ν) : Bool :=
  if row.type = .monitoring then row.anyRoleEnabled else true

/-- `CacheRead` (cache.py). -/
structure CacheRead (ν : Type u) where
  settings : Option (SettingsSnapshot ν)
  subscriptions : String → Option TenantSubscriptions
  ledger : LedgerRef → Option (LedgerState ν)
  /-- `subscription_error is not None` -/
  subscriptionError : Bool

/-- `_settings_row`. -/
def settingsRow (read : CacheRead ν) (spec : NotificationSpec) (tenantId stateHash : Option String) :
    Except FailureRecord (SettingsRow ν) :=
  match read.settings with
  | none =>
    .error ⟨.settings, .settingsUnavailable, spec.name.value, none, tenantId, none, none, stateHash⟩
  | some snapshot =>
    match snapshot spec.name with
    | none =>
      .error ⟨.validation, .unknownNotification, spec.name.value, none, tenantId, none, none, none⟩
    | some row => .ok row

/-! ## Delivery -/

/-- A positional value of an email. -/
inductive Detail
  | text (s : String)
  | lines (l : List String)
  deriving DecidableEq, Repr

/-- Iterating over a value. -/
def Detail.elements : Detail → List String
  | .text s => s.toList.map Char.toString
  | .lines l => l

abbrev Details := List Detail

/-- `Recipient` (models.py). -/
structure Recipient where
  email : String
  name : String
  deriving DecidableEq, Repr

/-- `for_tenant` and `for_roles` (recipients.py), by what they ask for. -/
inductive RecipientQuery
  | tenant (tenantId : String) (recipientRoles : Dict String Bool) (extraUserIds : List String)
  | roles (roles : List String)

/-- `Envelope` (publisher.py). -/
structure Envelope (ν : Type u) where
  eventId : Nat
  eventName : NotificationName
  notificationType : NotificationType
  tenantId : String
  tenantName : Option String
  subject : Subject
  occurredAt : Int
  channels : List String
  severity : Severity
  details : Details
  recipients : List Recipient
  band : Option (Band ν)
  observed : Option ν
  subjects : List Subject
  stateHash : Option String

/-- The subjects of the failure rows of an event: its members, or its own. -/
def failureSubjects (subject : Subject) (subjects : List Subject) : List Subject :=
  if subjects.isEmpty then [subject] else subjects

/-- A claim that was won. -/
structure Won where
  eventId : Nat
  tenantId : String
  subject : Subject
  deriving DecidableEq, Repr

/-- The events handed to Kafka, the failure rows, and the claims won on the way. -/
structure Output (ν : Type u) where
  sent : List (Envelope ν) := []
  failures : List FailureRecord := []
  won : List Won := []

instance : Append (Output ν) :=
  ⟨fun a b => ⟨a.sent ++ b.sent, a.failures ++ b.failures, a.won ++ b.won⟩⟩

/-- One output after another. -/
def Output.concat (outputs : List (Output ν)) : Output ν := outputs.foldr (· ++ ·) {}

/-- Who receives an event, and whether Kafka takes it; a lookup that raises is `none`. -/
structure DeliveryIo (ν : Type u) where
  lookup : Nat → RecipientQuery → Option (List Recipient × Option String)
  send : Envelope ν → Bool

/-- `Publisher.send`. -/
def DeliveryIo.publish (io : DeliveryIo ν) (e : Envelope ν) (notificationId : Nat) : Output ν :=
  if io.send e then { sent := [e] }
  else
    { failures := (failureSubjects e.subject e.subjects).map fun subject =>
        ⟨.publish, .kafkaSendFailed, e.eventName.value, notificationId, e.tenantId, some subject,
          e.eventId, e.stateHash⟩ }

/-- The arguments of `_deliver`. -/
structure Delivery (ν : Type u) where
  tenantId : String
  subject : Subject
  eventId : Nat
  occurredAt : Int
  details : Details
  severity : Severity
  band : Option (Band ν) := none
  observed : Option ν := none
  extraUserIds : List String := []
  stateHash : Option String := none
  recipients : Option (List Recipient) := none
  tenantName : Option String := none
  subjects : List Subject := []

/-- The recipients of a delivery and its tenant name. -/
def DeliveryIo.resolve (io : DeliveryIo ν) (row : SettingsRow ν) (d : Delivery ν) :
    Option (List Recipient × Option String) :=
  match d.recipients with
  | some recipients => some (recipients, d.tenantName)
  | none =>
    if row.type = .monitoring then
      (io.lookup d.eventId (.roles row.enabledRoles)).map fun r => (r.1, d.tenantName)
    else
      (io.lookup d.eventId (.tenant d.tenantId row.recipientRoles d.extraUserIds)).map fun r =>
        (r.1, (d.tenantName.filter fun n => !n.isEmpty) <|> r.2)

/-- `record` of `_deliver`: one failure row per member. -/
def Delivery.record (d : Delivery ν) (row : SettingsRow ν) (code : FailureCode) : Output ν :=
  { failures := (failureSubjects d.subject d.subjects).map fun member =>
      ⟨.recipients, code, row.name.value, row.id, d.tenantId, some member, d.eventId,
        d.stateHash⟩ }

def Delivery.envelope (d : Delivery ν) (row : SettingsRow ν) (recipients : List Recipient)
    (tenantName : Option String) : Envelope ν where
  eventId := d.eventId
  eventName := row.name
  notificationType := row.type
  tenantId := d.tenantId
  tenantName := if row.type = .monitoring then none else tenantName
  subject := d.subject
  occurredAt := d.occurredAt
  channels := row.channels
  severity := d.severity
  details := d.details
  recipients := recipients
  band := d.band
  observed := d.observed
  subjects := d.subjects
  stateHash := d.stateHash

/-- `_deliver`. -/
def DeliveryIo.deliver (io : DeliveryIo ν) (row : SettingsRow ν) (d : Delivery ν) : Output ν :=
  match io.resolve row d with
  | none => d.record row .recipientsLookupFailed
  | some (recipients, tenantName) =>
    if recipients.isEmpty then d.record row .noRecipients
    else io.publish (d.envelope row recipients tenantName) row.id

/-- Where the details of an item come from; a loader that raises is `none`. -/
inductive DetailsSource
  | absent
  | values (details : Details)
  | loader (result : Option Details)

/-- `_details`. -/
def DetailsSource.load (source : DetailsSource) (fallback : Details) (failure : FailureRecord) :
    Details × List FailureRecord :=
  match source with
  | .absent => (fallback, [])
  | .values details => (details, [])
  | .loader (some details) => (details, [])
  | .loader none => (fallback, [failure])

/-! ## STATE -/

/-- What a call of `emit_state` or `emit_state_bulk` meets: the cache, the moment, the claiming
statement (its `now()`, or `none` when it raises), the ids of `uuid4()` and the recipients of
many tenants, with the platform administrators apart. -/
structure StateIo (ν : Type u) extends DeliveryIo ν where
  read : List String → CacheRead ν
  now : Int
  statement : Option Int
  freshId : Nat
  lookupMany : List String → Dict String Bool → Dict String (List String) →
    Option (Dict String (List Recipient) × List Recipient)

/-- The arguments of `emit_state`, with the hash of the new state. -/
structure StateEmit where
  name : String
  tenantId : String
  stateHash : String
  subject : Subject
  details : DetailsSource
  fallbackDetails : Details

/-- `emit_state`, behind the gates: the claim and the delivery. -/
def StateIo.claimAndDeliver (io : StateIo ν) (table : StateTable) (call : StateEmit)
    (row : SettingsRow ν) (subs : TenantSubscriptions) (subject : Subject) : Output ν :=
  let loaded := call.details.load call.fallbackDetails
    ⟨.details, .detailsPartial, row.name.value, row.id, call.tenantId, subject, none, none⟩
  { failures := loaded.2 } ++
    match io.statement with
    | none =>
      { failures := [⟨.ledger, .ledgerWriteFailed, row.name.value, row.id, call.tenantId, subject,
          none, call.stateHash⟩] }
    | some now =>
      if (claimState now row.id table ⟨call.tenantId, subject, call.stateHash, io.freshId⟩).2 then
        { won := [⟨io.freshId, call.tenantId, subject⟩] } ++
          io.deliver row
            { tenantId := call.tenantId
              subject := subject
              eventId := io.freshId
              occurredAt := io.now
              details := loaded.1
              severity := .info
              extraUserIds := (subs.entry row.name).recipients
              stateHash := call.stateHash }
      else {}

/-- `emit_state`. -/
def emitState (t : TextChecks) (io : StateIo ν) (table : StateTable) (call : StateEmit) :
    Output ν :=
  match validate t call.name call.tenantId call.subject true with
  | .error failure => { failures := [failure] }
  | .ok (spec, subject) =>
    let read := io.read [call.tenantId]
    match settingsRow read spec call.tenantId call.stateHash with
    | .error failure => { failures := [failure] }
    | .ok row =>
      match read.subscriptions call.tenantId with
      | none =>
        { failures := [⟨.subscription, .subscriptionUnavailable, spec.name.value, row.id,
            call.tenantId, subject, none, call.stateHash⟩] }
      | some subs =>
        if row.enabled subs && row.someoneAssigned then
          io.claimAndDeliver table call row subs subject
        else {}

/-- `StateItem` (pipeline.py), with the hash of the new state. -/
structure StateItem where
  tenantId : String
  subject : Subject
  stateHash : String
  details : Details
  tenantName : Option String

/-- The claims of a fan-out with their items, the ids in order. -/
def fanOutClaims (read : CacheRead ν) (row : SettingsRow ν) :
    Nat → List (StateItem × Subject) → List (StateClaim × StateItem)
  | _, [] => []
  | id, (item, subject) :: rest =>
    if row.enabled (read.subscriptions item.tenantId) && row.someoneAssigned then
      (⟨item.tenantId, subject, item.stateHash, id⟩, item) :: fanOutClaims read row (id + 1) rest
    else fanOutClaims read row id rest

/-- Tenant name and details of the administrators' copy of a fan-out; `none` when an item has
too few details. -/
def adminDetails (won : List (StateClaim × StateItem)) : Option (String × Details) := do
  let head ← won.head?
  let first ← head.2.details[0]?
  let last ← head.2.details[2]?
  let parts ← won.mapM fun p => p.2.details[1]?
  let institutions := Dict.fromKeys (won.map fun p =>
    (p.2.tenantName.filter fun n => !n.isEmpty).getD p.1.tenantId)
  let changes := Detail.lines (Dict.fromKeys (parts.flatMap Detail.elements))
  match institutions with
  | [institution] => some (institution, [first, changes, last])
  | _ => some ("multiple institutions", [first, changes, last, .lines institutions])

/-- The administrators' copy of a fan-out: one event that names every subject. -/
def adminCopy (won : List (StateClaim × StateItem)) (admins : List Recipient) (eventId : Nat)
    (now : Int) : Option (Delivery ν) :=
  (adminDetails won).map fun x =>
    { tenantId := "PLATFORM"
      subject := []
      eventId := eventId
      occurredAt := now
      details := x.2
      severity := .info
      recipients := some admins
      tenantName := some x.1
      subjects := (Dict.setAll [] (won.map fun p =>
        (p.1.subject.insertionSort (fun a b => a.1 ≤ b.1), p.1.subject))).map Prod.snd }

/-- `emit_state_bulk`, behind the bulk claim: one event per claim, then the administrators'. -/
def StateIo.deliverAll (io : StateIo ν) (row : SettingsRow ν) (read : CacheRead ν)
    (won : List (StateClaim × StateItem)) (adminId : Nat) : Output ν :=
  let tenants := Dict.fromKeys (won.map fun p => p.1.tenantId)
  let extras := tenants.filterMap fun tenant =>
    (read.subscriptions tenant).map fun s => (tenant, (s.entry row.name).recipients)
  match io.lookupMany tenants row.recipientRoles extras with
  | none =>
    { failures := won.map fun p =>
        ⟨.recipients, .recipientsLookupFailed, row.name.value, row.id, p.1.tenantId, p.1.subject,
          p.1.eventId, p.1.stateHash⟩ }
  | some (byTenant, admins) =>
    Output.concat (won.map fun p => io.deliver row
      { tenantId := p.1.tenantId
        subject := p.1.subject
        eventId := p.1.eventId
        occurredAt := io.now
        details := p.2.details
        severity := .info
        stateHash := p.1.stateHash
        recipients := some ((byTenant.get? p.1.tenantId).getD [])
        tenantName := p.2.tenantName }) ++
    if admins.isEmpty then {}
    else
      match adminCopy won admins adminId io.now with
      | some d => io.deliver row d
      | none => {}

/-- `emit_state_bulk`, behind the gates. -/
def StateIo.claimAll (io : StateIo ν) (table : StateTable) (row : SettingsRow ν)
    (read : CacheRead ν) (claims : List (StateClaim × StateItem)) : Output ν :=
  let failed : Output ν :=
    { failures := [⟨.ledger, .ledgerWriteFailed, row.name.value, row.id, none, none, none, none⟩] }
  match io.statement with
  | none => failed
  | some now =>
    match claimStateBulk now row.id table (claims.map Prod.fst) with
    | .error _ => failed
    | .ok (_, won) =>
      let byEvent : Dict Nat StateItem := claims.map fun p => (p.1.eventId, p.2)
      let items := won.filterMap fun c => (byEvent.get? c.eventId).map fun item => (c, item)
      { won := won.map fun c => ⟨c.eventId, c.tenantId, c.subject⟩ } ++
        if won.isEmpty then {} else io.deliverAll row read items (io.freshId + claims.length)

/-- `emit_state_bulk`. -/
def emitStateBulk (t : TextChecks) (io : StateIo ν) (table : StateTable) (name : String)
    (items : List StateItem) : Output ν :=
  match (getSpec name).filter NotificationSpec.isState with
  | none =>
    { failures := [⟨.validation, .unknownNotification, name, none, none, none, none, none⟩] }
  | some spec =>
    let checked := items.map fun item =>
      (item, validate t spec.name.value item.tenantId item.subject true)
    let valid := checked.filterMap fun c => c.2.toOption.map fun v => (c.1, v.2)
    { failures := checked.filterMap fun c => match c.2 with | .error f => some f | .ok _ => none } ++
      if valid.isEmpty then {}
      else
        let tenants := Dict.fromKeys (valid.map fun v => v.1.tenantId)
        let read := io.read tenants
        match settingsRow read spec none none with
        | .error failure => { failures := [failure] }
        | .ok row =>
          if read.subscriptionError && tenants.any fun x => (read.subscriptions x).isNone then
            { failures := [⟨.subscription, .subscriptionUnavailable, spec.name.value, row.id, none,
                none, none, none⟩] }
          else
            let claims := fanOutClaims read row io.freshId valid
            if claims.isEmpty then {} else io.claimAll table row read claims

/-! ## BAND -/

/-- `BandItem` (pipeline.py). A grouped item brings the merge of its group's details; a merge
that raises is `none`. -/
structure BandItem (ν : Type u) where
  name : String
  tenantId : Option String
  subject : Subject
  observed : ν
  details : DetailsSource
  fallbackDetails : Details
  groupDetails : Option (List Details → Option Details)

/-- `_Evaluation`, as far as validation fills it. -/
structure BandEvaluation (ν : Type u) where
  item : BandItem ν
  ref : LedgerRef

/-- `LedgerRef.of` (models.py). -/
def LedgerRef.of (name : NotificationName) (tenantId : String) (subject : Subject) : LedgerRef :=
  ⟨name, tenantId, subject.insertionSort fun a b => a.1 ≤ b.1⟩

/-- The first loop of `emit_band_batch`, for one item. -/
def BandItem.evaluation (t : TextChecks) (item : BandItem ν) :
    Except FailureRecord (BandEvaluation ν) :=
  let tenantId := match getSpec item.name with
    | some spec => if spec.platformScoped then "PLATFORM" else item.tenantId.getD ""
    | none => item.tenantId.getD ""
  match validate t item.name tenantId item.subject false with
  | .error failure => .error failure
  | .ok (spec, subject) => .ok ⟨item, LedgerRef.of spec.name tenantId subject⟩

/-- The subscriptions an evaluation looks at: a platform alert has none. -/
def LedgerRef.subsOf (ref : LedgerRef) (found : Option TenantSubscriptions) :
    Option TenantSubscriptions :=
  if ref.spec.platformScoped then none else found

/-- How the settings in L1 narrow one evaluation: dropped, kept, or kept with its tenant's
subscriptions to be read. -/
inductive Narrowed
  | dropped | kept | keptWithTenant
  deriving DecidableEq, Repr

def narrow (snapshot : SettingsSnapshot ν) (peek : String → Option TenantSubscriptions)
    (ref : LedgerRef) : Narrowed :=
  match snapshot ref.name with
  | none => .dropped
  | some row =>
    let subs := ref.subsOf (peek ref.tenantId)
    if row.bands.isEmpty then .dropped
    else if !ref.spec.platformScoped && row.gateNeedsSubscription && subs.isNone then
      .keptWithTenant
    else if row.enabled subs && row.someoneAssigned then .kept
    else .dropped

/-- What a call of `emit_band_batch` meets: L1 before and after the cache read, the two cache
reads, the moment, and the claiming session: whether it opens, and for each statement its
`now()`, or `none` when it raises. -/
structure BatchIo (ν : Type u) extends DeliveryIo ν where
  peekSettings : Option (SettingsSnapshot ν)
  peekSubscriptions : String → Option TenantSubscriptions
  read : List String → List LedgerRef → CacheRead ν
  peekAgain : String → Option TenantSubscriptions
  readAgain : List String → CacheRead ν
  now : Int
  sessionOpens : Bool
  statement : Nat → Option Int
  freshId : Nat

/-- The evaluations the cache is read for, and the tenants. -/
def BatchIo.candidates (io : BatchIo ν) (evaluations : List (BandEvaluation ν)) :
    List (BandEvaluation ν) × List String :=
  match io.peekSettings with
  | some snapshot =>
    let narrowed := fun e : BandEvaluation ν => narrow snapshot io.peekSubscriptions e.ref
    (evaluations.filter fun e => narrowed e ≠ .dropped,
      (evaluations.filter fun e => narrowed e = .keptWithTenant).map fun e => e.ref.tenantId)
  | none =>
    (evaluations,
      (evaluations.filter fun e => !e.ref.spec.platformScoped).map fun e => e.ref.tenantId)

/-- An evaluation that fires or resets. -/
structure ActiveEvaluation (ν : Type u) where
  item : BandItem ν
  ref : LedgerRef
  row : SettingsRow ν
  subs : Option TenantSubscriptions
  band : Option (Band ν)
  decision : Decision
  eventId : Option Nat := none
  details : Details := []

section Evaluate

variable [LinearOrder ν]

/-- The decision on an evaluation that passed the gates. -/
def judge (cooldownS now : Int) (e : BandEvaluation ν) (row : SettingsRow ν)
    (subs : Option TenantSubscriptions) (state : LedgerState ν) : Option (ActiveEvaluation ν) :=
  let band := bandFor e.item.observed row.bands
  let decision := Ledger.decide e.ref.spec (band.map Band.value) state now cooldownS
  if decision = .fire ∨ decision = .reset then
    some { item := e.item, ref := e.ref, row := row, subs := subs, band := band,
           decision := decision }
  else none

/-- The evaluation loop, for one candidate: dropped (with a failure row, or silently) or
active. -/
def evaluate (cooldownS now : Int) (read : CacheRead ν) (settings : SettingsSnapshot ν)
    (peek : String → Option TenantSubscriptions) (e : BandEvaluation ν) :
    Except (Option FailureRecord) (ActiveEvaluation ν) :=
  match settings e.ref.name with
  | none => .error none
  | some row =>
    let subs := e.ref.subsOf (read.subscriptions e.ref.tenantId <|> peek e.ref.tenantId)
    if row.bands.isEmpty then .error none
    else if !e.ref.spec.platformScoped && subs.isNone && row.gateNeedsSubscription then
      .error (some ⟨.subscription, .subscriptionUnavailable, e.ref.name.value, row.id,
        e.ref.tenantId, e.ref.subject, none, none⟩)
    else if row.enabled subs && row.someoneAssigned then
      match read.ledger e.ref with
      | none =>
        .error (some ⟨.ledger, .ledgerReadFailed, e.ref.name.value, row.id, e.ref.tenantId,
          e.ref.subject, none, none⟩)
      | some state =>
        match judge cooldownS now e row subs state with
        | some a => .ok a
        | none => .error none
    else .error none

/-- An active evaluation was judged by a settings row and a ledger state. -/
theorem evaluate_eq_ok {cooldownS now : Int} {read : CacheRead ν} {settings : SettingsSnapshot ν}
    {peek : String → Option TenantSubscriptions} {e : BandEvaluation ν} {a : ActiveEvaluation ν}
    (h : evaluate cooldownS now read settings peek e = .ok a) :
    ∃ row subs st, judge cooldownS now e row subs st = some a := by
  unfold evaluate at h
  split at h
  · cases h
  · rename_i row hrow
    dsimp only at h
    split at h
    · cases h
    · split at h
      · cases h
      · split at h
        · split at h
          · cases h
          · rename_i st hst
            split at h
            · rename_i b hjudge
              cases h
              exact ⟨row, _, st, hjudge⟩
            · cases h
        · cases h

end Evaluate

/-- A FIRE that still lacks its tenant's subscriptions. -/
def ActiveEvaluation.lacksSubs (a : ActiveEvaluation ν) : Bool :=
  a.decision = .fire && !a.ref.spec.platformScoped && a.subs.isNone

/-- The subscriptions of FIREs that did not need them for the gate, before the claims. -/
def BatchIo.backfill (io : BatchIo ν) (active : List (ActiveEvaluation ν)) :
    List (ActiveEvaluation ν) × List FailureRecord :=
  let missing := active.filter ActiveEvaluation.lacksSubs
  let read := io.readAgain (missing.map fun a => a.ref.tenantId)
  let filled := active.map fun a =>
    if a.lacksSubs then { a with subs := read.subscriptions a.ref.tenantId } else a
  (filled.filter fun a => !a.lacksSubs,
    (filled.filter fun a => a.lacksSubs).map fun a =>
      ⟨.subscription, .subscriptionUnavailable, a.ref.name.value, a.row.id, a.ref.tenantId,
        a.ref.subject, none, none⟩)

/-- The event id of a FIRE: a fresh one, or `group_event_ids.setdefault` of its group. -/
def giveId (grouped : Bool) (groups : Dict (NotificationName × String) Nat)
    (group : NotificationName × String) (id : Nat) : Nat × Dict (NotificationName × String) Nat :=
  if grouped then
    let eventId := (groups.get? group).getD id
    (eventId, groups.set group eventId)
  else (id, groups)

/-- Event ids and details of the FIREs. -/
def prepare : Nat → Dict (NotificationName × String) Nat → List (ActiveEvaluation ν) →
    List (ActiveEvaluation ν) × List FailureRecord
  | _, _, [] => ([], [])
  | id, groups, a :: rest =>
    if a.decision = .fire then
      let given := giveId a.item.groupDetails.isSome groups (a.ref.name, a.ref.tenantId) id
      let loaded := a.item.details.load a.item.fallbackDetails
        ⟨.details, .detailsPartial, a.ref.name.value, a.row.id, a.ref.tenantId, a.ref.subject,
          none, none⟩
      let later := prepare (id + 1) given.2 rest
      ({ a with eventId := some given.1, details := loaded.1 } :: later.1, loaded.2 ++ later.2)
    else
      let later := prepare id groups rest
      (a :: later.1, later.2)

/-- An evaluation whose claim was won. -/
structure FiredEvaluation (ν : Type u) where
  item : BandItem ν
  ref : LedgerRef
  row : SettingsRow ν
  subs : Option TenantSubscriptions
  band : Band ν
  eventId : Nat
  details : Details

/-- A statement that raised. -/
def ActiveEvaluation.writeFailed (a : ActiveEvaluation ν) : FailureRecord :=
  ⟨.ledger, .ledgerWriteFailed, a.ref.name.value, a.row.id, a.ref.tenantId, a.ref.subject, none,
    none⟩

section Claims

variable [LinearOrder ν]

/-- The claim loop: `n` counts the statements. A FIRE without a band raises before its
statement. -/
def claimLoop (cooldownS : Int) (statement : Nat → Option Int) :
    Nat → (LedgerRef → Option (Row ν)) → List (ActiveEvaluation ν) →
    List (FiredEvaluation ν) × List FailureRecord
  | _, _, [] => ([], [])
  | n, table, a :: rest =>
    if a.decision = .fire then
      match a.band, a.eventId, statement n with
      | some band, some eventId, some now =>
        match claimBand (table a.ref) band.value now with
        | some row =>
          let later := claimLoop cooldownS statement (n + 1)
            (Function.update table a.ref (some row)) rest
          (⟨a.item, a.ref, a.row, a.subs, band, eventId, a.details⟩ :: later.1, later.2)
        | none => claimLoop cooldownS statement (n + 1) table rest
      | _, _, _ =>
        let later := claimLoop cooldownS statement (n + 1) table rest
        (later.1, a.writeFailed :: later.2)
    else
      match statement n with
      | some now =>
        match resetBand (table a.ref) cooldownS now with
        | some row =>
          claimLoop cooldownS statement (n + 1) (Function.update table a.ref (some row)) rest
        | none => claimLoop cooldownS statement (n + 1) table rest
      | none =>
        let later := claimLoop cooldownS statement (n + 1) table rest
        (later.1, a.writeFailed :: later.2)

/-- The fired evaluations by event id, in order. -/
def groupByEvent (fired : List (FiredEvaluation ν)) : Dict Nat (List (FiredEvaluation ν)) :=
  fired.foldl (fun groups m =>
    groups.set m.eventId ((groups.get? m.eventId).getD [] ++ [m])) []

/-- `max(members, key=band)`: the first of the highest. -/
def maxMember : FiredEvaluation ν → List (FiredEvaluation ν) → FiredEvaluation ν
  | best, [] => best
  | best, m :: ms => if best.band.value < m.band.value then maxMember m ms else maxMember best ms

/-- `_group_details`. -/
def groupDetails (head : FiredEvaluation ν) (members : List (FiredEvaluation ν)) :
    Details × List FailureRecord :=
  match head.item.groupDetails.bind fun merge => merge (members.map FiredEvaluation.details) with
  | some details => (details, [])
  | none =>
    (head.details, members.map fun m =>
      ⟨.details, .detailsPartial, head.ref.name.value, head.row.id, head.ref.tenantId,
        m.ref.subject, head.eventId, none⟩)

/-- The arguments of `_deliver` for a fired evaluation, or for the head of a group. -/
def FiredEvaluation.delivery (e : FiredEvaluation ν) (now : Int) (subject : Subject)
    (details : Details) (subjects : List Subject) : Delivery ν where
  tenantId := e.ref.tenantId
  subject := subject
  eventId := e.eventId
  occurredAt := now
  details := details
  severity := e.band.severity
  band := some e.band
  observed := some e.item.observed
  extraUserIds := match e.subs with
    | some subs => (subs.entry e.ref.name).recipients
    | none => []
  subjects := subjects

/-- One event: a fired evaluation on its own, or a group under its highest band. -/
def BatchIo.deliverGroup (io : BatchIo ν) : List (FiredEvaluation ν) → Output ν
  | [] => {}
  | [m] => io.deliver m.row (m.delivery io.now m.ref.subject m.details [])
  | m :: ms =>
    let head := maxMember m ms
    let details := groupDetails head (m :: ms)
    { failures := details.2 } ++
      io.deliver head.row (head.delivery io.now [] details.1 ((m :: ms).map fun x => x.ref.subject))

/-- The evaluations of a batch that are claimed, behind all reads and gates. -/
def BatchIo.active (t : TextChecks) (io : BatchIo ν) (cooldownS : Int)
    (items : List (BandItem ν)) : List (ActiveEvaluation ν) × List FailureRecord :=
  let checked := items.map fun item => item.evaluation t
  let evaluations := checked.filterMap Except.toOption
  let invalid := checked.filterMap fun c => match c with | .error f => some f | .ok _ => none
  let candidates := io.candidates evaluations
  let read := io.read candidates.2 (candidates.1.map BandEvaluation.ref)
  if candidates.1.isEmpty then ([], invalid)
  else
    match read.settings with
    | none =>
      ([], invalid ++ (Dict.fromKeys (candidates.1.map fun e => e.ref.name)).map fun name =>
        ⟨.settings, .settingsUnavailable, name.value, none, none, none, none, none⟩)
    | some settings =>
      let results := candidates.1.map (evaluate cooldownS io.now read settings io.peekAgain)
      let dropped := results.filterMap fun r => match r with | .error f => f | .ok _ => none
      let filled := io.backfill (results.filterMap Except.toOption)
      (filled.1, invalid ++ dropped ++ filled.2)

/-- The claims of a batch that are won. -/
def BatchIo.fired (io : BatchIo ν) (cooldownS : Int) (table : LedgerRef → Option (Row ν))
    (active : List (ActiveEvaluation ν)) : List (FiredEvaluation ν) × List FailureRecord :=
  if io.sessionOpens then claimLoop cooldownS io.statement 0 table active
  else ([], active.map ActiveEvaluation.writeFailed)

/-- `emit_band_batch`. -/
def emitBandBatch (t : TextChecks) (io : BatchIo ν) (cooldownS : Int)
    (table : LedgerRef → Option (Row ν)) (items : List (BandItem ν)) : Output ν :=
  let active := io.active t cooldownS items
  let prepared := prepare io.freshId [] active.1
  let fired := io.fired cooldownS table prepared.1
  { failures := active.2 ++ prepared.2 ++ fired.2
    won := fired.1.map fun m => ⟨m.eventId, m.ref.tenantId, m.ref.subject⟩ } ++
  Output.concat ((groupByEvent fired.1).map fun g => io.deliverGroup g.2)

end Claims

end Ai4iCore.Kafka
