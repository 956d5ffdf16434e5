import Ai4iCore.Base.Dict
import Ai4iCore.Base.JsonText
import Mathlib

/-!
# The failure log

`FailureLogger` (failure_log.py): `record` writes one row of `notification_alert_failure_log` for a
failure. Without an event id the rows of a key are throttled to one in a window, and the failures
that were skipped are counted and reported on the next row (`_admit`).

The count is set back before the row is built, and building it can fail: `canonical_json` raises for
what JSON has no form for, such as a subject with a `Decimal` that was just refused for it. Then the
failure and all that were skipped before it are in no row. This is the only way to lose any
(`count_kept_iff`), whatever the clock shows and whatever the windows are.

A row counts as handed to the insert once it is built; whether the insert succeeds is not asked.
-/

namespace Ai4iCore.Kafka.FailureLog

abbrev Text := List Char

/-! ## Values and their canonical JSON -/

/-- A Python value as `json.dumps` sees it. -/
inductive PyValue
  | null
  | bool (b : Bool)
  | int (n : Int)
  /-- by its `repr` -/
  | float (repr : Text)
  | str (s : Text)
  | list (items : List PyValue)
  | dict (fields : List (Text × PyValue))
  /-- an object of a class that is not serializable -/
  | other (typeName : Text)

/-- The parts with commas between them. -/
def joined : List Text → Text
  | [] => []
  | [part] => part
  | part :: rest => part ++ ',' :: joined rest

mutual

/-- `canonical_json`, where `json.dumps` does not raise. -/
def canonicalJson : PyValue → Option Text
  | .null => some "null".toList
  | .bool b => some (if b then "true".toList else "false".toList)
  | .int n => some (toString n).toList
  | .float repr => some repr
  | .str s => some (Json.quote s)
  | .list items => (canonicalItems items).map fun texts => '[' :: joined texts ++ [']']
  | .dict fields =>
    (canonicalFields fields).map fun texts =>
      let sorted := texts.insertionSort fun a b => a.1 ≤ b.1
      '\x7b' :: joined (sorted.map fun f => Json.quote f.1 ++ ':' :: f.2) ++ ['\x7d']
  | .other _ => none

def canonicalItems : List PyValue → Option (List Text)
  | [] => some []
  | v :: items => do
    let text ← canonicalJson v
    let texts ← canonicalItems items
    return text :: texts

def canonicalFields : List (Text × PyValue) → Option (List (Text × Text))
  | [] => some []
  | (key, v) :: fields => do
    let text ← canonicalJson v
    let texts ← canonicalFields fields
    return (key, text) :: texts

end

/-! ## Calls and rows -/

inductive Producer
  | authService | platformCoreService | payperuseConsumer | monitoringEvaluator
  | notificationsConsumer
deriving DecidableEq, Repr

inductive FailureStage
  | validation | settings | subscription | source | ledger | details | recipients | publish | cache
  | delivery
deriving DecidableEq, Repr

inductive FailureCode
  | unknownNotification | invalidSubject | settingsUnavailable | subscriptionUnavailable
  | tenantLookupFailed | prometheusUnreachable | prometheusTimeout | prometheusBadResponse
  | ledgerReadFailed | ledgerWriteFailed | detailsPartial | recipientsLookupFailed | noRecipients
  | kafkaSendFailed | cacheReadFailed | cacheWriteFailed | invalidationPublishFailed
  | invalidEnvelope | noSupportedChannel | emailSendFailed
deriving DecidableEq, Repr

def FailureCode.value : FailureCode → Text
  | .unknownNotification => "UNKNOWN_NOTIFICATION".toList
  | .invalidSubject => "INVALID_SUBJECT".toList
  | .settingsUnavailable => "SETTINGS_UNAVAILABLE".toList
  | .subscriptionUnavailable => "SUBSCRIPTION_UNAVAILABLE".toList
  | .tenantLookupFailed => "TENANT_LOOKUP_FAILED".toList
  | .prometheusUnreachable => "PROMETHEUS_UNREACHABLE".toList
  | .prometheusTimeout => "PROMETHEUS_TIMEOUT".toList
  | .prometheusBadResponse => "PROMETHEUS_BAD_RESPONSE".toList
  | .ledgerReadFailed => "LEDGER_READ_FAILED".toList
  | .ledgerWriteFailed => "LEDGER_WRITE_FAILED".toList
  | .detailsPartial => "DETAILS_PARTIAL".toList
  | .recipientsLookupFailed => "RECIPIENTS_LOOKUP_FAILED".toList
  | .noRecipients => "NO_RECIPIENTS".toList
  | .kafkaSendFailed => "KAFKA_SEND_FAILED".toList
  | .cacheReadFailed => "CACHE_READ_FAILED".toList
  | .cacheWriteFailed => "CACHE_WRITE_FAILED".toList
  | .invalidationPublishFailed => "INVALIDATION_PUBLISH_FAILED".toList
  | .invalidEnvelope => "INVALID_ENVELOPE".toList
  | .noSupportedChannel => "NO_SUPPORTED_CHANNEL".toList
  | .emailSendFailed => "EMAIL_SEND_FAILED".toList

/-- An exception: `_qualified_name` of its class, and its `str` where this does not raise. -/
structure Raised where
  qualifiedName : Text
  text : Option Text

/-- The fields of a mapping. -/
abbrev Fields := List (Text × PyValue)

/-- The arguments of `record`, with what it finds around it. -/
structure Call where
  stage : FailureStage
  code : FailureCode
  notificationName : Text
  operation : Text
  error : Option Raised := none
  message : Option Text := none
  notificationId : Option Int := none
  tenantId : Option Text := none
  subject : Option Fields := none
  eventId : Option Nat := none
  redisKey : Option Text := none
  kafkaTopic : Option Text := none
  observed : Option Fields := none
  band : Option Fields := none
  stateHash : Option Text := none
  throttleS : Option Int := none
  /-- `_producer_override` -/
  producerOverride : Option Producer := none
  /-- `_trace_id()` -/
  traceId : Option Text := none
  /-- the clock -/
  now : ℚ

/-- What a logger is made with. -/
structure Config where
  producer : Producer
  podName : Option Text
  throttleS : Int

/-- The throttle key. -/
structure Key where
  producer : Producer
  stage : FailureStage
  code : FailureCode
  name : Text
  tenantId : Text
deriving DecidableEq

/-- `detail`. -/
structure Detail where
  exception : Text
  message : Text
  operation : Text
  redisKey : Option Text
  kafkaTopic : Option Text
  observed : Option Fields
  band : Option Fields
  stateHash : Option Text
  suppressed : Nat
  traceId : Option Text

/-- `params` of the insert, and the detail that `error_detail` is the text of. -/
structure Row where
  eventId : Option Nat
  notificationName : Text
  notificationId : Option Int
  tenantId : Option Text
  subject : Option Text
  producer : Producer
  podName : Option Text
  stage : FailureStage
  errorCode : FailureCode
  errorMessage : Text
  errorDetail : Text
  detail : Detail

/-- `ERROR_MESSAGE_MAX_CHARS`. -/
def errorMessageMaxChars : Nat := 2000

def optional {α : Type} (f : α → PyValue) : Option α → PyValue
  | none => .null
  | some a => f a

def Detail.toPy (d : Detail) : PyValue :=
  .dict
    [("exception".toList, .str d.exception), ("message".toList, .str d.message),
      ("operation".toList, .str d.operation), ("redis_key".toList, optional .str d.redisKey),
      ("kafka_topic".toList, optional .str d.kafkaTopic),
      ("observed".toList, optional .dict d.observed), ("band".toList, optional .dict d.band),
      ("state_hash".toList, optional .str d.stateHash),
      ("suppressed".toList, .int d.suppressed), ("trace_id".toList, optional .str d.traceId)]

section

variable (cfg : Config) (c : Call)

def Call.producer : Producer := c.producerOverride.getD cfg.producer

def Call.key : Key :=
  ⟨c.producer cfg, c.stage, c.code, c.notificationName, c.tenantId.getD []⟩

/-- `text_message`, before it is cut. -/
def Call.text : Option Text :=
  match c.message with
  | some message => some message
  | none =>
    match c.error with
    | some error => error.text
    | none => some c.code.value

/-- The text of a subject. -/
def subjectText : Option Fields → Option (Option Text)
  | none => some none
  | some fields => (canonicalJson (.dict fields)).map some

def Call.detail (message : Text) (suppressed : Nat) : Detail where
  exception := match c.error with | some error => error.qualifiedName | none => c.code.value
  message := message
  operation := c.operation
  redisKey := c.redisKey
  kafkaTopic := c.kafkaTopic
  observed := c.observed
  band := c.band
  stateHash := c.stateHash
  suppressed := suppressed
  traceId := c.traceId

/-- The row of a call, where building it does not raise. -/
def buildRow (suppressed : Nat) : Option Row := do
  let text ← c.text
  let message := text.take errorMessageMaxChars
  let detail := c.detail message suppressed
  let subject ← subjectText c.subject
  let errorDetail ← canonicalJson detail.toPy
  return { eventId := c.eventId
           notificationName := c.notificationName
           notificationId := c.notificationId
           tenantId := c.tenantId
           subject := subject
           producer := c.producer cfg
           podName := cfg.podName
           stage := c.stage
           errorCode := c.code
           errorMessage := message
           errorDetail := errorDetail
           detail := detail }

end

/-! ## The logger -/

/-- `_throttle`: when a row of the key was last written, and what was suppressed since. -/
abbrev Throttle := Dict Key (ℚ × Nat)

/-- `_admit`: the count to report, or nothing where the failure is suppressed. -/
def admitted (throttle : Throttle) (key : Key) (windowS : Int) (now : ℚ) :
    Throttle × Option Nat :=
  match throttle.get? key with
  | some (last, count) =>
    if now - last < windowS then (throttle.set key (last, count + 1), none)
    else (throttle.set key (now, 0), some count)
  | none => (throttle.set key (now, 0), some 0)

/-- `record`: the throttle after it, and the row that is handed to the insert. -/
def record (cfg : Config) (throttle : Throttle) (c : Call) : Throttle × Option Row :=
  match c.eventId with
  | some _ => (throttle, buildRow cfg c 0)
  | none =>
    match admitted throttle (c.key cfg) (c.throttleS.getD cfg.throttleS) c.now with
    | (throttle', none) => (throttle', none)
    | (throttle', some suppressed) => (throttle', buildRow cfg c suppressed)

structure Logger where
  throttle : Throttle
  /-- what was handed to the insert -/
  rows : List Row

def Logger.record (cfg : Config) (log : Logger) (c : Call) : Logger :=
  let r := FailureLog.record cfg log.throttle c
  ⟨r.1, log.rows ++ r.2.toList⟩

/-- A new logger after some calls. -/
def recordAll (cfg : Config) (calls : List Call) : Logger :=
  calls.foldl (Logger.record cfg) ⟨[], []⟩

/-! ## What is counted -/

section

variable (cfg : Config)

/-- The calls of a key. -/
def called (calls : List Call) (key : Key) : Nat :=
  (calls.filter fun c => c.eventId = none ∧ c.key cfg = key).length

def Row.key (row : Row) : Key :=
  ⟨row.producer, row.stage, row.errorCode, row.notificationName, row.tenantId.getD []⟩

/-- The rows of a key. -/
def Logger.rowsOf (log : Logger) (key : Key) : List Row :=
  log.rows.filter fun row => row.eventId = none ∧ row.key = key

/-- The suppressed calls of a key that no row reports yet. -/
def Throttle.pending (throttle : Throttle) (key : Key) : Nat :=
  ((throttle.get? key).map Prod.snd).getD 0

/-- The calls of a key that a row or the pending count stands for. -/
def Logger.accounted (log : Logger) (key : Key) : Nat :=
  (log.rowsOf key).length + ((log.rowsOf key).map (·.detail.suppressed)).sum +
    log.throttle.pending key

/-- At every moment of the calls. -/
structure KeepsCount (calls : List Call) : Prop where
  counted : ∀ before, before <+: calls → ∀ key,
    called cfg before key = (recordAll cfg before).accounted key
  written : ∀ before c, before ++ [c] <+: calls → c.eventId.isSome = true →
    (∃ row, row.eventId = c.eventId ∧
      (recordAll cfg (before ++ [c])).rows = (recordAll cfg before).rows ++ [row]) ∧
    (recordAll cfg (before ++ [c])).throttle = (recordAll cfg before).throttle

/-- The call is skipped. -/
def suppresses (throttle : Throttle) (c : Call) : Bool :=
  c.eventId.isNone && (throttle.get? (c.key cfg)).any fun entry =>
    c.now - entry.1 < c.throttleS.getD cfg.throttleS

/-- The message has a text, and the fields have a canonical JSON. -/
def Call.writable (c : Call) : Bool :=
  c.text.isSome && (subjectText c.subject).isSome &&
    (canonicalJson (optional .dict c.observed)).isSome &&
    (canonicalJson (optional .dict c.band)).isSome

end

/-! ## Rows -/

theorem buildRow_spec {cfg : Config} {c : Call} {n : Nat} {row : Row}
    (h : buildRow cfg c n = some row) :
    row.eventId = c.eventId ∧ row.key = c.key cfg ∧ row.detail.suppressed = n := by
  obtain ⟨text, -, h⟩ := Option.bind_eq_some_iff.mp h
  obtain ⟨subject, -, h⟩ := Option.bind_eq_some_iff.mp h
  obtain ⟨errorDetail, -, h⟩ := Option.bind_eq_some_iff.mp h
  obtain rfl := Option.some.inj h
  exact ⟨rfl, rfl, rfl⟩

theorem canonicalJson_optional_str (text : Option Text) :
    (canonicalJson (optional .str text)).isSome = true := by
  cases text <;> rw [optional, canonicalJson] <;> rfl

/-- A detail has a text where what was observed and the band have one. -/
theorem isSome_canonicalJson_detail (d : Detail) :
    (canonicalJson d.toPy).isSome = ((canonicalJson (optional .dict d.observed)).isSome &&
      (canonicalJson (optional .dict d.band)).isSome) := by
  obtain ⟨r, hr⟩ := Option.isSome_iff_exists.mp (canonicalJson_optional_str d.redisKey)
  obtain ⟨t, ht⟩ := Option.isSome_iff_exists.mp (canonicalJson_optional_str d.kafkaTopic)
  obtain ⟨h, hh⟩ := Option.isSome_iff_exists.mp (canonicalJson_optional_str d.stateHash)
  obtain ⟨i, hi⟩ := Option.isSome_iff_exists.mp (canonicalJson_optional_str d.traceId)
  unfold Detail.toPy
  rw [canonicalJson, Option.isSome_map]
  simp only [canonicalFields, hr, ht, hh, hi, canonicalJson]
  cases canonicalJson (optional .dict d.observed) <;>
    cases canonicalJson (optional .dict d.band) <;> rfl

theorem isSome_buildRow (cfg : Config) (c : Call) (n : Nat) :
    (buildRow cfg c n).isSome = c.writable := by
  unfold buildRow Call.writable
  cases c.text with
  | none => rfl
  | some text =>
    cases subjectText c.subject with
    | none => rfl
    | some subject =>
      have hdetail := isSome_canonicalJson_detail (c.detail (text.take errorMessageMaxChars) n)
      dsimp only [Call.detail] at hdetail
      simp only [Option.isSome_some, Bool.true_and, ← hdetail, Option.bind_eq_bind,
        Option.bind_some, Call.detail]
      cases canonicalJson _ <;> rfl

/-! ## One call -/

section

variable {cfg : Config} {c : Call} {log : Logger} {key : Key}

theorem recordAll_concat (before : List Call) (c : Call) :
    recordAll cfg (before ++ [c]) = (recordAll cfg before).record cfg c := by
  rw [recordAll, List.foldl_append]
  rfl

theorem called_concat (before : List Call) :
    called cfg (before ++ [c]) key =
      called cfg before key + if c.eventId = none ∧ c.key cfg = key then 1 else 0 := by
  rw [called, List.filter_append, List.length_append, called, List.filter_cons, List.filter_nil]
  simp only [decide_eq_true_eq]
  split <;> rfl

theorem pending_set (throttle : Throttle) (last : ℚ) (count : Nat) (k : Key) :
    Throttle.pending (throttle.set k (last, count)) key =
      if key = k then count else throttle.pending key := by
  rw [Throttle.pending, Dict.get?_set]
  split <;> rfl

/-- The rows of a key after one more row. -/
theorem rowsOf_append (throttle : Throttle) (rows : List Row) (row : Row) :
    (Logger.mk throttle (rows ++ [row])).rowsOf key =
      (Logger.mk throttle rows).rowsOf key ++
        if row.eventId = none ∧ row.key = key then [row] else [] := by
  rw [Logger.rowsOf, List.filter_append, Logger.rowsOf, List.filter_cons, List.filter_nil]
  simp only [decide_eq_true_eq]

/-- With an event id: no throttle. -/
theorem record_of_event (h : c.eventId ≠ none) :
    log.record cfg c = ⟨log.throttle, log.rows ++ (buildRow cfg c 0).toList⟩ := by
  obtain ⟨eventId, he⟩ := Option.ne_none_iff_exists'.mp h
  rw [Logger.record, FailureLog.record, he]

theorem record_of_suppressed (h : suppresses cfg log.throttle c = true) :
    ∃ last, log.record cfg c =
      ⟨log.throttle.set (c.key cfg) (last, log.throttle.pending (c.key cfg) + 1), log.rows⟩ := by
  obtain ⟨hevent, hlast⟩ := Bool.and_eq_true_iff.mp h
  obtain ⟨entry, hget, hwithin⟩ := (Option.any_eq_true _ _).mp hlast
  refine ⟨entry.1, ?_⟩
  rw [Logger.record, FailureLog.record, Option.isNone_iff_eq_none.mp hevent]
  dsimp only
  rw [admitted, Throttle.pending, hget]
  dsimp only
  rw [if_pos (of_decide_eq_true hwithin)]
  simp

/-- An admitted call sets the count back, whether its row is built or not. -/
theorem record_of_admitted (hevent : c.eventId = none)
    (h : suppresses cfg log.throttle c = false) :
    log.record cfg c =
      ⟨log.throttle.set (c.key cfg) (c.now, 0),
        log.rows ++ (buildRow cfg c (log.throttle.pending (c.key cfg))).toList⟩ := by
  have hwithin : ((log.throttle.get? (c.key cfg)).any fun entry =>
      c.now - entry.1 < c.throttleS.getD cfg.throttleS) = false := by
    rw [suppresses, hevent] at h
    exact h
  rw [Logger.record, FailureLog.record, hevent]
  dsimp only
  rw [admitted, Throttle.pending]
  cases hget : log.throttle.get? (c.key cfg) with
  | none => rfl
  | some entry =>
    rw [hget] at hwithin
    dsimp only
    rw [if_neg (of_decide_eq_false hwithin)]
    rfl

theorem accounted_of_suppressed (hs : suppresses cfg log.throttle c = true) :
    (log.record cfg c).accounted key = log.accounted key + if c.key cfg = key then 1 else 0 := by
  obtain ⟨last, hrecord⟩ := record_of_suppressed hs
  rw [hrecord, Logger.accounted, Logger.accounted, pending_set]
  by_cases hkey : c.key cfg = key
  · subst hkey
    rw [if_pos rfl, if_pos rfl]
    rfl
  · rw [if_neg (Ne.symm hkey), if_neg hkey]
    rfl

/-- The row of an admitted call carries what was pending. -/
theorem accounted_of_admitted (hevent : c.eventId = none)
    (hs : suppresses cfg log.throttle c = false) (hw : c.writable = true) :
    (log.record cfg c).accounted key = log.accounted key + if c.key cfg = key then 1 else 0 := by
  obtain ⟨row, hrow⟩ := Option.isSome_iff_exists.mp
    ((isSome_buildRow cfg c (log.throttle.pending (c.key cfg))).trans hw)
  obtain ⟨hid, hrowKey, hcount⟩ := buildRow_spec hrow
  rw [record_of_admitted hevent hs, hrow, Option.toList_some, Logger.accounted,
    Logger.accounted, pending_set, rowsOf_append, hid, hrowKey]
  by_cases hkey : c.key cfg = key
  · subst hkey
    rw [if_pos ⟨hevent, rfl⟩, if_pos rfl, if_pos rfl, List.length_append, List.map_append,
      List.sum_append, List.map_singleton, List.sum_singleton, hcount, List.length_singleton]
    simp only [Logger.rowsOf]
    omega
  · rw [if_neg fun hc => hkey hc.2, if_neg (Ne.symm hkey), if_neg hkey, List.append_nil]
    rfl

/-- A row with an event id is the row of no key. -/
theorem accounted_of_event (h : c.eventId ≠ none) :
    (log.record cfg c).accounted key = log.accounted key := by
  rw [record_of_event h]
  cases hrow : buildRow cfg c 0 with
  | none => rw [Option.toList_none, List.append_nil]
  | some row =>
    rw [Option.toList_some, Logger.accounted, Logger.accounted, rowsOf_append,
      (buildRow_spec hrow).1, if_neg fun hc => h hc.1, List.append_nil]

/-- A call that is suppressed or has its row is accounted for, one time and under its key. -/
theorem accounted_record
    (hw : suppresses cfg log.throttle c = false → c.writable = true) :
    (log.record cfg c).accounted key =
      log.accounted key + if c.eventId = none ∧ c.key cfg = key then 1 else 0 := by
  by_cases hevent : c.eventId = none
  · simp only [hevent, true_and]
    cases hs : suppresses cfg log.throttle c with
    | true => exact accounted_of_suppressed hs
    | false => exact accounted_of_admitted hevent hs (hw hs)
  · rw [accounted_of_event hevent, if_neg fun hc => hevent hc.1, Nat.add_zero]

/-- An admitted call without its row is in no row, and neither is what was pending. -/
theorem accounted_record_lost (hevent : c.eventId = none)
    (hs : suppresses cfg log.throttle c = false) (hw : c.writable = false) :
    (log.record cfg c).accounted (c.key cfg) + log.throttle.pending (c.key cfg) =
      log.accounted (c.key cfg) := by
  have hrow : buildRow cfg c (log.throttle.pending (c.key cfg)) = none :=
    Option.not_isSome_iff_eq_none.mp (by rw [isSome_buildRow, hw]; exact Bool.false_ne_true)
  rw [record_of_admitted hevent hs, hrow, Option.toList_none, List.append_nil, Logger.accounted,
    Logger.accounted, pending_set, if_pos rfl]
  rfl

end

/-! ## Sequences of calls -/

section

variable {cfg : Config}

theorem called_eq_accounted {calls : List Call}
    (hw : ∀ before c, before ++ [c] <+: calls →
      suppresses cfg (recordAll cfg before).throttle c = false → c.writable = true)
    (key : Key) : called cfg calls key = (recordAll cfg calls).accounted key := by
  -- from the end: the calls before the last one are accounted for when it comes
  induction calls using List.reverseRecOn with
  | nil => rfl
  | append_singleton before c ih =>
    rw [called_concat, recordAll_concat, accounted_record (hw before c (List.prefix_refl _)),
      ih fun before' c' h => hw before' c' (h.trans (List.prefix_append _ _))]

/-- The calls of every key are all in the rows and the pending counts, and every call with an event
id has its row, exactly when every call that is not suppressed has a row that can be built. -/
theorem count_kept_iff (cfg : Config) (calls : List Call) :
    KeepsCount cfg calls ↔ ∀ before c, before ++ [c] <+: calls →
      suppresses cfg (recordAll cfg before).throttle c = false → c.writable = true := by
  constructor
  · intro hk before c hpre hs
    by_cases hevent : c.eventId = none
    · by_contra hw
      -- the counts agree before the call, so after it they cannot
      have hbefore := hk.counted before ((List.prefix_append _ _).trans hpre) (c.key cfg)
      have hafter := hk.counted (before ++ [c]) hpre (c.key cfg)
      rw [called_concat, if_pos ⟨hevent, rfl⟩, recordAll_concat] at hafter
      have hlost := accounted_record_lost hevent hs (Bool.not_eq_true _ |>.mp hw)
      omega
    · obtain ⟨⟨row, -, hrows⟩, -⟩ := hk.written before c hpre (Option.isSome_iff_ne_none.mpr hevent)
      rw [recordAll_concat, record_of_event hevent] at hrows
      rw [← isSome_buildRow cfg c 0]
      cases hrow : buildRow cfg c 0 with
      | some _ => rfl
      | none =>
        rw [hrow] at hrows
        exact absurd (List.append_cancel_left hrows) (List.cons_ne_nil _ _).symm
  · intro hw
    refine ⟨fun before hpre => called_eq_accounted fun b c h => hw b c (h.trans hpre), ?_⟩
    intro before c hpre hsome
    have hevent : c.eventId ≠ none := Option.isSome_iff_ne_none.mp hsome
    have hs : suppresses cfg (recordAll cfg before).throttle c = false := by
      rw [suppresses, Option.isNone_eq_false_iff.mpr hsome, Bool.false_and]
    obtain ⟨row, hrow⟩ := Option.isSome_iff_exists.mp
      ((isSome_buildRow cfg c 0).trans (hw before c hpre hs))
    rw [recordAll_concat, record_of_event hevent, hrow]
    exact ⟨⟨row, (buildRow_spec hrow).1, rfl⟩, rfl⟩

/-- Three refused subjects of a tenant: the second is skipped, and the third, after the window, has
a `Decimal`. No row tells of the last two. -/
theorem count_lost :
    let refused (subject : Fields) (text : String) (now : ℚ) : Call :=
      { stage := .validation, code := .invalidSubject
        notificationName := "BUDGET_EXHAUSTED".toList
        operation := "validate".toList
        error := some ⟨"ai4i_core.kafka.keys.InvalidSubject".toList, some text.toList⟩
        tenantId := some "7".toList
        subject := some subject, now := now }
    let cfg : Config := ⟨.payperuseConsumer, none, 60⟩
    let calls :=
      [refused [] "subject keys must be ['budget_ceiling', 'budget_window'], got []" 0,
        refused [] "subject keys must be ['budget_ceiling', 'budget_window'], got []" 10,
        refused [("budget_ceiling".toList, .other "Decimal".toList),
          ("budget_window".toList, .str "none_none".toList)]
          "budget_ceiling must be a non-empty string" 70]
    let key : Key :=
      ⟨.payperuseConsumer, .validation, .invalidSubject, "BUDGET_EXHAUSTED".toList, "7".toList⟩
    called cfg calls key = 3 ∧ (recordAll cfg calls).accounted key = 1 ∧ ¬KeepsCount cfg calls := by
  intro refused cfg calls key
  have hcalled : called cfg calls key = 3 := by decide +kernel
  have haccounted : (recordAll cfg calls).accounted key = 1 := by decide +kernel
  refine ⟨hcalled, haccounted, fun hk => ?_⟩
  have hcounted := hk.counted calls (List.prefix_refl _) key
  rw [hcalled, haccounted] at hcounted
  exact absurd hcounted (by decide)

end

end Ai4iCore.Kafka.FailureLog
