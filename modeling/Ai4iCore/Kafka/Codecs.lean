import Ai4iCore.Base.JsonDocument
import Ai4iCore.Base.Moment
import Ai4iCore.Base.Substitution
import Ai4iCore.Kafka.Emit

/-!
# Cached values and their JSON

What the cache keeps in Redis, and what it tells the other processes: ledger states, the settings
snapshot, the subscriptions of a tenant (models.py) and invalidation messages (invalidation.py),
with their JSON forms. Readers take what the writers write; what `str()` and `int()` make of other
types is left out.

An instant is written in milliseconds, and what is read is the start of its millisecond. So `decide`
on a cached state differs from `decide` on the stored one in the last millisecond of a cooldown and
nowhere else: it asks for a reset, which the row then refuses (`decide_decoded`).

A decimal goes through a float unless it is whole. A float keeps fifteen digits, which is all of a
threshold. A snapshot is read back where its bands ascend and its rows have their own names as keys,
as the loader makes it (`snapshot_decoded`); the rest is read back always.
-/

namespace Ai4iCore.Kafka.Codecs

open Calendar JsonDoc

/-- What Python's `json` reads and writes. -/
abbrev Doc := JsonDoc PyScalar

/-! ## Documents -/

def key (name : String) (doc : Doc) : Text × Doc := (name.toList, doc)

/-- `data.get(name)`. -/
def get (name : String) : Doc → Option Doc
  | .obj fields => fields.lookup name.toList
  | _ => none

/-- `str(value)` of a text. -/
def text : Doc → Option Text
  | .str s => some s
  | _ => none

/-- `int(value)` of an integer. -/
def int : Doc → Option Int
  | .scalar (.int n) => some n
  | _ => none

/-- `bool(value)`. -/
def truthy : Doc → Bool
  | .scalar .null => false
  | .scalar (.bool b) => b
  | .scalar (.int n) => n ≠ 0
  | .scalar (.float repr _) => (Decimal.parse repr).map Decimal.value ≠ some 0
  | .str s => s ≠ []
  | .arr items => !items.isEmpty
  | .obj fields => !fields.isEmpty

/-- A value that may be missing or `None`. -/
def optional {α : Type} (read : Doc → Option α) : Option Doc → Option (Option α)
  | none => some none
  | some (.scalar .null) => some none
  | some doc => (read doc).map some

/-- A value that is read where it is true. -/
def whenTruthy {α : Type} (read : Doc → Option α) : Option Doc → Option (Option α)
  | some doc => if truthy doc then (read doc).map some else some none
  | none => some none

/-- The items of `data.get(name) or ()`. -/
def items (name : String) (data : Doc) : Option (List Doc) :=
  match get name data with
  | some (.arr items) => some items
  | some (.str s) => some (s.map fun c => .str [c])
  | some (.obj fields) => some (fields.map fun field => .str field.1)
  | some doc => if truthy doc then none else some []
  | none => some []

/-- The fields of `data.get(name) or {}`. -/
def entries (name : String) (data : Doc) : Option (List (Text × Doc)) :=
  match get name data with
  | some (.obj fields) => some fields
  | some doc => if truthy doc then none else some []
  | none => some []

/-- `loader(json.loads(value))`. -/
def decode {α : Type} (fromJson : Doc → Option α) (value : Text) : Option α :=
  (loads PyScalar.scalars value).bind fromJson

def encode (doc : Doc) : Text := dumps PyScalar.scalars doc

/-! ## Numbers and times -/

/-- `repr(float(x))` of a decimal that is not whole. -/
structure Floats where
  repr : ℚ → JsonText
  isFloat : ∀ x, PyScalar.isFloat (repr x) = true

/-- `json_number`. -/
def jsonNumber (fl : Floats) (x : ℚ) : Doc :=
  if x.den = 1 then .scalar (.int x.num) else .scalar (.float (fl.repr x) (fl.isFloat x))

/-- `to_decimal`, by its value. -/
def toDecimal : Doc → Option ℚ
  | .scalar (.int n) => some n
  | .scalar (.float repr _) => (Decimal.parse repr).map Decimal.value
  | .str s => (Decimal.parse s).map Decimal.value
  | _ => none

/-- The decimal is the same after a float. -/
def Survives (fl : Floats) (x : ℚ) : Prop := toDecimal (jsonNumber fl x) = some x

/-- A double keeps fifteen significant digits. -/
def Floats.KeepsDigits (fl : Floats) : Prop :=
  ∀ (n : Int) (places : Nat), n.natAbs < 10 ^ 15 → places ≤ 290 →
    (Decimal.parse (fl.repr (n / 10 ^ places))).map Decimal.value = some ((n : ℚ) / 10 ^ places)

/-- `old` with `new` in its place, `str.replace`. -/
def replace (old new value : Text) : Text := Substitution.sub (Substitution.lit old) new 0 value

/-- The datetime of an instant, in UTC. -/
def utc (t : Int) : Option Moment :=
  Moment.make (t / dayMicros) (t % dayMicros).toNat (some 0)

/-- The instant of a datetime with an offset. -/
def instant (m : Moment) : Option Int := m.offset.map fun o => m.day * dayMicros + m.time - o

/-- `iso_z`. -/
def isoZ (t : Int) : Option Text :=
  (utc t).map fun m => replace "+00:00".toList ['Z'] m.isoMillis

/-- `parse_iso`. -/
def parseIso (value : Text) : Option Int :=
  (fromIsoformat (replace ['Z'] "+00:00".toList value)).bind instant

/-! ## Enumerations -/

/-- An enumeration by the values of its members. -/
class Named (α : Type) where
  value : α → Text
  members : List α

/-- `Enum(value)`. -/
def named {α : Type} [Named α] (value : Text) : Option α :=
  Named.members.find? fun a : α => Named.value a = value

/-- Every member is found by its value. -/
def Named.Found (α : Type) [Named α] : Prop := ∀ a : α, named (Named.value a) = some a

def readNamed {α : Type} [Named α] (doc : Doc) : Option α := (text doc).bind named

inductive NotificationModule
  | tier | budget | quota | monitoring
deriving DecidableEq, Repr

inductive ThresholdUnit
  | percent | seconds
deriving DecidableEq, Repr

inductive InvalidationKind
  | settings | subscription | ledger | flush
deriving DecidableEq, Repr

instance : Named NotificationName where
  value name := name.value.toList
  members := NotificationName.all

instance : Named NotificationType where
  value
    | .notification => "NOTIFICATION".toList
    | .alert => "ALERT".toList
    | .monitoring => "MONITORING".toList
  members := [.notification, .alert, .monitoring]

instance : Named NotificationModule where
  value
    | .tier => "TIER".toList
    | .budget => "BUDGET".toList
    | .quota => "QUOTA".toList
    | .monitoring => "MONITORING".toList
  members := [.tier, .budget, .quota, .monitoring]

instance : Named NotificationScope where
  value
    | .global => "GLOBAL".toList
    | .institution => "INSTITUTION".toList
  members := [.global, .institution]

instance : Named ThresholdUnit where
  value
    | .percent => "PERCENT".toList
    | .seconds => "SECONDS".toList
  members := [.percent, .seconds]

instance : Named Severity where
  value
    | .info => "INFO".toList
    | .warning => "WARNING".toList
    | .critical => "CRITICAL".toList
  members := [.info, .warning, .critical]

instance : Named InvalidationKind where
  value
    | .settings => "SETTINGS".toList
    | .subscription => "SUBSCRIPTION".toList
    | .ledger => "LEDGER".toList
    | .flush => "FLUSH".toList
  members := [.settings, .subscription, .ledger, .flush]

/-! ## Ledger states -/

/-- `LedgerState.to_json`. -/
def stateToJson (fl : Floats) (st : LedgerState ℚ) : Option Doc := do
  let triggeredAt ← match st.triggeredAt with
    | some t => (isoZ t).map .str
    | none => some (.scalar .null)
  return .obj
    [key "exists" (.scalar (.bool st.exists?)),
      key "current_band" (st.currentBand.elim (.scalar .null) (jsonNumber fl)),
      key "triggered" (.scalar (.bool st.triggered)), key "triggered_at" triggeredAt]

/-- `LedgerState.from_json`. -/
def stateFromJson (data : Doc) : Option (LedgerState ℚ) := do
  let currentBand ← optional toDecimal (get "current_band" data)
  let triggeredAt ←
    whenTruthy (fun moment => (text moment).bind parseIso) (get "triggered_at" data)
  return { exists? := (get "exists" data).any truthy
           currentBand := currentBand
           triggered := (get "triggered" data).any truthy
           triggeredAt := triggeredAt }

/-! ## Settings -/

structure Band where
  value : ℚ
  unit : ThresholdUnit
  severity : Severity
deriving DecidableEq

structure SettingsRow where
  id : Int
  name : NotificationName
  type : NotificationType
  notificationModule : NotificationModule
  scope : NotificationScope
  channels : List Text
  recipientRoles : Dict Text Bool
  bands : List Band

structure SettingsSnapshot where
  builtAt : Text
  rows : Dict Text SettingsRow

def enumDoc {α : Type} [Named α] (a : α) : Doc := .str (Named.value a)

def Band.toJson (fl : Floats) (band : Band) : Doc :=
  .obj [key "value" (jsonNumber fl band.value), key "unit" (enumDoc band.unit),
    key "severity" (enumDoc band.severity)]

def Band.fromJson (data : Doc) : Option Band := do
  let value ← (get "value" data).bind toDecimal
  let unit ← (get "unit" data).bind readNamed
  let severity ← (get "severity" data).bind readNamed
  return ⟨value, unit, severity⟩

def SettingsRow.toJson (fl : Floats) (row : SettingsRow) : Doc :=
  -- the name is not written, it is the key of the row
  .obj [key "id" (.scalar (.int row.id)), key "type" (enumDoc row.type),
    key "module" (enumDoc row.notificationModule), key "scope" (enumDoc row.scope),
    key "channels" (.arr (row.channels.map .str)),
    key "recipient_roles"
      (.obj (row.recipientRoles.map fun role => (role.1, .scalar (.bool role.2)))),
    key "bands" (.arr (row.bands.map (Band.toJson fl)))]

/-- `sorted(bands, key=lambda b: b.value)`. -/
def sortBands (bands : List Band) : List Band := bands.insertionSort fun a b => a.value ≤ b.value

def SettingsRow.fromJson (name : Text) (data : Doc) : Option SettingsRow := do
  let id ← (get "id" data).bind int
  let rowName ← named name
  let type ← (get "type" data).bind readNamed
  let notificationModule ← (get "module" data).bind readNamed
  let scope ← (get "scope" data).bind readNamed
  let channels ← (← items "channels" data).mapM text
  let recipientRoles ← entries "recipient_roles" data
  let bands ← (← items "bands" data).mapM Band.fromJson
  return ⟨id, rowName, type, notificationModule, scope, channels,
    recipientRoles.map fun role => (role.1, truthy role.2), sortBands bands⟩

/-- `SETTINGS_SNAPSHOT_SCHEMA_VERSION`. -/
def settingsSnapshotSchemaVersion : Int := 1

def SettingsSnapshot.toJson (fl : Floats) (snapshot : SettingsSnapshot) : Doc :=
  .obj [key "schema_version" (.scalar (.int settingsSnapshotSchemaVersion)),
    key "built_at" (.str snapshot.builtAt),
    key "rows" (.obj (snapshot.rows.map fun row => (row.1, row.2.toJson fl)))]

def SettingsSnapshot.fromJson (data : Doc) : Option SettingsSnapshot := do
  guard ((get "schema_version" data).bind int = some settingsSnapshotSchemaVersion)
  let builtAt ← (get "built_at" data).bind text
  let rows ← (← entries "rows" data).mapM fun row =>
    (SettingsRow.fromJson row.1 row.2).map fun r => (row.1, r)
  return ⟨builtAt, rows⟩

/-! ## Subscriptions -/

structure SubscriptionEntry where
  subscribed : Bool
  recipients : List Text

structure TenantSubscriptions where
  tenantId : Text
  builtAt : Text
  rows : Dict Text SubscriptionEntry

def SubscriptionEntry.toJson (entry : SubscriptionEntry) : Doc :=
  .obj [key "subscribed" (.scalar (.bool entry.subscribed)),
    key "recipients" (.arr (entry.recipients.map .str))]

def SubscriptionEntry.fromJson (data : Doc) : Option SubscriptionEntry := do
  let recipients ← (← items "recipients" data).mapM text
  return ⟨(get "subscribed" data).any truthy, recipients⟩

def TenantSubscriptions.toJson (subs : TenantSubscriptions) : Doc :=
  .obj [key "tenant_id" (.str subs.tenantId), key "built_at" (.str subs.builtAt),
    key "rows" (.obj (subs.rows.map fun row => (row.1, row.2.toJson)))]

def TenantSubscriptions.fromJson (data : Doc) : Option TenantSubscriptions := do
  let tenantId ← (get "tenant_id" data).bind text
  let builtAt ← (get "built_at" data).bind text
  let rows ← (← entries "rows" data).mapM fun row =>
    (SubscriptionEntry.fromJson row.2).map fun entry => (row.1, entry)
  return ⟨tenantId, builtAt, rows⟩

/-! ## Invalidation messages -/

structure InvalidationMessage where
  kind : InvalidationKind
  names : List Text
  tenantId : Option Text
  keys : List Text
  origin : Text
  ts : Text

/-- `INVALIDATION_MESSAGE_VERSION`. -/
def invalidationMessageVersion : Int := 1

/-- What `build_message` writes for a message. -/
def InvalidationMessage.toJson (message : InvalidationMessage) : Doc :=
  .obj [key "v" (.scalar (.int invalidationMessageVersion)), key "kind" (enumDoc message.kind),
    key "names" (.arr (message.names.map .str)),
    key "tenant_id" (message.tenantId.elim (.scalar .null) .str),
    key "keys" (.arr (message.keys.map .str)), key "origin" (.str message.origin),
    key "ts" (.str message.ts)]

/-- `build_message`. -/
def buildMessage (kind : InvalidationKind) (origin : Text) (names : List Text)
    (tenantId : Option Text) (keys : List Text) (now : Int) : Option Text :=
  (isoZ now).map fun ts =>
    encode (InvalidationMessage.toJson ⟨kind, names, tenantId, keys, origin, ts⟩)

def InvalidationMessage.fromJson (data : Doc) : Option InvalidationMessage := do
  guard ((get "v" data).bind int = some invalidationMessageVersion)
  let kind ← (get "kind" data).bind readNamed
  let names ← (← items "names" data).mapM text
  let tenantId ← optional text (get "tenant_id" data)
  let keys ← (← items "keys" data).mapM text
  let origin ← (get "origin" data).bind text
  let ts ← whenTruthy text (get "ts" data)
  return ⟨kind, names, tenantId, keys, origin, ts.getD []⟩

/-- `parse_message`. -/
def parseMessage (raw : Text) : Option InvalidationMessage :=
  decode InvalidationMessage.fromJson raw

/-! ## Documents through their texts -/

theorem decode_encode {α : Type} (fromJson : Doc → Option α) (doc : Doc) :
    decode fromJson (encode doc) = fromJson doc := by
  rw [decode, encode, loads_dumps, Option.bind_some]

theorem get_cons (name field : String) (doc : Doc) (fields : List (Text × Doc)) :
    get name (.obj (key field doc :: fields)) =
      if name = field then some doc else get name (.obj fields) := by
  rw [get, key, List.lookup_cons]
  by_cases h : name = field
  · simp [h]
  · have hne : (name.toList == field.toList) = false :=
      beq_false_of_ne fun heq => h (String.toList_inj.mp heq)
    rw [if_neg h, hne]
    rfl

/-- Items are read one by one. -/
theorem mapM_map {α β γ : Type} {write : α → β} {read : β → Option γ} {f : α → γ}
    {values : List α} (h : ∀ v ∈ values, read (write v) = some (f v)) :
    (values.map write).mapM read = some (values.map f) := by
  induction values with
  | nil => rfl
  | cons v values ih =>
    rw [List.map_cons, List.mapM_cons, h v List.mem_cons_self,
      ih fun w hw => h w (List.mem_cons_of_mem v hw)]
    rfl

theorem mapM_map_self {α β : Type} {write : α → β} {read : β → Option α} {values : List α}
    (h : ∀ v ∈ values, read (write v) = some v) :
    (values.map write).mapM read = some values := by
  have hmap := @mapM_map α β α write read id values h
  rwa [List.map_id] at hmap

theorem mapM_text (values : List Text) : (values.map JsonDoc.str).mapM text = some values :=
  mapM_map_self fun _ _ => rfl

theorem found_name : Named.Found NotificationName := by
  intro name
  show NotificationName.all.find? (fun n => n.value.toList = name.value.toList) = some name
  rw [← name.find?_value]
  simp only [String.toList_inj]

theorem found_type : Named.Found NotificationType := by
  intro type
  cases type <;> decide

theorem found_module : Named.Found NotificationModule := by
  intro notificationModule
  cases notificationModule <;> decide

theorem found_scope : Named.Found NotificationScope := by
  intro scope
  cases scope <;> decide

theorem found_unit : Named.Found ThresholdUnit := by
  intro unit
  cases unit <;> decide

theorem found_severity : Named.Found Severity := by
  intro severity
  cases severity <;> decide

theorem found_kind : Named.Found InvalidationKind := by
  intro kind
  cases kind <;> decide

theorem readNamed_enumDoc {α : Type} [Named α] (h : Named.Found α) (a : α) :
    readNamed (enumDoc a) = some a := h a

/-! ## Times through their texts -/

theorem lit_self (word rest : Text) : Substitution.lit word (word ++ rest) = some rest := by
  induction word with
  | nil => rfl
  | cons c word ih =>
    rw [List.cons_append, Substitution.lit, if_pos rfl, ih]

/-- One occurrence, at the end. -/
theorem replace_last {c : Char} {word new before : Text} (h : c ∉ before) :
    replace (c :: word) new (before ++ c :: word) = before ++ new := by
  unfold replace
  induction before with
  | nil =>
    have hlit := lit_self (c :: word) []
    have hskip := Substitution.sub_skip (Substitution.lit (c :: word)) new word []
    rw [List.append_nil] at hlit hskip
    rw [List.nil_append, Substitution.sub, hlit]
    dsimp only
    rw [List.length_nil, Nat.sub_zero, hskip, Substitution.sub, List.append_nil, List.nil_append]
  | cons d before ih =>
    -- no match starts before the last occurrence
    have hd : ¬d = c := fun heq => h (heq ▸ List.mem_cons_self)
    rw [List.cons_append, Substitution.sub, Substitution.lit, if_neg hd]
    dsimp only
    rw [ih fun hmem => h (List.mem_cons_of_mem _ hmem), List.cons_append]

/-- A datetime can show the instant in UTC. -/
def InYears (t : Int) : Prop := 1 ≤ year (t / dayMicros) ∧ year (t / dayMicros) ≤ 9999

/-- The part of a text in UTC before the offset. -/
def utcBody (m : Moment) : Text := isoText m.day ++ 'T' :: (clock m.time ++ millis m.time)

theorem isoMillis_utc {m : Moment} (h : m.offset = some 0) :
    m.isoMillis = utcBody m ++ "+00:00".toList := by
  have hoffset : (m.offset.map offsetText).getD [] = "+00:00".toList := by
    rw [h]
    decide +kernel
  rw [Moment.isoMillis, Moment.text, hoffset, utcBody]
  simp

theorem notMem_utcBody {c : Char} (hc : c.isDigit = false ∧ c ∉ ['-', 'T', ':', '.'])
    (m : Moment) : c ∉ utcBody m := by
  have hplain : ∀ {text : Text}, Plain text → c ∉ text := by
    intro text htext hmem
    obtain hdigit | rfl | rfl := htext c hmem
    · rw [hc.1] at hdigit
      cases hdigit
    · exact hc.2 (by simp)
    · exact hc.2 (by simp)
  have hdigits : ∀ width n, c ∉ padded width n := fun width n => hplain (plain_padded width n)
  have hclock := hplain (plain_clock m.time)
  have hmillis := hplain (plain_millis m.time)
  have hdash : c ≠ '-' := fun heq => hc.2 (by simp [heq])
  have hsep : c ≠ 'T' := fun heq => hc.2 (by simp [heq])
  simp [utcBody, isoText, hdigits, hclock, hmillis, hdash, hsep]

/-- **An instant is read back** as the start of its millisecond. -/
theorem parseIso_isoZ {t : Int} (h : InYears t) :
    ∃ value, isoZ t = some value ∧ value ≠ [] ∧ parseIso value = some (truncateMs t) := by
  have htime : (t % dayMicros).toNat < dayMicros := by
    unfold dayMicros
    omega
  obtain ⟨m, hutc, hday, hclock, hoffset⟩ : ∃ m, utc t = some m ∧ m.day = t / dayMicros ∧
      m.time = (t % dayMicros).toNat ∧ m.offset = some 0 :=
    ⟨_, dif_pos ⟨h, htime, by simp [dayMicros]⟩, rfl, rfl, rfl⟩
  -- neither sign is anywhere else in the text, so the two replacements undo each other
  have hplus := @notMem_utcBody '+' (by decide) m
  have hz := @notMem_utcBody 'Z' (by decide) m
  refine ⟨utcBody m ++ ['Z'], ?_, by simp, ?_⟩
  · rw [isoZ, hutc, Option.map_some, isoMillis_utc hoffset]
    exact congrArg some (replace_last hplus)
  · have hback : replace ['Z'] "+00:00".toList (utcBody m ++ ['Z']) = m.isoMillis := by
      rw [isoMillis_utc hoffset]
      exact replace_last hz
    rw [parseIso, hback, fromIsoformat_isoMillis, Option.bind_some, instant]
    show m.offset.map (fun o => m.day * dayMicros + ((m.time / 1000 * 1000 : Nat) : Int) - o) = _
    rw [hoffset, hday, hclock, Option.map_some]
    refine congrArg some ?_
    unfold truncateMs dayMicros
    omega

/-! ## Ledger states through their texts -/

/-- A whole decimal survives. -/
theorem survives_intCast (fl : Floats) (n : Int) : Survives fl n := by
  rw [Survives, jsonNumber, if_pos (Rat.den_intCast n), Rat.num_intCast]
  rfl

/-- A threshold survives: `NUMERIC(12, 4)` has twelve digits. -/
theorem survives_threshold {fl : Floats} (hfl : fl.KeepsDigits) {n : Int} (h : n.natAbs < 10 ^ 12) :
    Survives fl ((n : ℚ) / 10 ^ 4) := by
  rw [Survives, jsonNumber]
  split
  · rename_i hden
    exact congrArg some (Rat.coe_int_num_of_den_eq_one hden)
  · exact hfl n 4 (by omega) (by omega)

/-- A decimal by its digits and a power of ten. -/
def digitsText (n : Int) (places : Nat) : JsonText :=
  (if n < 0 then ['-'] else []) ++ Nat.toDigits 10 n.natAbs ++ Decimal.exponentText (-places)

theorem isFloat_digitsText (n : Int) (places : Nat) :
    PyScalar.isFloat (digitsText n places) = true := by
  have hdigits := List.all_eq_true.mp (Decimal.all_isDigit_toDigits n.natAbs)
  have hexponent := List.all_eq_true.mp (Decimal.all_isDigit_toDigits places)
  have hhead : Decimal.NoDigitHead (Decimal.exponentText (-places)) := by
    intro c hc
    obtain rfl := Option.some.inj hc
    rfl
  have htoken : (digitsText n places).all JsonText.isTokenChar = true := by
    rw [List.all_eq_true]
    intro c hc
    rw [digitsText, Decimal.exponentText] at hc
    simp only [List.mem_append, List.mem_cons, Int.natAbs_neg, Int.natAbs_natCast] at hc
    obtain (hc | hc) | rfl | rfl | hc := hc
    · split at hc
      · obtain rfl := List.mem_singleton.mp hc
        rfl
      · cases hc
    · exact PyScalar.isTokenChar_of_isDigit (hdigits c hc)
    · rfl
    · split <;> rfl
    · exact PyScalar.isTokenChar_of_isDigit (hexponent c hc)
  have hdrop : PyScalar.dropSign (digitsText n places) =
      Nat.toDigits 10 n.natAbs ++ Decimal.exponentText (-places) := by
    rw [digitsText]
    split
    · rfl
    · obtain ⟨d, digits, hd⟩ :=
        List.exists_cons_of_ne_nil (Nat.toDigits_ne_nil (b := 10) (n := n.natAbs))
      rw [hd] at hdigits ⊢
      have hne : d ≠ '-' := by
        rintro rfl
        exact absurd (hdigits '-' List.mem_cons_self) (by decide)
      rw [List.nil_append, List.cons_append, PyScalar.dropSign]
      simpa using hne
  have hfraction : PyScalar.isFractional (Decimal.exponentText (-places)) = true := by
    rw [Decimal.exponentText]
    split <;>
    · simp only [PyScalar.isFractional, PyScalar.isExponent, Int.natAbs_neg, Int.natAbs_natCast]
      simpa using hexponent
  rw [PyScalar.isFloat, htoken, hdrop, Decimal.takeWhile_digits hdigits hhead,
    Decimal.dropWhile_digits hdigits hhead, PyScalar.isWhole_toDigits, hfraction]
  simp

theorem parse_digitsText (n : Int) (places : Nat) :
    (Decimal.parse (digitsText n places)).map Decimal.value = some ((n : ℚ) / 10 ^ places) := by
  have hdigits := List.all_eq_true.mp (Decimal.all_isDigit_toDigits n.natAbs)
  have hvalue : Nat.ofDigitChars 10 (Nat.toDigits 10 n.natAbs) 0 = n.natAbs :=
    Nat.ofDigitChars_ten_toDigits
  obtain ⟨d, digits, hd⟩ :=
    List.exists_cons_of_ne_nil (Nat.toDigits_ne_nil (b := 10) (n := n.natAbs))
  rw [hd] at hdigits hvalue
  have hparse := @Decimal.parse_parts d digits [] (Decimal.exponentText (-places)) (n < 0)
    hdigits (by simp) (by simp [Decimal.NoDigitHead, Decimal.exponentText])
    (by simp [Decimal.exponentText])
  rw [Decimal.pointed, if_pos rfl, List.append_nil, List.append_nil,
    Decimal.parseExponent_exponentText, hvalue, Option.map_some] at hparse
  simp only [decide_eq_true_eq] at hparse
  rw [digitsText, hd, hparse, Option.map_some, Decimal.value]
  refine congrArg some ?_
  have hpow : (10 : ℚ) ^ (-(places : Int) - (([] : JsonText).length : Int)) =
      (10 ^ places)⁻¹ := by
    rw [List.length_nil, Nat.cast_zero, sub_zero, zpow_neg, zpow_natCast]
  rw [hpow, ← div_eq_mul_inv]
  refine congrArg (fun m : ℚ => m / 10 ^ places) ?_
  by_cases hneg : n < 0
  · have habs : ((n.natAbs : Int) : ℚ) = ((-n : Int) : ℚ) := congrArg Int.cast (by omega)
    rw [Int.cast_natCast, Int.cast_neg] at habs
    simp [hneg, habs]
  · have habs : ((n.natAbs : Int) : ℚ) = n := congrArg Int.cast (by omega)
    rw [Int.cast_natCast] at habs
    simp [hneg, habs]

theorem isFloat_half : PyScalar.isFloat "0.5".toList = true := by decide +kernel

/-- Digits can be kept. -/
theorem exists_keepsDigits : ∃ fl : Floats, fl.KeepsDigits := by
  have htext : ∀ x : ℚ, ∃ text, PyScalar.isFloat text = true ∧ ∀ (n : Int) (places : Nat),
      x = n / 10 ^ places → (Decimal.parse text).map Decimal.value = some x := by
    intro x
    -- no digits are asked for of what is no decimal
    by_cases hx : ∃ (n : Int) (places : Nat), x = n / 10 ^ places
    · obtain ⟨n, places, rfl⟩ := hx
      exact ⟨digitsText n places, isFloat_digitsText n places,
        fun _ _ _ => parse_digitsText n places⟩
    · exact ⟨_, isFloat_half, fun n places hn => absurd ⟨n, places, hn⟩ hx⟩
  choose repr hfloat hvalue using htext
  exact ⟨⟨repr, hfloat⟩, fun n places _ _ => hvalue _ n places rfl⟩

theorem optional_jsonNumber {fl : Floats} {x : ℚ} (h : Survives fl x) :
    optional toDecimal (some (jsonNumber fl x)) = some (some x) := by
  rw [Survives] at h
  unfold jsonNumber at h ⊢
  split
  · rename_i hden
    rw [if_pos hden] at h
    exact congrArg (Option.map some) h
  · rename_i hden
    rw [if_neg hden] at h
    exact congrArg (Option.map some) h

/-- **A state is read back** with its moment cut to milliseconds. -/
theorem state_decoded {fl : Floats} {st : LedgerState ℚ}
    (hband : ∀ band ∈ st.currentBand, Survives fl band)
    (hyears : ∀ t ∈ st.triggeredAt, InYears t) :
    ∃ doc, stateToJson fl st = some doc ∧
      decode stateFromJson (encode doc) = some st.throughJson := by
  obtain ⟨existing, currentBand, triggered, triggeredAt⟩ := st
  have hread : optional toDecimal
      (some (currentBand.elim (.scalar .null) (jsonNumber fl))) = some currentBand := by
    cases currentBand with
    | none => rfl
    | some band => exact optional_jsonNumber (hband band rfl)
  cases triggeredAt with
  | none =>
    refine ⟨_, rfl, ?_⟩
    rw [decode_encode, stateFromJson]
    simp only [get_cons, String.reduceEq, reduceIte, hread]
    rfl
  | some t =>
    obtain ⟨value, hvalue, hne, hparse⟩ := parseIso_isoZ (hyears t rfl)
    have hmoment : whenTruthy (fun moment => (text moment).bind parseIso) (some (.str value)) =
        some (some (truncateMs t)) := by
      have htruthy : truthy (.str value) = true := decide_eq_true hne
      rw [whenTruthy, if_pos htruthy]
      exact congrArg (Option.map some) hparse
    refine ⟨.obj [key "exists" (.scalar (.bool existing)),
      key "current_band" (currentBand.elim (.scalar .null) (jsonNumber fl)),
      key "triggered" (.scalar (.bool triggered)), key "triggered_at" (.str value)], ?_, ?_⟩
    · rw [stateToJson]
      simp only [hvalue]
      rfl
    · rw [decode_encode, stateFromJson]
      simp only [get_cons, String.reduceEq, reduceIte, hread, hmoment]
      rfl

/-! ## Decisions -/

section

variable (spec : NotificationSpec) (band : Option ℚ) (st : LedgerState ℚ) (now cooldownS : Int)

/-- The cooldown is over for the start of the millisecond and not for the instant. -/
def Early : Prop :=
  band = none ∧ st.exists? = true ∧ st.triggered = true ∧ spec.resets = true ∧
    ∃ t, st.triggeredAt = some t ∧ now - t < cooldownS * 1000000 ∧
      cooldownS * 1000000 ≤ now - truncateMs t

theorem truncateMs_le (t : Int) : truncateMs t ≤ t ∧ t < truncateMs t + 1000 := by
  unfold truncateMs
  omega

/-- A decision on the cached state differs from the one on the stored state early, and only then. -/
theorem decide_decoded :
    Ledger.decide spec band st.throughJson now cooldownS ≠
      Ledger.decide spec band st now cooldownS ↔ Early spec band st now cooldownS := by
  obtain ⟨existing, currentBand, triggered, triggeredAt⟩ := st
  cases band with
  | some v => exact ⟨fun h => absurd rfl h, fun h => absurd h.1 (by simp)⟩
  | none =>
    cases triggeredAt with
    | none =>
      refine ⟨fun h => absurd rfl h, ?_⟩
      rintro ⟨-, -, -, -, t, ht, -⟩
      cases ht
    | some t =>
      -- the one place where a decision reads the moment
      have hle := truncateMs_le t
      unfold Early LedgerState.throughJson Ledger.decide
      simp only [Option.map_some]
      by_cases hopen : (existing && triggered && spec.resets) = true
      · obtain ⟨hstate, hresets⟩ := Bool.and_eq_true_iff.mp hopen
        obtain ⟨rfl, rfl⟩ := Bool.and_eq_true_iff.mp hstate
        by_cases hover : cooldownS * 1000000 ≤ now - t
        · have hover' : cooldownS * 1000000 ≤ now - truncateMs t := by omega
          simp [hresets, hover, hover']
        · by_cases hover' : cooldownS * 1000000 ≤ now - truncateMs t
          · have hlt : now - t < cooldownS * 1000000 := by omega
            simp [hresets, hover, hover', hlt]
          · simp [hresets, hover, hover']
      · have hfalse := Bool.eq_false_iff.mpr hopen
        simp only [hfalse, Bool.false_and]
        refine ⟨fun h => absurd rfl h, ?_⟩
        rintro ⟨-, rfl, rfl, hresets, -⟩
        rw [hresets] at hfalse
        cases hfalse

/-- An early decision asks for a reset where the stored state skips, less than a millisecond before
the cooldown is over; and the row is not reset. -/
theorem early_spec (h : Early spec band st now cooldownS) :
    Ledger.decide spec band st.throughJson now cooldownS = .reset ∧
      Ledger.decide spec band st now cooldownS = .skip ∧
      ∃ t, st.triggeredAt = some t ∧ cooldownS * 1000000 < now - t + 1000 ∧
        resetBand (some ⟨st.currentBand, st.triggered, t⟩) cooldownS now = none := by
  obtain ⟨rfl, hexists, htriggered, hresets, t, ht, hlt, hle⟩ := h
  have hcut := truncateMs_le t
  have hover : ¬cooldownS * 1000000 ≤ now - t := by omega
  refine ⟨?_, ?_, t, ht, by omega, ?_⟩
  · unfold Ledger.decide LedgerState.throughJson
    simp [hexists, htriggered, hresets, ht, hle]
  · unfold Ledger.decide
    simp [hexists, htriggered, hresets, ht, hover]
  · have hlate : ¬t ≤ now - cooldownS * 1000000 := by omega
    unfold resetBand
    simp [hlate]

end

/-! ## Snapshots, subscriptions and messages -/

theorem band_decoded {fl : Floats} {band : Band} (h : Survives fl band.value) :
    Band.fromJson (band.toJson fl) = some band := by
  rw [Survives] at h
  rw [Band.fromJson, Band.toJson]
  simp only [get_cons, String.reduceEq, reduceIte, Option.bind_some, h,
    readNamed_enumDoc found_unit, readNamed_enumDoc found_severity]
  rfl

/-- Rows as the loader makes them: under their own names, with bands that ascend. -/
structure SettingsSnapshot.Canonical (fl : Floats) (snapshot : SettingsSnapshot) : Prop where
  names : ∀ row ∈ snapshot.rows, row.1 = Named.value row.2.name
  ascending : ∀ row ∈ snapshot.rows, row.2.bands.Pairwise fun a b => a.value ≤ b.value
  survive : ∀ row ∈ snapshot.rows, ∀ band ∈ row.2.bands, Survives fl band.value

/-- A row is read with the name of its key, and with its bands sorted. -/
theorem row_fromJson {fl : Floats} {row : SettingsRow} (key : NotificationName)
    (hsurvive : ∀ band ∈ row.bands, Survives fl band.value) :
    SettingsRow.fromJson (Named.value key) (row.toJson fl) =
      some { row with name := key, bands := sortBands row.bands } := by
  obtain ⟨id, name, type, notificationModule, scope, channels, recipientRoles, bands⟩ := row
  have hbands : (bands.map (Band.toJson fl)).mapM Band.fromJson = some bands :=
    mapM_map_self fun band hband => band_decoded (hsurvive band hband)
  have hroles : (recipientRoles.map fun role =>
      (role.1, (JsonDoc.scalar (.bool role.2) : Doc))).map (fun role => (role.1, truthy role.2)) =
        recipientRoles := by
    rw [List.map_map]
    exact List.map_id _
  rw [SettingsRow.fromJson, SettingsRow.toJson]
  simp only [items, entries, get_cons, String.reduceEq, reduceIte, Option.bind_some, int,
    found_name key, readNamed_enumDoc found_type, readNamed_enumDoc found_module,
    readNamed_enumDoc found_scope]
  show ((channels.map JsonDoc.str).mapM text).bind _ = _
  rw [mapM_text, Option.bind_some]
  show ((bands.map (Band.toJson fl)).mapM Band.fromJson).bind _ = _
  rw [hbands, Option.bind_some, hroles]
  rfl

/-- A snapshot is read row by row. -/
theorem snapshot_fromJson {fl : Floats} {snapshot : SettingsSnapshot}
    {f : SettingsRow → SettingsRow}
    (h : ∀ row ∈ snapshot.rows, SettingsRow.fromJson row.1 (row.2.toJson fl) = some (f row.2)) :
    decode SettingsSnapshot.fromJson (encode (snapshot.toJson fl)) =
      some { snapshot with rows := snapshot.rows.map fun row => (row.1, f row.2) } := by
  have hrows : (snapshot.rows.map fun row => (row.1, row.2.toJson fl)).mapM (fun row =>
      (SettingsRow.fromJson row.1 row.2).map fun r => (row.1, r)) =
        some (snapshot.rows.map fun row => (row.1, f row.2)) := by
    refine mapM_map fun row hrow => ?_
    rw [h row hrow]
    rfl
  rw [decode_encode, SettingsSnapshot.fromJson, SettingsSnapshot.toJson]
  simp only [entries, get_cons, String.reduceEq, reduceIte, Option.bind_some, int, text]
  show Option.bind (List.mapM _ _) _ = _
  rw [hrows]
  rfl

theorem snapshot_decoded {fl : Floats} {snapshot : SettingsSnapshot} (h : snapshot.Canonical fl) :
    decode SettingsSnapshot.fromJson (encode (snapshot.toJson fl)) = some snapshot := by
  have hrow : ∀ row ∈ snapshot.rows,
      SettingsRow.fromJson row.1 (row.2.toJson fl) = some (id row.2) := by
    intro row hrow
    -- sorting leaves bands that ascend, and the key is the row's own name
    have hsorted : sortBands row.2.bands = row.2.bands := (h.ascending row hrow).insertionSort_eq
    rw [h.names row hrow, row_fromJson row.2.name (h.survive row hrow), hsorted]
    rfl
  rw [snapshot_fromJson hrow]
  exact congrArg some (congrArg (SettingsSnapshot.mk _) (List.map_id _))

theorem subscriptions_decoded (subs : TenantSubscriptions) :
    decode TenantSubscriptions.fromJson (encode subs.toJson) = some subs := by
  have hentry : ∀ entry : SubscriptionEntry,
      SubscriptionEntry.fromJson entry.toJson = some entry := by
    intro entry
    rw [SubscriptionEntry.fromJson, SubscriptionEntry.toJson]
    simp only [items, get_cons, String.reduceEq, reduceIte]
    show ((entry.recipients.map JsonDoc.str).mapM text).bind _ = _
    rw [mapM_text]
    rfl
  have hrows : (subs.rows.map fun row => (row.1, row.2.toJson)).mapM (fun row =>
      (SubscriptionEntry.fromJson row.2).map fun entry => (row.1, entry)) = some subs.rows := by
    refine mapM_map_self fun row _ => ?_
    rw [hentry]
    rfl
  rw [decode_encode, TenantSubscriptions.fromJson, TenantSubscriptions.toJson]
  simp only [entries, get_cons, String.reduceEq, reduceIte, Option.bind_some, text]
  show Option.bind (List.mapM _ _) _ = _
  rw [hrows]
  rfl

theorem message_decoded (message : InvalidationMessage) :
    parseMessage (encode message.toJson) = some message := by
  obtain ⟨kind, names, tenantId, keys, origin, ts⟩ := message
  have htenant : optional text (some (tenantId.elim (.scalar .null) .str)) = some tenantId := by
    cases tenantId <;> rfl
  rw [parseMessage, decode_encode, InvalidationMessage.fromJson, InvalidationMessage.toJson]
  simp only [items, get_cons, String.reduceEq, reduceIte, Option.bind_some, int,
    readNamed_enumDoc found_kind, htenant]
  show ((names.map JsonDoc.str).mapM text).bind _ = _
  rw [mapM_text, Option.bind_some]
  show ((keys.map JsonDoc.str).mapM text).bind _ = _
  rw [mapM_text]
  -- an empty time is read as `""` too
  cases ts with
  | nil => rfl
  | cons c ts => rfl

/-- **Cached values.** A state decides as the stored one does, but for the last millisecond of a
cooldown; snapshots, subscriptions and messages are read back. -/
theorem cached_values (fl : Floats) :
    (∀ n : Int, Survives fl n) ∧
      (fl.KeepsDigits → ∀ n : Int, n.natAbs < 10 ^ 12 → Survives fl ((n : ℚ) / 10 ^ 4)) ∧
      (∀ st : LedgerState ℚ, (∀ band ∈ st.currentBand, Survives fl band) →
        (∀ t ∈ st.triggeredAt, InYears t) →
        ∃ doc decoded, stateToJson fl st = some doc ∧
          decode stateFromJson (encode doc) = some decoded ∧
          ∀ spec band now cooldownS,
            (Ledger.decide spec band decoded now cooldownS ≠
                Ledger.decide spec band st now cooldownS ↔ Early spec band st now cooldownS) ∧
              (Early spec band st now cooldownS →
                Ledger.decide spec band decoded now cooldownS = .reset ∧
                  Ledger.decide spec band st now cooldownS = .skip ∧
                  ∃ t, st.triggeredAt = some t ∧ cooldownS * 1000000 < now - t + 1000 ∧
                    resetBand (some ⟨st.currentBand, st.triggered, t⟩) cooldownS now = none)) ∧
      (∀ snapshot : SettingsSnapshot, snapshot.Canonical fl →
        decode SettingsSnapshot.fromJson (encode (snapshot.toJson fl)) = some snapshot) ∧
      (∀ subs : TenantSubscriptions,
        decode TenantSubscriptions.fromJson (encode subs.toJson) = some subs) ∧
      (∀ message : InvalidationMessage, parseMessage (encode message.toJson) = some message) ∧
      ∀ kind origin names tenantId keys now, InYears now →
        ∃ ts, isoZ now = some ts ∧
          (buildMessage kind origin names tenantId keys now).bind parseMessage =
            some ⟨kind, names, tenantId, keys, origin, ts⟩ := by
  refine ⟨survives_intCast fl, fun hfl n hn => survives_threshold hfl hn,
    fun st hband hyears => ?_, fun snapshot h => snapshot_decoded h, subscriptions_decoded,
    message_decoded, fun kind origin names tenantId keys now hnow => ?_⟩
  · obtain ⟨doc, hdoc, hdecoded⟩ := state_decoded hband hyears
    exact ⟨doc, st.throughJson, hdoc, hdecoded, fun spec band now cooldownS =>
      ⟨decide_decoded spec band st now cooldownS, early_spec spec band st now cooldownS⟩⟩
  · obtain ⟨ts, hts, -⟩ := parseIso_isoZ hnow
    refine ⟨ts, hts, ?_⟩
    rw [buildMessage, hts, Option.map_some, Option.bind_some, message_decoded]

/-! ## Where they differ -/

/-- Floats around a half. -/
def half : Floats := ⟨fun _ => "0.5".toList, fun _ => isFloat_half⟩

/-- An open incident. -/
def incident (band : ℚ) (triggeredAt : Option Int) : LedgerState ℚ :=
  ⟨true, some band, true, triggeredAt⟩

def errorRateRow (bands : List Band) : SettingsRow :=
  ⟨9, .errorRate4xx, .monitoring, .monitoring, .global, ["EMAIL".toList], [], bands⟩

theorem inYears_999 : InYears 999 := ⟨by decide +kernel, by decide +kernel⟩

/-- Five minutes and a millisecond after an incident. -/
theorem cached_values_eighty : ∃ doc decoded,
    stateToJson half (incident 80 (some 999)) = some doc ∧
      decode stateFromJson (encode doc) = some decoded ∧
      Ledger.decide (specs .errorRate4xx) none decoded 300001000 300 = .reset := by
  obtain ⟨doc, decoded, hdoc, hdecoded, hdecide⟩ :=
    (cached_values half).2.2.1 (incident 80 (some 999))
    (fun band hband => Option.some.inj hband ▸ survives_intCast half 80)
    (fun t ht => Option.some.inj ht ▸ inYears_999)
  refine ⟨doc, decoded, hdoc, hdecoded, ?_⟩
  have hlate : ¬Early (specs .errorRate4xx) none (incident 80 (some 999)) 300001000 300 := by
    rintro ⟨-, -, -, -, t, ht, hlt, -⟩
    obtain rfl := Option.some.inj ht
    omega
  rw [not_ne_iff.mp fun hne => hlate ((hdecide _ _ _ _).1.mp hne)]
  rfl

/-- A reset a microsecond early; a band of twenty digits; bands that descend; a row under another
name. -/
theorem cached_values_differ :
    (∃ doc decoded, stateToJson half (incident 80 (some 999)) = some doc ∧
      decode stateFromJson (encode doc) = some decoded ∧
      Ledger.decide (specs .errorRate4xx) none decoded 300000000 300 = .reset ∧
      Ledger.decide (specs .errorRate4xx) none (incident 80 (some 999)) 300000000 300 = .skip) ∧
    (∃ doc decoded, stateToJson half (incident (1 / 2 + 1 / 10 ^ 20) none) = some doc ∧
      decode stateFromJson (encode doc) = some decoded ∧
      Ledger.decide (specs .errorRate4xx) (some (1 / 2 + 1 / 10 ^ 20)) decoded 0 300 = .fire ∧
      Ledger.decide (specs .errorRate4xx) (some (1 / 2 + 1 / 10 ^ 20))
        (incident (1 / 2 + 1 / 10 ^ 20) none) 0 300 = .skip) ∧
    (∃ snapshot : SettingsSnapshot,
      snapshot.rows = [("ERROR_RATE_4XX".toList,
        errorRateRow [⟨80, .percent, .critical⟩, ⟨50, .percent, .warning⟩])] ∧
      decode SettingsSnapshot.fromJson (encode (snapshot.toJson half)) ≠ some snapshot) ∧
    ∃ snapshot : SettingsSnapshot,
      snapshot.rows = [("ERROR_RATE_5XX".toList, errorRateRow [])] ∧
      decode SettingsSnapshot.fromJson (encode (snapshot.toJson half)) ≠ some snapshot := by
  refine ⟨?_, ?_, ⟨⟨[], _⟩, rfl, fun h => ?_⟩, ⟨⟨[], _⟩, rfl, fun h => ?_⟩⟩
  · obtain ⟨doc, hdoc, hdecoded⟩ := @state_decoded half (incident 80 (some 999))
      (fun band hband => Option.some.inj hband ▸ survives_intCast half 80)
      (fun t ht => Option.some.inj ht ▸ inYears_999)
    exact ⟨doc, _, hdoc, hdecoded, rfl, rfl⟩
  · have hnumber : jsonNumber half (1 / 2 + 1 / 10 ^ 20) =
        .scalar (.float "0.5".toList isFloat_half) := if_neg (by decide +kernel)
    have hread : toDecimal (.scalar (.float "0.5".toList isFloat_half)) = some (1 / 2) := by
      decide +kernel
    refine ⟨_, incident (1 / 2) none, rfl, ?_, by decide +kernel, by decide +kernel⟩
    rw [decode_encode, stateFromJson, incident]
    simp only [get_cons, String.reduceEq, reduceIte, Option.elim_some, hnumber, optional, hread]
    rfl
  · have hread := @snapshot_fromJson half ⟨[], [("ERROR_RATE_4XX".toList,
      errorRateRow [⟨80, .percent, .critical⟩, ⟨50, .percent, .warning⟩])]⟩
      (fun row => { row with name := .errorRate4xx, bands := sortBands row.bands })
      (by
        intro row hrow
        obtain rfl := List.mem_singleton.mp hrow
        refine row_fromJson .errorRate4xx fun band hband => ?_
        simp only [errorRateRow, List.mem_cons, List.not_mem_nil, or_false] at hband
        obtain rfl | rfl := hband
        · exact survives_intCast half 80
        · exact survives_intCast half 50)
    have hbands := congrArg (fun s => s.rows.map fun row => row.2.bands.map Band.value)
      (Option.some.inj (hread.symm.trans h))
    exact absurd hbands (by decide +kernel)
  · have hread := @snapshot_fromJson half ⟨[], [("ERROR_RATE_5XX".toList, errorRateRow [])]⟩
      (fun row => { row with name := .errorRate5xx, bands := sortBands row.bands })
      (by
        intro row hrow
        obtain rfl := List.mem_singleton.mp hrow
        exact row_fromJson .errorRate5xx fun band hband => absurd hband List.not_mem_nil)
    have hnames := congrArg (fun s => s.rows.map fun row => row.2.name)
      (Option.some.inj (hread.symm.trans h))
    exact absurd hnames (by decide)

end Ai4iCore.Kafka.Codecs
