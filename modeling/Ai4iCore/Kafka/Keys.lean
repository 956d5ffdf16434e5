import Ai4iCore.Base.DecimalText
import Ai4iCore.Base.Digits
import Ai4iCore.Base.Moment
import Ai4iCore.Base.Rounding
import Ai4iCore.Base.TextSearch
import Ai4iCore.Kafka.Emit

/-!
# Ledger keys and message keys

`validate_subject`, `subject_key`, `ledger_key` and `kafka_message_key` (keys.py), with the subjects
that `quota_subject` and `budget_subject` build. A key is the name, the tenant id and the subject
with colons between them; a subject is its `key=value` pairs in the order of the keys, with commas
between them.

Names have no colon, and of a subject every value but the last one is a month or an amount, which
has no comma. The tenant id and the last value are any texts: where a tenant id goes on like a
subject, it can be read in two ways. Where it does not, which no number and not `PLATFORM` does, a
key belongs to one name, tenant and subject (`keys_determine`).

The tables of white space and of lower case letters are left open.
-/

namespace Ai4iCore.Kafka.Keys

open Calendar TextSearch

/-! ## Values -/

/-- `str.isspace` of a character, and `str.lower`. -/
structure Unicode where
  space : Char → Bool
  lower : Text → Text

/-- What `$` may stand before: one line feed at the end. -/
def withoutLineFeed (text : Text) : Text :=
  if text.getLast? = some '\n' then text.dropLast else text

/-- `\d`. -/
def isDecimal (c : Char) : Bool := (UnicodeDigits.decimal c).isSome

/-- `_BILLING_MONTH_RE.match`. -/
def isBillingMonth (text : Text) : Bool :=
  match withoutLineFeed text with
  | [y₁, y₂, y₃, y₄, '-', m₁, m₂] =>
    [y₁, y₂, y₃, y₄].all isDecimal &&
      (m₁ = '0' && '1' ≤ m₂ && m₂ ≤ '9' || m₁ = '1' && '0' ≤ m₂ && m₂ ≤ '2')
  | _ => false

/-- `_AMOUNT_RE.match`. -/
def isAmount (text : Text) : Bool :=
  match (withoutLineFeed text).reverse with
  | d₂ :: d₁ :: '.' :: whole => whole ≠ [] && (d₂ :: d₁ :: whole).all isDecimal
  | _ => false

section

variable (u : Unicode)

/-- `_check_value`. -/
def checkValue (key : SubjectKey) (value : String) : Bool :=
  !value.toList.all u.space &&
    match key with
    | .billingMonth => isBillingMonth value.toList
    | .modelTaskType => value.toList = u.lower value.toList
    | .budgetCeiling => isAmount value.toList
    | _ => true

def checks : TextChecks := ⟨fun text => text.toList.all u.space, checkValue u⟩

/-! ## Keys -/

/-- `subject_key`. -/
def subjectKey (subject : Subject) : Text :=
  if subject = [] then ['_']
  else
    let sorted := (subject.map Prod.fst).insertionSort (· ≤ ·)
    [','].intercalate
      (sorted.map fun key => key.toList ++ '=' :: ((subject.get? key).getD "").toList)

/-- `kafka_message_key`. -/
def kafkaMessageKey (name : NotificationName) (tenantId : String) (subject : Subject) : Text :=
  name.value.toList ++ ':' :: (tenantId.toList ++ ':' :: subjectKey subject)

/-- `LEDGER_KEY_PREFIX`. -/
def ledgerKeyPrefix : Text := "ntf:v1:ledger:".toList

/-- `ledger_key`. -/
def ledgerKey (name : NotificationName) (tenantId : String) (subject : Subject) : Text :=
  ledgerKeyPrefix ++ kafkaMessageKey name tenantId subject

/-! ## Subjects -/

/-- `quota_subject`. -/
def quotaSubject (billingMonth modelTaskType : String) : Subject :=
  [(SubjectKey.billingMonth.value, billingMonth),
    (SubjectKey.modelTaskType.value, String.ofList (u.lower modelTaskType.toList))]

/-- `value.quantize(_AMOUNT_QUANTUM, ROUND_HALF_UP)`, where it has not too many digits. -/
def quantized (value : Decimal) : Option Decimal :=
  let hundredths := (Rounding.halfUp (|value.value| * 100)).toNat
  if hundredths < 10 ^ 28 then some ⟨value.negative, hundredths, -2⟩ else none

/-- `format_amount`. -/
def formatAmount (value : Decimal) : Option Text := (quantized value).map Decimal.toText

/-- `_iso_or_none`. -/
def isoOrNone : Option Moment → Text
  | none => "none".toList
  | some moment => moment.isoformat

/-- `budget_subject`. -/
def budgetSubject (allocatedBudget : Decimal) (effectiveFrom effectiveTo : Option Moment) :
    Option Subject :=
  (formatAmount allocatedBudget).map fun amount =>
    [(SubjectKey.budgetCeiling.value, String.ofList amount),
      (SubjectKey.budgetWindow.value,
        String.ofList (isoOrNone effectiveFrom ++ '_' :: isoOrNone effectiveTo))]

/-- What a key is made of, with a subject that passes `validate_subject`. -/
structure Entry where
  name : NotificationName
  tenantId : String
  subject : Subject
  distinct : (subject.map Prod.fst).Nodup
  valid : (validateSubject (checks u) name subject).isSome = true

/-- The tenant id does not go on like a subject of the notification. -/
def Unambiguous (name : NotificationName) (tenantId : String) : Prop :=
  ∀ key ∈ (subjectKeys name).head?, ¬ (':' :: (key.value.toList ++ ['=']) <:+: tenantId.toList)

end

variable {u : Unicode}

def Entry.key (e : Entry u) : Text := ledgerKey e.name e.tenantId e.subject

def Entry.messageKey (e : Entry u) : Text := kafkaMessageKey e.name e.tenantId e.subject

/-- One name, one tenant, and subjects that are equal as dictionaries. -/
def Entry.Same (e e' : Entry u) : Prop :=
  e.name = e'.name ∧ e.tenantId = e'.tenantId ∧ ∀ key, e.subject.get? key = e'.subject.get? key

/-! ## Values without commas -/

theorem mem_withoutLineFeed {c : Char} {text : Text} (h : c ∈ text) :
    c = '\n' ∨ c ∈ withoutLineFeed text := by
  unfold withoutLineFeed
  split
  · rename_i hlast
    obtain ⟨front, rfl⟩ := List.getLast?_eq_some_iff.mp hlast
    rw [List.dropLast_concat]
    obtain h | h := List.mem_append.mp h
    · exact .inr h
    · exact .inl (List.mem_singleton.mp h)
  · exact .inr h

theorem comma_notMem {text : Text} (h : ',' ∉ withoutLineFeed text) : ',' ∉ text :=
  fun hmem => (mem_withoutLineFeed hmem).elim (fun heq => absurd heq (by decide)) h

theorem comma_notMem_of_isBillingMonth {text : Text} (h : isBillingMonth text = true) :
    ',' ∉ text := by
  refine comma_notMem ?_
  unfold isBillingMonth at h
  split at h
  · rename_i y₁ y₂ y₃ y₄ m₁ m₂ heq
    rw [heq]
    intro hmem
    simp only [List.mem_cons, List.not_mem_nil, or_false] at hmem
    simp only [List.all_cons, List.all_nil, Bool.and_true, Bool.and_eq_true] at h
    obtain ⟨⟨h₁, h₂, h₃, h₄⟩, hmonth⟩ := h
    obtain rfl | rfl | rfl | rfl | hdash | rfl | rfl := hmem
    · exact absurd h₁ (by decide)
    · exact absurd h₂ (by decide)
    · exact absurd h₃ (by decide)
    · exact absurd h₄ (by decide)
    · exact absurd hdash (by decide)
    · exact absurd hmonth (by simp)
    · exact absurd hmonth (by simp)
  · exact absurd h (by decide)

theorem comma_notMem_of_isAmount {text : Text} (h : isAmount text = true) : ',' ∉ text := by
  refine comma_notMem ?_
  rw [← List.mem_reverse]
  unfold isAmount at h
  split at h
  · rename_i d₂ d₁ whole heq
    rw [heq]
    obtain ⟨-, hall⟩ := Bool.and_eq_true_iff.mp h
    have hdecimal := List.all_eq_true.mp hall
    intro hmem
    have hin : ',' ∈ d₂ :: d₁ :: whole := by
      simpa using hmem
    exact absurd (hdecimal _ hin) (by decide)
  · exact absurd h (by decide)

/-! ## Valid subjects -/

theorem isSome_of_mapM {α β : Type} {f : α → Option β} {l : List α}
    (h : (l.mapM f).isSome = true) : ∀ a ∈ l, (f a).isSome = true := by
  induction l with
  | nil =>
    intro a ha
    cases ha
  | cons b l ih =>
    rw [List.mapM_cons] at h
    obtain ⟨bs, hbs⟩ := Option.isSome_iff_exists.mp h
    obtain ⟨x, hx, hrest⟩ := Option.bind_eq_some_iff.mp hbs
    obtain ⟨xs, hxs, -⟩ := Option.bind_eq_some_iff.mp hrest
    intro a ha
    obtain rfl | ha := List.mem_cons.mp ha
    · rw [hx]
      rfl
    · exact ih (by rw [hxs]; rfl) a ha

/-- The keys of a valid subject are those of its type, each with a value that passes the check. -/
theorem validate_spec {t : TextChecks} {name : NotificationName} {subject : Subject}
    (h : (validateSubject t name subject).isSome = true) :
    (∀ k, k ∈ subject.map Prod.fst ↔ k ∈ (subjectKeys name).map SubjectKey.value) ∧
      ∀ key ∈ subjectKeys name, ∃ v, subject.get? key.value = some v ∧ t.check key v = true := by
  unfold validateSubject at h
  dsimp only at h
  split at h
  · rename_i hkeys
    obtain ⟨hsub, hsup⟩ := Bool.and_eq_true_iff.mp hkeys
    refine ⟨fun k => ⟨fun hk => of_decide_eq_true (List.all_eq_true.mp hsub k hk),
      fun hk => of_decide_eq_true (List.all_eq_true.mp hsup k hk)⟩, fun key hkey => ?_⟩
    obtain ⟨entry, hentry⟩ := Option.isSome_iff_exists.mp (isSome_of_mapM h key hkey)
    obtain ⟨v, hv, hcheck⟩ := Option.bind_eq_some_iff.mp hentry
    refine ⟨v, hv, ?_⟩
    split at hcheck
    · assumption
    · cases hcheck
  · cases h

theorem subjectKeys_sorted (name : NotificationName) :
    ((subjectKeys name).map SubjectKey.value).Pairwise (· ≤ ·) ∧
      ((subjectKeys name).map SubjectKey.value).Nodup := by
  cases name <;> decide

/-- In the order of the keys, which is that of the type. -/
theorem sorted_keys (e : Entry u) :
    (e.subject.map Prod.fst).insertionSort (· ≤ ·) = (subjectKeys e.name).map SubjectKey.value := by
  obtain ⟨hsorted, hnodup⟩ := subjectKeys_sorted e.name
  have hperm : (e.subject.map Prod.fst).Perm ((subjectKeys e.name).map SubjectKey.value) :=
    (List.perm_ext_iff_of_nodup e.distinct hnodup).mpr (validate_spec e.valid).1
  exact ((List.perm_insertionSort _ _).trans hperm).eq_of_pairwise'
    (List.pairwise_insertionSort _ _) hsorted

/-- The value of a key. -/
def Entry.value (e : Entry u) (key : SubjectKey) : String := (e.subject.get? key.value).getD ""

def Entry.part (e : Entry u) (key : SubjectKey) : Text :=
  key.value.toList ++ '=' :: (e.value key).toList

theorem subject_eq_nil_iff (e : Entry u) : e.subject = [] ↔ subjectKeys e.name = [] := by
  have hlength := congrArg List.length (sorted_keys e)
  rw [List.length_insertionSort, List.length_map, List.length_map] at hlength
  rw [← List.length_eq_zero_iff, ← List.length_eq_zero_iff, hlength]

theorem subjectKey_eq (e : Entry u) : subjectKey e.subject =
    if subjectKeys e.name = [] then ['_']
    else [','].intercalate ((subjectKeys e.name).map e.part) := by
  unfold subjectKey
  simp only [subject_eq_nil_iff e, sorted_keys e, List.map_map]
  rfl

/-- Only the last value may have a comma. -/
theorem comma_notMem_part (e : Entry u) :
    ∀ part ∈ ((subjectKeys e.name).map e.part).dropLast, ',' ∉ part := by
  intro part hpart
  rw [← List.map_dropLast] at hpart
  obtain ⟨key, hkey, rfl⟩ := List.mem_map.mp hpart
  have hmem : key ∈ subjectKeys e.name := List.dropLast_subset _ hkey
  obtain ⟨v, hv, hcheck⟩ := (validate_spec e.valid).2 key hmem
  have hvalue : e.value key = v := by rw [Entry.value, hv]; rfl
  have hchecked := (Bool.and_eq_true_iff.mp hcheck).2
  have hbefore : key = .billingMonth ∨ key = .budgetCeiling := by
    revert hkey
    cases e.name <;> cases key <;> decide
  rw [Entry.part, hvalue]
  obtain rfl | rfl := hbefore
  · have hcomma := comma_notMem_of_isBillingMonth hchecked
    simp [SubjectKey.value, hcomma]
  · have hcomma := comma_notMem_of_isAmount hchecked
    simp [SubjectKey.value, hcomma]

/-- The parts of two subjects of one type. -/
theorem part_injective {e e' : Entry u} {key : SubjectKey} (h : e.part key = e'.part key) :
    e.value key = e'.value key := by
  have hvalue := (List.cons.inj (List.append_cancel_left h)).2
  exact String.toList_inj.mp hvalue

theorem get?_of_value {e e' : Entry u} (hname : e.name = e'.name)
    (h : ∀ key ∈ subjectKeys e.name, e.value key = e'.value key) (k : String) :
    e.subject.get? k = e'.subject.get? k := by
  by_cases hk : k ∈ (subjectKeys e.name).map SubjectKey.value
  · obtain ⟨key, hkey, rfl⟩ := List.mem_map.mp hk
    obtain ⟨v, hv, -⟩ := (validate_spec e.valid).2 key hkey
    obtain ⟨v', hv', -⟩ := (validate_spec e'.valid).2 key (hname ▸ hkey)
    have hvalue := h key hkey
    rw [Entry.value, Entry.value, hv, hv'] at hvalue
    rw [hv, hv']
    exact congrArg some hvalue
  · have hnone : e.subject.get? k = none := Dict.get?_eq_none fun entry hentry heq =>
      hk (((validate_spec e.valid).1 k).mp (heq ▸ List.mem_map_of_mem hentry))
    have hnone' : e'.subject.get? k = none := Dict.get?_eq_none fun entry hentry heq =>
      hk (hname ▸ ((validate_spec e'.valid).1 k).mp (heq ▸ List.mem_map_of_mem hentry))
    rw [hnone, hnone']

/-- The subject part determines the subject. -/
theorem subjectKey_injective {e e' : Entry u} (hname : e.name = e'.name)
    (h : subjectKey e.subject = subjectKey e'.subject) (k : String) :
    e.subject.get? k = e'.subject.get? k := by
  refine get?_of_value hname (fun key hkey => ?_) k
  have hne : subjectKeys e.name ≠ [] := List.ne_nil_of_mem hkey
  rw [subjectKey_eq, subjectKey_eq, ← hname, if_neg hne, if_neg hne] at h
  have hparts := intercalate_injective (by simp) (comma_notMem_part e)
    (by rw [hname]; exact comma_notMem_part e') h
  exact part_injective (List.map_inj_left.mp hparts key hkey)

/-! ## Whole keys -/

theorem colon_notMem_name (name : NotificationName) : ':' ∉ name.value.toList := by
  cases name <;> decide

theorem name_injective {name name' : NotificationName}
    (h : name.value = name'.value) : name = name' := by
  have hname := name.find?_value
  rw [h, name'.find?_value] at hname
  exact (Option.some.inj hname).symm

/-- Behind its separator, the tenant id ends where the subject starts. -/
theorem tenant_cut {e e' : Entry u} (hname : e.name = e'.name)
    (htenant : Unambiguous e.name e.tenantId) (htenant' : Unambiguous e'.name e'.tenantId)
    (h : e.tenantId.toList ++ ':' :: subjectKey e.subject =
      e'.tenantId.toList ++ ':' :: subjectKey e'.subject) :
    e.tenantId = e'.tenantId ∧ subjectKey e.subject = subjectKey e'.subject := by
  cases hkeys : subjectKeys e.name with
  | nil =>
    have hempty : subjectKey e.subject = ['_'] := by rw [subjectKey_eq, if_pos hkeys]
    have hempty' : subjectKey e'.subject = ['_'] := by rw [subjectKey_eq, ← hname, if_pos hkeys]
    rw [hempty, hempty'] at h ⊢
    exact ⟨String.toList_inj.mp (List.append_cancel_right h), rfl⟩
  | cons key keys =>
    -- both subjects start with the first key of the type
    have hstart : ∀ d : Entry u, d.name = e.name → ∃ rest,
        subjectKey d.subject = (key.value.toList ++ ['=']) ++ rest := by
      intro d hd
      rw [subjectKey_eq, hd, hkeys, if_neg (List.cons_ne_nil _ _), List.map_cons]
      cases keys with
      | nil =>
        refine ⟨(d.value key).toList, ?_⟩
        rw [List.map_nil, List.intercalate_singleton, Entry.part]
        simp
      | cons key' keys =>
        refine ⟨(d.value key).toList ++ ([','] ++
          [','].intercalate ((key' :: keys).map d.part)), ?_⟩
        rw [List.map_cons, List.intercalate_cons_cons, Entry.part]
        simp
    obtain ⟨rest, hrest⟩ := hstart e rfl
    obtain ⟨rest', hrest'⟩ := hstart e' hname.symm
    have hcolon : ':' ∉ key.value.toList ++ ['='] := by
      cases key <;> decide
    rw [hrest, hrest'] at h ⊢
    obtain ⟨htext, hsame⟩ := cut_pattern_unique hcolon (htenant key (by rw [hkeys]; rfl))
      (htenant' key (by rw [← hname, hkeys]; rfl)) h
    exact ⟨String.toList_inj.mp htext, by rw [hsame]⟩

theorem same_of_messageKey {e e' : Entry u} (htenant : Unambiguous e.name e.tenantId)
    (htenant' : Unambiguous e'.name e'.tenantId) (h : e.messageKey = e'.messageKey) :
    e.Same e' := by
  obtain ⟨hname, hrest⟩ := cut_unique (colon_notMem_name _) (colon_notMem_name _) h
  have heq := name_injective (String.toList_inj.mp hname)
  obtain ⟨hid, hsubject⟩ := tenant_cut heq htenant htenant' hrest
  exact ⟨heq, hid, subjectKey_injective heq hsubject⟩

theorem messageKey_of_same {e e' : Entry u} (h : e.Same e') : e.messageKey = e'.messageKey := by
  obtain ⟨hname, htenant, hsubject⟩ := h
  have hpart : e.part = e'.part := by
    funext key
    rw [Entry.part, Entry.part, Entry.value, Entry.value, hsubject]
  rw [Entry.messageKey, Entry.messageKey, kafkaMessageKey, kafkaMessageKey, subjectKey_eq,
    subjectKey_eq, hname, htenant, hpart]

theorem messageKey_eq_iff {e e' : Entry u} (htenant : Unambiguous e.name e.tenantId)
    (htenant' : Unambiguous e'.name e'.tenantId) : e.messageKey = e'.messageKey ↔ e.Same e' :=
  ⟨same_of_messageKey htenant htenant', messageKey_of_same⟩

theorem key_eq_messageKey (e : Entry u) : e.key = ledgerKeyPrefix ++ e.messageKey := rfl

/-- A tenant id without a colon can be read in one way. -/
theorem unambiguous_of_colon_notMem {tenantId : String} (h : ':' ∉ tenantId.toList)
    (name : NotificationName) : Unambiguous name tenantId :=
  fun _ _ hin => h (List.IsInfix.subset hin List.mem_cons_self)

/-! ## Subjects of quotas and budgets -/

theorem quotaSubject_injective {e e' : Entry u} {month type month' type' : String}
    (hname : e.name = e'.name) (hs : e.subject = quotaSubject u month type)
    (hs' : e'.subject = quotaSubject u month' type')
    (h : subjectKey e.subject = subjectKey e'.subject) :
    month = month' ∧ u.lower type.toList = u.lower type'.toList := by
  have hget := subjectKey_injective hname h
  rw [hs, hs'] at hget
  have hmonth := Option.some.inj (hget SubjectKey.billingMonth.value)
  have htype := Option.some.inj (hget SubjectKey.modelTaskType.value)
  have htext := congrArg String.toList htype
  rw [String.toList_ofList, String.toList_ofList] at htext
  exact ⟨hmonth, htext⟩

theorem underscore_notMem_isoOrNone (moment : Option Moment) : '_' ∉ isoOrNone moment := by
  cases moment with
  | none => decide
  | some m =>
    intro hmem
    obtain hdigit | hother := mem_isoformat hmem
    · exact absurd hdigit (by decide)
    · exact absurd hother (by decide)

theorem isoOrNone_injective {moment moment' : Option Moment}
    (h : isoOrNone moment = isoOrNone moment') : moment = moment' := by
  have hnone : ∀ m : Moment, m.isoformat ≠ "none".toList := by
    intro m heq
    have hmem : 'n' ∈ m.isoformat := by
      rw [heq]
      decide
    obtain hdigit | hother := mem_isoformat hmem
    · exact absurd hdigit (by decide)
    · exact absurd hother (by decide)
  cases moment with
  | none =>
    cases moment' with
    | none => rfl
    | some m' => exact absurd h.symm (hnone m')
  | some m =>
    cases moment' with
    | none => exact absurd h (hnone m)
    | some m' => exact congrArg some (isoformat_injective h)

theorem formatAmount_injective {amount amount' : Decimal} (h : (formatAmount amount).isSome = true)
    (heq : formatAmount amount = formatAmount amount') : quantized amount = quantized amount' := by
  unfold formatAmount at h heq
  cases hq : quantized amount with
  | none =>
    rw [hq] at h
    cases h
  | some d =>
    rw [hq] at heq
    obtain ⟨d', hd', htext⟩ := Option.map_eq_some_iff.mp heq.symm
    have hparse := Decimal.parse_toText d'
    rw [htext, Decimal.parse_toText] at hparse
    rw [hd', Option.some.inj hparse]

theorem budgetSubject_injective {e e' : Entry u} {amount amount' : Decimal}
    {start stop start' stop' : Option Moment} (hname : e.name = e'.name)
    (hs : budgetSubject amount start stop = some e.subject)
    (hs' : budgetSubject amount' start' stop' = some e'.subject)
    (h : subjectKey e.subject = subjectKey e'.subject) :
    quantized amount = quantized amount' ∧ start = start' ∧ stop = stop' := by
  have hget := subjectKey_injective hname h
  obtain ⟨text, htext, hsubject⟩ := Option.map_eq_some_iff.mp hs
  obtain ⟨text', htext', hsubject'⟩ := Option.map_eq_some_iff.mp hs'
  rw [← hsubject, ← hsubject'] at hget
  have hceiling := congrArg String.toList (Option.some.inj (hget SubjectKey.budgetCeiling.value))
  have hwindow := congrArg String.toList (Option.some.inj (hget SubjectKey.budgetWindow.value))
  rw [String.toList_ofList, String.toList_ofList] at hceiling hwindow
  obtain ⟨hstart, hstop⟩ := cut_unique (underscore_notMem_isoOrNone _)
    (underscore_notMem_isoOrNone _) hwindow
  have hamount : formatAmount amount = formatAmount amount' := by rw [htext, htext', hceiling]
  exact ⟨formatAmount_injective (by rw [htext]; rfl) hamount, isoOrNone_injective hstart,
    isoOrNone_injective hstop⟩

/-- Keys of valid subjects belong to one name, tenant and subject, where the tenant ids can be read
in one way. A subject part belongs to one month and type, or to one rounded amount and window,
whatever the tenants are. -/
theorem keys_determine (e e' : Entry u) :
    (Unambiguous e.name e.tenantId → Unambiguous e'.name e'.tenantId →
      (e.key = e'.key ↔ e.Same e') ∧ (e.messageKey = e'.messageKey ↔ e.Same e')) ∧
    (e.name = e'.name → subjectKey e.subject = subjectKey e'.subject →
      (∀ key, e.subject.get? key = e'.subject.get? key) ∧
      (∀ month type month' type', e.subject = quotaSubject u month type →
        e'.subject = quotaSubject u month' type' →
        month = month' ∧ u.lower type.toList = u.lower type'.toList) ∧
      ∀ amount start stop amount' start' stop',
        budgetSubject amount start stop = some e.subject →
        budgetSubject amount' start' stop' = some e'.subject →
        quantized amount = quantized amount' ∧ start = start' ∧ stop = stop') := by
  refine ⟨fun htenant htenant' => ?_, fun hname hsubject =>
    ⟨subjectKey_injective hname hsubject, ?_, ?_⟩⟩
  · have hmessage := messageKey_eq_iff htenant htenant'
    refine ⟨?_, hmessage⟩
    rw [key_eq_messageKey, key_eq_messageKey, List.append_right_inj]
    exact hmessage
  · intro month type month' type' hs hs'
    exact quotaSubject_injective hname hs hs' hsubject
  · intro amount start stop amount' start' stop' hs hs'
    exact budgetSubject_injective hname hs hs' hsubject

/-- The tables on ASCII. -/
def ascii : Unicode := ⟨fun c => c = ' ', fun text => text.map Char.toLower⟩

/-- Two tenants, numbered as they are, have keys of their own. -/
theorem keys_of_two_tenants : ∃ e e' : Entry ascii,
    e.subject = quotaSubject ascii "2026-09" "ASR" ∧ e'.subject = e.subject ∧
      e.tenantId = "42" ∧ e'.tenantId = "43" ∧ e.key ≠ e'.key ∧ e.messageKey ≠ e'.messageKey := by
  let e : Entry ascii := ⟨.quotaThreshold, "42", quotaSubject ascii "2026-09" "ASR",
    by decide +kernel, by decide +kernel⟩
  let e' : Entry ascii := { e with tenantId := "43" }
  obtain ⟨hkey, hmessage⟩ := (keys_determine e e').1
    (unambiguous_of_colon_notMem (by decide) _) (unambiguous_of_colon_notMem (by decide) _)
  have hne : ¬e.Same e' := fun hsame => absurd hsame.2.1 (by decide)
  exact ⟨e, e', rfl, rfl, rfl, rfl, fun h => hne (hkey.mp h), fun h => hne (hmessage.mp h)⟩

/-- A tenant id that goes on like a subject. -/
theorem keys_collide : ∃ e e' : Entry ascii,
    e.subject = quotaSubject ascii "2026-01" "x:billing_month=2026-02,model_task_type=y" ∧
      e'.subject = quotaSubject ascii "2026-02" "y" ∧ e.tenantId = "A" ∧
      e'.tenantId = "A:billing_month=2026-01,model_task_type=x" ∧
      e.key = e'.key ∧ e.messageKey = e'.messageKey ∧ ¬e.Same e' := by
  let e : Entry ascii := ⟨.quotaThreshold, "A",
    quotaSubject ascii "2026-01" "x:billing_month=2026-02,model_task_type=y",
    by decide +kernel, by decide +kernel⟩
  let e' : Entry ascii := ⟨.quotaThreshold, "A:billing_month=2026-01,model_task_type=x",
    quotaSubject ascii "2026-02" "y", by decide +kernel, by decide +kernel⟩
  have hkey : e.messageKey = e'.messageKey := by decide +kernel
  exact ⟨e, e', rfl, rfl, rfl, rfl, by rw [key_eq_messageKey, key_eq_messageKey, hkey], hkey,
    fun hsame => absurd hsame.2.1 (by decide)⟩

end Ai4iCore.Kafka.Keys
