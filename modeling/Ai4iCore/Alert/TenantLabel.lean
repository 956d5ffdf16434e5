import Ai4iCore.Base.PercentCoding
import Ai4iCore.Task.Service

/-!
# The tenant label of a request's metrics

auth-service answers the gateway with the tenant of a request in two headers
(`_set_tenant_headers`), and the observability middleware labels the metrics of the request by
the second one (`_tenant_label`): the organisation's name as the process has it in memory, or the
tenant's id where it has none.
-/

namespace Ai4iCore.Alert

open PercentCoding
open Ai4iCore.Task (Text strip isSpace strip_eq_self)

/-- `str(tenant_id)`. -/
def idText (id : Nat) : Text := (toString id).toList

/-- What `name.encode("latin-1")` takes. -/
def isLatin1 (c : Char) : Bool := c.toNat < 256

structure TenantHeaders where
  tenantId : Text
  tenantName : Text
  deriving DecidableEq, Repr

/-- `_set_tenant_headers`, with the names in `tenant_name_cache`. -/
def setTenantHeaders (cache : Nat → Option Text) (tenantId : Nat) : TenantHeaders :=
  let name := ((cache tenantId).filter (· ≠ [])).getD (idText tenantId)
  { tenantId := idText tenantId
    tenantName := if name.all isLatin1 then name else quote name }

/-- `_tenant_label`. `replace` decodes what is not UTF-8. -/
def tenantLabel (replace : List UInt8 → Text) (tenantName : Option Text) : Text :=
  match unquote replace (strip (tenantName.getD [])) with
  | [] => "unknown".toList
  | label => label

/-! ## When the label is the id -/

theorem mem_of_mem_strip {t : Text} {c : Char} (h : c ∈ strip t) : c ∈ t :=
  (List.dropWhile_sublist _).mem
    (List.mem_reverse.mp ((List.dropWhile_sublist _).mem (List.mem_reverse.mp h)))

theorem not_isSpace_of_isVisible {c : Char} (h : isVisible c = true) : isSpace c = false := by
  simp only [isVisible, Bool.and_eq_true, decide_eq_true_eq] at h
  simp [isSpace]
  omega

theorem isDigit_idText {id : Nat} {c : Char} (h : c ∈ idText id) : c.isDigit = true := by
  have hdigits : idText id = Nat.toDigits 10 id := Nat.toList_repr
  rw [hdigits] at h
  exact Nat.isDigit_of_mem_toDigits (by decide) (by decide) h

theorem idText_ne_nil (id : Nat) : idText id ≠ [] := by
  have hdigits : idText id = Nat.toDigits 10 id := Nat.toList_repr
  rw [hdigits]
  exact Nat.toDigits_ne_nil

theorem idText_injective : Function.Injective idText := by
  intro m n h
  have hdigits : Nat.toDigits 10 m = Nat.toDigits 10 n :=
    Nat.toList_repr.symm.trans (h.trans Nat.toList_repr)
  rw [← @Nat.ofDigitChars_ten_toDigits m, hdigits, Nat.ofDigitChars_ten_toDigits]

theorem unreserved_of_isDigit {c : Char} (h : c.isDigit = true) : unreserved c = true := by
  simp [unreserved, Char.isAlphanum, h]

/-- What is read is the label, unless nothing is left. -/
theorem tenantLabel_eq {replace : List UInt8 → Text} {header label : Text}
    (h : unquote replace (strip header) = label) (hne : label ≠ []) :
    tenantLabel replace (some header) = label := by
  show (match unquote replace (strip header) with
    | [] => "unknown".toList
    | label => label) = _
  rw [h]
  split
  · exact absurd rfl hne
  · rfl

theorem percent_not_mem_idText (id : Nat) : '%' ∉ idText id := fun hmem =>
  unreserved_ne_percent (unreserved_of_isDigit (isDigit_idText hmem)) rfl

theorem strip_idText (id : Nat) : strip (idText id) = idText id :=
  strip_eq_self fun _ hc => not_isSpace_of_isVisible
    (unreserved_visible (unreserved_of_isDigit (isDigit_idText hc)))

theorem isLatin1_idText (id : Nat) : (idText id).all isLatin1 = true := by
  refine List.all_eq_true.mpr fun c hc => ?_
  have hvisible := unreserved_visible (unreserved_of_isDigit (isDigit_idText hc))
  simp only [isVisible, isLatin1, Bool.and_eq_true, decide_eq_true_eq] at hvisible ⊢
  omega

/-- An id is read as it is written. -/
theorem tenantLabel_idText (replace : List UInt8 → Text) (id : Nat) :
    tenantLabel replace (some (idText id)) = idText id := by
  refine tenantLabel_eq ?_ (idText_ne_nil id)
  rw [strip_idText, unquote_of_not_mem (percent_not_mem_idText id)]

/-- A name that is sent as it is. -/
theorem tenantLabel_latin1 {replace : List UInt8 → Text} {name : Text} (h : '%' ∉ name) (id : Nat) :
    tenantLabel replace (some name) = idText id ↔ strip name = idText id := by
  have hread : unquote replace (strip name) = strip name :=
    unquote_of_not_mem fun hmem => h (mem_of_mem_strip hmem)
  by_cases hnil : strip name = []
  · have hunknown : tenantLabel replace (some name) = "unknown".toList := by
      show (match unquote replace (strip name) with
        | [] => "unknown".toList
        | label => label) = _
      rw [hread, hnil]
    rw [hunknown, hnil]
    constructor
    · intro heq
      have hu : 'u' ∈ idText id := heq ▸ (by decide)
      exact absurd (isDigit_idText hu) (by decide)
    · exact fun heq => absurd heq.symm (idText_ne_nil id)
  · rw [tenantLabel_eq hread hnil]

/-- A name that is sent encoded is read back. -/
theorem tenantLabel_quote (replace : List UInt8 → Text) {name : Text} (hne : name ≠ []) :
    tenantLabel replace (some (quote name)) = name := by
  refine tenantLabel_eq ?_ hne
  rw [strip_eq_self fun c hc => not_isSpace_of_isVisible (quote_isVisible name c hc),
    unquote_quote]

/-- The process has no name of the tenant, or this name is the id but for white space around
it. -/
def NamedById (cache : Nat → Option Text) (id : Nat) : Prop :=
  ∀ name ∈ cache id, name ≠ [] → name.all isLatin1 = true ∧ strip name = idText id

/-- For names without a percent sign, as `_check_org_chars` demands, this is when the label is the
tenant's id. -/
theorem tenantLabel_eq_idText_iff {replace : List UInt8 → Text} {cache : Nat → Option Text}
    {id : Nat} (hpercent : ∀ name ∈ cache id, '%' ∉ name) :
    tenantLabel replace (some (setTenantHeaders cache id).tenantName) = idText id ↔
      NamedById cache id := by
  cases hname : (cache id).filter fun name => decide (name ≠ []) with
  | none =>
    have hheader : (setTenantHeaders cache id).tenantName = idText id := by
      simp only [setTenantHeaders, hname, Option.getD_none, isLatin1_idText, if_true]
    rw [hheader]
    refine iff_of_true (tenantLabel_idText replace id) ?_
    intro name hmem hne
    rw [Option.mem_def.mp hmem, Option.filter_some, if_pos (decide_eq_true hne)] at hname
    cases hname
  | some name =>
    obtain ⟨hcached, hne⟩ := Option.filter_eq_some_iff.mp hname
    have hnamed : NamedById cache id ↔ name.all isLatin1 = true ∧ strip name = idText id := by
      refine ⟨fun h => h name hcached (of_decide_eq_true hne), fun h name' hname' _ => ?_⟩
      obtain rfl := Option.some.inj (hcached.symm.trans hname')
      exact h
    rw [hnamed]
    simp only [setTenantHeaders, hname, Option.getD_some]
    cases hlatin1 : name.all isLatin1 with
    | true =>
      simp only [if_true, true_and]
      exact tenantLabel_latin1 (hpercent name hcached) id
    | false =>
      rw [if_neg Bool.false_ne_true, tenantLabel_quote replace (of_decide_eq_true hne)]
      refine iff_of_false ?_ (fun h => Bool.false_ne_true h.1)
      rintro rfl
      rw [isLatin1_idText] at hlatin1
      cases hlatin1

end Ai4iCore.Alert
