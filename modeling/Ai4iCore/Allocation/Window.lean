import Ai4iCore.Allocation.Service

/-!
# The budget window of a tenant

`revise_tenant_budget` also moves the dates between which the budget can be spent
(`_resolve_revised_window`). The start is locked once it is on file. The end is checked
against the start, and against today when the window has lapsed, but never against the
end on file: a live window accepts an earlier one, also one that has passed
(`live_window_is_cut_short`). The window grows over a whole sequence of revisions exactly
when no revision of a live window gives an earlier end (`budget_window_grows`).

The columns are `timestamptz`, so an instant is stored. A date without an offset is taken
as UTC, by `as_utc_date` and, on servers that run in UTC, by the driver. One call reads
the clock once.
-/

namespace Ai4iCore.Allocation

open Checked StepSystem

/-! ## Dates -/

/-- Microseconds since the epoch. -/
abbrev Instant := Int

/-- A `datetime`: the clock on the wall and its offset from UTC, if it has one. -/
structure Datetime where
  wall : Int
  offset : Option Int
  deriving DecidableEq, Repr

def Datetime.instant (d : Datetime) : Instant := d.wall - d.offset.getD 0

/-- The calendar day in UTC, counted from the epoch. -/
def utcDate (i : Instant) : Int := i / (24 * 60 * 60 * 1000000)

/-- `as_utc_date`. -/
def asUtcDate (d : Datetime) : Int := utcDate d.instant

/-- `is_budget_window_expired`: the last day counts. -/
def isBudgetWindowExpired (now : Instant) : Option Instant → Bool
  | none => false
  | some effectiveTo => decide (utcDate effectiveTo < utcDate now)

/-! ## The window of a revision -/

inductive WindowError
  | insufficientPermissions
  | effectiveFromLocked
  | effectiveWindowRequired
  | budgetEffectiveFromInvalid
  | budgetEffectiveToInvalid
  | budgetWindowExpired
  | allocation (e : AllocationError)
  deriving DecidableEq, Repr

/-- `budget_effective_from` and `budget_effective_to` of a tenant. -/
structure Window where
  effectiveFrom : Option Instant
  effectiveTo : Option Instant
  deriving DecidableEq, Repr

/-- `TenantBudgetRequest`: action and amount come together, and something is given. -/
structure TenantBudgetRequest where
  topUp : Option TopUp
  effectiveFrom : Option Datetime
  effectiveTo : Option Datetime
  given : topUp.isSome ∨ effectiveFrom.isSome ∨ effectiveTo.isSome

/-- `_validate_new_effective_from`. -/
def validateNewEffectiveFrom (now : Instant) (effectiveFrom : Datetime) :
    Except WindowError Unit :=
  require (utcDate now ≤ asUtcDate effectiveFrom) .budgetEffectiveFromInvalid

/-- `_validate_effective_to_after_from`. -/
def validateEffectiveToAfterFrom (effectiveFrom : Instant) (effectiveTo : Datetime) :
    Except WindowError Unit :=
  require (utcDate effectiveFrom + 1 ≤ asUtcDate effectiveTo) .budgetEffectiveToInvalid

/-- `_validate_new_effective_to_not_in_past`. -/
def validateNewEffectiveToNotInPast (now : Instant) (effectiveTo : Datetime) :
    Except WindowError Unit :=
  require (utcDate now ≤ asUtcDate effectiveTo) .budgetEffectiveToInvalid

/-- `window_active`. -/
def windowActive (now : Instant) (effectiveTo : Option Instant) : Bool :=
  effectiveTo.isSome && !isBudgetWindowExpired now effectiveTo

/-- `_resolve_existing_window`. -/
def resolveExistingWindow (now : Instant) (storedFrom : Instant) (storedTo : Option Instant)
    (request : TenantBudgetRequest) : Except WindowError Window := do
  require request.effectiveFrom.isNone .effectiveFromLocked
  match request.effectiveTo with
  | none =>
    require (request.topUp.isNone || windowActive now storedTo || storedTo.isNone)
      .budgetWindowExpired
    return ⟨some storedFrom, storedTo⟩
  | some effectiveTo =>
    validateEffectiveToAfterFrom storedFrom effectiveTo
    if windowActive now storedTo then return ⟨some storedFrom, some effectiveTo.instant⟩
    else
      validateNewEffectiveToNotInPast now effectiveTo
      return ⟨some storedFrom, some effectiveTo.instant⟩

/-- `_resolve_first_window`. -/
def resolveFirstWindow (now : Instant) (effectiveFrom : Datetime)
    (effectiveTo : Option Datetime) : Except WindowError Window := do
  let effectiveTo ← orRaise effectiveTo .effectiveWindowRequired
  validateNewEffectiveFrom now effectiveFrom
  validateEffectiveToAfterFrom effectiveFrom.instant effectiveTo
  return ⟨some effectiveFrom.instant, some effectiveTo.instant⟩

/-- `_resolve_revised_window`. -/
def resolveRevisedWindow (now : Instant) (stored : Window) (request : TenantBudgetRequest) :
    Except WindowError Window :=
  match stored.effectiveFrom, request.effectiveFrom with
  | some storedFrom, _ => resolveExistingWindow now storedFrom stored.effectiveTo request
  | none, some effectiveFrom => resolveFirstWindow now effectiveFrom request.effectiveTo
  | none, none => .error .effectiveWindowRequired

/-! ## Revisions -/

/-- The tables of the allocation service and the windows of the tenants. -/
structure Books where
  world : World
  windows : Nat → Window

/-- A call of `revise_tenant_budget`. -/
structure WindowCall where
  callerIsAdmin : Bool
  tenantId : Nat
  request : TenantBudgetRequest
  platformCoreDb : Option Connection
  now : Instant

/-- The part of `revise_tenant_budget` that `Allocation.reviseTenantBudget` models. -/
def reviseBudget (w : World) (c : WindowCall) : Except WindowError World :=
  match Transaction.Txn.call (reviseTenantBudget c.tenantId c.request.topUp c.platformCoreDb) w with
  | (.ok _, w') => .ok w'
  | (.error e, _) => .error (.allocation e)

/-- `revise_tenant_budget`. -/
def reviseTenantWindow (b : Books) (c : WindowCall) : Except WindowError Books := do
  require c.callerIsAdmin .insufficientPermissions
  let _ ← orRaise (b.world.1.tenant c.tenantId) (.allocation .entityNotFound)
  let window ← resolveRevisedWindow c.now (b.windows c.tenantId) c.request
  let world ← reviseBudget b.world c
  return ⟨world, Function.update b.windows c.tenantId window⟩

/-- An accepted revision. -/
def windowStep (b : Books) (c : WindowCall) : Option Books := (reviseTenantWindow b c).toOption

/-! ## One revision -/

variable {now : Instant} {stored w w' w'' : Window} {request : TenantBudgetRequest}

theorem utcDate_mono {i j : Instant} (h : i ≤ j) : utcDate i ≤ utcDate j :=
  Int.ediv_le_ediv (by norm_num) h

theorem lt_of_utcDate_lt {i j : Instant} (h : utcDate i < utcDate j) : i < j := by
  by_contra hle
  exact absurd (utcDate_mono (not_lt.mp hle)) (not_le.mpr h)

/-- What `_resolve_revised_window` accepts: an open window is kept, or the given end replaces
the one on file, and either the window was live or the end is today or later. -/
theorem resolveRevisedWindow_cases (h : resolveRevisedWindow now stored request = .ok w) :
    (∀ f, stored.effectiveFrom = some f → w.effectiveFrom = some f) ∧
      ((request.effectiveTo = none ∧ w.effectiveTo = stored.effectiveTo ∧
          isBudgetWindowExpired now stored.effectiveTo = false) ∨
        ∃ d, request.effectiveTo = some d ∧ w.effectiveTo = some d.instant ∧
          (windowActive now stored.effectiveTo = true ∨ utcDate now ≤ utcDate d.instant)) := by
  unfold resolveRevisedWindow at h
  split at h
  · rename_i storedFrom hfrom
    obtain ⟨hlocked, h⟩ := require_bind h
    rw [Option.isNone_iff_eq_none] at hlocked
    split at h
    · rename_i hto
      obtain ⟨hopen, h⟩ := require_bind h
      obtain rfl := Except.ok.inj h
      refine ⟨fun f hf => hfrom.symm.trans hf, .inl ⟨hto, rfl, ?_⟩⟩
      -- nothing but a top-up is given
      have htopUp : request.topUp.isNone = false := by
        have hgiven := request.given
        rw [hlocked, hto] at hgiven
        simpa using hgiven
      rw [htopUp, Bool.false_or, Bool.or_eq_true] at hopen
      obtain hactive | hnone := hopen
      · rw [windowActive, Bool.and_eq_true] at hactive
        simpa using hactive.2
      · rw [Option.isNone_iff_eq_none.mp hnone]
        rfl
    · rename_i d hto
      obtain ⟨-, h⟩ := require_bind h
      split at h
      · rename_i hactive
        obtain rfl := Except.ok.inj h
        exact ⟨fun f hf => hfrom.symm.trans hf, .inr ⟨d, hto, rfl, .inl hactive⟩⟩
      · obtain ⟨hpast, h⟩ := require_bind h
        obtain rfl := Except.ok.inj h
        exact ⟨fun f hf => hfrom.symm.trans hf,
          .inr ⟨d, hto, rfl, .inr (of_decide_eq_true hpast)⟩⟩
  · rename_i effectiveFrom hfrom _
    obtain ⟨d, hto, h⟩ := orRaise_bind h
    obtain ⟨htoday, h⟩ := require_bind h
    obtain ⟨hafter, h⟩ := require_bind h
    obtain rfl := Except.ok.inj h
    refine ⟨fun f hf => absurd (hfrom.symm.trans hf) (by simp), .inr ⟨d, hto, rfl, .inr ?_⟩⟩
    rw [decide_eq_true_eq, asUtcDate] at htoday hafter
    omega
  · cases h

/-- The start stays, and the end does not move to an earlier instant. -/
structure Grows (w w' : Window) : Prop where
  effectiveFrom : ∀ f, w.effectiveFrom = some f → w'.effectiveFrom = some f
  effectiveTo : ∀ t, w.effectiveTo = some t → ∃ t', w'.effectiveTo = some t' ∧ t ≤ t'

theorem Grows.refl (w : Window) : Grows w w := ⟨fun _ hf => hf, fun t ht => ⟨t, ht, le_rfl⟩⟩

theorem Grows.trans (h : Grows w w') (h' : Grows w' w'') : Grows w w'' where
  effectiveFrom f hf := h'.effectiveFrom f (h.effectiveFrom f hf)
  effectiveTo t ht := by
    obtain ⟨t', ht', hle⟩ := h.effectiveTo t ht
    obtain ⟨t'', ht'', hle'⟩ := h'.effectiveTo t' ht'
    exact ⟨t'', ht'', hle.trans hle'⟩

/-- A new end for a window that has not expired is no earlier than the one on file. -/
def Extends (now : Instant) (stored : Window) (request : TenantBudgetRequest) : Prop :=
  ∀ t d, stored.effectiveTo = some t → isBudgetWindowExpired now (some t) = false →
    request.effectiveTo = some d → t ≤ d.instant

/-- **One accepted revision** grows the window, and leaves one that is not over, exactly when
it does not shorten a window that is not over. -/
theorem resolveRevisedWindow_grows_iff
    (h : resolveRevisedWindow now stored request = .ok w) :
    Grows stored w ∧ isBudgetWindowExpired now w.effectiveTo = false ↔
      Extends now stored request := by
  obtain ⟨hfrom, ⟨hnone, hto, hlive⟩ | ⟨d, hd, hto, hcheck⟩⟩ := resolveRevisedWindow_cases h
  · refine ⟨fun _ t d _ _ hd => ?_, fun _ => ⟨⟨hfrom, fun t ht => ⟨t, ?_, le_rfl⟩⟩, ?_⟩⟩
    · rw [hnone] at hd
      cases hd
    · rw [hto, ht]
    · rw [hto, hlive]
  · constructor
    · rintro ⟨hgrows, -⟩ t d' ht - hd'
      obtain rfl := Option.some.inj (hd.symm.trans hd')
      obtain ⟨t', ht', hle⟩ := hgrows.effectiveTo t ht
      obtain rfl := Option.some.inj (hto.symm.trans ht')
      exact hle
    · intro hextends
      have hlate : ∀ t, stored.effectiveTo = some t → t ≤ d.instant := by
        intro t ht
        cases hexpired : isBudgetWindowExpired now (some t) with
        | false => exact hextends t d ht hexpired hd
        | true =>
          -- a lapsed window is not active, so the given end was compared with today
          rw [windowActive, ht, hexpired] at hcheck
          rw [isBudgetWindowExpired, decide_eq_true_eq] at hexpired
          have htoday : utcDate now ≤ utcDate d.instant := by simpa using hcheck
          exact (lt_of_utcDate_lt (hexpired.trans_le htoday)).le
      refine ⟨⟨hfrom, fun t ht => ⟨d.instant, hto, hlate t ht⟩⟩, ?_⟩
      rw [hto, isBudgetWindowExpired, decide_eq_false_iff_not, not_lt]
      obtain hactive | htoday := hcheck
      · rw [windowActive, Bool.and_eq_true] at hactive
        obtain ⟨t, ht⟩ := Option.isSome_iff_exists.mp hactive.1
        have hopen : utcDate now ≤ utcDate t := by
          simpa [ht, isBudgetWindowExpired] using hactive.2
        exact hopen.trans (utcDate_mono (hlate t ht))
      · exact htoday

/-! ## Sequences of revisions -/

theorem windowStep_ok {b b' : Books} {c : WindowCall} (h : windowStep b c = some b') :
    ∃ window, resolveRevisedWindow c.now (b.windows c.tenantId) c.request = .ok window ∧
      b'.windows = Function.update b.windows c.tenantId window := by
  obtain ⟨-, h⟩ := require_bind (toOption_ok h)
  obtain ⟨_, -, h⟩ := orRaise_bind h
  obtain ⟨window, hwindow, h⟩ := bind_ok h
  obtain ⟨world, -, h⟩ := bind_ok h
  obtain rfl := Except.ok.inj h
  exact ⟨window, hwindow, rfl⟩

/-- The condition: a revision of the tenant that gives an end for a window that has not
expired gives one that is no earlier than the end on file. -/
def ExtendsWindow (tenantId : Nat) (b : Books) (c : WindowCall) : Prop :=
  c.tenantId = tenantId → Extends c.now (b.windows tenantId) c.request

/-- Between any two points of the sequence the window of the tenant has grown, and a revision
of the tenant leaves a window that is not over. -/
def WindowLaw (tenantId : Nat) (b : Books) (calls : List WindowCall) : Prop :=
  ∀ before between m m', before ++ between <+: calls → Run windowStep b before m →
    Run windowStep m between m' → Grows (m.windows tenantId) (m'.windows tenantId) ∧
      ∀ c, between.getLast? = some c → c.tenantId = tenantId →
        isBudgetWindowExpired c.now (m'.windows tenantId).effectiveTo = false

/-- One step of the law. -/
theorem windowStep_grows_iff {tenantId : Nat} {b b' : Books} {c : WindowCall}
    (h : windowStep b c = some b') :
    ExtendsWindow tenantId b c ↔ Grows (b.windows tenantId) (b'.windows tenantId) ∧
      (c.tenantId = tenantId →
        isBudgetWindowExpired c.now (b'.windows tenantId).effectiveTo = false) := by
  obtain ⟨window, hwindow, hwindows⟩ := windowStep_ok h
  by_cases htenant : c.tenantId = tenantId
  · subst htenant
    rw [hwindows, Function.update_self, ExtendsWindow]
    simpa using (resolveRevisedWindow_grows_iff hwindow).symm
  · rw [hwindows, Function.update_of_ne (Ne.symm htenant), ExtendsWindow]
    simp [htenant, Grows.refl]

/-- **The budget window only grows** over a sequence of accepted revisions exactly when none
of them shortens a window that has not expired. -/
theorem budget_window_grows (tenantId : Nat) (b b' : Books) (calls : List WindowCall)
    (hrun : Run windowStep b calls b') :
    Guarded windowStep (ExtendsWindow tenantId) b calls ↔ WindowLaw tenantId b calls := by
  constructor
  · intro hguarded before between m m' hprefix hm hm'
    obtain ⟨after, rfl⟩ := hprefix
    rw [List.append_assoc] at hguarded
    have hbetween := (guarded_append (guarded_append hguarded hm).2 hm').1
    constructor
    · refine Run.guardedInvariant (P := fun n => Grows (m.windows tenantId) (n.windows tenantId))
        (fun n c n' hn hc hstep => ?_) hm' hbetween (Grows.refl _)
      exact hn.trans ((windowStep_grows_iff hstep).mp hc).1
    · intro c hlast htenant
      obtain ⟨first, rfl⟩ := List.getLast?_eq_some_iff.mp hlast
      obtain ⟨n, hn, hstep⟩ := run_append_iff.mp hm'
      have hc := (guarded_append hbetween hn).2.1
      obtain ⟨n', hn', hnil⟩ := run_cons_iff.mp hstep
      rw [run_nil_iff] at hnil
      exact hnil ▸ ((windowStep_grows_iff hn').mp hc).2 htenant
  · intro hlaw
    rw [Run.guarded_iff_forall hrun]
    rintro before c after m rfl hm
    obtain ⟨n, hn, hrest⟩ := run_append_iff.mp hrun
    obtain rfl := Option.some.inj (Eq.trans hm.symm hn)
    obtain ⟨m', hm', -⟩ := run_cons_iff.mp hrest
    obtain ⟨hgrows, hlive⟩ := hlaw before [c] m m' ⟨after, by simp⟩ hm
      (run_cons_iff.mpr ⟨m', hm', Run.nil m'⟩)
    exact (windowStep_grows_iff hm').mpr ⟨hgrows, fun htenant => hlive c rfl htenant⟩

/-- Midnight of a day, counted from the epoch. -/
def midnight (day : Int) : Instant := day * (24 * 60 * 60 * 1000000)

/-- A tenant with ₹100 whose window runs from day 10 to day 20. -/
def sampleBooks : Books :=
  ⟨(⟨[⟨1, some 100⟩], [], []⟩, ⟨[], []⟩), fun _ => ⟨some (midnight 10), some (midnight 20)⟩⟩

/-- A revision of the window alone, on the given day. -/
def moveEnd (day effectiveTo : Int) : WindowCall :=
  ⟨true, 1, ⟨none, none, some ⟨midnight effectiveTo, none⟩, .inr (.inr rfl)⟩, none, midnight day⟩

/-- The window is extended, lapses, and is opened again. -/
def extensions : List WindowCall := [moveEnd 15 30, moveEnd 40 50]

/-- The revision gives no end before the one on file. -/
def keepsEnd (b : Books) (c : WindowCall) : Bool :=
  match (b.windows 1).effectiveTo, c.request.effectiveTo with
  | some t, some d => t ≤ d.instant
  | _, _ => true

theorem budget_window_grows_extensions :
    ∃ b', Run windowStep sampleBooks extensions b' ∧ b'.windows 1 =
      ⟨some (midnight 10), some (midnight 50)⟩ ∧ WindowLaw 1 sampleBooks extensions := by
  obtain ⟨b', hrun, hwindow⟩ := exists_run_of_map windowStep sampleBooks extensions
    (fun b => b.windows 1) (x := ⟨some (midnight 10), some (midnight 50)⟩) (by decide +kernel)
  refine ⟨b', hrun, hwindow, (budget_window_grows 1 sampleBooks b' extensions hrun).mp ?_⟩
  refine guarded_of_check (g := keepsEnd) (fun b c hcheck _ t d ht _ hd => ?_) (by decide +kernel)
  simp only [keepsEnd, ht, hd, decide_eq_true_eq] at hcheck
  exact hcheck

/-- On day 15 the end of a live window is moved from day 20 to day 12: the window is cut short
and is over. -/
theorem live_window_is_cut_short :
    ∃ b', Run windowStep sampleBooks [moveEnd 15 12] b' ∧
      (sampleBooks.windows 1).effectiveTo = some (midnight 20) ∧
      isBudgetWindowExpired (midnight 15) (some (midnight 20)) = false ∧
      (b'.windows 1).effectiveTo = some (midnight 12) ∧ midnight 12 < midnight 20 ∧
      isBudgetWindowExpired (midnight 15) (b'.windows 1).effectiveTo = true ∧
      ¬ WindowLaw 1 sampleBooks [moveEnd 15 12] := by
  obtain ⟨b', hrun, hwindow⟩ := exists_run_of_map windowStep sampleBooks [moveEnd 15 12]
    (fun b => b.windows 1) (x := ⟨some (midnight 10), some (midnight 12)⟩) (by decide +kernel)
  have hexpired : isBudgetWindowExpired (midnight 15) (b'.windows 1).effectiveTo = true := by
    rw [hwindow]
    decide
  refine ⟨b', hrun, rfl, by decide, by rw [hwindow], by decide, hexpired, fun hlaw => ?_⟩
  have hlive := (hlaw [] [moveEnd 15 12] sampleBooks b' (List.prefix_refl _) (Run.nil _) hrun).2
    (moveEnd 15 12) rfl rfl
  exact absurd (hlive.symm.trans hexpired) Bool.false_ne_true

end Ai4iCore.Allocation
