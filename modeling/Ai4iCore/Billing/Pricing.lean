import Ai4iCore.Base.DecimalText
import Ai4iCore.Base.Run
import Ai4iCore.Billing.Usage

/-!
# The pricing cache

`get_service_pricing` of the consumer keeps the prices of a service in the hash
`ppu:svc:{service_id}`; `update_service` of the platform deletes the hash once a change of a price
is committed. The two never meet: a call that has read the row before the commit fills the cache
after the deletion, and the old price is billed until the hash expires (`old_price_is_billed`).

As long as no call fills the cache with a row that an update which has already returned has
replaced, whoever asks after an update gets its prices or later ones
(`price_change_takes_effect`), and a row read back from the hash is the row itself
(`ofHash_toHash`).
-/

namespace Ai4iCore.Billing.PricingCache

open StepSystem

/-! ## One row, two encodings -/

/-- The pricing columns of `mm_services`. -/
structure ServiceRow where
  taskType : Option String
  unitRate : Option Decimal
  costPerUnit : Option Decimal
  unitSize : Option Nat
  cachedInputCostPerUnit : Option Decimal
  outputCostPerUnit : Option Decimal
deriving Repr, DecidableEq

/-- The hash, with its numbers as texts; a field that is missing reads as an empty one. -/
structure PricingHash where
  taskType : String
  unitRate : List Char
  costPerUnit : List Char
  unitSize : List Char
  cachedInputCostPerUnit : List Char
  outputCostPerUnit : List Char
deriving Repr, DecidableEq

/-- `ServicePricing`, with its `Decimal`s as they were read. -/
structure Pricing where
  taskType : String
  unitRate : Option Decimal
  costPerUnit : Option Decimal
  unitSize : Option Nat
  cachedInputCostPerUnit : Option Decimal
  outputCostPerUnit : Option Decimal
deriving Repr, DecidableEq

/-- What billing computes with. -/
def Pricing.toServicePricing (p : Pricing) : ServicePricing where
  taskType := p.taskType
  unitRate := p.unitRate.map Decimal.value
  costPerUnit := p.costPerUnit.map Decimal.value
  unitSize := p.unitSize
  cachedInputCostPerUnit := p.cachedInputCostPerUnit.map Decimal.value
  outputCostPerUnit := p.outputCostPerUnit.map Decimal.value

/-- `_decimal_or_none` of a text; `none` when `Decimal` raises. -/
def decimalOrNone (text : List Char) : Option (Option Decimal) :=
  if text = [] then some none else (Decimal.parse text).map some

/-- `_decimal_or_none` of a column. -/
def columnOrNone : Option Decimal → Option (Option Decimal)
  | none => some none
  | some d => (Decimal.parse d.toText).map some

/-- `int(text) if text else None`. -/
def intOrNone (text : List Char) : Option (Option Nat) :=
  if text = [] then some none else (Decimal.parseNat text).map some

/-- `_str_or_empty`. -/
def strOrEmpty (value : Option Decimal) : List Char := value.elim [] Decimal.toText

/-- The hash as `get_service_pricing` reads it. -/
def ofHash (h : PricingHash) : Option Pricing := do
  let unitRate ← decimalOrNone h.unitRate
  let costPerUnit ← decimalOrNone h.costPerUnit
  let unitSize ← intOrNone h.unitSize
  let cachedInputCostPerUnit ← decimalOrNone h.cachedInputCostPerUnit
  let outputCostPerUnit ← decimalOrNone h.outputCostPerUnit
  return ⟨h.taskType, unitRate, costPerUnit, unitSize, cachedInputCostPerUnit, outputCostPerUnit⟩

/-- The row as `get_service_pricing` reads it; a `unit_size` of 0 is none. -/
def ofRow (row : ServiceRow) : Option Pricing := do
  let unitRate ← columnOrNone row.unitRate
  let costPerUnit ← columnOrNone row.costPerUnit
  let cachedInputCostPerUnit ← columnOrNone row.cachedInputCostPerUnit
  let outputCostPerUnit ← columnOrNone row.outputCostPerUnit
  return ⟨row.taskType.getD "", unitRate, costPerUnit, row.unitSize.filter (· ≠ 0),
    cachedInputCostPerUnit, outputCostPerUnit⟩

/-- The hash as `get_service_pricing` writes it. -/
def toHash (p : Pricing) : PricingHash where
  taskType := p.taskType
  unitRate := strOrEmpty p.unitRate
  costPerUnit := strOrEmpty p.costPerUnit
  unitSize := p.unitSize.elim [] (Nat.toDigits 10)
  cachedInputCostPerUnit := strOrEmpty p.cachedInputCostPerUnit
  outputCostPerUnit := strOrEmpty p.outputCostPerUnit

theorem decimalOrNone_strOrEmpty (value : Option Decimal) :
    decimalOrNone (strOrEmpty value) = some value := by
  cases value with
  | none => rfl
  | some d =>
    have hparse := Decimal.parse_toText d
    have hne : d.toText ≠ [] := by
      intro hempty
      rw [hempty] at hparse
      cases hparse
    show decimalOrNone d.toText = _
    rw [decimalOrNone, if_neg hne, hparse]
    rfl

theorem columnOrNone_eq (value : Option Decimal) : columnOrNone value = some value := by
  cases value with
  | none => rfl
  | some d =>
    rw [columnOrNone, Decimal.parse_toText]
    rfl

theorem intOrNone_toDigits (value : Option Nat) :
    intOrNone (value.elim [] (Nat.toDigits 10)) = some value := by
  cases value with
  | none => rfl
  | some n =>
    show intOrNone (Nat.toDigits 10 n) = _
    rw [intOrNone, if_neg Nat.toDigits_ne_nil, Decimal.parseNat_toDigits]
    rfl

/-- **The round trip of the cache.** -/
theorem ofHash_toHash (p : Pricing) : ofHash (toHash p) = some p := by
  unfold ofHash toHash
  dsimp only
  simp only [decimalOrNone_strOrEmpty, intOrNone_toDigits]
  rfl

/-- No row is refused. -/
theorem ofRow_eq (row : ServiceRow) : ofRow row = some
    ⟨row.taskType.getD "", row.unitRate, row.costPerUnit, row.unitSize.filter (· ≠ 0),
      row.cachedInputCostPerUnit, row.outputCostPerUnit⟩ := by
  unfold ofRow
  simp only [columnOrNone_eq]
  rfl

/-! ## Updates and lookups, step by step -/

/-- The pricing columns of `update_data`. -/
structure PricingUpdate where
  taskType : Option (Option String)
  unitRate : Option (Option Decimal)
  costPerUnit : Option (Option Decimal)
  unitSize : Option (Option Nat)
  cachedInputCostPerUnit : Option (Option Decimal)
  outputCostPerUnit : Option (Option Decimal)
deriving Repr, DecidableEq

/-- `update_data` has one of the keys after which the hash is deleted. -/
def PricingUpdate.touches (c : PricingUpdate) : Bool :=
  c.taskType.isSome || c.unitRate.isSome || c.costPerUnit.isSome || c.unitSize.isSome ||
    c.cachedInputCostPerUnit.isSome || c.outputCostPerUnit.isSome

/-- A column at the flush: a value that was loaded is not written. -/
def flushed {α : Type} [DecidableEq α] (loaded current : α) : Option α → α
  | none => current
  | some value => if value = loaded then current else value

/-- The row that the commit leaves of `current`. -/
def ServiceRow.flush (loaded current : ServiceRow) (c : PricingUpdate) : ServiceRow where
  taskType := flushed loaded.taskType current.taskType c.taskType
  unitRate := flushed loaded.unitRate current.unitRate c.unitRate
  costPerUnit := flushed loaded.costPerUnit current.costPerUnit c.costPerUnit
  unitSize := flushed loaded.unitSize current.unitSize c.unitSize
  cachedInputCostPerUnit := flushed loaded.cachedInputCostPerUnit current.cachedInputCostPerUnit
    c.cachedInputCostPerUnit
  outputCostPerUnit := flushed loaded.outputCostPerUnit current.outputCostPerUnit
    c.outputCostPerUnit

/-- How far an `update_service` is; a commit that changes a price is numbered. -/
inductive UpdatePhase
  | idle
  | loaded (row : ServiceRow)
  | committed (version : Nat)
  | returned (version : Option Nat)
deriving Repr, DecidableEq

/-- How far a `get_service_pricing` is. A row that it has read carries its number. -/
inductive GetPhase
  | idle
  | missed
  | queried (version : Nat) (pricing : Pricing)
  | answered (result : Option ServicePricing)
  | raised
deriving DecidableEq

/-- The row of one service with all its versions, the hash, and the calls. -/
structure State where
  version : Nat
  rows : Nat → Option ServiceRow
  cache : Option PricingHash
  updates : Nat → UpdatePhase
  gets : Nat → GetPhase

namespace State

def row (s : State) : Option ServiceRow := s.rows s.version

def setUpdate (s : State) (u : Nat) (p : UpdatePhase) : State :=
  { s with updates := Function.update s.updates u p }

def setGet (s : State) (i : Nat) (p : GetPhase) : State :=
  { s with gets := Function.update s.gets i p }

/-- No call has begun. -/
def start (row : Option ServiceRow) (cache : Option PricingHash) : State :=
  ⟨0, fun _ => row, cache, fun _ => .idle, fun _ => .idle⟩

/-- Where the commit of `change` to the row that was loaded leads. -/
def commit (s : State) (u : Nat) (row : ServiceRow) (change : PricingUpdate) (loaded : ServiceRow) :
    State :=
  if change.touches then
    { s.setUpdate u (.committed (s.version + 1)) with
      version := s.version + 1
      rows := Function.update s.rows (s.version + 1) (some (loaded.flush row change)) }
  else s.setUpdate u (.returned none)

/-- The answer of the cache. -/
def cached (h : PricingHash) : GetPhase :=
  (ofHash h).elim .raised fun p => .answered (some p.toServicePricing)

/-- The answer of the database; prices without a task type are not cached. -/
def queried (s : State) : GetPhase :=
  match s.row with
  | none => .answered none
  | some row => (ofRow row).elim .raised fun p =>
      if p.taskType = "" then .answered (some p.toServicePricing) else .queried s.version p

end State

/-- The next statement of an update or a lookup, or the end of the hash. -/
inductive Label
  | load (u : Nat)
  | commit (u : Nat)
  | invalidate (u : Nat)
  | lookup (i : Nat)
  | query (i : Nat)
  | fill (i : Nat)
  | expire
deriving Repr, DecidableEq

/-- `requests u row` is what call `u` makes of the row it loads. What an update does after the
deletion is nothing to the row and the hash. -/
def step (requests : Nat → ServiceRow → PricingUpdate) (s : State) : Label → Option State
  | .load u =>
    match s.updates u with
    | .idle => some (s.setUpdate u (s.row.elim (.returned none) .loaded))
    | _ => none
  | .commit u =>
    match s.updates u with
    | .loaded loaded => s.row.map fun row => s.commit u row (requests u loaded) loaded
    | _ => none
  | .invalidate u =>
    match s.updates u with
    | .committed v => some { s.setUpdate u (.returned (some v)) with cache := none }
    | _ => none
  | .lookup i =>
    match s.gets i with
    | .idle => some (s.setGet i (s.cache.elim .missed State.cached))
    | _ => none
  | .query i =>
    match s.gets i with
    | .missed => some (s.setGet i s.queried)
    | _ => none
  | .fill i =>
    match s.gets i with
    | .queried _ p =>
      some { s.setGet i (.answered (some p.toServicePricing)) with cache := some (toHash p) }
    | _ => none
  | .expire => some { s with cache := none }

/-- What each step does. -/
inductive Steps (requests : Nat → ServiceRow → PricingUpdate) (s : State) : Label → State → Prop
  | load (u : Nat) (hidle : s.updates u = .idle) :
      Steps requests s (.load u) (s.setUpdate u (s.row.elim (.returned none) .loaded))
  | commit (u : Nat) (loaded row : ServiceRow) (hphase : s.updates u = .loaded loaded) :
      Steps requests s (.commit u) (s.commit u row (requests u loaded) loaded)
  | invalidate (u v : Nat) (hphase : s.updates u = .committed v) :
      Steps requests s (.invalidate u) { s.setUpdate u (.returned (some v)) with cache := none }
  | lookup (i : Nat) :
      Steps requests s (.lookup i) (s.setGet i (s.cache.elim .missed State.cached))
  | query (i : Nat) : Steps requests s (.query i) (s.setGet i s.queried)
  | fill (i w : Nat) (p : Pricing) (hphase : s.gets i = .queried w p) :
      Steps requests s (.fill i)
        { s.setGet i (.answered (some p.toServicePricing)) with cache := some (toHash p) }
  | expire : Steps requests s .expire { s with cache := none }

theorem step_cases {requests : Nat → ServiceRow → PricingUpdate} {s s' : State} {a : Label}
    (h : step requests s a = some s') : Steps requests s a s' := by
  cases a with
  | load u =>
    unfold step at h
    dsimp only at h
    split at h
    · rename_i hidle
      obtain rfl := Option.some.inj h
      exact .load u hidle
    · cases h
  | commit u =>
    unfold step at h
    dsimp only at h
    split at h
    · rename_i loaded hphase
      obtain ⟨row, -, rfl⟩ := Option.map_eq_some_iff.mp h
      exact .commit u loaded row hphase
    · cases h
  | invalidate u =>
    unfold step at h
    dsimp only at h
    split at h
    · rename_i v hphase
      obtain rfl := Option.some.inj h
      exact .invalidate u v hphase
    · cases h
  | lookup i =>
    unfold step at h
    dsimp only at h
    split at h
    · obtain rfl := Option.some.inj h
      exact .lookup i
    · cases h
  | query i =>
    unfold step at h
    dsimp only at h
    split at h
    · obtain rfl := Option.some.inj h
      exact .query i
    · cases h
  | fill i =>
    unfold step at h
    dsimp only at h
    split at h
    · rename_i w p hphase
      obtain rfl := Option.some.inj h
      exact .fill i w p hphase
    · cases h
  | expire =>
    obtain rfl := Option.some.inj h
    exact .expire

/-! ## The invariant -/

/-- The prices of version `w` of the row. -/
def State.priced (s : State) (w : Nat) : Option Pricing := (s.rows w).bind ofRow

/-- Every update that has returned is part of version `w`. -/
def State.Settled (s : State) (w : Nat) : Prop := ∀ u v, s.updates u = .returned (some v) → v ≤ w

/-- No update has a number above the version of the row. -/
structure Bounded (s : State) : Prop where
  returned : s.Settled s.version
  committed : ∀ u v, s.updates u = .committed v → v ≤ s.version

/-- The hash holds a version that no returned update has replaced, and a call that is about to
fill it the version it has read. -/
structure Inv (s : State) : Prop where
  bounded : Bounded s
  cache : ∀ h, s.cache = some h → ∃ w p, w ≤ s.version ∧ s.Settled w ∧
    ofHash h = some p ∧ s.priced w = some p
  gets : ∀ i w p, s.gets i = .queried w p → w ≤ s.version ∧ s.priced w = some p

/-- A call fills the cache while no returned update has replaced what it has read. -/
def Fresh (s : State) : Label → Prop
  | .fill i => ∀ w p, s.gets i = .queried w p → s.Settled w
  | _ => True

/-- What call `i` has, when it begins after an update has returned with version `v`. -/
def Since (s : State) (v : Nat) : GetPhase → Prop
  | .queried w _ => v ≤ w
  | .answered result => ∃ w, v ≤ w ∧ w ≤ s.version ∧
      result = (s.priced w).map Pricing.toServicePricing
  | .raised => False
  | _ => True

section Steps

variable {requests : Nat → ServiceRow → PricingUpdate} {s s' : State} {u i v : Nat}

theorem priced_some {row : ServiceRow} (hrow : s.row = some row) :
    s.priced s.version = ofRow row := by
  rw [State.priced, ← State.row, hrow]
  rfl

/-- Only updates that return settle more. -/
theorem settled_setUpdate {w : Nat} {p : UpdatePhase} (h : s.Settled w)
    (hp : ∀ v, p = .returned (some v) → v ≤ w) : (s.setUpdate u p).Settled w := by
  intro j v hj
  change Function.update s.updates u p j = _ at hj
  by_cases hju : j = u
  · rw [hju, Function.update_self] at hj
    exact hp v hj
  · rw [Function.update_of_ne hju] at hj
    exact h j v hj

theorem bounded_start (row : Option ServiceRow) (cache : Option PricingHash) :
    Bounded (State.start row cache) := by
  refine ⟨fun u v h => ?_, fun u v h => ?_⟩
  · cases h
  · cases h

theorem Bounded.setUpdate (h : Bounded s) {p : UpdatePhase}
    (hp : ∀ v, p = .returned (some v) ∨ p = .committed v → v ≤ s.version) :
    Bounded (s.setUpdate u p) := by
  refine ⟨settled_setUpdate h.returned fun v hv => hp v (.inl hv), fun j v hj => ?_⟩
  change Function.update s.updates u p j = _ at hj
  by_cases hju : j = u
  · rw [hju, Function.update_self] at hj
    exact hp v (.inr hj)
  · rw [Function.update_of_ne hju] at hj
    exact h.committed j v hj

theorem bounded_commit (h : Bounded s) (row loaded : ServiceRow) (change : PricingUpdate) :
    Bounded (s.commit u row change loaded) := by
  unfold State.commit
  split
  · refine ⟨fun j v hj => ?_, fun j v hj => ?_⟩
    · exact Nat.le_succ_of_le (settled_setUpdate (p := .committed (s.version + 1)) h.returned
        (fun v hv => by cases hv) j v hj)
    · change Function.update s.updates u _ j = _ at hj
      by_cases hju : j = u
      · rw [hju, Function.update_self] at hj
        exact Nat.le_of_eq (UpdatePhase.committed.inj hj).symm
      · rw [Function.update_of_ne hju] at hj
        exact Nat.le_succ_of_le (h.committed j v hj)
  · exact h.setUpdate (by simp)

theorem bounded_step {a : Label} (h : Bounded s) (hstep : step requests s a = some s') :
    Bounded s' := by
  cases step_cases hstep with
  | load u _ =>
    refine h.setUpdate ?_
    cases s.row <;> simp
  | commit u loaded row _ => exact bounded_commit h row loaded _
  | invalidate u v hphase =>
    have hreturned : Bounded (s.setUpdate u (.returned (some v))) := by
      refine h.setUpdate fun v' hv => ?_
      rcases hv with hv | hv
      · obtain rfl := Option.some.inj (UpdatePhase.returned.inj hv)
        exact h.committed u v hphase
      · cases hv
    exact ⟨hreturned.returned, hreturned.committed⟩
  | _ => exact ⟨h.returned, h.committed⟩

/-- Earlier versions stay as they are. -/
theorem priced_commit {w : Nat} (hw : w ≤ s.version) (row : ServiceRow) :
    (Function.update s.rows (s.version + 1) (some row) w).bind ofRow = s.priced w := by
  rw [Function.update_of_ne (Nat.ne_of_lt (Nat.lt_succ_of_le hw))]
  rfl

theorem queried_ok {w : Nat} {p : Pricing} (h : s.queried = .queried w p) :
    w = s.version ∧ s.priced w = some p := by
  unfold State.queried at h
  split at h
  · cases h
  · rename_i row hrow
    cases hread : ofRow row with
    | none =>
      rw [hread] at h
      cases h
    | some q =>
      rw [hread] at h
      change (if q.taskType = "" then _ else _) = _ at h
      split at h
      · cases h
      · obtain ⟨rfl, rfl⟩ := GetPhase.queried.inj h
        exact ⟨rfl, (priced_some hrow).trans hread⟩

theorem cached_ne_queried (h : PricingHash) (w : Nat) (p : Pricing) :
    State.cached h ≠ .queried w p := by
  unfold State.cached
  cases ofHash h <;> simp

theorem Inv.setUpdate (hinv : Inv s) {p : UpdatePhase} (hbounded : Bounded (s.setUpdate u p))
    (hp : ∀ v, p ≠ .returned (some v)) : Inv (s.setUpdate u p) := by
  refine ⟨hbounded, fun h hh => ?_, hinv.gets⟩
  obtain ⟨w, p, hw, hsettled, hprices⟩ := hinv.cache h hh
  exact ⟨w, p, hw, settled_setUpdate hsettled fun v hv => absurd hv (hp v), hprices⟩

theorem Inv.setGet (hinv : Inv s) {p : GetPhase}
    (hp : ∀ w pricing, p = .queried w pricing → w ≤ s.version ∧ s.priced w = some pricing) :
    Inv (s.setGet i p) := by
  refine ⟨⟨hinv.bounded.returned, hinv.bounded.committed⟩, hinv.cache, fun j w pricing hj => ?_⟩
  change Function.update s.gets i p j = _ at hj
  by_cases hji : j = i
  · rw [hji, Function.update_self] at hj
    exact hp w pricing hj
  · rw [Function.update_of_ne hji] at hj
    exact hinv.gets j w pricing hj

theorem inv_commit (hinv : Inv s) (row loaded : ServiceRow) (change : PricingUpdate) :
    Inv (s.commit u row change loaded) := by
  have hbounded := bounded_commit (u := u) hinv.bounded row loaded change
  unfold State.commit at hbounded ⊢
  split at hbounded
  · rename_i htouches
    rw [if_pos htouches]
    refine ⟨hbounded, fun h hh => ?_, fun j w p hj => ?_⟩
    · obtain ⟨w, p, hw, hsettled, hread, hprices⟩ := hinv.cache h hh
      exact ⟨w, p, Nat.le_succ_of_le hw, settled_setUpdate hsettled (fun v hv => by cases hv),
        hread, (priced_commit hw _).trans hprices⟩
    · obtain ⟨hw, hprices⟩ := hinv.gets j w p hj
      exact ⟨Nat.le_succ_of_le hw, (priced_commit hw _).trans hprices⟩
  · rename_i htouches
    rw [if_neg htouches]
    exact hinv.setUpdate hbounded (by simp)

/-- **A step keeps the invariant.** The deletion leaves nothing that could be older than the
update, and what is filled in is not by the condition. -/
theorem inv_step {a : Label} (hinv : Inv s) (hguard : Fresh s a)
    (h : step requests s a = some s') : Inv s' := by
  have hbounded := bounded_step hinv.bounded h
  cases step_cases h with
  | load u _ =>
    refine hinv.setUpdate hbounded fun v => ?_
    cases s.row <;> simp
  | commit u loaded row _ => exact inv_commit hinv row loaded _
  | invalidate u v _ =>
    refine ⟨hbounded, fun hash hhash => ?_, hinv.gets⟩
    cases hhash
  | lookup i =>
    refine hinv.setGet fun w p hp => ?_
    cases hcache : s.cache with
    | none =>
      rw [hcache] at hp
      cases hp
    | some hash =>
      rw [hcache] at hp
      exact absurd hp (cached_ne_queried hash w p)
  | query i =>
    refine hinv.setGet fun w p hp => ?_
    obtain ⟨rfl, hprices⟩ := queried_ok hp
    exact ⟨Nat.le_refl _, hprices⟩
  | fill i w p hphase =>
    obtain ⟨hw, hprices⟩ := hinv.gets i w p hphase
    have hanswered := hinv.setGet (i := i) (p := .answered (some p.toServicePricing)) (by simp)
    refine ⟨hbounded, fun hash hhash => ?_, hanswered.gets⟩
    obtain rfl := Option.some.inj hhash
    exact ⟨w, p, hw, hguard w p hphase, ofHash_toHash p, hprices⟩
  | expire =>
    refine ⟨hbounded, fun hash hhash => ?_, hinv.gets⟩
    cases hhash

/-- Whoever fills the cache with the last version is never late. -/
def lastVersion (s : State) : Label → Bool
  | .fill i =>
    match s.gets i with
    | .queried w _ => decide (w = s.version)
    | _ => true
  | _ => true

theorem fresh_of_check {labels : List Label} (hbounded : Bounded s)
    (h : guardedCheck (step requests) lastVersion s labels = true) :
    Guarded (step requests) Fresh s labels := by
  induction labels generalizing s with
  | nil => trivial
  | cons a labels ih =>
    rw [guardedCheck, Bool.and_eq_true] at h
    refine ⟨?_, fun m hm => ih (bounded_step hbounded hm) ?_⟩
    · cases a with
      | fill i =>
        intro w p hphase
        have hw := h.1
        unfold lastVersion at hw
        simp only [hphase, decide_eq_true_eq] at hw
        exact hw ▸ hbounded.returned
      | _ => trivial
    · have hrest := h.2
      rw [hm] at hrest
      exact hrest

end Steps

/-! ## Whoever asks after an update -/

section Since

variable {requests : Nat → ServiceRow → PricingUpdate} {s s' : State} {i v : Nat}

/-- What call `i` has got stays what it is. -/
theorem Since.mono {p : GetPhase} (h : Since s v p) (hversion : s.version ≤ s'.version)
    (hrows : ∀ w, w ≤ s.version → s'.priced w = s.priced w) : Since s' v p := by
  cases p with
  | answered result =>
    obtain ⟨w, hw, hle, hresult⟩ := h
    exact ⟨w, hw, Nat.le_trans hle hversion, hresult.trans (by rw [hrows w hle])⟩
  | _ => exact h

/-- The hash is no older than the update. -/
theorem since_cached (hinv : Inv s) (hsettled : ∃ u, s.updates u = .returned (some v))
    {hash : PricingHash} (hcache : s.cache = some hash) : Since s v (State.cached hash) := by
  obtain ⟨u, hu⟩ := hsettled
  obtain ⟨w, p, hw, hold, hread, hprices⟩ := hinv.cache hash hcache
  unfold State.cached
  rw [hread]
  refine ⟨w, hold u v hu, hw, ?_⟩
  rw [hprices]
  rfl

/-- Nor is the database. -/
theorem since_queried (hinv : Inv s) (hsettled : ∃ u, s.updates u = .returned (some v)) :
    Since s v s.queried := by
  obtain ⟨u, hu⟩ := hsettled
  have hv := hinv.bounded.returned u v hu
  unfold State.queried
  split
  · rename_i hrow
    refine ⟨s.version, hv, Nat.le_refl _, ?_⟩
    rw [State.priced, ← State.row, hrow]
    rfl
  · rename_i row hrow
    rw [ofRow_eq row]
    generalize hp : (⟨row.taskType.getD "", row.unitRate, row.costPerUnit,
      row.unitSize.filter (· ≠ 0), row.cachedInputCostPerUnit, row.outputCostPerUnit⟩ : Pricing) = p
    show Since s v (if p.taskType = "" then _ else _)
    split
    · refine ⟨s.version, hv, Nat.le_refl _, ?_⟩
      rw [priced_some hrow, ofRow_eq row, hp]
      rfl
    · exact hv

/-- An update that has returned does not begin again. -/
theorem settled_step {a : Label} (h : step requests s a = some s')
    (hsettled : ∃ u, s.updates u = .returned (some v)) :
    ∃ u, s'.updates u = .returned (some v) := by
  obtain ⟨u, hu⟩ := hsettled
  have hkept : ∀ j p, s.updates j ≠ .returned (some v) →
      (s.setUpdate j p).updates u = .returned (some v) := by
    intro j p hj
    have hne : u ≠ j := fun heq => hj (heq ▸ hu)
    exact (Function.update_of_ne hne _ _).trans hu
  refine ⟨u, ?_⟩
  cases step_cases h with
  | load j hidle => exact hkept j _ (by rw [hidle]; simp)
  | commit j loaded row hphase =>
    have hj : s.updates j ≠ .returned (some v) := by
      rw [hphase]
      simp
    unfold State.commit
    split
    · exact hkept j _ hj
    · exact hkept j _ hj
  | invalidate j v' hphase => exact hkept j _ (by rw [hphase]; simp)
  | lookup i => exact hu
  | query i => exact hu
  | fill i w p hphase => exact hu
  | expire => exact hu

theorem since_setGet {j : Nat} {p : GetPhase} (h : Since s v (s.gets i)) (hp : j = i → Since s v p) :
    Since s v ((s.setGet j p).gets i) := by
  show Since s v (Function.update s.gets j p i)
  by_cases hij : i = j
  · rw [hij, Function.update_self]
    exact hp hij.symm
  · rw [Function.update_of_ne hij]
    exact h

theorem since_step {a : Label} (hinv : Inv s) (hsettled : ∃ u, s.updates u = .returned (some v))
    (hsince : Since s v (s.gets i)) (h : step requests s a = some s') : Since s' v (s'.gets i) := by
  cases step_cases h with
  | load u _ => exact hsince
  | commit u loaded row _ =>
    unfold State.commit
    split
    · exact hsince.mono (Nat.le_succ _) fun w hw => priced_commit hw _
    · exact hsince
  | invalidate u v' _ => exact hsince
  | lookup j =>
    refine since_setGet hsince fun _ => ?_
    cases hcache : s.cache with
    | none => trivial
    | some hash => exact since_cached hinv hsettled hcache
  | query j => exact since_setGet hsince fun _ => since_queried hinv hsettled
  | fill j w p hphase =>
    refine since_setGet hsince fun hji => ?_
    obtain ⟨hw, hprices⟩ := hinv.gets j w p hphase
    rw [← hji, hphase] at hsince
    exact ⟨w, hsince, hw, by rw [hprices]; rfl⟩
  | expire => exact hsince

/-- What an update that has returned leaves behind, and what call `i` has. -/
structure After (v i : Nat) (s : State) : Prop where
  inv : Inv s
  settled : ∃ u, s.updates u = .returned (some v)
  since : Since s v (s.gets i)

theorem after_step {a : Label} (hafter : After v i s) (hguard : Fresh s a)
    (h : step requests s a = some s') : After v i s' :=
  ⟨inv_step hafter.inv hguard h, settled_step h hafter.settled,
    since_step hafter.inv hafter.settled hafter.since h⟩

end Since

/-! ## A price change takes effect -/

/-- **A price change takes effect**: when no call fills the cache with a row that an update which
has returned has replaced, a call that begins after an update has returned gets the prices of its
version of the row or of a later one; and every row is read back from the hash as it was
written. -/
theorem price_change_takes_effect (requests : Nat → ServiceRow → PricingUpdate)
    (row : Option ServiceRow) (cache : Option PricingHash) (before after : List Label)
    (m s : State) (u v i : Nat)
    (hcache : ∀ h, cache = some h → ∃ r, row = some r ∧ ofHash h = ofRow r)
    (hbefore : Run (step requests) (State.start row cache) before m)
    (hafter : Run (step requests) m after s)
    (hguard : Guarded (step requests) Fresh (State.start row cache) (before ++ after))
    (hreturned : m.updates u = .returned (some v)) (hidle : m.gets i = .idle) :
    s.gets i ≠ .raised ∧
      (∀ result, s.gets i = .answered result → ∃ w, v ≤ w ∧ w ≤ s.version ∧
        result = (s.priced w).map Pricing.toServicePricing) ∧
      ∀ row p, ofRow row = some p → ofHash (toHash p) = ofRow row := by
  obtain ⟨hguardBefore, hguardAfter⟩ := guarded_append hguard hbefore
  have hstart : Inv (State.start row cache) := by
    refine ⟨bounded_start row cache, fun h hh => ?_, fun i w p h => ?_⟩
    · obtain ⟨r, rfl, hread⟩ := hcache h hh
      refine ⟨0, _, Nat.le_refl 0, fun u v h => ?_, hread.trans (ofRow_eq r), ofRow_eq r⟩
      cases h
    · cases h
  have hm : Inv m :=
    Run.guardedInvariant (fun _ _ _ hinv hG h => inv_step hinv hG h) hbefore hguardBefore hstart
  have hend : After v i s := by
    refine Run.guardedInvariant (fun _ _ _ hinv hG h => after_step hinv hG h) hafter hguardAfter
      ⟨hm, ⟨u, hreturned⟩, ?_⟩
    rw [hidle]
    trivial
  have hsince := hend.since
  refine ⟨fun hraised => ?_, fun result hanswered => ?_,
    fun row p hrow => (ofHash_toHash p).trans hrow.symm⟩
  · rw [hraised] at hsince
    exact hsince
  · rw [hanswered] at hsince
    exact hsince

/-- A service at ₹2.50 for 100 units. -/
def pricedService : ServiceRow where
  taskType := some "nmt"
  unitRate := some ⟨false, 2500000, -8⟩
  costPerUnit := some ⟨false, 250000000, -8⟩
  unitSize := some 100
  cachedInputCostPerUnit := none
  outputCostPerUnit := none

/-- The price is doubled. -/
def doublePrice : PricingUpdate where
  taskType := none
  unitRate := some (some ⟨false, 5000000, -8⟩)
  costPerUnit := some (some ⟨false, 500000000, -8⟩)
  unitSize := none
  cachedInputCostPerUnit := none
  outputCostPerUnit := none

/-- The new prices. -/
def doubled : ServicePricing := ⟨"nmt", some (1 / 20), some 5, some 100, none, none⟩

/-- The old ones. -/
def undoubled : ServicePricing := ⟨"nmt", some (1 / 40), some (5 / 2), some 100, none, none⟩

/-- A lookup and then the update. -/
def lookupThenUpdate : List Label :=
  [.lookup 0, .query 0, .fill 0, .load 0, .commit 0, .invalidate 0]

/-- The lookups after the update get the new prices, one from the database and one from the
hash. -/
theorem price_change_takes_effect_in_turn :
    ∃ m s, Run (step fun _ _ => doublePrice) (State.start (some pricedService) none)
        lookupThenUpdate m ∧
      Run (step fun _ _ => doublePrice) m [.lookup 1, .query 1, .fill 1, .lookup 2] s ∧
      s.gets 2 = .answered (some doubled) ∧
      (s.gets 2 ≠ .raised ∧ (∀ result, s.gets 2 = .answered result → ∃ w, 1 ≤ w ∧
          w ≤ s.version ∧ result = (s.priced w).map Pricing.toServicePricing) ∧
        ∀ row p, ofRow row = some p → ofHash (toHash p) = ofRow row) := by
  refine ⟨_, _, run_final (by decide +kernel), run_final (by decide +kernel), by decide +kernel,
    price_change_takes_effect (fun _ _ => doublePrice) (some pricedService) none lookupThenUpdate
      [.lookup 1, .query 1, .fill 1, .lookup 2] _ _ 0 1 2 (fun h hh => ?_)
      (run_final (by decide +kernel)) (run_final (by decide +kernel))
      (fresh_of_check (bounded_start _ _) (by decide +kernel)) (by decide +kernel)
      (by decide +kernel)⟩
  cases hh

/-- A lookup reads the row before the update commits and fills the cache after the deletion: the
lookup after the update gets the old price. -/
theorem old_price_is_billed :
    ∃ m s, Run (step fun _ _ => doublePrice) (State.start (some pricedService) none)
        [.lookup 0, .query 0, .load 0, .commit 0, .invalidate 0, .fill 0] m ∧
      m.updates 0 = .returned (some 1) ∧ m.gets 1 = .idle ∧
      Run (step fun _ _ => doublePrice) m [.lookup 1] s ∧
      s.gets 1 = .answered (some undoubled) ∧ s.version = 1 ∧
      (s.priced 1).map Pricing.toServicePricing = some doubled ∧ undoubled ≠ doubled := by
  refine ⟨_, _, run_final (by decide +kernel), by decide +kernel, by decide +kernel,
    run_final (by decide +kernel), by decide +kernel, by decide +kernel, by decide +kernel,
    by decide +kernel⟩

end Ai4iCore.Billing.PricingCache
