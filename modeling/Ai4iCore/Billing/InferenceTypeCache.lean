import Ai4iCore.Base.Table
import Ai4iCore.Billing.InferenceTypes
import Ai4iCore.Billing.Pricing

/-!
# The catalogue and its cache, statement by statement

Creating, changing or deleting an inference type commits and then rebuilds both keys of the cache,
sweeping the names that `:all` lists and the catalogue no longer has. `get_all` rebuilds them on a
miss, `get_by_name` its own key. Every run writes what it has read before, whatever was committed
in between, so the cache can keep a row that is long gone (`old_row_stays`).

It converges in the runs in which a catalogue that is no longer the current one is only written
while a rebuild that will read and sweep is still to come, and a sweep finds every name that it has
to remove in `:all` (`cache_converges`): at every moment the cache agrees with the catalogue, or
some call owes the rebuild (`Inv.settled`).
-/

namespace Ai4iCore.Billing.InferenceTypeCache

open StepSystem
open PricingCache (flushed)

/-! ## Requests -/

/-- `InferenceTypeCreate`, with its name stripped. -/
structure InferenceTypeCreate where
  name : List Char
  endpointPatterns : List (List Char)
  unit : List Char
  pricing : List Char
deriving Repr, DecidableEq

/-- `InferenceTypeUpdate`, with its name stripped. -/
structure InferenceTypeUpdate where
  name : Option (List Char)
  endpointPatterns : Option (List (List Char))
  unit : Option (List Char)
  pricing : Option (List Char)
deriving Repr, DecidableEq

inductive Request
  | createInferenceType (body : InferenceTypeCreate)
  | updateInferenceType (name : List Char) (body : InferenceTypeUpdate)
  | deleteInferenceType (name : List Char)
  | warmup
  | getAll
  | getByName (name : List Char)
deriving Repr, DecidableEq

/-- The name of the row that a mutation loads. -/
def Request.target : Request → Option (List Char)
  | .updateInferenceType name _ => some name
  | .deleteInferenceType name => some name
  | _ => none

/-- The request is turned down when the row is referenced. -/
def Request.guarded (lower : List Char → List Char) (row : InferenceType) : Request → Bool
  | .updateInferenceType _ body => body.name.any fun name => lower name ≠ row.name
  | .deleteInferenceType _ => true
  | _ => false

/-- What the flush makes of the row: a column that keeps its loaded value is not written. -/
def InferenceTypeUpdate.flush (lower : List Char → List Char) (body : InferenceTypeUpdate)
    (loaded current : InferenceType) : InferenceType where
  id := current.id
  name := flushed loaded.name current.name (body.name.map lower)
  endpointPatterns :=
    flushed loaded.endpointPatterns current.endpointPatterns body.endpointPatterns
  unit := flushed loaded.unit current.unit body.unit
  pricing := flushed loaded.pricing current.pricing body.pricing

/-! ## The state -/

/-- What a call returns. -/
inductive Answer
  | all (entries : List Json)
  | one (entry : Option Json)
  | rebuilt
deriving Repr, DecidableEq

/-- How far a call is. What it has read carries the version of the catalogue. A mutation whose
`refresh` no longer finds its row has `failed`. -/
inductive Phase
  | idle
  | loaded (row : InferenceType)
  | committed (id : Nat)
  | rebuilding (own : Option (Nat × InferenceType))
  | missed
  | fetched (version : Nat) (rows : List InferenceType) (sweep : Bool)
  | swept (version : Nat) (rows : List InferenceType) (stale : List (List Char))
  | queried (version : Nat) (row : InferenceType)
  | answered (answer : Answer)
  | refused
  | failed
deriving Repr, DecidableEq

/-- The call has not begun, or is over without a commit that it has not rebuilt. -/
def Phase.finished : Phase → Bool
  | .idle | .answered _ | .refused => true
  | _ => false

/-- The catalogue with the number of its commits, the cache, and the calls. -/
structure State where
  version : Nat
  rows : List InferenceType
  nextId : Nat
  cache : Cache
  calls : Nat → Phase

/-- `ORDER BY name`. -/
def byName (rows : List InferenceType) : List InferenceType :=
  rows.insertionSort fun a b => a.name ≤ b.name

/-- The keys of the names that `:all` lists and `rows` has not. -/
def staleKeys (lower : List Char → List Char) (cache : Cache) (rows : List InferenceType) :
    List (List Char) :=
  ((((cache allKey).getD []).map Prod.fst).filter fun name => name ∉ rows.map InferenceType.name).map
    lower

namespace State

def setCall (s : State) (i : Nat) (p : Phase) : State :=
  { s with calls := Function.update s.calls i p }

/-- No call has begun. -/
def start (rows : List InferenceType) (nextId : Nat) (cache : Cache) : State :=
  ⟨0, rows, nextId, cache, fun _ => .idle⟩

/-- `select(InferenceType).where(InferenceType.name == name)`. -/
def row (s : State) (name : List Char) : Option InferenceType :=
  Table.get InferenceType.name s.rows name

/-- What `get_all` takes from the cache. -/
def getAll (s : State) : Option (List Json) := (s.cache allKey).bind readAll

/-- What `get_by_name` takes from the cache. -/
def getByName (lower : List Char → List Char) (s : State) (name : List Char) : Option Json :=
  (s.cache (lower (lower name))).bind fromHash

/-- A commit that leaves the catalogue `rows`. -/
def mutate (s : State) (i : Nat) (rows : List InferenceType) (nextId : Nat) (p : Phase) : State :=
  { s.setCall i p with version := s.version + 1, rows := rows, nextId := nextId }

/-- The session still holds the row that it has refreshed, so that the query does not read it
again. -/
def refetched (s : State) (own : Option (Nat × InferenceType)) : List InferenceType :=
  (byName s.rows).map fun row => own.elim row fun p => if row.id = p.2.id then p.2 else row

/-- `session.commit()` of a mutation. -/
def commit (lower : List Char → List Char) (s : State) (i : Nat) : Request → Phase → Option State
  | .createInferenceType body, .idle =>
    let new : InferenceType :=
      ⟨s.nextId, lower body.name, body.endpointPatterns, body.unit, body.pricing⟩
    if new.name ∈ s.rows.map InferenceType.name then some (s.setCall i .refused)
    else some (s.mutate i (s.rows ++ [new]) (s.nextId + 1) (.committed s.nextId))
  | .updateInferenceType _ body, .loaded loaded =>
    match Table.get InferenceType.id s.rows loaded.id with
    | none => some (s.setCall i .refused)
    | some current =>
      let new := body.flush lower loaded current
      if new.name ∈ (s.rows.filter fun row => row.id ≠ current.id).map InferenceType.name then
        some (s.setCall i .refused)
      else some (s.mutate i (Table.modify InferenceType.id s.rows current.id fun _ => new) s.nextId
        (.committed current.id))
  | .deleteInferenceType _, .loaded loaded =>
    some (s.mutate i (s.rows.filter fun row => row.id ≠ loaded.id) s.nextId (.rebuilding none))
  | _, _ => none

/-- The lookup in the cache. -/
def lookup (lower : List Char → List Char) (s : State) : Request → Option Phase
  | .getAll => some (s.getAll.elim .missed fun entries => .answered (.all entries))
  | .getByName name =>
    if name = [] then some (.answered (.one none))
    else some ((s.getByName lower name).elim .missed fun entry => .answered (.one (some entry)))
  | _ => none

/-- The query of `rebuild` or, on a miss, of `get_by_name`. -/
def query (lower : List Char → List Char) (s : State) : Request → Phase → Option Phase
  | .warmup, .idle => some (.fetched s.version (byName s.rows) true)
  | _, .rebuilding own =>
    some (.fetched ((own.map Prod.fst).getD s.version) (s.refetched own) true)
  | .getAll, .missed => some (.fetched s.version (byName s.rows) false)
  | .getByName name, .missed =>
    some ((s.row (lower name)).elim (.answered (.one none)) (.queried s.version))
  | _, _ => none

/-- The pipeline of a call that is about to write, and its answer. -/
def write (lower : List Char → List Char) : Phase → Option (List Command × Answer)
  | .fetched _ rows false => some (pipeline lower rows [], .all (rows.map toDict))
  | .swept _ rows stale => some (pipeline lower rows stale, .rebuilt)
  | .queried _ row => some (rewrite (lower row.name) (toHash row), .one (some (toDict row)))
  | _ => none

end State

/-! ## Steps -/

/-- The next statement of a call, or the end of a key. -/
inductive Label
  | load (i : Nat)
  | refuse (i : Nat)
  | commit (i : Nat)
  | refresh (i : Nat)
  | lookup (i : Nat)
  | query (i : Nat)
  | hkeys (i : Nat)
  | execute (i : Nat)
  | expire (key : List Char)
deriving Repr, DecidableEq

def step (lower : List Char → List Char) (requests : Nat → Request) (s : State) :
    Label → Option State
  | .load i =>
    match s.calls i with
    | .idle => (requests i).target.map fun name =>
        s.setCall i ((s.row (lower name)).elim .refused .loaded)
    | _ => none
  | .refuse i =>
    match s.calls i with
    | .loaded row =>
      if (requests i).guarded lower row then some (s.setCall i .refused) else none
    | _ => none
  | .commit i => s.commit lower i (requests i) (s.calls i)
  | .refresh i =>
    match s.calls i with
    | .committed id => some (s.setCall i ((Table.get InferenceType.id s.rows id).elim .failed
        fun row => .rebuilding (some (s.version, row))))
    | _ => none
  | .lookup i =>
    match s.calls i with
    | .idle => (s.lookup lower (requests i)).map (s.setCall i)
    | _ => none
  | .query i => (s.query lower (requests i) (s.calls i)).map (s.setCall i)
  | .hkeys i =>
    match s.calls i with
    | .fetched v rows true => some (s.setCall i (.swept v rows (staleKeys lower s.cache rows)))
    | _ => none
  | .execute i => (State.write lower (s.calls i)).map fun w =>
      { s.setCall i (.answered w.2) with cache := execute s.cache w.1 }
  | .expire key => some { s with cache := Function.update s.cache key none }

/-- The constraints of the table: names in lower case, no name and no id twice. -/
structure WellFormed (lower : List Char → List Char) (rows : List InferenceType) (nextId : Nat) :
    Prop where
  lowered : ∀ row ∈ rows, lower row.name = row.name
  names : (rows.map InferenceType.name).Nodup
  ids : (rows.map InferenceType.id).Nodup
  fresh : ∀ row ∈ rows, row.id < nextId

/-- What each step does. -/
inductive Steps (lower : List Char → List Char) (s : State) : Label → State → Prop
  | moved (a : Label) (i : Nat) (p : Phase) (hbefore : s.calls i = .idle ∨ ∃ row, s.calls i = .loaded row)
      (hafter : (∃ row, p = .loaded row) ∨ p = .missed ∨ p.finished) : Steps lower s a (s.setCall i p)
  | mutate (i : Nat) (rows : List InferenceType) (nextId : Nat) (p : Phase)
      (hrows : WellFormed lower s.rows s.nextId → WellFormed lower rows nextId)
      (hafter : (∃ id, p = .committed id) ∨ p = .rebuilding none) :
      Steps lower s (.commit i) (s.mutate i rows nextId p)
  | refresh (i id : Nat) (row : InferenceType) (hphase : s.calls i = .committed id)
      (hrow : row ∈ s.rows) :
      Steps lower s (.refresh i) (s.setCall i (.rebuilding (some (s.version, row))))
  | fail (i id : Nat) (hphase : s.calls i = .committed id) :
      Steps lower s (.refresh i) (s.setCall i .failed)
  | fetch (i : Nat) (sweep : Bool) (hphase : s.calls i = .idle ∨ s.calls i = .missed) :
      Steps lower s (.query i) (s.setCall i (.fetched s.version (byName s.rows) sweep))
  | refetch (i : Nat) (own : Option (Nat × InferenceType)) (hphase : s.calls i = .rebuilding own) :
      Steps lower s (.query i)
        (s.setCall i (.fetched ((own.map Prod.fst).getD s.version) (s.refetched own) true))
  | query (i : Nat) (row : InferenceType) (hphase : s.calls i = .missed) (hrow : row ∈ s.rows) :
      Steps lower s (.query i) (s.setCall i (.queried s.version row))
  | absent (i : Nat) (hphase : s.calls i = .missed) :
      Steps lower s (.query i) (s.setCall i (.answered (.one none)))
  | hkeys (i v : Nat) (rows : List InferenceType) (hphase : s.calls i = .fetched v rows true) :
      Steps lower s (.hkeys i) (s.setCall i (.swept v rows (staleKeys lower s.cache rows)))
  | execute (i : Nat) (commands : List Command) (answer : Answer)
      (hwrite : State.write lower (s.calls i) = some (commands, answer)) :
      Steps lower s (.execute i)
        { s.setCall i (.answered answer) with cache := execute s.cache commands }
  | expire (key : List Char) :
      Steps lower s (.expire key) { s with cache := Function.update s.cache key none }

section Steps

variable {lower : List Char → List Char} {requests : Nat → Request} {s s' : State} {i : Nat}
  {rows : List InferenceType} {nextId : Nat}

theorem WellFormed.append (h : WellFormed lower rows nextId) {new : InferenceType}
    (hlower : lower new.name = new.name) (hid : new.id = nextId)
    (hname : new.name ∉ rows.map InferenceType.name) :
    WellFormed lower (rows ++ [new]) (nextId + 1) := by
  have hnew : new.id ∉ rows.map InferenceType.id := by
    intro hmem
    obtain ⟨row, hrow, heq⟩ := List.mem_map.mp hmem
    exact absurd (heq ▸ hid ▸ h.fresh row hrow) (Nat.lt_irrefl _)
  refine ⟨fun row hrow => ?_, Table.nodup_append_of_not_mem h.names hname,
    Table.nodup_append_of_not_mem h.ids hnew, fun row hrow => ?_⟩
  · rcases List.mem_append.mp hrow with hrow | hrow
    · exact h.lowered row hrow
    · exact List.mem_singleton.mp hrow ▸ hlower
  · rcases List.mem_append.mp hrow with hrow | hrow
    · exact Nat.lt_succ_of_lt (h.fresh row hrow)
    · exact List.mem_singleton.mp hrow ▸ hid ▸ Nat.lt_succ_self _

theorem WellFormed.filter (h : WellFormed lower rows nextId) (p : InferenceType → Bool) :
    WellFormed lower (rows.filter p) nextId where
  lowered row hrow := h.lowered row (List.mem_of_mem_filter hrow)
  names := h.names.sublist (List.filter_sublist.map _)
  ids := h.ids.sublist (List.filter_sublist.map _)
  fresh row hrow := h.fresh row (List.mem_of_mem_filter hrow)

theorem WellFormed.modify (h : WellFormed lower rows nextId) {new : InferenceType}
    (hold : ∃ old ∈ rows, old.id = new.id) (hlower : lower new.name = new.name)
    (hname : new.name ∉ (rows.filter fun row => row.id ≠ new.id).map InferenceType.name) :
    WellFormed lower (Table.modify InferenceType.id rows new.id fun _ => new) nextId := by
  refine ⟨fun row hrow => ?_, Table.nodup_map_modify h.ids h.names fun row hrow hid heq => ?_, ?_,
    fun row hrow => ?_⟩
  · rcases Table.mem_modify hrow with rfl | ⟨hrow, -⟩
    · exact hlower
    · exact h.lowered row hrow
  · refine hname (List.mem_map.mpr ⟨row, List.mem_filter.mpr ⟨hrow, ?_⟩, heq⟩)
    exact decide_eq_true hid
  · rw [Table.map_key_modify fun _ _ => rfl]
    exact h.ids
  · rcases Table.mem_modify hrow with rfl | ⟨hrow, -⟩
    · obtain ⟨old, hold, hid⟩ := hold
      exact hid ▸ h.fresh old hold
    · exact h.fresh row hrow

theorem flushed_cases {α : Type} [DecidableEq α] (loaded current : α) (value : Option α) :
    flushed loaded current value = current ∨ value = some (flushed loaded current value) := by
  cases value with
  | none => exact .inl rfl
  | some v =>
    by_cases hv : v = loaded
    · exact .inl (if_pos hv)
    · exact .inr (congrArg some (if_neg hv).symm)

/-- What the commit of a mutation does. -/
theorem commit_cases (hlower : ∀ name, lower (lower name) = lower name)
    (h : s.commit lower i (requests i) (s.calls i) = some s') : Steps lower s (.commit i) s' := by
  unfold State.commit at h
  split at h
  · rename_i body _ hphase
    dsimp only at h
    split at h
    · obtain rfl := Option.some.inj h
      exact .moved _ i _ (.inl hphase) (.inr (.inr rfl))
    · rename_i hname
      obtain rfl := Option.some.inj h
      exact .mutate i _ _ _ (fun hwf => hwf.append (hlower _) rfl hname) (.inl ⟨_, rfl⟩)
  · rename_i body loaded _ hphase
    split at h
    · obtain rfl := Option.some.inj h
      exact .moved _ i _ (.inr ⟨_, hphase⟩) (.inr (.inr rfl))
    · rename_i current hcurrent
      dsimp only at h
      split at h
      · obtain rfl := Option.some.inj h
        exact .moved _ i _ (.inr ⟨_, hphase⟩) (.inr (.inr rfl))
      · rename_i hname
        obtain rfl := Option.some.inj h
        have hmem := Table.mem_of_get hcurrent
        refine .mutate i _ _ _ (fun hwf => ?_) (.inl ⟨_, rfl⟩)
        have hlowered : lower (body.flush lower loaded current).name =
            (body.flush lower loaded current).name := by
          show lower (flushed _ _ _) = flushed _ _ _
          rcases flushed_cases loaded.name current.name (body.name.map lower) with heq | heq
          · rw [heq]
            exact hwf.lowered current hmem
          · obtain ⟨name, -, hname⟩ := Option.map_eq_some_iff.mp heq
            rw [← hname]
            exact hlower name
        have hmodified : WellFormed lower (Table.modify InferenceType.id s.rows
            (body.flush lower loaded current).id fun _ => body.flush lower loaded current)
            s.nextId := hwf.modify ⟨current, hmem, rfl⟩ hlowered hname
        exact hmodified
  · obtain rfl := Option.some.inj h
    exact .mutate i _ _ _ (fun hwf => hwf.filter _) (.inr rfl)
  · cases h

theorem lookup_cases {r : Request} {p : Phase} (h : s.lookup lower r = some p) :
    p = .missed ∨ p.finished = true := by
  unfold State.lookup at h
  split at h
  · obtain rfl := Option.some.inj h
    cases s.getAll with
    | none => exact .inl rfl
    | some entries => exact .inr rfl
  · split at h
    · obtain rfl := Option.some.inj h
      exact .inr rfl
    · obtain rfl := Option.some.inj h
      cases s.getByName lower _ with
      | none => exact .inl rfl
      | some entry => exact .inr rfl
  · cases h

theorem query_cases {p : Phase} (h : s.query lower (requests i) (s.calls i) = some p) :
    Steps lower s (.query i) (s.setCall i p) := by
  unfold State.query at h
  split at h
  · rename_i hphase
    obtain rfl := Option.some.inj h
    exact .fetch i true (.inl hphase)
  · rename_i own hphase
    obtain rfl := Option.some.inj h
    exact .refetch i own hphase
  · rename_i hphase
    obtain rfl := Option.some.inj h
    exact .fetch i false (.inr hphase)
  · rename_i name _ hphase
    obtain rfl := Option.some.inj h
    cases hrow : s.row (lower name) with
    | none => exact .absent i hphase
    | some row => exact .query i row hphase (Table.mem_of_get hrow)
  · cases h

theorem step_cases {a : Label} (hlower : ∀ name, lower (lower name) = lower name)
    (h : step lower requests s a = some s') : Steps lower s a s' := by
  cases a with
  | load i =>
    unfold step at h
    dsimp only at h
    split at h
    · rename_i hidle
      obtain ⟨name, -, rfl⟩ := Option.map_eq_some_iff.mp h
      refine .moved _ i _ (.inl hidle) ?_
      cases s.row (lower name) with
      | none => exact .inr (.inr rfl)
      | some row => exact .inl ⟨row, rfl⟩
    · cases h
  | refuse i =>
    unfold step at h
    dsimp only at h
    split at h
    · rename_i row hphase
      obtain ⟨-, h⟩ := Option.ite_none_right_eq_some.mp h
      obtain rfl := Option.some.inj h
      exact .moved _ i _ (.inr ⟨row, hphase⟩) (.inr (.inr rfl))
    · cases h
  | commit i => exact commit_cases hlower h
  | refresh i =>
    unfold step at h
    dsimp only at h
    split at h
    · rename_i id hphase
      obtain rfl := Option.some.inj h
      cases hrow : Table.get InferenceType.id s.rows id with
      | none => exact .fail i id hphase
      | some row => exact .refresh i id row hphase (Table.mem_of_get hrow)
    · cases h
  | lookup i =>
    unfold step at h
    dsimp only at h
    split at h
    · rename_i hidle
      obtain ⟨p, hp, rfl⟩ := Option.map_eq_some_iff.mp h
      exact .moved _ i p (.inl hidle) (.inr (lookup_cases hp))
    · cases h
  | query i =>
    obtain ⟨p, hp, rfl⟩ := Option.map_eq_some_iff.mp h
    exact query_cases hp
  | hkeys i =>
    unfold step at h
    dsimp only at h
    split at h
    · rename_i v rows hphase
      obtain rfl := Option.some.inj h
      exact .hkeys i v rows hphase
    · cases h
  | execute i =>
    obtain ⟨w, hw, rfl⟩ := Option.map_eq_some_iff.mp h
    exact .execute i w.1 w.2 hw
  | expire key =>
    obtain rfl := Option.some.inj h
    exact .expire key

end Steps

/-! ## The invariant -/

/-- What a key may hold over the catalogue `rows`. -/
def Holds (rows : List InferenceType) (key : List Char) (hash : Hash) : Prop :=
  (∃ row ∈ rows, row.name = key ∧ hash = toHash row) ∨ (key = allKey ∧ hash = allHash (byName rows))

/-- The cache agrees with the catalogue. -/
def Agrees (cache : Cache) (rows : List InferenceType) : Prop :=
  ∀ key hash, cache key = some hash → Holds rows key hash

/-- Every cached name that the catalogue has not is among `stale`. -/
def Covered (cache : Cache) (rows : List InferenceType) (stale : List (List Char)) : Prop :=
  ∀ key hash, cache key = some hash → key ≠ allKey → (∀ row ∈ rows, row.name ≠ key) → key ∈ stale

/-- The call will still read the current catalogue, or has it, and then read `:all` to sweep. -/
def Phase.Awaits (version : Nat) : Phase → Prop
  | .committed _ => True
  | .rebuilding own => ∀ p ∈ own, p.1 = version
  | .fetched v _ true => v = version
  | _ => False

/-- The call owes the cache a rebuild. -/
def Phase.Owes (version : Nat) (cache : Cache) (rows : List InferenceType) : Phase → Prop
  | .swept v _ stale => v = version ∧ Covered cache rows stale
  | .failed => True
  | p => p.Awaits version

/-- What a call has read is the catalogue when its version is the last one. -/
def Phase.Read (version : Nat) (rows : List InferenceType) : Phase → Prop
  | .rebuilding own => ∀ p ∈ own, p.1 ≤ version ∧ (p.1 = version → p.2 ∈ rows)
  | .fetched v known _ => v ≤ version ∧ (v = version → known = byName rows)
  | .swept v known _ => v ≤ version ∧ (v = version → known = byName rows)
  | .queried v row => v ≤ version ∧ (v = version → row ∈ rows)
  | _ => True

/-- The cache agrees with the catalogue, or a call owes it a rebuild. -/
structure Inv (lower : List Char → List Char) (s : State) : Prop where
  wellFormed : WellFormed lower s.rows s.nextId
  read : ∀ i, (s.calls i).Read s.version s.rows
  settled : Agrees s.cache s.rows ∨ ∃ i, (s.calls i).Owes s.version s.cache s.rows

/-- The version that a call is about to write. -/
def Phase.writes : Phase → Option Nat
  | .fetched v _ false => some v
  | .swept v _ _ => some v
  | .queried v _ => some v
  | _ => none

/-- A catalogue that is not the current one is only written while some call will still read and
sweep; and a sweep after the current catalogue was read finds in `:all` every cached name that is
gone. -/
def Timely (lower : List Char → List Char) (s : State) : Label → Prop
  | .hkeys i => ∀ rows, s.calls i = .fetched s.version rows true →
      Covered s.cache s.rows ((((s.cache allKey).getD []).map Prod.fst).map lower)
  | .execute i => ∀ v, (s.calls i).writes = some v →
      v = s.version ∨ ∃ j, (s.calls j).Awaits s.version
  | _ => True

section Invariant

variable {lower : List Char → List Char} {s s' : State} {i : Nat} {p : Phase}
  {rows : List InferenceType} {version : Nat} {cache cache' : Cache}

theorem mem_byName {row : InferenceType} : row ∈ byName rows ↔ row ∈ rows :=
  List.mem_insertionSort _

theorem Phase.not_awaits_of_writes {v : Nat} (h : p.writes = some v) : ¬ p.Awaits version := by
  intro hawaits
  cases p with
  | fetched v known sweep =>
    cases sweep with
    | true => cases h
    | false => cases hawaits
  | swept v known stale => cases hawaits
  | queried v row => cases hawaits
  | _ => cases h

theorem Phase.not_owes_of_finished (h : p.finished = true) : ¬ p.Owes version cache rows := by
  intro howes
  cases p with
  | idle => cases howes
  | answered answer => cases howes
  | refused => cases howes
  | _ => cases h

theorem Phase.Awaits.owes (h : p.Awaits version) : p.Owes version cache rows := by
  cases p with
  | swept v known stale => cases h
  | failed => trivial
  | _ => exact h

/-- Nothing that was read before a commit is the catalogue after it. -/
theorem Phase.Read.later (h : p.Read version rows) (rows' : List InferenceType) :
    p.Read (version + 1) rows' := by
  cases p with
  | rebuilding own =>
    intro q hq
    have hle := (h q hq).1
    exact ⟨Nat.le_succ_of_le hle, fun heq => absurd heq (by omega)⟩
  | fetched v known sweep => exact ⟨Nat.le_succ_of_le h.1, fun heq => absurd h.1 (by omega)⟩
  | swept v known stale => exact ⟨Nat.le_succ_of_le h.1, fun heq => absurd h.1 (by omega)⟩
  | queried v row => exact ⟨Nat.le_succ_of_le h.1, fun heq => absurd h.1 (by omega)⟩
  | _ => trivial

/-- What is written of the current catalogue leaves no other name uncovered. -/
theorem Phase.Owes.wrote (h : p.Owes version cache rows)
    (hcache : ∀ k hash, cache' k = some hash → Holds rows k hash ∨ cache k = some hash) :
    p.Owes version cache' rows := by
  cases p with
  | swept v known stale =>
    refine ⟨h.1, fun k hash hk hall hnone => ?_⟩
    rcases hcache k hash hk with (⟨row, hrow, hname, -⟩ | ⟨heq, -⟩) | hold
    · exact absurd hname (hnone row hrow)
    · exact absurd heq hall
    · exact h.2 k hash hold hall hnone
  | _ => exact h

theorem Inv.setCall (hinv : Inv lower s) (hread : p.Read s.version s.rows)
    (howes : (s.calls i).Owes s.version s.cache s.rows → p.Owes s.version s.cache s.rows) :
    Inv lower (s.setCall i p) := by
  refine ⟨hinv.wellFormed, fun j => ?_, hinv.settled.imp_right fun ⟨j, hj⟩ => ⟨j, ?_⟩⟩
  · show (Function.update s.calls i p j).Read _ _
    by_cases hji : j = i
    · rw [hji, Function.update_self]
      exact hread
    · rw [Function.update_of_ne hji]
      exact hinv.read j
  · show (Function.update s.calls i p j).Owes _ _ _
    by_cases hji : j = i
    · rw [hji] at hj ⊢
      rw [Function.update_self]
      exact howes hj
    · rw [Function.update_of_ne hji]
      exact hj

theorem Inv.mutate (hinv : Inv lower s) {nextId : Nat} (hrows : WellFormed lower rows nextId)
    (hp : (∃ id, p = .committed id) ∨ p = .rebuilding none) :
    Inv lower (s.mutate i rows nextId p) := by
  refine ⟨hrows, fun j => ?_, .inr ⟨i, ?_⟩⟩
  · show (Function.update s.calls i p j).Read (s.version + 1) rows
    by_cases hji : j = i
    · rw [hji, Function.update_self]
      rcases hp with ⟨id, rfl⟩ | rfl
      · trivial
      · intro q hq
        cases hq
    · rw [Function.update_of_ne hji]
      exact (hinv.read j).later rows
  · show (Function.update s.calls i p i).Owes (s.version + 1) s.cache rows
    rw [Function.update_self]
    rcases hp with ⟨id, rfl⟩ | rfl
    · trivial
    · intro q hq
      cases hq

/-- A write of the current catalogue. -/
theorem Inv.wrote (hinv : Inv lower s) {answer : Answer}
    (hcache : ∀ k hash, cache' k = some hash → Holds s.rows k hash ∨ s.cache k = some hash)
    (howes : (s.calls i).Owes s.version s.cache s.rows → Agrees cache' s.rows) :
    Inv lower { s.setCall i (.answered answer) with cache := cache' } := by
  refine ⟨hinv.wellFormed, fun j => ?_, ?_⟩
  · show (Function.update s.calls i _ j).Read _ _
    by_cases hji : j = i
    · rw [hji, Function.update_self]
      trivial
    · rw [Function.update_of_ne hji]
      exact hinv.read j
  · rcases hinv.settled with hagrees | ⟨j, hj⟩
    · exact .inl fun k hash hk => (hcache k hash hk).elim id (hagrees k hash)
    · by_cases hji : j = i
      · exact .inl (howes (hji ▸ hj))
      · refine .inr ⟨j, ?_⟩
        show (Function.update s.calls i _ j).Owes _ _ _
        rw [Function.update_of_ne hji]
        exact hj.wrote hcache

/-- The row that the session still holds is the row of the table when nothing was committed
since. -/
theorem refetched_eq {own : InferenceType} (hids : (s.rows.map InferenceType.id).Nodup)
    (hown : own ∈ s.rows) (version : Nat) : s.refetched (some (version, own)) = byName s.rows := by
  unfold State.refetched
  refine (List.map_congr_left fun row hrow => ?_).trans (List.map_id _)
  show (if row.id = own.id then own else row) = row
  split
  · rename_i hid
    have hfound := Table.get_of_mem hids (mem_byName.mp hrow)
    rw [hid, Table.get_of_mem hids hown] at hfound
    exact Option.some.inj hfound
  · rfl

theorem inv_refetch (hinv : Inv lower s) {own : Option (Nat × InferenceType)}
    (hphase : s.calls i = .rebuilding own) : Inv lower
      (s.setCall i (.fetched ((own.map Prod.fst).getD s.version) (s.refetched own) true)) := by
  have hread := hinv.read i
  rw [hphase] at hread
  refine hinv.setCall ?_ fun howes => ?_
  · cases own with
    | none => exact ⟨Nat.le_refl _, fun _ => List.map_id _⟩
    | some q =>
      obtain ⟨hle, hmem⟩ := hread q rfl
      exact ⟨hle, fun heq => refetched_eq hinv.wellFormed.ids (hmem heq) q.1⟩
  · rw [hphase] at howes
    cases own with
    | none => rfl
    | some q => exact howes q rfl

theorem inv_hkeys (hinv : Inv lower s) {v : Nat} (hphase : s.calls i = .fetched v rows true)
    (hguard : Timely lower s (.hkeys i)) :
    Inv lower (s.setCall i (.swept v rows (staleKeys lower s.cache rows))) := by
  have hread := hinv.read i
  rw [hphase] at hread
  refine hinv.setCall hread fun howes => ?_
  rw [hphase] at howes
  obtain rfl : v = s.version := howes
  refine ⟨rfl, fun k hash hk hall hnone => ?_⟩
  obtain ⟨name, hname, rfl⟩ := List.mem_map.mp (hguard rows hphase k hash hk hall hnone)
  refine List.mem_map.mpr ⟨name, List.mem_filter.mpr ⟨hname, decide_eq_true fun hmem => ?_⟩, rfl⟩
  obtain ⟨row, hrow, rfl⟩ := List.mem_map.mp hmem
  rw [hread.2 rfl, mem_byName] at hrow
  exact hnone row hrow (hinv.wellFormed.lowered row hrow).symm

/-- The pipeline of the current catalogue writes nothing else. -/
theorem holds_of_pipeline (hwf : WellFormed lower s.rows s.nextId) {stale : List (List Char)}
    {k : List Char} {hash : Hash}
    (h : execute s.cache (pipeline lower (byName s.rows) stale) k = some hash) :
    Holds s.rows k hash ∨
      (s.cache k = some hash ∧ k ≠ allKey ∧ k ∉ stale ∧ ∀ row ∈ s.rows, row.name ≠ k) := by
  rcases execute_pipeline h with ⟨row, hrow, hk, hhash⟩ | ⟨hk, -, hhash⟩ | ⟨hall, hstale, hnone, hk⟩
  · rw [mem_byName] at hrow
    exact .inl (.inl ⟨row, hrow, (hwf.lowered row hrow).symm.trans hk, hhash⟩)
  · exact .inl (.inr ⟨hk, hhash⟩)
  · refine .inr ⟨hk, hall, hstale, fun row hrow => ?_⟩
    rw [← hwf.lowered row hrow]
    exact hnone row (mem_byName.mpr hrow)

theorem inv_execute (hinv : Inv lower s) (hguard : Timely lower s (.execute i))
    {commands : List Command} {answer : Answer}
    (hwrite : State.write lower (s.calls i) = some (commands, answer)) :
    Inv lower { s.setCall i (.answered answer) with cache := execute s.cache commands } := by
  have hread := hinv.read i
  by_cases hcurrent : (s.calls i).writes = some s.version
  · cases hphase : s.calls i with
    | fetched v known sweep =>
      rw [hphase] at hwrite hread hcurrent
      cases sweep with
      | true => cases hwrite
      | false =>
        obtain ⟨rfl, rfl⟩ := Prod.mk.inj (Option.some.inj hwrite)
        obtain rfl := Option.some.inj hcurrent
        rw [hread.2 rfl]
        refine hinv.wrote (fun k hash hk => ?_) fun howes => ?_
        · exact (holds_of_pipeline hinv.wellFormed hk).imp_right And.left
        · rw [hphase] at howes
          cases howes
    | swept v known stale =>
      rw [hphase] at hwrite hread hcurrent
      obtain ⟨rfl, rfl⟩ := Prod.mk.inj (Option.some.inj hwrite)
      obtain rfl := Option.some.inj hcurrent
      rw [hread.2 rfl]
      refine hinv.wrote (fun k hash hk => ?_) fun howes k hash hk => ?_
      · exact (holds_of_pipeline hinv.wellFormed hk).imp_right And.left
      · rw [hphase] at howes
        rcases holds_of_pipeline hinv.wellFormed hk with hholds | ⟨hold, hall, hstale, hgone⟩
        · exact hholds
        · exact absurd (howes.2 k hash hold hall hgone) hstale
    | queried v row =>
      rw [hphase] at hwrite hread hcurrent
      obtain ⟨rfl, rfl⟩ := Prod.mk.inj (Option.some.inj hwrite)
      obtain rfl := Option.some.inj hcurrent
      have hrow := hread.2 rfl
      refine hinv.wrote (fun k hash hk => ?_) fun howes => ?_
      · rw [execute_rewrite, hinv.wellFormed.lowered row hrow] at hk
        by_cases hname : k = row.name
        · rw [hname, Function.update_self] at hk
          exact .inl (.inl ⟨row, hrow, hname.symm, (Option.some.inj hk).symm⟩)
        · rw [Function.update_of_ne hname] at hk
          exact .inr hk
      · rw [hphase] at howes
        cases howes
    | _ =>
      rw [hphase] at hwrite
      cases hwrite
  · -- an older catalogue: some other call will still read and sweep
    have hversion : ∃ v, (s.calls i).writes = some v := by
      unfold State.write at hwrite
      unfold Phase.writes
      split at hwrite
      · exact ⟨_, rfl⟩
      · exact ⟨_, rfl⟩
      · exact ⟨_, rfl⟩
      · cases hwrite
    obtain ⟨v, hv⟩ := hversion
    obtain rfl | ⟨j, hj⟩ := hguard v hv
    · exact absurd hv hcurrent
    have hji : j ≠ i := by
      rintro rfl
      exact Phase.not_awaits_of_writes hv hj
    refine ⟨hinv.wellFormed, fun k => ?_, .inr ⟨j, ?_⟩⟩
    · show (Function.update s.calls i _ k).Read _ _
      by_cases hki : k = i
      · rw [hki, Function.update_self]
        trivial
      · rw [Function.update_of_ne hki]
        exact hinv.read k
    · show (Function.update s.calls i _ j).Owes _ _ _
      rw [Function.update_of_ne hji]
      exact hj.owes

/-- **A step keeps the invariant.** -/
theorem inv_step {requests : Nat → Request} {a : Label}
    (hlower : ∀ name, lower (lower name) = lower name) (hinv : Inv lower s)
    (hguard : Timely lower s a) (h : step lower requests s a = some s') : Inv lower s' := by
  cases step_cases hlower h with
  | moved _ i p hbefore hafter =>
    have hread : p.Read s.version s.rows := by
      rcases hafter with ⟨row, rfl⟩ | rfl | hp
      · trivial
      · trivial
      · cases p with
        | idle => trivial
        | answered answer => trivial
        | refused => trivial
        | _ => cases hp
    refine hinv.setCall hread fun howes => ?_
    rcases hbefore with hidle | ⟨row, hloaded⟩
    · rw [hidle] at howes
      cases howes
    · rw [hloaded] at howes
      cases howes
  | mutate i rows nextId p hrows hp => exact hinv.mutate (hrows hinv.wellFormed) hp
  | refresh i id row hphase hrow =>
    refine hinv.setCall (fun q hq => ?_) fun _ q hq => ?_
    · obtain rfl := Option.some.inj hq
      exact ⟨Nat.le_refl _, fun _ => hrow⟩
    · obtain rfl := Option.some.inj hq
      rfl
  | fail i id hphase => exact hinv.setCall trivial fun _ => trivial
  | fetch i sweep hphase =>
    refine hinv.setCall ⟨Nat.le_refl _, fun _ => rfl⟩ fun howes => ?_
    rcases hphase with hphase | hphase
    · rw [hphase] at howes
      cases howes
    · rw [hphase] at howes
      cases howes
  | refetch i own hphase => exact inv_refetch hinv hphase
  | query i row hphase hrow =>
    refine hinv.setCall ⟨Nat.le_refl _, fun _ => hrow⟩ fun howes => ?_
    rw [hphase] at howes
    cases howes
  | absent i hphase =>
    refine hinv.setCall trivial fun howes => ?_
    rw [hphase] at howes
    cases howes
  | hkeys i v rows hphase => exact inv_hkeys hinv hphase hguard
  | execute i commands answer hwrite => exact inv_execute hinv hguard hwrite
  | expire key =>
    have hgone : ∀ k hash, Function.update s.cache key none k = some hash →
        Holds s.rows k hash ∨ s.cache k = some hash := by
      intro k hash hk
      by_cases hkey : k = key
      · rw [hkey, Function.update_self] at hk
        cases hk
      · rw [Function.update_of_ne hkey] at hk
        exact .inr hk
    refine ⟨hinv.wellFormed, hinv.read, ?_⟩
    rcases hinv.settled with hagrees | ⟨j, hj⟩
    · exact .inl fun k hash hk => (hgone k hash hk).elim id (hagrees k hash)
    · exact .inr ⟨j, hj.wrote hgone⟩

end Invariant

/-! ## Convergence -/

/-- The entry is what the table has under its name. -/
def State.Faithful (s : State) (entry : Json) : Prop :=
  ∃ row, nameOf entry = some row.name ∧ s.row row.name = some row ∧ entry = toDict row

/-- What the cache answers is what the table has, and it answers for no name that the table has
not. -/
structure Converged (lower : List Char → List Char) (s : State) : Prop where
  all : ∀ entries, s.getAll = some entries → ∀ entry ∈ entries, s.Faithful entry
  one : ∀ name entry, s.getByName lower name = some entry →
    nameOf entry = some (lower name) ∧ s.Faithful entry
  absent : ∀ name, s.row (lower name) = none → s.getByName lower name = none

section Convergence

variable {lower : List Char → List Char} {s : State}

theorem faithful_toDict (hwf : WellFormed lower s.rows s.nextId) {row : InferenceType}
    (hrow : row ∈ s.rows) : s.Faithful (toDict row) :=
  ⟨row, rfl, Table.get_of_mem hwf.names hrow, rfl⟩

theorem converged_of_agrees (hlower : ∀ name, lower (lower name) = lower name)
    (hwf : WellFormed lower s.rows s.nextId) (hagrees : Agrees s.cache s.rows) :
    Converged lower s := by
  have hone : ∀ name entry, s.getByName lower name = some entry →
      ∃ row ∈ s.rows, row.name = lower name ∧ entry = toDict row := by
    intro name entry h
    obtain ⟨hash, hcached, hread⟩ := Option.bind_eq_some_iff.mp h
    rcases hagrees _ _ hcached with ⟨row, hrow, hname, rfl⟩ | ⟨-, rfl⟩
    · rw [fromHash_toHash] at hread
      exact ⟨row, hrow, hname.trans (hlower name), (Option.some.inj hread).symm⟩
    · rw [fromHash_allHash] at hread
      cases hread
  refine ⟨fun entries h entry hentry => ?_, fun name entry h => ?_, fun name habsent => ?_⟩
  · obtain ⟨hash, hcached, hread⟩ := Option.bind_eq_some_iff.mp h
    rcases hagrees _ _ hcached with ⟨row, hrow, hname, rfl⟩ | ⟨-, rfl⟩
    · rw [readAll_toHash] at hread
      cases hread
    · obtain ⟨entries', hread', hperm⟩ := readAll_allHash (byName s.rows)
      obtain rfl := Option.some.inj (hread'.symm.trans hread)
      obtain ⟨row, hrow, rfl⟩ := List.mem_map.mp (hperm.mem_iff.mp hentry)
      exact faithful_toDict hwf (mem_byName.mp hrow)
  · obtain ⟨row, hrow, hname, rfl⟩ := hone name entry h
    exact ⟨congrArg some hname, faithful_toDict hwf hrow⟩
  · cases h : s.getByName lower name with
    | none => rfl
    | some entry =>
      obtain ⟨row, hrow, hname, -⟩ := hone name entry h
      have hfound := Table.get_of_mem hwf.names hrow
      rw [hname] at hfound
      cases habsent.symm.trans hfound

end Convergence

/-- **The cache converges**: when a catalogue that is no longer the current one is only written
while a rebuild that will read and sweep is still to come, and every sweep after a read of the
current catalogue finds in `:all` the cached names that are gone, then in every state in which each
commit has been followed by its rebuild and all calls are over, the cache answers what the table
has. -/
theorem cache_converges (lower : List Char → List Char)
    (hlower : ∀ name, lower (lower name) = lower name) (requests : Nat → Request)
    (rows : List InferenceType) (nextId : Nat) (cache : Cache) (labels : List Label) (s : State)
    (hrows : WellFormed lower rows nextId) (hcache : Agrees cache rows)
    (hrun : Run (step lower requests) (State.start rows nextId cache) labels s)
    (hguard : Guarded (step lower requests) (Timely lower) (State.start rows nextId cache) labels)
    (hover : ∀ i, (s.calls i).finished = true) : Converged lower s := by
  have hstart : Inv lower (State.start rows nextId cache) := ⟨hrows, fun _ => trivial, .inl hcache⟩
  have hend : Inv lower s :=
    Run.guardedInvariant (fun _ _ _ hinv hG h => inv_step hlower hinv hG h) hrun hguard hstart
  refine converged_of_agrees hlower hend.wellFormed (hend.settled.resolve_right ?_)
  rintro ⟨i, howes⟩
  exact Phase.not_owes_of_finished (hover i) howes

/-! ## Two runs -/

/-- Speech recognition, billed by the minute. -/
def asrType : InferenceTypeCreate :=
  ⟨"asr".toList, ["/asr".toList], "audio_minutes".toList, "per_minute".toList⟩

/-- The row that it gets. -/
def asrRow : InferenceType :=
  ⟨1, "asr".toList, ["/asr".toList], "audio_minutes".toList, "per_minute".toList⟩

/-- Readers and one creation. -/
def createRequests : Nat → Request
  | 1 => .createInferenceType asrType
  | 2 => .getByName "asr".toList
  | _ => .getAll

/-- A reader writes the empty catalogue after the creation has committed, and before its rebuild
begins. -/
def createLabels : List Label :=
  [.lookup 0, .query 0, .commit 1, .execute 0, .refresh 1, .query 1, .hkeys 1, .execute 1, .lookup 2]

/-- The new type is answered from the cache; all names are in lower case already. -/
theorem cache_converges_after_creation :
    ∃ s, Run (step id createRequests) (State.start [] 1 fun _ => none) createLabels s ∧
      s.calls 2 = .answered (.one (some (toDict asrRow))) ∧ Converged id s := by
  have hempty : WellFormed id [] 1 :=
    ⟨fun _ h => absurd h List.not_mem_nil, List.nodup_nil, List.nodup_nil,
      fun _ h => absurd h List.not_mem_nil⟩
  refine ⟨_, run_final (by decide +kernel), by decide +kernel,
    cache_converges id (fun _ => rfl) createRequests [] 1 (fun _ => none) createLabels _ hempty
      (fun _ _ h => by cases h) (run_final (by decide +kernel)) ?_ fun i => ?_⟩
  · refine ⟨trivial, fun s₁ h₁ => ?_⟩
    obtain rfl := Option.some.inj h₁
    refine ⟨trivial, fun s₂ h₂ => ?_⟩
    obtain rfl := Option.some.inj h₂
    refine ⟨trivial, fun s₃ h₃ => ?_⟩
    obtain rfl := Option.some.inj h₃
    refine ⟨fun v _ => .inr ⟨1, trivial⟩, fun s₄ h₄ => ?_⟩
    obtain rfl := Option.some.inj h₄
    refine ⟨trivial, fun s₅ h₅ => ?_⟩
    obtain rfl := Option.some.inj h₅
    refine ⟨trivial, fun s₆ h₆ => ?_⟩
    obtain rfl := Option.some.inj h₆
    refine ⟨fun rows _ k hash hk => ?_, fun s₇ h₇ => ?_⟩
    · -- the stale catalogue was empty
      change (if k ∈ [allKey] then none else none) = _ at hk
      rw [ite_self] at hk
      cases hk
    obtain rfl := Option.some.inj h₇
    refine ⟨fun v hv => .inl (Option.some.inj hv).symm, fun s₈ h₈ => ?_⟩
    obtain rfl := Option.some.inj h₈
    exact ⟨trivial, fun _ _ => trivial⟩
  · rcases i with _ | _ | _ | i
    · decide +kernel
    · decide +kernel
    · decide +kernel
    · rfl

/-- The unit of the type is changed. -/
def staleRequests : Nat → Request
  | 0 => .getByName "asr".toList
  | 1 => .updateInferenceType "asr".toList ⟨none, none, some "audio_seconds".toList, none⟩
  | _ => .getByName "asr".toList

/-- A type with the name of the key `:all`. -/
def allRow : InferenceType := ⟨2, "all".toList, ["/all".toList], "tokens".toList, "per_token".toList⟩

/-- The other type is removed. -/
def sweepRequests : Nat → Request
  | 0 => .warmup
  | 1 => .deleteInferenceType "asr".toList
  | _ => .getByName "asr".toList

/-- A reader that has missed reads the row, the unit is changed with a whole rebuild, and the reader
writes the old row. And, one call after the other: beside a type called `all`, whose hash is the one
of the catalogue, a deleted type is never swept. In both runs every call is over. -/
theorem old_row_stays :
    (∃ s, Run (step id staleRequests) (State.start [asrRow] 2 fun _ => none)
        [.lookup 0, .query 0, .load 1, .commit 1, .refresh 1, .query 1, .hkeys 1, .execute 1,
          .execute 0, .lookup 2] s ∧
      (∀ i, (s.calls i).finished = true) ∧
      s.calls 2 = .answered (.one (some (toDict asrRow))) ∧
      s.row "asr".toList = some { asrRow with unit := "audio_seconds".toList }) ∧
    ∃ s, Run (step id sweepRequests) (State.start [asrRow, allRow] 3 fun _ => none)
        [.query 0, .hkeys 0, .execute 0, .load 1, .commit 1, .query 1, .hkeys 1, .execute 1,
          .lookup 2] s ∧
      (∀ i, (s.calls i).finished = true) ∧
      s.calls 2 = .answered (.one (some (toDict asrRow))) ∧ s.row "asr".toList = none := by
  refine ⟨⟨_, run_final (by decide +kernel), fun i => ?_, by decide +kernel, by decide +kernel⟩,
    _, run_final (by decide +kernel), fun i => ?_, by decide +kernel, by decide +kernel⟩
  · rcases i with _ | _ | _ | i
    · decide +kernel
    · decide +kernel
    · decide +kernel
    · rfl
  · rcases i with _ | _ | _ | i
    · decide +kernel
    · decide +kernel
    · decide +kernel
    · rfl

end Ai4iCore.Billing.InferenceTypeCache
