import Ai4iCore.Base.Lock
import Ai4iCore.Base.Run
import Ai4iCore.Notification.Catalog

/-!
# Institution-scoped notifications and the Adopter Admin

Any number of `update_catalog` calls on any number of rows, statement by statement. A call reads
its row without a lock, its first UPDATE takes the row's lock and is made on what is stored by
then, and its commit gives the lock back. What a call computes never has the scope INSTITUTION
together with the Adopter Admin as a recipient; but it writes only what it changes, so two calls
may do together what neither does alone. `institution_scope_iff` says in which runs they do not.
-/

namespace Ai4iCore.Notification

open StepSystem

structure Request where
  name : String
  payload : CatalogUpdate
  updatedBy : Option String
  deriving DecidableEq, Repr

/-- How far a call is: `running` with the row that it has read, the row as its transaction has
written it (`none` before the first UPDATE), the UPDATEs to come, and how the function ends. -/
inductive Phase
  | idle
  | running (read : ConfigNotificationAlert) (written : Option ConfigNotificationAlert)
      (rest : List Patch) (ending : Except CatalogError Unit)
  | succeeded
  | failed (e : CatalogError)
  | aborted

/-- The committed rows, the row locks and the calls. -/
structure State where
  rows : String → Option ConfigNotificationAlert
  locks : Locks String
  phases : Nat → Phase

/-- One statement of call `i`, the end of its function, or an error of the database. -/
inductive Label
  | read (i : Nat)
  | update (i : Nat)
  | finish (i : Nat)
  | abort (i : Nat)
  deriving DecidableEq, Repr

def State.set (s : State) (i : Nat) (p : Phase) : State :=
  { s with phases := Function.update s.phases i p }

/-- The transaction of `i` ends. -/
def State.close (s : State) (i : Nat) (p : Phase) : State :=
  { s.set i p with locks := s.locks.release i }

/-- What a call does with the row it has read. A MONITORING row is not found. -/
def Request.begin (req : Request) (row : Option ConfigNotificationAlert) : Phase :=
  match row with
  | none => .failed .entityNotFound
  | some row =>
    if row.type = .monitoring then .failed .entityNotFound
    else
      let (versions, ending) := updateCatalog req.name req.payload req.updatedBy row
      .running row none (updates row versions) ending

section Step

variable (requests : Nat → Request)

def step (s : State) : Label → Option State
  | .read i =>
    match s.phases i with
    | .idle => some (s.set i ((requests i).begin (s.rows (requests i).name)))
    | _ => none
  | .update i =>
    match s.phases i with
    | .running read written (patch :: rest) ending =>
      if s.locks.mayTake i (requests i).name then
        match written.or (s.rows (requests i).name) with
        | none => none
        | some row =>
          some { s.set i (.running read (some (patch.apply row)) rest ending) with
            locks := s.locks.take i (requests i).name }
      else none
    | _ => none
  | .finish i =>
    match s.phases i with
    | .running _ _ [] (.error e) => some (s.close i (.failed e))
    | .running _ none [] (.ok ()) => some (s.close i .succeeded)
    | .running _ (some row) [] (.ok ()) =>
      some { s.close i .succeeded with
        rows := Function.update s.rows (requests i).name (some row) }
    | _ => none
  | .abort i =>
    match s.phases i with
    | .running .. => some (s.close i .aborted)
    | _ => none

end Step

/-- No row has the scope INSTITUTION and the Adopter Admin as a recipient. -/
def Sound (s : State) : Prop :=
  ∀ name row, s.rows name = some row → row.scope = .institution →
    adminEnabled row.recipientRoles = false

/-- The row `base` is stored when a call commits that has read `row`. It is crossed when the call
switches it to INSTITUTION, leaving the recipients, and by now the Adopter Admin is one of them;
and when the call changes the recipients, the Adopter Admin among them, leaving the scope, and by
now that is INSTITUTION. -/
inductive Crossed (row base : ConfigNotificationAlert) (payload : CatalogUpdate) : Prop
  | scope (read : row.scope = .global) (set : payload.scope = some .institution)
      (kept : recipientRolesAfter row payload = row.recipientRoles)
      (stored : adminEnabled base.recipientRoles = true)
  | recipients (kept : scopeAfter row payload = row.scope)
      (changed : recipientRolesAfter row payload ≠ row.recipientRoles)
      (set : adminEnabled (recipientRolesAfter row payload) = true)
      (stored : base.scope = .institution)

/-- The commit of a call does not cross another one. -/
def Uncrossed (requests : Nat → Request) (s : State) : Label → Prop
  | .finish i => ∀ read written base, s.phases i = .running read (some written) [] (.ok ()) →
      s.rows (requests i).name = some base → ¬ Crossed read base (requests i).payload
  | _ => True

/-- A row that is in order stays so exactly when it is not crossed. -/
theorem sound_iff_not_crossed {name : String} {payload : CatalogUpdate}
    {updatedBy : Option String} {row base : ConfigNotificationAlert}
    {versions : List ConfigNotificationAlert}
    (h : updateCatalog name payload updatedBy row = (versions, .ok ()))
    (hbase : base.scope = .institution → adminEnabled base.recipientRoles = false) :
    ((applyAll (updates row versions) base).scope = .institution →
      adminEnabled (applyAll (updates row versions) base).recipientRoles = false) ↔
      ¬ Crossed row base payload := by
  obtain ⟨hscope, hroles⟩ := applyAll_updateCatalog base h
  rw [hscope, hroles]
  by_cases hs : scopeAfter row payload = row.scope
  · by_cases hr : recipientRolesAfter row payload = row.recipientRoles
    · -- nothing is written
      rw [if_pos hs, if_pos hr]
      refine iff_of_true hbase fun hcrossed => ?_
      cases hcrossed with
      | scope hread hset =>
        have hafter : scopeAfter row payload = .institution := by rw [scopeAfter, hset]; rfl
        rw [hs, hread] at hafter
        cases hafter
      | recipients _ hchanged => exact hchanged hr
    · -- the recipients are written
      rw [if_pos hs, if_neg hr]
      constructor
      · intro hsound hcrossed
        cases hcrossed with
        | scope _ _ hkept => exact hr hkept
        | recipients _ _ hset hstored =>
          rw [hsound hstored] at hset
          cases hset
      · intro hnot hstored
        cases hadmin : adminEnabled (recipientRolesAfter row payload) with
        | false => rfl
        | true => exact absurd (.recipients hs hr hadmin hstored) hnot
  · rw [if_neg hs]
    by_cases hr : recipientRolesAfter row payload = row.recipientRoles
    · -- the scope is written
      rw [if_pos hr]
      constructor
      · intro hsound hcrossed
        cases hcrossed with
        | scope _ hset _ hstored =>
          have hafter : scopeAfter row payload = .institution := by rw [scopeAfter, hset]; rfl
          rw [hsound hafter] at hstored
          cases hstored
        | recipients hkept => exact hs hkept
      · intro hnot hafter
        cases hadmin : adminEnabled base.recipientRoles with
        | false => rfl
        | true =>
          refine absurd (.scope ?_ ?_ hr hadmin) hnot
          · cases hread : row.scope with
            | global => rfl
            | institution => exact absurd (hafter.trans hread.symm) hs
          · unfold scopeAfter at hafter hs
            cases hset : payload.scope with
            | none =>
              rw [hset] at hs
              exact absurd rfl hs
            | some scope =>
              rw [hset] at hafter
              exact congrArg some hafter
    · -- both are written
      rw [if_neg hr]
      refine iff_of_true recipientRolesAfter_institution fun hcrossed => ?_
      cases hcrossed with
      | scope _ _ hkept => exact hr hkept
      | recipients hkept => exact hs hkept

/-! ## What a step can do -/

/-- A phase in which a call is over. -/
def Phase.over : Phase → Prop
  | .succeeded | .failed _ | .aborted => True
  | _ => False

section Steps

variable {requests : Nat → Request} {s s' : State} {l : Label}

theorem step_cases (h : step requests s l = some s') :
    (∃ i, l = .read i ∧ s.phases i = .idle ∧
      s' = s.set i ((requests i).begin (s.rows (requests i).name))) ∨
    (∃ i read written patch rest ending row, l = .update i ∧
      s.phases i = .running read written (patch :: rest) ending ∧
      s.locks.mayTake i (requests i).name = true ∧
      written.or (s.rows (requests i).name) = some row ∧
      s' = { s.set i (.running read (some (patch.apply row)) rest ending) with
        locks := s.locks.take i (requests i).name }) ∨
    (∃ i read row, l = .finish i ∧ s.phases i = .running read (some row) [] (.ok ()) ∧
      s' = { s.close i .succeeded with
        rows := Function.update s.rows (requests i).name (some row) }) ∨
    (∃ i p, p.over ∧ s' = s.close i p ∧ Uncrossed requests s l) := by
  cases l with
  | read i =>
    unfold step at h
    dsimp only at h
    split at h
    · rename_i hidle
      exact .inl ⟨i, rfl, hidle, (Option.some.inj h).symm⟩
    · cases h
  | update i =>
    unfold step at h
    dsimp only at h
    split at h
    · rename_i read written patch rest ending hphase
      split at h
      · rename_i hmay
        cases hrow : written.or (s.rows (requests i).name) with
        | none =>
          rw [hrow] at h
          cases h
        | some row =>
          rw [hrow] at h
          exact .inr (.inl ⟨i, read, written, patch, rest, ending, row, rfl, hphase, hmay, hrow,
            (Option.some.inj h).symm⟩)
      · cases h
    · cases h
  | finish i =>
    unfold step at h
    dsimp only at h
    refine .inr (.inr ?_)
    split at h
    · rename_i read written e hphase
      refine .inr ⟨i, .failed e, trivial, (Option.some.inj h).symm, ?_⟩
      intro read' written' base hrunning
      rw [hphase] at hrunning
      cases hrunning
    · rename_i read hphase
      refine .inr ⟨i, .succeeded, trivial, (Option.some.inj h).symm, ?_⟩
      intro read' written' base hrunning
      rw [hphase] at hrunning
      cases hrunning
    · rename_i read row hphase
      exact .inl ⟨i, read, row, rfl, hphase, (Option.some.inj h).symm⟩
    · cases h
  | abort i =>
    unfold step at h
    dsimp only at h
    split at h
    · exact .inr (.inr (.inr ⟨i, .aborted, trivial, (Option.some.inj h).symm, trivial⟩))
    · cases h

/-! ## What a running call knows -/

/-- A call has computed what its session still has to write. Once it has written, it holds the
lock of its row, and its own version is the stored row with the UPDATEs that it has made. -/
def PhaseInv (requests : Nat → Request) (s : State) (i : Nat) : Phase → Prop
  | .running read written rest ending =>
    ∃ versions made, updateCatalog (requests i).name (requests i).payload (requests i).updatedBy
        read = (versions, ending) ∧
      made ++ rest = updates read versions ∧
      match written with
      | none => made = []
      | some row => s.locks (requests i).name = some i ∧
          ∃ base, s.rows (requests i).name = some base ∧ row = applyAll made base
  | _ => True

def Inv (requests : Nat → Request) (s : State) : Prop :=
  ∀ i, PhaseInv requests s i (s.phases i)

theorem phaseInv_over {i : Nat} {p : Phase} (h : p.over) : PhaseInv requests s i p := by
  cases p with
  | running => cases h
  | _ => trivial

/-- What a call knows stays true while its lock and its row do. -/
theorem PhaseInv.frame {j : Nat} {p : Phase} (h : PhaseInv requests s j p)
    (hkeep : s.locks (requests j).name = some j →
      s'.locks (requests j).name = some j ∧ s'.rows (requests j).name = s.rows (requests j).name) :
    PhaseInv requests s' j p := by
  cases p with
  | running read written rest ending =>
    obtain ⟨versions, made, hcomputed, hmade, hwritten⟩ := h
    refine ⟨versions, made, hcomputed, hmade, ?_⟩
    cases written with
    | none => exact hwritten
    | some row =>
      obtain ⟨hlock, base, hbase, hrow⟩ := hwritten
      obtain ⟨hlock', hrows⟩ := hkeep hlock
      exact ⟨hlock', base, hrows.trans hbase, hrow⟩
  | _ => trivial

theorem Inv.set (hinv : Inv requests s) {i : Nat} {p : Phase} (hp : PhaseInv requests s i p) :
    Inv requests (s.set i p) := by
  intro j
  show PhaseInv requests _ j (Function.update s.phases i p j)
  by_cases hj : j = i
  · subst hj
    rw [Function.update_self]
    exact hp.frame fun hlock => ⟨hlock, rfl⟩
  · rw [Function.update_of_ne hj]
    exact (hinv j).frame fun hlock => ⟨hlock, rfl⟩

/-- A call ends; it may have stored its own row. -/
theorem Inv.close (hinv : Inv requests s) {i : Nat} {p : Phase} (hover : p.over)
    {rows : String → Option ConfigNotificationAlert}
    (hrows : ∀ j, j ≠ i → s.locks (requests j).name = some j →
      rows (requests j).name = s.rows (requests j).name) :
    Inv requests { s.close i p with rows := rows } := by
  intro j
  show PhaseInv requests _ j (Function.update s.phases i p j)
  by_cases hj : j = i
  · subst hj
    rw [Function.update_self]
    exact phaseInv_over hover
  · rw [Function.update_of_ne hj]
    exact (hinv j).frame fun hlock => ⟨Locks.release_of_held hlock hj, hrows j hj hlock⟩

theorem inv_step (hinv : Inv requests s) (h : step requests s l = some s') :
    Inv requests s' := by
  rcases step_cases h with ⟨i, -, -, rfl⟩ |
    ⟨i, read, written, patch, rest, ending, row, -, hphase, hmay, hrow, rfl⟩ |
    ⟨i, read, row, -, hphase, rfl⟩ | ⟨i, p, hover, rfl, -⟩
  · refine hinv.set ?_
    unfold Request.begin
    split
    · trivial
    · split
      · trivial
      · exact ⟨_, [], rfl, rfl, rfl⟩
  · have hi := hinv i
    rw [hphase] at hi
    obtain ⟨versions, made, hcomputed, hmade, hwritten⟩ := hi
    intro j
    show PhaseInv requests _ j (Function.update s.phases i _ j)
    by_cases hj : j = i
    · subst hj
      rw [Function.update_self]
      refine ⟨versions, made ++ [patch], hcomputed, ?_, Locks.take_self _ _ _, ?_⟩
      · rw [List.append_assoc, ← hmade]
        rfl
      · show ∃ base, s.rows (requests j).name = some base ∧ _
        cases written with
        | none =>
          rw [show made = [] from hwritten]
          exact ⟨row, hrow, rfl⟩
        | some row' =>
          obtain ⟨-, base, hbase, hrow'⟩ := hwritten
          obtain rfl := Option.some.inj hrow
          refine ⟨base, hbase, ?_⟩
          rw [hrow', applyAll, applyAll, List.foldl_append]
          rfl
    · rw [Function.update_of_ne hj]
      exact (hinv j).frame fun hlock => ⟨Locks.take_of_held hmay hlock, rfl⟩
  · have hi := hinv i
    rw [hphase] at hi
    obtain ⟨-, -, -, -, hlock, -⟩ := hi
    refine hinv.close (p := .succeeded) trivial fun j hj hlock' => ?_
    -- the row that is stored is locked by its own call
    refine Function.update_of_ne (fun hname => hj ?_) _ _
    rw [hname] at hlock'
    exact Option.some.inj (hlock'.symm.trans hlock)
  · exact hinv.close hover fun _ _ _ => rfl

/-- A step keeps the rows in order exactly when it does not cross another call. -/
theorem sound_step (hinv : Inv requests s) (hsound : Sound s)
    (h : step requests s l = some s') : Sound s' ↔ Uncrossed requests s l := by
  rcases step_cases h with ⟨i, rfl, -, rfl⟩ |
    ⟨i, read, written, patch, rest, ending, row, rfl, -, -, -, rfl⟩ |
    ⟨i, read, row, rfl, hphase, rfl⟩ | ⟨i, p, -, rfl, huncrossed⟩
  · exact iff_of_true hsound trivial
  · exact iff_of_true hsound trivial
  · have hi := hinv i
    rw [hphase] at hi
    obtain ⟨versions, made, hcomputed, hmade, -, base, hbase, hrow⟩ := hi
    rw [List.append_nil] at hmade
    have hiff := sound_iff_not_crossed hcomputed (hsound _ base hbase)
    rw [← hmade, ← hrow] at hiff
    constructor
    · intro hsound' read' written' base' hphase' hbase'
      obtain ⟨rfl, rfl⟩ : read = read' ∧ row = written' := by
        rw [hphase] at hphase'
        cases hphase'
        exact ⟨rfl, rfl⟩
      obtain rfl := Option.some.inj (hbase.symm.trans hbase')
      refine hiff.mp (hsound' (requests i).name row ?_)
      exact Function.update_self _ _ _
    · intro huncrossed name row' hrow'
      change Function.update s.rows (requests i).name (some row) name = some row' at hrow'
      by_cases hname : name = (requests i).name
      · subst hname
        rw [Function.update_self] at hrow'
        obtain rfl := Option.some.inj hrow'
        exact hiff.mpr (huncrossed read row base hphase hbase)
      · rw [Function.update_of_ne hname] at hrow'
        exact hsound name row' hrow'
  · exact iff_of_true hsound huncrossed

/-! ## Runs -/

/-- The rows before the first call. -/
def start (rows : String → Option ConfigNotificationAlert) : State :=
  ⟨rows, fun _ => none, fun _ => .idle⟩

/-- From rows that are in order, a run has its rows in order throughout exactly when no commit
crosses another call. -/
theorem institution_scope_iff {rows : String → Option ConfigNotificationAlert} {ls : List Label}
    (hrows : Sound (start rows)) (hrun : Run (step requests) (start rows) ls s) :
    Guarded (step requests) (Uncrossed requests) (start rows) ls ↔
      ∀ ms m, ms <+: ls → Run (step requests) (start rows) ms m → Sound m := by
  refine Run.guarded_iff (I := Inv requests) (fun s l s' hinv h => inv_step hinv h)
    (fun s l s' hinv hsound h => sound_step hinv hsound h) hrun (fun i => trivial) hrows

end Steps

/-! ## Two calls that cross -/

/-- The notification is sent to the tenant's administrator. -/
def tierAssigned : ConfigNotificationAlert where
  type := .notification
  channels := ["EMAIL"]
  recipientRoles := [("ADMIN", false), ("TENANT ADMIN", true)]
  scope := .global
  updatedBy := none

def tierAssignedRows (name : String) : Option ConfigNotificationAlert :=
  if name = "TIER_ASSIGNED" then some tierAssigned else none

/-- The first call makes the row INSTITUTION, the others add the Adopter Admin. -/
def switchAndAdd : Nat → Request
  | 0 => ⟨"TIER_ASSIGNED", { scope := some .institution }, none⟩
  | _ => ⟨"TIER_ASSIGNED", { recipientRoles := some [("ADMIN", true)] }, none⟩

/-- Both calls read, and then each writes its own column. -/
def crossing : List Label :=
  [.read 0, .read 1, .update 0, .finish 0, .update 1, .finish 1]

theorem crossing_run : ∃ s, Run (step switchAndAdd) (start tierAssignedRows) crossing s ∧
    s.rows "TIER_ASSIGNED" = some { tierAssigned with
      scope := .institution
      recipientRoles := [("ADMIN", true), ("TENANT ADMIN", true)] } :=
  exists_run_of_map _ _ _ (fun s : State => s.rows "TIER_ASSIGNED") (by decide +kernel)

theorem tierAssigned_sound : Sound (start tierAssignedRows) := by
  intro name row hrow hscope
  change tierAssignedRows name = some row at hrow
  unfold tierAssignedRows at hrow
  split at hrow
  · obtain rfl := Option.some.inj hrow
    rfl
  · cases hrow

theorem institution_scope_crossed : Sound (start tierAssignedRows) ∧
    ∃ s, Run (step switchAndAdd) (start tierAssignedRows) crossing s ∧ ¬ Sound s := by
  obtain ⟨s, hrun, hrow⟩ := crossing_run
  refine ⟨tierAssigned_sound, s, hrun, fun hsound => ?_⟩
  exact absurd (hsound _ _ hrow rfl) (by decide)

theorem institution_scope_iff_crossing :
    ¬ Guarded (step switchAndAdd) (Uncrossed switchAndAdd) (start tierAssignedRows) crossing := by
  obtain ⟨s, hrun, hrow⟩ := crossing_run
  intro hguarded
  have hsound := (institution_scope_iff tierAssigned_sound hrun).mp hguarded crossing s
    List.prefix_rfl hrun
  exact absurd (hsound _ _ hrow rfl) (by decide)

end Ai4iCore.Notification
