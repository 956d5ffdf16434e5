import Ai4iCore.Auth.RoleCalls
import Mathlib.Data.List.Dedup
import Mathlib.Data.List.Sort

/-!
# Grants

`assign_role` looks for a row of the pair and inserts one when there is none. `user_role` has no
unique constraint, so two calls that both look before one of them inserts leave two rows, and
`remove_role`, which expects one at most, raises from then on. The lock of the ADMIN roster keeps
assignments of ADMIN in the Default Organisation apart, and only those.

When no assignment looks a pair up while another one is about to insert it, every pair has one
row at most, and a removal that runs alone takes a held role away or is refused by its guard
(`role_is_revoked`).
-/

namespace Ai4iCore.Auth.RoleCalls

open Checked StepSystem

namespace Database

/-- No pair has two rows. -/
def OneEach (d : Database) : Prop := ∀ id role, (d.records id role).length ≤ 1

/-- `get_user_permission_ids`; `cache` is `role_permission_cache`. -/
def getUserPermissionIds (d : Database) (cache : RoleName → List Nat) (id : UserId) : List Nat :=
  ((d.view.getUserRoles id).flatMap cache).dedup.insertionSort (· ≤ ·)

end Database

/-! ## Rows of a pair -/

section Records

variable {d : Database} {id : UserId} {role : RoleName}

theorem mem_records {g : Grant} :
    g ∈ d.records id role ↔ g ∈ d.grants ∧ g.userId = id ∧ g.role = role := by
  rw [Database.records, List.mem_filter, Bool.and_eq_true, decide_eq_true_eq, decide_eq_true_eq]

theorem mem_roles_iff_records : role ∈ d.view.getUserRoles id ↔ d.records id role ≠ [] := by
  rw [mem_roles, ne_eq, List.eq_nil_iff_forall_not_mem, not_forall_not]
  exact exists_congr fun g => mem_records.symm

theorem oneEach_of_nodup (h : (d.grants.map fun g => (g.userId, g.role)).Nodup) : d.OneEach := by
  intro id role
  have hpairs : (d.records id role).map (fun g => (g.userId, g.role)) =
      List.replicate (d.records id role).length (id, role) := by
    refine List.eq_replicate_iff.mpr ⟨List.length_map _, fun pair hpair => ?_⟩
    obtain ⟨g, hg, rfl⟩ := List.mem_map.mp hpair
    obtain ⟨-, huser, hrole⟩ := mem_records.mp hg
    exact Prod.ext huser hrole
  have hnodup : ((d.records id role).map fun g => (g.userId, g.role)).Nodup :=
    h.sublist (List.filter_sublist.map _)
  exact List.nodup_replicate.mp (hpairs ▸ hnodup)

theorem records_insert (id' : UserId) (role' : RoleName) :
    (d.apply (.insertGrant id' role')).records id role =
      d.records id role ++ if id' = id ∧ role' = role then [⟨d.nextGrant, id', role'⟩] else [] := by
  show (d.grants ++ [_]).filter _ = _
  rw [List.filter_append, Database.records]
  congr 1
  rw [List.filter_cons, List.filter_nil]
  simp only [Bool.and_eq_true, decide_eq_true_eq]

theorem records_delete (grant : Nat) : (d.apply (.deleteGrant grant)).records id role =
    (d.records id role).filter fun g => g.id ≠ grant := by
  show (d.grants.filter _).filter _ = _
  rw [Database.records, List.filter_filter, List.filter_filter]
  exact List.filter_congr fun g _ => Bool.and_comm _ _

end Records

/-! ## The invariant -/

/-- What a call has found out, and the lock it relies on. -/
def CallInv (d : Database) (locks : Locks Nat) (i : Nat) (r : Request) : Phase → Prop
  | .rosterLock t => ∀ id role, r = .assignRole id role → d.rosterOf id role = some t
  | .lookup => ∀ id role, r = .assignRole id role →
      ∀ t, d.rosterOf id role = some t → locks t = some i
  | .writing write _ => (∀ id role, r = .assignRole id role →
      write = .insertGrant id role ∧ d.records id role = [] ∧
        ∀ t, d.rosterOf id role = some t → locks t = some i) ∧
      ∀ id role, r = .removeRole id role → ∃ grant, write = .deleteGrant grant
  | .guardRoles .. | .guardLock .. | .guardCount .. => False
  | _ => True

/-- The call is about to insert a row of the pair. -/
def Inserts (s : State) (i : Nat) (id : UserId) (role : RoleName) : Prop :=
  ∃ counted, s.phases i = .writing (.insertGrant id role) counted

structure GrantInv (requests : Nat → Request) (s : State) : Prop where
  wellFormed : s.db.WellFormed
  catalogue : ∀ g ∈ s.db.grants, g.role ∈ s.db.catalogue
  one : s.db.OneEach
  calls : ∀ i, CallInv s.db s.locks i (requests i) (s.phases i)
  apart : ∀ i j id role, Inserts s i id role → Inserts s j id role → i = j
  busy : ∀ t i, s.locks t = some i → s.phases i ≠ .idle ∧ (s.phases i).isDone = false

/-- An assignment looks the pair up when no other one is about to insert it. For ADMIN in the
Default Organisation the lock sees to that. -/
def Unraced (requests : Nat → Request) (s : State) : Label → Prop
  | .run i => ∀ id role, requests i = .assignRole id role → s.phases i = .lookup →
      s.db.rosterOf id role = none → ∀ j, ¬Inserts s j id role
  | .abort _ => True

section Steps

variable {requests : Nat → Request} {s s' : State} {i : Nat}

/-- What a call has found out stays true when the pair is not inserted and its lock is kept. -/
theorem CallInv.mono {d d' : Database} {locks locks' : Locks Nat} {r : Request} {p : Phase}
    (h : CallInv d locks i r p) (haccounts : d'.accounts = d.accounts)
    (hrecords : ∀ id role counted, r = .assignRole id role →
      p = .writing (.insertGrant id role) counted → d.records id role = [] →
        d'.records id role = [])
    (hlocks : ∀ t, locks t = some i → locks' t = some i) : CallInv d' locks' i r p := by
  have hroster : ∀ id role, d'.rosterOf id role = d.rosterOf id role := fun id role => by
    rw [Database.rosterOf, Database.rosterOf, Database.defaultTenantOf, Database.defaultTenantOf,
      haccounts]
  cases p with
  | rosterLock t => exact fun id role hr => (hroster id role).trans (h id role hr)
  | lookup => exact fun id role hr t ht => hlocks t (h id role hr t ((hroster id role) ▸ ht))
  | writing w counted =>
    refine ⟨fun id role hr => ?_, h.2⟩
    obtain ⟨rfl, hnil, hlock⟩ := h.1 id role hr
    exact ⟨rfl, hrecords id role counted hr rfl hnil,
      fun t ht => hlocks t (hlock t ((hroster id role) ▸ ht))⟩
  | _ => exact h

theorem callInv_done {d : Database} {locks : Locks Nat} {r : Request} {p : Phase}
    (hp : p.isDone = true) : CallInv d locks i r p := by
  cases p with
  | succeeded => trivial
  | failed e => trivial
  | aborted => trivial
  | _ => cases hp

/-- A step of call `i` that does not write. -/
theorem GrantInv.moved (hinv : GrantInv requests s) {p : Phase} {locks : Locks Nat}
    (hlocks : ∀ j t, j ≠ i → s.locks t = some j → locks t = some j)
    (hheld : ∀ j t, locks t = some j → s.locks t = some j ∨ j = i)
    (hcall : CallInv s.db locks i (requests i) p)
    (hinserts : ∀ id role counted, p = .writing (.insertGrant id role) counted →
      ∀ j, ¬Inserts s j id role)
    (hbusy : ∀ t, locks t = some i → p ≠ .idle ∧ p.isDone = false) :
    GrantInv requests { s.set i p with locks := locks } := by
  have hphase : ∀ j, j ≠ i → (s.set i p).phases j = s.phases j :=
    fun j hj => Function.update_of_ne hj _ _
  have hself : (s.set i p).phases i = p := Function.update_self _ _ _
  have hother : ∀ j id role, j ≠ i → Inserts (s.set i p) j id role → Inserts s j id role :=
    fun j id role hj ⟨counted, h⟩ => ⟨counted, (hphase j hj).symm.trans h⟩
  refine ⟨hinv.wellFormed, hinv.catalogue, hinv.one, fun j => ?_, fun j k id role hj hk => ?_,
    fun t j h => ?_⟩
  · by_cases hij : j = i
    · subst hij
      exact hself.symm ▸ hcall
    · refine hphase j hij ▸ (hinv.calls j).mono rfl (fun _ _ _ _ _ h => h) fun t => hlocks j t hij
  · change Inserts (s.set i p) j id role at hj
    change Inserts (s.set i p) k id role at hk
    by_cases hji : j = i
    · by_cases hki : k = i
      · exact hji.trans hki.symm
      · obtain ⟨counted, hj⟩ := hji ▸ hj
        exact absurd (hother k id role hki hk) (hinserts id role counted (hself.symm.trans hj) k)
    · by_cases hki : k = i
      · obtain ⟨counted, hk⟩ := hki ▸ hk
        exact absurd (hother j id role hji hj) (hinserts id role counted (hself.symm.trans hk) j)
      · exact hinv.apart j k id role (hother j id role hji hj) (hother k id role hki hk)
  · change (s.set i p).phases j ≠ .idle ∧ ((s.set i p).phases j).isDone = false
    by_cases hij : j = i
    · subst hij
      rw [hself]
      exact hbusy t h
    · rw [hphase j hij]
      exact hinv.busy t j ((hheld j t h).resolve_right hij)

theorem GrantInv.close (hinv : GrantInv requests s) {p : Phase} (hp : p.isDone = true) :
    GrantInv requests (s.close i p) := by
  refine hinv.moved (fun j t hj h => Locks.release_of_held h hj)
    (fun j t h => .inl (Locks.held_of_release h)) (callInv_done hp) ?_ fun t h => ?_
  · rintro id role counted rfl
    cases hp
  · exact absurd h (Locks.release_self _ _ _)

/-- The row that is inserted is the only one of its pair. -/
theorem oneEach_insert {d : Database} {id : UserId} {role : RoleName} (hone : d.OneEach)
    (hnil : d.records id role = []) : (d.apply (.insertGrant id role)).OneEach := by
  intro id' role'
  rw [records_insert]
  split
  · rename_i hpair
    obtain ⟨rfl, rfl⟩ := hpair
    rw [hnil]
    exact Nat.le_refl 1
  · rw [List.append_nil]
    exact hone id' role'

theorem oneEach_delete {d : Database} (hone : d.OneEach) (grant : Nat) :
    (d.apply (.deleteGrant grant)).OneEach := by
  intro id role
  rw [records_delete]
  exact (List.length_filter_le _ _).trans (hone id role)

/-- The calls that do not commit keep what they have found out. -/
theorem GrantInv.written (hinv : GrantInv requests s) {write : Write}
    (haccounts : (s.db.apply write).accounts = s.db.accounts)
    (hcatalogue : ∀ g ∈ (s.db.apply write).grants, g.role ∈ (s.db.apply write).catalogue)
    (hone : (s.db.apply write).OneEach)
    (hrecords : ∀ j id role, j ≠ i → Inserts s j id role → s.db.records id role = [] →
      (s.db.apply write).records id role = []) :
    GrantInv requests { s.close i .succeeded with db := s.db.apply write } := by
  have hclosed := hinv.close (i := i) (p := .succeeded) rfl
  refine ⟨wellFormed_apply hinv.wellFormed write, hcatalogue, hone, fun j => ?_, hclosed.apart,
    hclosed.busy⟩
  refine (hclosed.calls j).mono haccounts (fun id role counted _ hphase hnil => ?_) fun _ h => h
  change Function.update s.phases i .succeeded j = _ at hphase
  by_cases hij : j = i
  · subst hij
    rw [Function.update_self] at hphase
    cases hphase
  · rw [Function.update_of_ne hij] at hphase
    exact hrecords j id role hij ⟨counted, hphase⟩ hnil

theorem GrantInv.apply (hinv : GrantInv requests s) {write : Write} {counted : Option Nat}
    (hrole : (requests i).isRoleRequest = true) (hphase : s.phases i = .writing write counted)
    (haccepts : s.db.accepts write = true) :
    GrantInv requests { s.close i .succeeded with db := s.db.apply write } := by
  have hcall := hinv.calls i
  rw [hphase] at hcall
  cases hrequest : requests i with
  | assignRole id role =>
    obtain ⟨rfl, hnil, -⟩ := hcall.1 id role hrequest
    have haccepted := (Bool.and_eq_true _ _).mp haccepts
    refine hinv.written rfl (fun g hg => ?_) (oneEach_insert hinv.one hnil)
      fun j id' role' hj hinserts hnil' => ?_
    · obtain hg | hg := List.mem_append.mp hg
      · exact hinv.catalogue g hg
      · rw [List.mem_singleton.mp hg]
        exact of_decide_eq_true haccepted.2
    · rw [records_insert, if_neg, List.append_nil]
      · exact hnil'
      · rintro ⟨rfl, rfl⟩
        exact hj (hinv.apart j i id role hinserts ⟨counted, hphase⟩)
  | removeRole id role =>
    obtain ⟨grant, rfl⟩ := hcall.2 id role hrequest
    refine hinv.written rfl (fun g hg => hinv.catalogue g (List.mem_filter.mp hg).1)
      (oneEach_delete hinv.one grant) fun j id' role' _ _ hnil => ?_
    rw [records_delete, hnil, List.filter_nil]
  | updateTenantUserStatus tenantId id isActive =>
    rw [hrequest] at hrole
    cases hrole
  | deleteTenantUser tenantId id =>
    rw [hrequest] at hrole
    cases hrole

/-- What a read finds out. -/
theorem read_callInv {p p' : Phase} (hrole : (requests i).isRoleRequest = true)
    (hcall : CallInv s.db s.locks i (requests i) p)
    (h : read s.db (requests i) p = some (.ok p')) : CallInv s.db s.locks i (requests i) p' := by
  generalize requests i = r at hrole hcall h
  cases read_cases h with
  | load hload =>
    cases hload with
    | lookup hroster =>
      intro id role hr t ht
      obtain ⟨rfl, rfl⟩ := Request.assignRole.inj hr
      exact absurd (hroster.symm.trans ht) (Option.some_ne_none t).symm
    | rosterLock hroster =>
      intro id role hr
      obtain ⟨rfl, rfl⟩ := Request.assignRole.inj hr
      exact hroster
    | select => trivial
    | removalLock => trivial
    | unguarded hother => exact absurd (hother.symm.trans hrole) Bool.false_ne_true
    | guarded hother => exact absurd (hother.symm.trans hrole) Bool.false_ne_true
  | found => trivial
  | missing hnil =>
    refine ⟨fun id role hr => ?_, fun _ _ hr => ?_⟩
    · obtain ⟨rfl, rfl⟩ := Request.assignRole.inj hr
      exact ⟨rfl, hnil, hcall _ _ rfl⟩
    · cases hr
  | counted hcount => trivial
  | selected hone =>
    refine ⟨fun _ _ hr => ?_, fun _ _ _ => ⟨_, rfl⟩⟩
    cases hr
  | holds => exact hcall.elim
  | guardCounted hcount => exact hcall.elim
  | unguarded hp => obtain rfl | rfl := hp <;> exact hcall.elim
  | platformGuard hp => obtain rfl | rfl := hp <;> exact hcall.elim

/-- Only a lookup leads to an insertion. -/
theorem lookup_of_insert {d : Database} {r : Request} {p : Phase} {id : UserId} {role : RoleName}
    {counted : Option Nat}
    (h : read d r p = some (.ok (.writing (.insertGrant id role) counted))) :
    p = .lookup ∧ r = .assignRole id role := by
  generalize hwrite : Phase.writing (.insertGrant id role) counted = p' at h
  cases read_cases h with
  | missing hnil =>
    obtain ⟨rfl, rfl⟩ := Write.insertGrant.inj (Phase.writing.inj hwrite).1
    exact ⟨rfl, rfl⟩
  | load hload =>
    cases hload with
    | unguarded _ => cases r <;> cases hwrite
    | _ => cases hwrite
  | guardCounted hcount => cases r <;> cases hwrite
  | unguarded hp => cases r <;> cases hwrite
  | _ => cases hwrite

/-- Then nobody else is at one: by the lock, or by the condition. -/
theorem not_inserts (hinv : GrantInv requests s) (hguard : Unraced requests s (.run i))
    {id : UserId} {role : RoleName} (hrequest : requests i = .assignRole id role)
    (hphase : s.phases i = .lookup) (j : Nat)
    (hrole : (requests j).isRoleRequest = true) : ¬Inserts s j id role := by
  intro hinserts
  cases hroster : s.db.rosterOf id role with
  | none => exact hguard id role hrequest hphase hroster j hinserts
  | some t =>
    obtain ⟨counted, hj⟩ := hinserts
    have hcalli := hinv.calls i
    rw [hphase] at hcalli
    have hi := hcalli id role hrequest t hroster
    have hcallj := hinv.calls j
    rw [hj] at hcallj
    have hjt : s.locks t = some j := by
      cases hrequestj : requests j with
      | assignRole id' role' =>
        obtain ⟨hwrite, -, hlock⟩ := hcallj.1 id' role' hrequestj
        obtain ⟨rfl, rfl⟩ := Write.insertGrant.inj hwrite
        exact hlock t hroster
      | removeRole id' role' =>
        obtain ⟨grant, hwrite⟩ := hcallj.2 id' role' hrequestj
        cases hwrite
      | updateTenantUserStatus tenantId id' isActive =>
        rw [hrequestj] at hrole
        cases hrole
      | deleteTenantUser tenantId id' =>
        rw [hrequestj] at hrole
        cases hrole
    obtain rfl := Option.some.inj (hi.symm.trans hjt)
    rw [hphase] at hj
    cases hj

/-- The lock an assignment takes is the one of its roster. -/
theorem lock_callInv {d : Database} {locks : Locks Nat} {r : Request} {p p' : Phase} {t : Nat}
    (hcall : CallInv d locks i r p) (h : p.wants = some (t, p')) :
    CallInv d (locks.take i t) i r p' ∧ p' ≠ .idle ∧ p'.isDone = false ∧
      ∀ write counted, p' ≠ .writing write counted := by
  cases p with
  | rosterLock tenantId =>
    obtain ⟨rfl, rfl⟩ := Prod.mk.inj (Option.some.inj h)
    refine ⟨fun id role hr t ht => ?_, by simp, rfl, by simp⟩
    obtain rfl := Option.some.inj ((hcall id role hr).symm.trans ht)
    exact Locks.take_self _ _ _
  | removalLock tenantId =>
    obtain ⟨rfl, rfl⟩ := Prod.mk.inj (Option.some.inj h)
    exact ⟨trivial, by simp, rfl, by simp⟩
  | guardLock role tenant target => exact hcall.elim
  | _ => cases h

/-- **A step keeps the invariant.** -/
theorem grantInv_step {a : Label} (hroles : ∀ i, (requests i).isRoleRequest = true)
    (hinv : GrantInv requests s) (hguard : Unraced requests s a)
    (h : step requests s a = some s') : GrantInv requests s' := by
  obtain ⟨i, hlabel, hsteps⟩ := step_cases h
  obtain rfl | ⟨-, rfl⟩ := hlabel
  · cases hsteps with
    | close p hp => exact hinv.close hp
    | write w counted hphase haccepts => exact hinv.apply (hroles i) hphase haccepts
    | lock tenantId p hwants hmay =>
      obtain ⟨hcall, hidle, hdone, hwriting⟩ := lock_callInv (hinv.calls i) hwants
      refine hinv.moved (fun j t _ hj => Locks.take_of_held hmay hj) (fun j t hj => ?_) hcall
        (fun id role counted hp => absurd hp (hwriting _ _)) fun _ _ => ⟨hidle, hdone⟩
      by_cases hji : j = i
      · exact .inr hji
      · exact .inl (Locks.held_of_take hj hji)
    | go p hread hp =>
      refine hinv.moved (fun _ _ _ hj => hj) (fun _ _ hj => .inl hj)
        (read_callInv (hroles i) (hinv.calls i) hread) ?_ fun _ _ => ⟨read_ne_idle hread, hp⟩
      rintro id role counted rfl j
      obtain ⟨hphase, hrequest⟩ := lookup_of_insert hread
      exact not_inserts hinv hguard hrequest hphase j (hroles j)
  · exact hinv.close rfl

end Steps

/-! ## One removal alone -/

/-- No call is running. -/
def Quiescent (s : State) : Prop := ∀ i, s.phases i = .idle ∨ (s.phases i).isDone = true

/-- Call `i` runs while all the others stand still. -/
def Alone (requests : Nat → Request) (i : Nat) (s s' : State) : Prop :=
  ∃ n, Run (step requests) s (List.replicate n (.run i)) s'

section Removal

variable {requests : Nat → Request} {s s' m : State} {i : Nat} {id : UserId} {role : RoleName}

theorem Alone.trans (h : Alone requests i s m) (h' : Alone requests i m s') :
    Alone requests i s s' := by
  obtain ⟨n, hn⟩ := h
  obtain ⟨n', hn'⟩ := h'
  refine ⟨n + n', ?_⟩
  rw [List.replicate_add]
  exact run_append_iff.mpr ⟨m, hn, hn'⟩

theorem Alone.single (h : step requests s (.run i) = some s') : Alone requests i s s' :=
  ⟨1, run_cons_iff.mpr ⟨s', h, Run.nil s'⟩⟩

/-- The next statement of a call that does not write. -/
theorem step_statement {p : Phase} (hphase : s.phases i = p)
    (hp : ∀ write counted, p ≠ .writing write counted) :
    step requests s (.run i) = s.statement requests i p := by
  unfold step
  dsimp only
  rw [hphase]
  split
  · exact absurd rfl (hp _ _)
  · rfl

/-- A read that does not raise, and one that does. -/
theorem alone_read {p p' : Phase} (hphase : s.phases i = p)
    (hread : read s.db (requests i) p = some (.ok p')) (hp : p.wants = none)
    (hwriting : ∀ write counted, p ≠ .writing write counted) (hdone : p'.isDone = false) :
    Alone requests i s (s.set i p') := by
  refine .single ?_
  rw [step_statement hphase hwriting, State.statement, hp]
  dsimp only
  rw [hread]
  show some (s.goOn i p') = _
  rw [State.goOn, if_neg (by rw [hdone]; exact Bool.false_ne_true)]

theorem alone_raise {p : Phase} {e : RoleError} (hphase : s.phases i = p)
    (hread : read s.db (requests i) p = some (.error e)) (hp : p.wants = none)
    (hwriting : ∀ write counted, p ≠ .writing write counted) :
    Alone requests i s (s.close i (.failed e)) := by
  refine .single ?_
  rw [step_statement hphase hwriting, State.statement, hp]
  dsimp only
  rw [hread]
  rfl

/-- From the second read on. -/
theorem select_alone {counted : Option Nat} {g : Grant} (hrequest : requests i = .removeRole id role)
    (hphase : s.phases i = .select counted) (hone : s.db.records id role = [g]) :
    ∃ s', Alone requests i s s' ∧ s'.phases i = .succeeded ∧
      s'.db = s.db.apply (.deleteGrant g.id) := by
  have hrecord : s.db.record id role = .ok (some g) := by rw [Database.record, hone]
  have hread : read s.db (requests i) (.select counted) =
      some (.ok (.writing (.deleteGrant g.id) counted)) := by
    rw [hrequest]
    show some (do
      let grant ← orRaise (← s.db.record id role) .roleNotHeld
      return Phase.writing (.deleteGrant grant.id) counted) = _
    rw [hrecord]
    rfl
  have hwriting := alone_read hphase hread rfl (by simp) rfl
  generalize hm : s.set i (.writing (.deleteGrant g.id) counted) = m at hwriting
  have hmphase : m.phases i = .writing (.deleteGrant g.id) counted := by
    rw [← hm]
    exact Function.update_self _ _ _
  have hmdb : m.db = s.db := by rw [← hm]; rfl
  have hcommit : m.commit i (.deleteGrant g.id) =
      { m.close i .succeeded with db := m.db.apply (.deleteGrant g.id) } := if_pos rfl
  refine ⟨m.commit i (.deleteGrant g.id), hwriting.trans (.single ?_), ?_, ?_⟩
  · unfold step
    dsimp only
    rw [hmphase]
  · rw [hcommit]
    exact Function.update_self _ _ _
  · rw [hcommit, ← hmdb]

/-- How a removal that runs alone ends: as its guard says. -/
def EndsBy (guard : Except RoleError Unit) (g : Grant) (s : State) (i : Nat) (s' : State) : Prop :=
  match guard with
  | .ok () => s'.phases i = .succeeded ∧ s'.db = s.db.apply (.deleteGrant g.id)
  | .error e => s'.phases i = .failed e ∧ s'.db = s.db

/-- The guard of ADMIN, in the words of the first read. -/
theorem removeGuard_admin (d : Database) (id : UserId) : d.view.removeGuard id .admin =
    (d.defaultTenantOf ((d.accounts.getById id).filter User.isActive)).elim (.ok ()) fun t =>
      require (1 < d.view.countInTenant .admin t.id) .lastPlatformAdmin := by
  have hactive : d.view.accounts.getById id = d.accounts.getById id := rfl
  have htenant : d.view.accounts.tenant = d.accounts.tenant := rfl
  show d.view.assertRoleRemovalKeepsAPlatformAdmin id = _
  unfold RoleStore.assertRoleRemovalKeepsAPlatformAdmin Database.defaultTenantOf
  rw [hactive, htenant]
  cases (d.accounts.getById id).filter User.isActive with
  | none => rfl
  | some target =>
    dsimp only [Option.bind_some]
    cases (target.tenantId.bind d.accounts.tenant).filter isDefaultTenant <;> rfl

/-- The removal does not count. -/
theorem removal_of_select {g : Grant} (hrequest : requests i = .removeRole id role)
    (hphase : s.phases i = .idle) (hone : s.db.records id role = [g])
    (hload : loadRemove s.db id role = .ok (.select none)) :
    ∃ s', Alone requests i s s' ∧ EndsBy (.ok ()) g s i s' := by
  have hread : read s.db (requests i) .idle = some (.ok (.select none)) := by
    rw [hrequest]
    exact congrArg some hload
  obtain ⟨s', halone, hend⟩ := select_alone (s := s.set i (.select none)) hrequest
    (Function.update_self _ _ _) hone
  exact ⟨s', (alone_read hphase hread rfl (by simp) rfl).trans halone, hend⟩

/-- The removal waits for the lock and counts. -/
theorem removal_of_lock {g : Grant} {t : Nat} (hrequest : requests i = .removeRole id role)
    (hphase : s.phases i = .idle) (hone : s.db.records id role = [g])
    (hfree : s.locks t = none) (hload : loadRemove s.db id role = .ok (.removalLock t)) :
    ∃ s', Alone requests i s s' ∧
      EndsBy (require (1 < s.db.view.countInTenant .admin t) .lastPlatformAdmin) g s i s' := by
  have hread : read s.db (requests i) .idle = some (.ok (.removalLock t)) := by
    rw [hrequest]
    exact congrArg some hload
  have hlocking := alone_read hphase hread rfl (by simp) rfl
  generalize hm : s.set i (.removalLock t) = m at hlocking
  have hmphase : m.phases i = .removalLock t := by
    rw [← hm]
    exact Function.update_self _ _ _
  have hlocked : Alone requests i m
      { m.set i (.removalCount t) with locks := m.locks.take i t } := by
    refine .single ((step_statement hmphase (by simp)).trans ?_)
    have hmay : m.locks.mayTake i t = true := by
      rw [Locks.mayTake_iff, ← hm]
      exact .inl hfree
    show (if m.locks.mayTake i t then some _ else none) = _
    rw [if_pos hmay]
  generalize hn : ({ m.set i (.removalCount t) with locks := m.locks.take i t } : State) = n
    at hlocked
  have hnphase : n.phases i = .removalCount t := by
    rw [← hn]
    exact Function.update_self _ _ _
  have hndb : n.db = s.db := by
    rw [← hn, ← hm]
    rfl
  have halone := hlocking.trans hlocked
  by_cases hcount : 1 < s.db.view.countInTenant .admin t
  · rw [decide_eq_true hcount]
    have hselect : read n.db (requests i) (.removalCount t) = some (.ok (.select (some t))) := by
      show some (require (1 < n.db.view.countInTenant .admin t) _ >>= _) = _
      rw [hndb, decide_eq_true hcount]
      rfl
    obtain ⟨s', hrest, hend⟩ := select_alone (s := n.set i (.select (some t))) hrequest
      (Function.update_self _ _ _) (hndb ▸ hone)
    refine ⟨s', halone.trans ((alone_read hnphase hselect rfl (by simp) rfl).trans hrest), hend.1, ?_⟩
    rw [hend.2, ← hndb]
    rfl
  · rw [decide_eq_false hcount]
    have hraise : read n.db (requests i) (.removalCount t) = some (.error .lastPlatformAdmin) := by
      show some (require (1 < n.db.view.countInTenant .admin t) _ >>= _) = _
      rw [hndb, decide_eq_false hcount]
      rfl
    exact ⟨_, halone.trans (alone_raise hnphase hraise rfl (by simp)),
      Function.update_self _ _ _, hndb⟩

theorem removal_alone {g : Grant} (hrequest : requests i = .removeRole id role)
    (hphase : s.phases i = .idle) (hone : s.db.records id role = [g])
    (hcatalogue : role ∈ s.db.catalogue) (hfree : ∀ t, s.locks t = none) :
    ∃ s', Alone requests i s s' ∧ EndsBy (s.db.view.removeGuard id role) g s i s' := by
  cases role with
  | user =>
    show ∃ s', _ ∧ EndsBy (require (!(s.db.accounts.getById id).any User.isSelfRegistered) _) g s i s'
    have hload : loadRemove s.db id .user =
        require (!(s.db.accounts.getById id).any User.isSelfRegistered)
          .selfRegisteredRoleRestricted >>= fun _ => .ok (.select none) := by
      unfold loadRemove
      rw [decide_eq_true hcatalogue]
      rfl
    cases hself : (s.db.accounts.getById id).any User.isSelfRegistered with
    | false => exact removal_of_select hrequest hphase hone (by rw [hload, hself]; rfl)
    | true =>
      have hread : read s.db (requests i) .idle = some (.error .selfRegisteredRoleRestricted) := by
        rw [hrequest]
        exact congrArg some (by rw [Request.load, hload, hself]; rfl)
      exact ⟨_, alone_raise hphase hread rfl (by simp), Function.update_self _ _ _, rfl⟩
  | admin =>
    have hload : loadRemove s.db id .admin = .ok
        ((s.db.defaultTenantOf ((s.db.accounts.getById id).filter User.isActive)).elim
          (.select none) fun t => .removalLock t.id) := by
      unfold loadRemove
      rw [decide_eq_true hcatalogue]
      rfl
    rw [removeGuard_admin]
    cases htenant : s.db.defaultTenantOf ((s.db.accounts.getById id).filter User.isActive) with
    | none => exact removal_of_select hrequest hphase hone (by rw [hload, htenant]; rfl)
    | some t => exact removal_of_lock hrequest hphase hone (hfree t.id) (by rw [hload, htenant]; rfl)
  | _ =>
    refine removal_of_select hrequest hphase hone ?_
    unfold loadRemove
    rw [decide_eq_true hcatalogue]
    rfl

end Removal

/-! ## Revoked roles are gone -/

section Revoked

variable {d : Database} {id : UserId} {role : RoleName} {g : Grant}

theorem records_deleted (hd : d.WellFormed) (hone : d.records id role = [g]) (id' : UserId)
    (role' : RoleName) : (d.apply (.deleteGrant g.id)).records id' role' =
      if id' = id ∧ role' = role then [] else d.records id' role' := by
  obtain ⟨hg, huser, hrole⟩ := mem_records.mp (hone ▸ List.mem_singleton_self g)
  rw [records_delete]
  split
  · rename_i hpair
    rw [hpair.1, hpair.2, hone]
    simp
  · rename_i hpair
    refine List.filter_eq_self.mpr fun g' hg' => ?_
    obtain ⟨hmem, huser', hrole'⟩ := mem_records.mp hg'
    refine decide_eq_true fun heq => hpair ?_
    obtain rfl := List.inj_on_of_nodup_map hd.grants hmem hg heq
    exact ⟨huser'.symm.trans huser, hrole'.symm.trans hrole⟩

theorem mem_roles_deleted (hd : d.WellFormed) (hone : d.records id role = [g])
    (other : RoleName) : other ∈ (d.apply (.deleteGrant g.id)).view.getUserRoles id ↔
      other ≠ role ∧ other ∈ d.view.getUserRoles id := by
  rw [mem_roles_iff_records, mem_roles_iff_records, records_deleted hd hone]
  by_cases h : other = role
  · simp [h]
  · simp [h]

theorem mem_getUserPermissionIds {cache : RoleName → List Nat} {permission : Nat} :
    permission ∈ d.getUserPermissionIds cache id ↔
      ∃ role, role ∈ d.view.getUserRoles id ∧ permission ∈ cache role := by
  rw [Database.getUserPermissionIds, List.mem_insertionSort, List.mem_dedup, List.mem_flatMap]

end Revoked

/-- What the removal by call `i` comes to: the role is gone, and with it every permission that no
other role of the user grants; or the guard has refused it. -/
def Revokes (cache : RoleName → List Nat) (id : UserId) (role : RoleName) (i : Nat)
    (s s' : State) : Except RoleError Unit → Prop
  | .ok () => s'.phases i = .succeeded ∧ role ∉ s'.db.view.getUserRoles id ∧
      ∀ permission, permission ∈ s'.db.getUserPermissionIds cache id ↔
        ∃ other, (other ≠ role ∧ other ∈ s.db.view.getUserRoles id) ∧ permission ∈ cache other
  | .error e => s'.phases i = .failed e ∧ s'.db = s.db

/-- **Revoked roles are gone**: when no assignment looks a pair up while another one is about to
insert it, no pair has two rows in any state of the run; and once no call is running, a removal
of a held role alone succeeds or is refused by its guard. -/
theorem role_is_revoked (cache : RoleName → List Nat) (requests : Nat → Request) (d : Database)
    (s : State) (labels : List Label) (hroles : ∀ i, (requests i).isRoleRequest = true)
    (hd : d.WellFormed) (hcatalogue : ∀ g ∈ d.grants, g.role ∈ d.catalogue) (hone : d.OneEach)
    (hrun : Run (step requests) (State.start d) labels s)
    (hguard : Guarded (step requests) (Unraced requests) (State.start d) labels) :
    s.db.OneEach ∧ (Quiescent s → ∀ i id role, requests i = .removeRole id role →
      s.phases i = .idle → role ∈ s.db.view.getUserRoles id →
        ∃ s', Alone requests i s s' ∧
          Revokes cache id role i s s' (s.db.view.removeGuard id role)) := by
  have hstart : GrantInv requests (State.start d) := by
    refine ⟨hd, hcatalogue, hone, fun _ => trivial, fun i j id role h => ?_, fun t i h => ?_⟩
    · obtain ⟨counted, h⟩ := h
      cases h
    · cases h
  have hinv : GrantInv requests s :=
    Run.guardedInvariant (fun _ _ _ hm hG h => grantInv_step hroles hm hG h) hrun hguard hstart
  refine ⟨hinv.one, fun hquiet i id role hrequest hidle hheld => ?_⟩
  have hfree : ∀ t, s.locks t = none := by
    intro t
    cases hlock : s.locks t with
    | none => rfl
    | some j =>
      obtain ⟨hbusy, hdone⟩ := hinv.busy t j hlock
      obtain h | h := hquiet j
      · exact absurd h hbusy
      · exact absurd (hdone.symm.trans h) Bool.false_ne_true
  have hheld := mem_roles_iff_records.mp hheld
  obtain ⟨g, hg⟩ := List.length_eq_one_iff.mp
    (Nat.le_antisymm (hinv.one id role) (List.length_pos_iff.mpr hheld))
  obtain ⟨hmem, -, hrole⟩ := mem_records.mp (hg ▸ List.mem_singleton_self g)
  obtain ⟨s', halone, hend⟩ := removal_alone hrequest hidle hg (hrole ▸ hinv.catalogue g hmem) hfree
  refine ⟨s', halone, ?_⟩
  cases hremove : s.db.view.removeGuard id role with
  | error e =>
    rw [hremove] at hend
    exact hend
  | ok u =>
    rw [hremove] at hend
    obtain ⟨hphase, hdb⟩ := hend
    refine ⟨hphase, ?_, fun permission => ?_⟩
    · rw [hdb, mem_roles_deleted hinv.wellFormed hg]
      exact fun h => h.1 rfl
    · rw [mem_getUserPermissionIds, hdb]
      exact exists_congr fun other =>
        and_congr_left fun _ => mem_roles_deleted hinv.wellFormed hg other

/-! ## Runs -/

/-- An ADMIN of the Default Organisation and a USER of another tenant. -/
def rootAndStaff : Database where
  accounts :=
    { users := [⟨1, "root@example.com", some 1, true, some 0, false, true, none⟩,
        ⟨3, "staff@example.org", some 5, true, some 0, false, true, some .tenant⟩]
      tenants := [⟨1, "default organisation", "root@example.com", .active⟩,
        ⟨5, "example", "head@example.org", .active⟩] }
  catalogue := [.admin, .user, .guest, .moderator, .tenantAdmin, .usageViewer]
  grants := [⟨1, 1, .admin⟩, ⟨2, 3, .user⟩]
  nextGrant := 3

theorem rootAndStaff_wellFormed : rootAndStaff.WellFormed where
  users := show (rootAndStaff.accounts.users.map User.id).Nodup by decide
  grants := by decide
  next := by decide

theorem rootAndStaff_oneEach : rootAndStaff.OneEach := oneEach_of_nodup (by decide)

/-- Calls 0 and 1 make the USER a TENANT ADMIN, call 2 takes that back; every other call takes
ADMIN from the only one. -/
def promoteTwice : Nat → Request
  | 0 | 1 => .assignRole 3 .tenantAdmin
  | 2 => .removeRole 3 .tenantAdmin
  | _ => .removeRole 1 .admin

theorem promoteTwice_roles (i : Nat) : (promoteTwice i).isRoleRequest = true := by
  match i with
  | 0 => rfl
  | 1 => rfl
  | 2 => rfl
  | i + 3 => rfl

/-- What the roles allow: both TENANT ADMIN and USER grant 10. -/
def samplePermissions : RoleName → List Nat
  | .tenantAdmin => [10, 11]
  | .user => [10]
  | _ => []

/-- One assignment and then the removal. -/
theorem role_is_revoked_in_turn :
    ∃ s, Run (step promoteTwice) (State.start rootAndStaff) [.run 0, .run 0, .run 0] s ∧
      s.db.view.getUserRoles 3 = [.tenantAdmin, .user] ∧ s.db.OneEach ∧
        ∃ s', Alone promoteTwice 2 s s' ∧
          Revokes samplePermissions 3 .tenantAdmin 2 s s' (s.db.view.removeGuard 3 .tenantAdmin) := by
  have hrun : Run (step promoteTwice) (State.start rootAndStaff) [.run 0, .run 0, .run 0]
      (final (step promoteTwice) (State.start rootAndStaff) [.run 0, .run 0, .run 0]) :=
    run_final (by decide +kernel)
  have hguard : Guarded (step promoteTwice) (Unraced promoteTwice) (State.start rootAndStaff)
      [.run 0, .run 0, .run 0] := by
    refine ⟨fun _ _ _ h => ?_, fun m hm => ⟨fun id role _ _ _ j hj => ?_, fun n hn =>
      ⟨fun _ _ _ h => ?_, fun _ _ => trivial⟩⟩⟩
    · cases h
    · -- nothing but call 0 has begun when it looks the pair up
      cases hm
      obtain ⟨counted, hj⟩ := hj
      match j with
      | 0 => cases hj
      | j + 1 => cases hj
    · cases hm
      cases hn
      cases h
  obtain ⟨hone, hremoval⟩ := role_is_revoked samplePermissions promoteTwice rootAndStaff _ _
    promoteTwice_roles rootAndStaff_wellFormed (by decide) rootAndStaff_oneEach hrun hguard
  refine ⟨_, hrun, by decide +kernel, hone, hremoval (fun i => ?_) 2 3 .tenantAdmin rfl rfl
    (by decide +kernel)⟩
  match i with
  | 0 => exact .inr rfl
  | i + 1 => exact .inl rfl

/-- Both assignments look before one of them inserts: there are two rows, and the removal raises.
The last ADMIN keeps the role. A permission that USER also grants stays. -/
theorem revoked_role_stays :
    (∃ s, Run (step promoteTwice) (State.start rootAndStaff)
        [.run 0, .run 1, .run 0, .run 1, .run 0, .run 1] s ∧ Quiescent s ∧
      (s.db.records 3 .tenantAdmin).length = 2 ∧
      ∃ s', Run (step promoteTwice) s [.run 2, .run 2] s' ∧
        s'.phases 2 = .failed .multipleResultsFound ∧
        RoleName.tenantAdmin ∈ s'.db.view.getUserRoles 3) ∧
    (∃ s, Run (step promoteTwice) (State.start rootAndStaff) [.run 3, .run 3, .run 3] s ∧
      s.phases 3 = .failed .lastPlatformAdmin ∧ RoleName.admin ∈ s.db.view.getUserRoles 1) ∧
    ∃ s, Run (step promoteTwice) (State.start rootAndStaff)
        [.run 0, .run 0, .run 0, .run 2, .run 2, .run 2] s ∧ s.phases 2 = .succeeded ∧
      10 ∈ samplePermissions .tenantAdmin ∧ 10 ∈ s.db.getUserPermissionIds samplePermissions 3 := by
  refine ⟨⟨_, run_final (by decide +kernel), fun i => ?_, by decide +kernel, _,
    run_final (by decide +kernel), by decide +kernel, by decide +kernel⟩, ⟨_,
    run_final (by decide +kernel), by decide +kernel, by decide +kernel⟩, _,
    run_final (by decide +kernel), by decide +kernel, by decide, by decide +kernel⟩
  match i with
  | 0 => exact .inr rfl
  | 1 => exact .inr rfl
  | i + 2 => exact .inl rfl

end Ai4iCore.Auth.RoleCalls
