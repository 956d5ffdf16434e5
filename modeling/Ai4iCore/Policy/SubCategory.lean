import Ai4iCore.Base.Checked
import Ai4iCore.Base.Lock
import Ai4iCore.Base.Run
import Ai4iCore.Base.Table
import Mathlib

/-!
# Sub-categories under their categories

`update_category_status`, `update_sub_category_status` and `update_sub_category` of
platform-core, statement by statement, for any number of calls. A call that enables or moves a
sub-category locks its category, and the one it moves to, in the order of their ids, and then the
sub-category itself (`_lock_with_parent`); it starts over when the sub-category was moved before
its lock was held.

What a call holds locked is stored as the call has read it, so a sub-category is enabled, and an
enabled one moved, under a category that is enabled at the commit (`enabled_under_enabled`). The
calls never wait for each other in a circle (`calls_not_waits_cycle`).
-/

namespace Ai4iCore.Policy

open Checked StepSystem

/-! ## Tables and requests -/

structure Category where
  id : Nat
  isActive : Bool
  deriving DecidableEq, Repr

structure SubCategory where
  id : Nat
  name : String
  description : Option String
  categoryId : Nat
  isActive : Bool
  deriving DecidableEq, Repr

structure Tables where
  categories : List Category
  subCategories : List SubCategory
  deriving DecidableEq, Repr

/-- A row that is locked. -/
inductive Row
  | category (id : Nat)
  | subCategory (id : Nat)
  deriving DecidableEq, Repr

namespace Tables

def category (t : Tables) (id : Nat) : Option Category := Table.get (·.id) t.categories id

def subCategory (t : Tables) (id : Nat) : Option SubCategory :=
  Table.get (·.id) t.subCategories id

def setCategory (t : Tables) (row : Category) : Tables :=
  { t with categories := Table.modify (·.id) t.categories row.id fun old =>
      { row with id := old.id } }

def setSubCategory (t : Tables) (row : SubCategory) : Tables :=
  { t with subCategories := Table.modify (·.id) t.subCategories row.id fun old =>
      { row with id := old.id } }

theorem category_setCategory {t : Tables} {row : Category} {id : Nat} (hne : id ≠ row.id) :
    (t.setCategory row).category id = t.category id :=
  Table.get_modify_of_ne (fun _ => rfl) hne

theorem subCategory_setSubCategory (t : Tables) (row : SubCategory) (id : Nat) :
    (t.setSubCategory row).subCategory id =
      (t.subCategory id).map fun old => if id = row.id then { row with id := old.id } else old :=
  Table.get_modify fun _ => rfl

theorem id_of_category {t : Tables} {id : Nat} {row : Category} (h : t.category id = some row) :
    row.id = id := by
  unfold category at h
  exact Table.key_of_get h

theorem id_of_subCategory {t : Tables} {id : Nat} {row : SubCategory}
    (h : t.subCategory id = some row) : row.id = id := by
  unfold subCategory at h
  exact Table.key_of_get h

end Tables

/-- The fields sent in a PATCH of a sub-category. -/
structure SubCategoryUpdate where
  name : Option String
  description : Option (Option String)
  categoryId : Option Nat
  deriving DecidableEq, Repr

inductive Request
  | updateCategoryStatus (categoryId : Nat) (isActive : Bool)
  | updateSubCategoryStatus (subCategoryId : Nat) (isActive : Bool)
  | updateSubCategory (subCategoryId : Nat) (body : SubCategoryUpdate)
  deriving DecidableEq, Repr

inductive PolicyError
  | entityNotFound
  | categoryDisabled
  | duplicateEntity
  | keyError
  deriving DecidableEq, Repr

/-! ## Decisions -/

def SubCategoryUpdate.apply (body : SubCategoryUpdate) (row : SubCategory) : SubCategory :=
  { row with
    name := body.name.getD row.name
    description := body.description.getD row.description
    categoryId := body.categoryId.getD row.categoryId }

/-- Another sub-category has the name, in any case (`uq_sub_category_name_lower`). -/
def nameTaken (lower : String → String) (t : Tables) (id : Nat) (name : String) : Bool :=
  t.subCategories.any fun row => row.id ≠ id && lower row.name = lower name

/-- What `update_sub_category_status` decides on the locked rows: nothing to do, or the row to
write. -/
def decideStatus (row : SubCategory) (locked : List Category) (isActive : Bool) :
    Except PolicyError (Option SubCategory) := do
  let category ← orRaise (Table.get (·.id) locked row.categoryId) .keyError
  require (!isActive || category.isActive) .categoryDisabled
  return if row.isActive = isActive then none else some { row with isActive }

/-- The category that a PATCH moves to, which has to be one of the locked ones. -/
def moveTarget (locked : List Category) (categoryId : Option Nat) :
    Except PolicyError (Option Category) :=
  match categoryId with
  | none => .ok none
  | some id => do
    let category ← orRaise (Table.get (·.id) locked id) .entityNotFound
    return some category

/-- What `update_sub_category` decides on the locked rows. -/
def decideUpdate (lower : String → String) (t : Tables) (row : SubCategory)
    (locked : List Category) (body : SubCategoryUpdate) :
    Except PolicyError (Option SubCategory) := do
  let target ← moveTarget locked body.categoryId
  -- an enabled sub-category is not moved under a disabled category
  require (target.all fun c => c.id = row.categoryId || !row.isActive || c.isActive)
    .categoryDisabled
  require (body.name.all fun name => name = row.name || !nameTaken lower t row.id name)
    .duplicateEntity
  return some (body.apply row)

/-- `sorted({parent_id, target_id} - {None})`. -/
def lockOrder (parentId : Nat) (targetId : Option Nat) : List Nat :=
  match targetId with
  | none => [parentId]
  | some targetId =>
    if parentId < targetId then [parentId, targetId]
    else if targetId < parentId then [targetId, parentId]
    else [parentId]

/-! ## Steps -/

/-- How far a call is. -/
inductive Phase
  | idle
  /-- The sub-category was read under `parentId`; the categories `todo` are locked next. -/
  | locking (parentId : Nat) (todo : List Nat) (locked : List Category)
  /-- It was moved to `parentId` meanwhile; the locks are given back next. -/
  | moved (parentId : Nat)
  /-- The sub-category and its categories are locked. -/
  | locked (row : SubCategory) (categories : List Category)
  | categoryLocked (row : Category)
  /-- The row is written next. -/
  | writing (row : SubCategory)
  | succeeded
  | failed (e : PolicyError)
  | aborted
  deriving DecidableEq, Repr

structure State where
  tables : Tables
  locks : Locks Row
  phases : Nat → Phase

/-- One statement of call `i`, or its end by an error of the database. -/
inductive Label
  | read (i : Nat)
  | lockCategory (i : Nat)
  | lockSubCategory (i : Nat)
  | rollback (i : Nat)
  | check (i : Nat)
  | commit (i : Nat)
  | abort (i : Nat)
  deriving DecidableEq, Repr

def State.set (s : State) (i : Nat) (p : Phase) : State :=
  { s with phases := Function.update s.phases i p }

/-- Call `i` takes the lock of a row. -/
def State.lock (s : State) (i : Nat) (r : Row) (p : Phase) : State :=
  { s.set i p with locks := s.locks.take i r }

/-- The transaction of `i` ends. -/
def State.close (s : State) (i : Nat) (p : Phase) : State :=
  { s.set i p with locks := s.locks.release i }

/-- The sub-category of a request, and the category that it moves to, when the call locks the
category of the sub-category first. -/
def Request.underParent : Request → Option (Nat × Option Nat)
  | .updateCategoryStatus .. => none
  | .updateSubCategoryStatus id _ => some (id, none)
  | .updateSubCategory id body => body.categoryId.map fun target => (id, some target)

/-- The lock that a call takes by its next statement. -/
def wants (req : Request) : Phase → Option Row
  | .idle =>
    match req, req.underParent with
    | .updateCategoryStatus id _, _ => some (.category id)
    | .updateSubCategory id _, none => some (.subCategory id)
    | _, _ => none
  | .locking _ (id :: _) _ => some (.category id)
  | .locking _ [] _ => req.underParent.map fun p => .subCategory p.1
  | _ => none

/-- The checks on the locked rows. -/
def Request.decide (req : Request) (lower : String → String) (t : Tables) (row : SubCategory)
    (locked : List Category) : Except PolicyError (Option SubCategory) :=
  match req with
  | .updateCategoryStatus .. => .ok none
  | .updateSubCategoryStatus _ isActive => decideStatus row locked isActive
  | .updateSubCategory _ body => decideUpdate lower t row locked body

/-- The unique index on the names rejects the row. -/
def Request.rejected (req : Request) (lower : String → String) (t : Tables) (row : SubCategory) :
    Bool :=
  match req with
  | .updateSubCategory _ body => body.name.any fun name => nameTaken lower t row.id name
  | _ => false

section Step

variable (lower : String → String) (requests : Nat → Request)

def step (s : State) : Label → Option State
  | .read i =>
    match s.phases i, (requests i).underParent with
    | .idle, some (id, target) =>
      match s.tables.subCategory id with
      | none => some (s.close i (.failed .entityNotFound))
      | some row =>
        some (s.set i (.locking row.categoryId (lockOrder row.categoryId target) []))
    | _, _ => none
  | .lockCategory i =>
    match s.phases i, wants (requests i) (s.phases i) with
    | .idle, some (.category id) =>
      if s.locks.mayTake i (.category id) then
        match s.tables.category id with
        | none => some (s.close i (.failed .entityNotFound))
        | some row => some (s.lock i (.category id) (.categoryLocked row))
      else none
    | .locking parentId (_ :: todo) locked, some (.category id) =>
      if s.locks.mayTake i (.category id) then
        match s.tables.category id with
        | none => some (s.set i (.locking parentId todo locked))
        | some row => some (s.lock i (.category id) (.locking parentId todo (locked ++ [row])))
      else none
    | _, _ => none
  | .lockSubCategory i =>
    match s.phases i, wants (requests i) (s.phases i) with
    | .idle, some (.subCategory id) =>
      if s.locks.mayTake i (.subCategory id) then
        match s.tables.subCategory id with
        | none => some (s.close i (.failed .entityNotFound))
        | some row => some (s.lock i (.subCategory id) (.locked row []))
      else none
    | .locking parentId [] locked, some (.subCategory id) =>
      if s.locks.mayTake i (.subCategory id) then
        match s.tables.subCategory id with
        | none => some (s.close i (.failed .entityNotFound))
        | some row =>
          if row.categoryId = parentId then
            some (s.lock i (.subCategory id) (.locked row locked))
          else some (s.lock i (.subCategory id) (.moved row.categoryId))
      else none
    | _, _ => none
  | .rollback i =>
    match s.phases i, (requests i).underParent with
    | .moved parentId, some (_, target) =>
      some (s.close i (.locking parentId (lockOrder parentId target) []))
    | _, _ => none
  | .check i =>
    match s.phases i with
    | .locked row categories =>
      match (requests i).decide lower s.tables row categories with
      | .error e => some (s.close i (.failed e))
      | .ok none => some (s.close i .succeeded)
      | .ok (some row') => some (s.set i (.writing row'))
    | _ => none
  | .commit i =>
    match s.phases i, requests i with
    | .categoryLocked row, .updateCategoryStatus _ isActive =>
      if row.isActive = isActive then some (s.close i .succeeded)
      else some { s.close i .succeeded with tables := s.tables.setCategory { row with isActive } }
    | .writing row, _ =>
      if (requests i).rejected lower s.tables row then
        some (s.close i (.failed .duplicateEntity))
      else some { s.close i .succeeded with tables := s.tables.setSubCategory row }
    | _, _ => none
  | .abort i =>
    match s.phases i with
    | .succeeded | .failed _ | .aborted => none
    | _ => some (s.close i .aborted)

end Step

/-! ## What a call holds and knows -/

/-- The categories are locked by call `i`, and stored as it has read them. -/
def Holds (s : State) (i : Nat) (locked : List Category) : Prop :=
  ∀ c ∈ locked, s.locks (.category c.id) = some i ∧ s.tables.category c.id = some c

/-- When `row` replaces the stored row, a sub-category that is enabled or moved thereby is under
a category that is enabled, and locked by call `i`. -/
def Covered (s : State) (i : Nat) (stored row : SubCategory) : Prop :=
  row.isActive = true → stored.isActive = false ∨ stored.categoryId ≠ row.categoryId →
    ∃ c, s.locks (.category row.categoryId) = some i ∧
      s.tables.category row.categoryId = some c ∧ c.isActive = true

def PhaseInv (s : State) (i : Nat) : Phase → Prop
  | .idle => ∀ r, s.locks r ≠ some i
  | .locking _ todo locked =>
    Holds s i locked ∧ todo.Pairwise (· < ·) ∧
      ∀ r, s.locks r = some i → ∃ id, r = .category id ∧ ∀ id' ∈ todo, id < id'
  | .locked row categories =>
    Holds s i categories ∧ s.locks (.subCategory row.id) = some i ∧
      s.tables.subCategory row.id = some row
  | .categoryLocked row => s.locks (.category row.id) = some i
  | .writing row =>
    s.locks (.subCategory row.id) = some i ∧
      ∃ stored, s.tables.subCategory row.id = some stored ∧ Covered s i stored row
  | _ => True

def Inv (s : State) : Prop := ∀ i, PhaseInv s i (s.phases i)

/-- A step of another call: the locks of call `i` are the same, and so are the rows under them. -/
structure Keeps (s s' : State) (i : Nat) : Prop where
  locks : ∀ r, s'.locks r = some i ↔ s.locks r = some i
  category : ∀ id, s.locks (.category id) = some i → s'.tables.category id = s.tables.category id
  subCategory : ∀ id, s.locks (.subCategory id) = some i →
    s'.tables.subCategory id = s.tables.subCategory id

section Frames

variable {s s' : State} {i : Nat}

theorem Holds.keep {locked : List Category} (h : Holds s i locked) (hkeep : Keeps s s' i) :
    Holds s' i locked := by
  intro c hc
  obtain ⟨hlock, hstored⟩ := h c hc
  exact ⟨(hkeep.locks _).mpr hlock, (hkeep.category _ hlock).trans hstored⟩

theorem PhaseInv.keep {p : Phase} (h : PhaseInv s i p) (hkeep : Keeps s s' i) :
    PhaseInv s' i p := by
  cases p with
  | idle => exact fun r hr => h r ((hkeep.locks r).mp hr)
  | locking parentId todo locked =>
    obtain ⟨hholds, hsorted, honly⟩ := h
    exact ⟨hholds.keep hkeep, hsorted, fun r hr => honly r ((hkeep.locks r).mp hr)⟩
  | locked row categories =>
    obtain ⟨hholds, hlock, hstored⟩ := h
    exact ⟨hholds.keep hkeep, (hkeep.locks _).mpr hlock,
      (hkeep.subCategory _ hlock).trans hstored⟩
  | categoryLocked row => exact (hkeep.locks _).mpr h
  | writing row =>
    obtain ⟨hlock, stored, hstored, hcovered⟩ := h
    refine ⟨(hkeep.locks _).mpr hlock, stored, (hkeep.subCategory _ hlock).trans hstored, ?_⟩
    intro hactive hchanges
    obtain ⟨c, hparent, hc, henabled⟩ := hcovered hactive hchanges
    exact ⟨c, (hkeep.locks _).mpr hparent, (hkeep.category _ hparent).trans hc, henabled⟩
  | _ => trivial

/-- The calls after a step of call `i`. -/
theorem Inv.step_of {p : Phase} (hinv : Inv s) (hphases : s'.phases = Function.update s.phases i p)
    (hother : ∀ j, j ≠ i → Keeps s s' j) (hp : PhaseInv s' i p) : Inv s' := by
  intro j
  rw [hphases]
  by_cases hj : j = i
  · subst hj
    rw [Function.update_self]
    exact hp
  · rw [Function.update_of_ne hj]
    exact (hinv j).keep (hother j hj)

theorem keeps_set {p : Phase} {j : Nat} : Keeps s (s.set i p) j :=
  ⟨fun _ => Iff.rfl, fun _ _ => rfl, fun _ _ => rfl⟩

theorem keeps_lock {p : Phase} {r : Row} {j : Nat} (hmay : s.locks.mayTake i r = true)
    (hj : j ≠ i) : Keeps s (s.lock i r p) j :=
  ⟨fun _ => ⟨fun h => Locks.held_of_take h hj, fun h => Locks.take_of_held hmay h⟩,
    fun _ _ => rfl, fun _ _ => rfl⟩

theorem keeps_close {p : Phase} {j : Nat} (hj : j ≠ i) : Keeps s (s.close i p) j :=
  ⟨fun _ => ⟨fun h => Locks.held_of_release h, fun h => Locks.release_of_held h hj⟩,
    fun _ _ => rfl, fun _ _ => rfl⟩

theorem Inv.set {p : Phase} (hinv : Inv s) (hp : PhaseInv s i p) : Inv (s.set i p) :=
  hinv.step_of rfl (fun _ _ => keeps_set) (hp.keep keeps_set)

theorem Inv.lock {p : Phase} {r : Row} (hinv : Inv s) (hmay : s.locks.mayTake i r = true)
    (hp : PhaseInv (s.lock i r p) i p) : Inv (s.lock i r p) :=
  hinv.step_of rfl (fun _ hj => keeps_lock hmay hj) hp

theorem Inv.close {p : Phase} (hinv : Inv s) (hp : PhaseInv (s.close i p) i p) :
    Inv (s.close i p) :=
  hinv.step_of rfl (fun _ hj => keeps_close hj) hp

/-- A call commits a row that it holds locked. -/
theorem Inv.write {t : Tables} (hinv : Inv s)
    (hcategory : ∀ id, s.locks (.category id) ≠ some i → t.category id = s.tables.category id)
    (hsub : ∀ id, s.locks (.subCategory id) ≠ some i →
      t.subCategory id = s.tables.subCategory id) :
    Inv { s.close i .succeeded with tables := t } := by
  refine hinv.step_of (i := i) rfl (fun j hj => ?_) trivial
  have hclose := keeps_close (s := s) (p := .succeeded) hj
  refine ⟨hclose.locks, fun id hlock => hcategory id ?_, fun id hlock => hsub id ?_⟩
  · rw [hlock]
    exact fun h => hj (Option.some.inj h)
  · rw [hlock]
    exact fun h => hj (Option.some.inj h)

end Frames

/-! ## The decisions -/

section Decisions

variable {lower : String → String} {s : State} {i : Nat} {row row' : SubCategory}
  {locked : List Category}

/-- A locked category that is found has the id that was asked for. -/
theorem Holds.found (h : Holds s i locked) {id : Nat} {c : Category}
    (hfound : Table.get (·.id) locked id = some c) :
    s.locks (.category id) = some i ∧ s.tables.category id = some c := by
  have hid : c.id = id := Table.key_of_get hfound
  rw [← hid]
  exact h c (Table.mem_of_get hfound)

theorem decideStatus_covered {isActive : Bool} (hholds : Holds s i locked)
    (h : decideStatus row locked isActive = .ok (some row')) :
    row'.id = row.id ∧ Covered s i row row' := by
  obtain ⟨c, hfound, h⟩ := bind_ok h
  obtain ⟨hparent, hstored⟩ := hholds.found (orRaise_ok hfound)
  obtain ⟨hallowed, h⟩ := require_bind h
  have hrow := Except.ok.inj h
  split at hrow
  · cases hrow
  · obtain rfl := Option.some.inj hrow
    refine ⟨rfl, fun hactive _ => ⟨c, hparent, hstored, ?_⟩⟩
    rw [show isActive = true from hactive] at hallowed
    exact hallowed

theorem decideUpdate_covered {t : Tables} {body : SubCategoryUpdate} (hholds : Holds s i locked)
    (h : decideUpdate lower t row locked body = .ok (some row')) :
    row'.id = row.id ∧ Covered s i row row' := by
  obtain ⟨target, htarget, h⟩ := bind_ok h
  obtain ⟨hallowed, h⟩ := require_bind h
  obtain ⟨-, h⟩ := require_bind h
  obtain rfl := Option.some.inj (Except.ok.inj h)
  refine ⟨rfl, fun hactive hchanges => ?_⟩
  have hrow : row.isActive = true := hactive
  have hmoves : row.categoryId ≠ body.categoryId.getD row.categoryId := by
    rcases hchanges with hdisabled | hmoves
    · rw [hrow] at hdisabled
      cases hdisabled
    · exact hmoves
  cases hid : body.categoryId with
  | none =>
    rw [hid] at hmoves
    exact absurd rfl hmoves
  | some id =>
    rw [hid] at hmoves htarget
    obtain ⟨c, hfound, htarget⟩ := orRaise_bind htarget
    obtain rfl := Except.ok.inj htarget
    obtain ⟨hlock, hstored⟩ := hholds.found hfound
    have hcategory : (body.apply row).categoryId = id := by
      show body.categoryId.getD row.categoryId = id
      rw [hid]
      rfl
    rw [hcategory]
    refine ⟨c, hlock, hstored, ?_⟩
    have hne : c.id ≠ row.categoryId := by
      rw [Tables.id_of_category hstored]
      exact fun heq => hmoves heq.symm
    have hany : (c.id = row.categoryId || !row.isActive || c.isActive) = true := hallowed
    simpa [hne, hrow] using hany

theorem decide_covered {req : Request} {t : Tables} (hholds : Holds s i locked)
    (h : req.decide lower t row locked = .ok (some row')) :
    row'.id = row.id ∧ Covered s i row row' := by
  cases req with
  | updateCategoryStatus id isActive => cases h
  | updateSubCategoryStatus id isActive => exact decideStatus_covered hholds h
  | updateSubCategory id body => exact decideUpdate_covered hholds h

theorem lockOrder_sorted (parentId : Nat) (targetId : Option Nat) :
    (lockOrder parentId targetId).Pairwise (· < ·) := by
  unfold lockOrder
  cases targetId with
  | none => exact List.pairwise_singleton _ _
  | some targetId =>
    dsimp only
    split
    · rename_i hlt
      simpa using hlt
    · split
      · rename_i hlt
        simpa using hlt
      · exact List.pairwise_singleton _ _

end Decisions

/-! ## Steps keep the invariant -/

section Steps

variable {lower : String → String} {requests : Nat → Request} {s s' : State} {i : Nat}

/-- Nothing is held after the end of a transaction. -/
theorem locking_close {parentId : Nat} {target : Option Nat} :
    PhaseInv (s.close i (.locking parentId (lockOrder parentId target) [])) i
      (.locking parentId (lockOrder parentId target) []) :=
  ⟨fun _ hc => absurd hc List.not_mem_nil, lockOrder_sorted parentId target,
    fun _ hr => absurd hr (Locks.release_self _ _ _)⟩

theorem inv_read (hinv : Inv s) (h : step lower requests s (.read i) = some s') : Inv s' := by
  unfold step at h
  dsimp only at h
  split at h
  · rename_i hidle hparent
    split at h
    · obtain rfl := Option.some.inj h
      exact hinv.close trivial
    · obtain rfl := Option.some.inj h
      have hi := hinv i
      rw [hidle] at hi
      refine hinv.set ⟨fun c hc => absurd hc List.not_mem_nil, lockOrder_sorted _ _, ?_⟩
      exact fun r hr => absurd hr (hi r)
  · cases h

theorem inv_lockCategory (hinv : Inv s)
    (h : step lower requests s (.lockCategory i) = some s') : Inv s' := by
  unfold step at h
  dsimp only at h
  split at h
  · split at h
    · rename_i hmay
      split at h
      · obtain rfl := Option.some.inj h
        exact hinv.close trivial
      · rename_i row hrow
        obtain rfl := Option.some.inj h
        refine hinv.lock hmay ?_
        show (s.locks.take i _) (.category row.id) = some i
        rw [Tables.id_of_category hrow]
        exact Locks.take_self _ _ _
    · cases h
  · rename_i parentId head todo locked id hphase hwants
    have hi := hinv i
    rw [hphase] at hi
    obtain ⟨hholds, hsorted, honly⟩ := hi
    obtain rfl : head = id := by
      rw [hphase] at hwants
      exact Row.category.inj (Option.some.inj hwants)
    obtain ⟨hhead, hsorted⟩ := List.pairwise_cons.mp hsorted
    split at h
    · rename_i hmay
      split at h
      · obtain rfl := Option.some.inj h
        refine hinv.set ⟨hholds, hsorted, fun r hr => ?_⟩
        obtain ⟨id, rfl, hless⟩ := honly r hr
        exact ⟨id, rfl, fun id' hid' => hless id' (List.mem_cons_of_mem _ hid')⟩
      · rename_i row hrow
        obtain rfl := Option.some.inj h
        refine hinv.lock hmay ⟨?_, hsorted, fun r hr => ?_⟩
        · intro c hc
          rcases List.mem_append.mp hc with hc | hc
          · obtain ⟨hlock, hstored⟩ := hholds c hc
            exact ⟨Locks.take_of_held hmay hlock, hstored⟩
          · obtain rfl := List.mem_singleton.mp hc
            rw [Tables.id_of_category hrow]
            exact ⟨Locks.take_self _ _ _, hrow⟩
        · by_cases hr' : r = .category head
          · exact ⟨head, hr', hhead⟩
          · obtain ⟨id, rfl, hless⟩ := honly r (by
              change Function.update s.locks _ _ r = some i at hr
              rwa [Function.update_of_ne hr'] at hr)
            exact ⟨id, rfl, fun id' hid' => hless id' (List.mem_cons_of_mem _ hid')⟩
    · cases h
  · cases h

theorem inv_lockSubCategory (hinv : Inv s)
    (h : step lower requests s (.lockSubCategory i) = some s') : Inv s' := by
  have hlocked : ∀ {id : Nat} {row : SubCategory} {categories : List Category},
      s.locks.mayTake i (.subCategory id) = true → s.tables.subCategory id = some row →
      Holds s i categories →
      PhaseInv (s.lock i (.subCategory id) (.locked row categories)) i
        (.locked row categories) := by
    intro id row categories hmay hrow hholds
    refine ⟨fun c hc => ?_, ?_, ?_⟩
    · obtain ⟨hlock, hstored⟩ := hholds c hc
      exact ⟨Locks.take_of_held hmay hlock, hstored⟩
    · rw [Tables.id_of_subCategory hrow]
      exact Locks.take_self _ _ _
    · rw [Tables.id_of_subCategory hrow]
      exact hrow
  unfold step at h
  dsimp only at h
  split at h
  · split at h
    · rename_i hmay
      split at h
      · obtain rfl := Option.some.inj h
        exact hinv.close trivial
      · rename_i row hrow
        obtain rfl := Option.some.inj h
        exact hinv.lock hmay (hlocked hmay hrow fun c hc => absurd hc List.not_mem_nil)
    · cases h
  · rename_i parentId locked id hphase hwants
    have hi := hinv i
    rw [hphase] at hi
    split at h
    · rename_i hmay
      split at h
      · obtain rfl := Option.some.inj h
        exact hinv.close trivial
      · rename_i row hrow
        split at h
        · obtain rfl := Option.some.inj h
          exact hinv.lock hmay (hlocked hmay hrow hi.1)
        · obtain rfl := Option.some.inj h
          exact hinv.lock hmay trivial
    · cases h
  · cases h

theorem inv_rollback (hinv : Inv s) (h : step lower requests s (.rollback i) = some s') :
    Inv s' := by
  unfold step at h
  dsimp only at h
  split at h
  · obtain rfl := Option.some.inj h
    exact hinv.close locking_close
  · cases h

theorem inv_check (hinv : Inv s) (h : step lower requests s (.check i) = some s') : Inv s' := by
  unfold step at h
  dsimp only at h
  split at h
  · rename_i row categories hphase
    have hi := hinv i
    rw [hphase] at hi
    obtain ⟨hholds, hlock, hstored⟩ := hi
    split at h
    · obtain rfl := Option.some.inj h
      exact hinv.close trivial
    · obtain rfl := Option.some.inj h
      exact hinv.close trivial
    · rename_i row' hdecided
      obtain rfl := Option.some.inj h
      obtain ⟨hid, hcovered⟩ := decide_covered hholds hdecided
      have hlock' : s.locks (.subCategory row'.id) = some i := by rw [hid, hlock]
      have hstored' : s.tables.subCategory row'.id = some row := by rw [hid, hstored]
      exact hinv.set ⟨hlock', row, hstored', hcovered⟩
  · cases h

/-- A commit writes a row that its call has locked. -/
theorem inv_commit (hinv : Inv s) (h : step lower requests s (.commit i) = some s') :
    Inv s' := by
  unfold step at h
  dsimp only at h
  split at h
  · rename_i row id isActive hphase hreq
    have hi : s.locks (.category row.id) = some i := by
      have hi := hinv i
      rw [hphase] at hi
      exact hi
    split at h
    · obtain rfl := Option.some.inj h
      exact hinv.close trivial
    · obtain rfl := Option.some.inj h
      refine hinv.write (fun id hid => ?_) fun _ _ => rfl
      refine Tables.category_setCategory fun heq => hid ?_
      rw [heq]
      exact hi
  · rename_i row hphase
    have hi : s.locks (.subCategory row.id) = some i := by
      have hi := hinv i
      rw [hphase] at hi
      exact hi.1
    split at h
    · obtain rfl := Option.some.inj h
      exact hinv.close trivial
    · obtain rfl := Option.some.inj h
      refine hinv.write (fun _ _ => rfl) fun id hid => ?_
      have hne : id ≠ row.id := by
        rintro rfl
        exact hid hi
      rw [Tables.subCategory_setSubCategory]
      simp [hne]
  · cases h

theorem inv_abort (hinv : Inv s) (h : step lower requests s (.abort i) = some s') : Inv s' := by
  unfold step at h
  dsimp only at h
  split at h
  · cases h
  · cases h
  · cases h
  · obtain rfl := Option.some.inj h
    exact hinv.close trivial

theorem inv_step (l : Label) (hinv : Inv s) (h : step lower requests s l = some s') :
    Inv s' := by
  cases l with
  | read i => exact inv_read hinv h
  | lockCategory i => exact inv_lockCategory hinv h
  | lockSubCategory i => exact inv_lockSubCategory hinv h
  | rollback i => exact inv_rollback hinv h
  | check i => exact inv_check hinv h
  | commit i => exact inv_commit hinv h
  | abort i => exact inv_abort hinv h

end Steps

/-! ## Runs -/

/-- The tables before the first call. -/
def start (t : Tables) : State := ⟨t, fun _ => none, fun _ => .idle⟩

/-- A sub-category that is enabled from `t` to `t'`, or moved while it is enabled, is under an
enabled category in `t'`. -/
def UnderEnabled (t t' : Tables) : Prop :=
  ∀ id old new, t.subCategory id = some old → t'.subCategory id = some new →
    new.isActive = true → old.isActive = false ∨ old.categoryId ≠ new.categoryId →
    ∃ c, t'.category new.categoryId = some c ∧ c.isActive = true

/-- A category by its id, and every sub-category after all categories. -/
def Row.rank : Row → WithTop ℕ
  | .category id => id
  | .subCategory _ => ⊤

section Runs

variable {lower : String → String} {requests : Nat → Request} {s s' : State}

theorem underEnabled_of_eq {t t' : Tables} (h : t'.subCategories = t.subCategories) :
    UnderEnabled t t' := by
  intro id old new hold hnew hactive hchanges
  unfold Tables.subCategory at hold hnew
  rw [h, hold] at hnew
  obtain rfl := Option.some.inj hnew
  rcases hchanges with hdisabled | hmoved
  · rw [hactive] at hdisabled
    cases hdisabled
  · exact absurd rfl hmoved

theorem underEnabled_commit (hinv : Inv s) {i : Nat}
    (h : step lower requests s (.commit i) = some s') : UnderEnabled s.tables s'.tables := by
  unfold step at h
  dsimp only at h
  split at h
  · split at h
    · obtain rfl := Option.some.inj h
      exact underEnabled_of_eq rfl
    · obtain rfl := Option.some.inj h
      exact underEnabled_of_eq rfl
  · rename_i row hphase
    have hi := hinv i
    rw [hphase] at hi
    obtain ⟨-, stored, hstored, hcovered⟩ := hi
    split at h
    · obtain rfl := Option.some.inj h
      exact underEnabled_of_eq rfl
    · obtain rfl := Option.some.inj h
      intro id old new hold hnew hactive hchanges
      change (s.tables.setSubCategory row).subCategory id = some new at hnew
      rw [Tables.subCategory_setSubCategory, hold, Option.map_some] at hnew
      have hnew := Option.some.inj hnew
      by_cases hid : id = row.id
      · subst hid
        rw [if_pos rfl] at hnew
        subst hnew
        obtain rfl := Option.some.inj (hstored.symm.trans hold)
        obtain ⟨c, -, hc, henabled⟩ := hcovered hactive hchanges
        exact ⟨c, hc, henabled⟩
      · rw [if_neg hid] at hnew
        subst hnew
        rcases hchanges with hdisabled | hmoved
        · rw [hactive] at hdisabled
          cases hdisabled
        · exact absurd rfl hmoved
  · cases h

/-- Only a commit writes. -/
theorem step_subCategories {l : Label} (h : step lower requests s l = some s')
    (hl : ∀ i, l ≠ .commit i) : s'.tables.subCategories = s.tables.subCategories := by
  cases l with
  | commit i => exact absurd rfl (hl i)
  | _ =>
    unfold step at h
    dsimp only at h
    repeat' split at h
    all_goals
      first
        | (obtain rfl := Option.some.inj h; rfl)
        | cases h

/-- A call that wants a lock holds only locks of a lower rank. -/
theorem wants_ordered (hinv : Inv s) {i : Nat} {r r' : Row}
    (hwants : wants (requests i) (s.phases i) = some r) (hheld : s.locks r' = some i) :
    r'.rank < r.rank := by
  have hi := hinv i
  cases hphase : s.phases i with
  | idle =>
    rw [hphase] at hi
    exact absurd hheld (hi r')
  | locking parentId todo locked =>
    rw [hphase] at hi hwants
    obtain ⟨-, -, honly⟩ := hi
    obtain ⟨id, rfl, hless⟩ := honly r' hheld
    cases todo with
    | nil =>
      obtain ⟨p, -, rfl⟩ := Option.map_eq_some_iff.mp hwants
      exact WithTop.coe_lt_top id
    | cons head todo =>
      obtain rfl := Option.some.inj hwants
      exact WithTop.coe_lt_coe.mpr (hless head List.mem_cons_self)
  | _ =>
    rw [hphase] at hwants
    cases hwants

/-- In every run of calls, a commit that enables a sub-category or moves an enabled one leaves it
under an enabled category, and no calls wait for each other in a circle. -/
theorem enabled_under_enabled {t : Tables} {ls : List Label}
    (hrun : Run (step lower requests) (start t) ls s) :
    (∀ l s', step lower requests s l = some s' → UnderEnabled s.tables s'.tables) ∧
      ∀ i, ¬ Relation.TransGen
        (Locks.Waits s.locks fun j => wants (requests j) (s.phases j)) i i := by
  have hinv : Inv s := hrun.invariant (fun s l s' hinv h => inv_step l hinv h)
    fun i r hr => by cases hr
  constructor
  · intro l s' h
    by_cases hl : ∃ i, l = .commit i
    · obtain ⟨i, rfl⟩ := hl
      exact underEnabled_commit hinv h
    · exact underEnabled_of_eq (step_subCategories h fun i hi => hl ⟨i, hi⟩)
  · have hordered : ∀ i r r', wants (requests i) (s.phases i) = some r →
        s.locks r' = some i → r'.rank < r.rank :=
      fun i r r' hwants hheld => wants_ordered hinv hwants hheld
    exact Locks.not_waits_cycle hordered

end Runs

/-! ## A sub-category that is enabled -/

/-- An enabled category with a disabled sub-category. -/
def privacy : Tables where
  categories := [⟨1, true⟩]
  subCategories := [⟨7, "PII", none, 1, false⟩]

def enablePii (_ : Nat) : Request := .updateSubCategoryStatus 7 true

def lockAll : List Label := [.read 0, .lockCategory 0, .lockSubCategory 0, .check 0]

theorem enabled_under_enabled_pii :
    UnderEnabled (final (step id enablePii) (start privacy) lockAll).tables
        (final (step id enablePii) (start privacy) (lockAll ++ [.commit 0])).tables ∧
      ¬ Relation.TransGen (Locks.Waits (final (step id enablePii) (start privacy) lockAll).locks
        fun j => wants (enablePii j)
          ((final (step id enablePii) (start privacy) lockAll).phases j)) 0 0 := by
  have hrun : Run (step id enablePii) (start privacy) lockAll
      (final (step id enablePii) (start privacy) lockAll) := run_final (by decide +kernel)
  obtain ⟨hcommit, hwaits⟩ := enabled_under_enabled hrun
  refine ⟨hcommit (.commit 0) _ ?_, hwaits 0⟩
  rfl

end Ai4iCore.Policy
