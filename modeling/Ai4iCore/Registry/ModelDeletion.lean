import Ai4iCore.Base.Run
import Ai4iCore.Base.Table
import Mathlib

/-!
# The deletion of a model version

`delete_model` of the model registry (model_service.py) refuses a version with a published service,
marks its unpublished services as deleted and removes the row of the model. A marked service keeps
its row, and the foreign key of `mm_services` (`ON DELETE RESTRICT`) looks at rows: it sees the
services that were marked by the same call, and those that were deleted long before.

So a version is deleted as meant exactly where no service was ever made of it, or where there is a
published one and nothing is to be deleted (`deletion_iff`). An invariant of all runs stands behind
it: the row of a service names a version that is there.

What else a handler looks at can only refuse a request, which leaves the rows as they are.
-/

namespace Ai4iCore.Registry.ModelDeletion

open StepSystem

/-! ## Rows -/

inductive VersionStatus
  | active
  | deprecated
deriving DecidableEq, Repr

/-- The columns of `mm_models` that the handlers check. -/
structure Model where
  modelId : String
  version : String
  name : String
  versionStatus : VersionStatus
deriving DecidableEq, Repr

/-- The columns of `mm_services` that a deletion depends on. -/
structure Service where
  serviceId : String
  name : String
  modelId : String
  modelVersion : String
  isPublished : Bool
  /-- `deleted_at` is set -/
  isDeleted : Bool
deriving DecidableEq, Repr

structure Database where
  models : List Model
  services : List Service
deriving DecidableEq, Repr

structure Settings where
  /-- `generate_model_id`, of a name and a version -/
  generateModelId : String → String → String
  maxActiveVersionsPerModel : Nat
  allowDeprecatedModelChanges : Bool

/-- A service of the version that is not deleted. -/
def Service.liveOf (s : Service) (modelId version : String) : Bool :=
  s.modelId = modelId && s.modelVersion = version && !s.isDeleted

section Repositories

variable (db : Database)

def getByModelId (id : String) : Option Model := Table.get Model.modelId db.models id

def getByIdVersion (id version : String) : Option Model :=
  db.models.find? fun m => m.modelId = id && m.version = version

/-- `count_active_versions`. -/
def countActiveVersions (name : String) (excludeVersion : Option String) : Nat :=
  (db.models.filter fun m =>
    m.name = name && m.versionStatus = .active && excludeVersion.all (m.version ≠ ·)).length

/-- `get_by_service_id`. -/
def getByServiceId (id : String) : Option Service :=
  db.services.find? fun s => s.serviceId = id && !s.isDeleted

def listPublishedForModelVersion (id version : String) : List String :=
  (db.services.filter fun s => s.liveOf id version && s.isPublished).map (·.serviceId)

def listUnpublishedForModelVersion (id version : String) : List Service :=
  db.services.filter fun s => s.liveOf id version && !s.isPublished

def deleteUnpublishedForModelVersion (id version : String) : Database :=
  { db with
    services := db.services.map fun s =>
      if s.liveOf id version && !s.isPublished then { s with isDeleted := true } else s }

end Repositories

/-! ## Handlers -/

inductive DeleteError
  | entityNotFound
  | immutableModelVersion (published : List String)
  /-- the foreign key of `mm_services` -/
  | integrity
deriving DecidableEq, Repr

/-- `delete_by_model_id`: a row that is referred to cannot be deleted. -/
def deleteByModelId (db : Database) (id : String) : Except DeleteError Database :=
  if (db.models.any (·.modelId = id)) && db.services.any (·.modelId = id) then .error .integrity
  else .ok { db with models := db.models.filter (·.modelId ≠ id) }

/-- `delete_model`: the rows after it, and how it ends. -/
def deleteModel (db : Database) (id : String) : Database × Except DeleteError Unit :=
  match getByModelId db id with
  | none => (db, .error .entityNotFound)
  | some instance_ =>
    let published := listPublishedForModelVersion db instance_.modelId instance_.version
    if published ≠ [] then (db, .error (.immutableModelVersion published))
    else
      let unpublished := listUnpublishedForModelVersion db instance_.modelId instance_.version
      let marked :=
        if unpublished ≠ [] then
          deleteUnpublishedForModelVersion db instance_.modelId instance_.version
        else db
      match deleteByModelId marked instance_.modelId with
      | .ok deleted => (deleted, .ok ())
      | .error e => (db, .error e) -- the rollback takes the marks back

structure ModelCreateRequest where
  name : String
  version : String
  versionStatus : Option VersionStatus
deriving DecidableEq, Repr

/-- `create_model`. -/
def createModel (settings : Settings) (db : Database) (r : ModelCreateRequest) : Option Database :=
  let versionStatus := r.versionStatus.getD .active
  let modelId := settings.generateModelId r.name r.version
  if db.models.any fun m => m.name = r.name && m.version = r.version then none
  else if versionStatus = .active ∧
      settings.maxActiveVersionsPerModel ≤ countActiveVersions db r.name none then none
  else if db.models.any (·.modelId = modelId) then none -- the unique column
  else some { db with models := db.models ++ [⟨modelId, r.version, r.name, versionStatus⟩] }

structure ModelUpdateRequest where
  modelId : String
  version : Option String
  versionStatus : Option VersionStatus
  /-- `name` is sent, which is refused -/
  name : Bool
deriving DecidableEq, Repr

/-- The cap holds for a version that is activated. -/
def withinCap (settings : Settings) (db : Database) (m : Model) (status : Option VersionStatus) :
    Bool :=
  status ≠ some .active || m.versionStatus = .active ||
    countActiveVersions db m.name (some m.version) < settings.maxActiveVersionsPerModel

/-- `update_model`. -/
def updateModel (settings : Settings) (db : Database) (r : ModelUpdateRequest) :
    Option Database := do
  let version ← r.version.filter (· ≠ "")
  let instance_ ← getByIdVersion db r.modelId version
  guard (listPublishedForModelVersion db r.modelId version = [] ∧
    (instance_.versionStatus = .deprecated → settings.allowDeprecatedModelChanges = true) ∧
    withinCap settings db instance_ r.versionStatus = true ∧ r.name = false)
  return { db with
    models := db.models.map fun m =>
      if m = instance_ then { m with versionStatus := r.versionStatus.getD m.versionStatus }
      else m }

structure ServiceCreateRequest where
  serviceId : String
  name : String
  modelId : String
  modelVersion : String
deriving DecidableEq, Repr

/-- `create_service`. Names and ids are unique among all rows. -/
def createService (db : Database) (r : ServiceCreateRequest) : Option Database := do
  let _ ← getByIdVersion db r.modelId r.modelVersion
  guard (∀ s ∈ db.services, s.name ≠ r.name ∧ s.serviceId ≠ r.serviceId)
  return { db with
    services := db.services ++ [⟨r.serviceId, r.name, r.modelId, r.modelVersion, false, false⟩] }

/-- `update_service`: `isPublished` is written where it is sent, and null is false. -/
def updateService (db : Database) (id : String) (isPublished : Option (Option Bool)) :
    Option Database := do
  let instance_ ← getByServiceId db id
  return { db with
    services := db.services.map fun s =>
      if s = instance_ then
        { s with isPublished := (isPublished.map (·.getD false)).getD s.isPublished }
      else s }

/-- `delete_service`. -/
def deleteService (db : Database) (id : String) : Option Database := do
  let instance_ ← getByServiceId db id
  guard (instance_.isPublished = false)
  return { db with
    services := db.services.map fun s =>
      if s.serviceId = id ∧ s.isDeleted = false then { s with isDeleted := true } else s }

inductive Request
  | createModel (r : ModelCreateRequest)
  | updateModel (r : ModelUpdateRequest)
  | deleteModel (id : String)
  | createService (r : ServiceCreateRequest)
  | updateService (id : String) (isPublished : Option (Option Bool))
  | deleteService (id : String)
deriving DecidableEq, Repr

/-- A request that is accepted, and the rows after it. -/
def step (settings : Settings) (db : Database) : Request → Option Database
  | .createModel r => createModel settings db r
  | .updateModel r => updateModel settings db r
  | .deleteModel id =>
    match ModelDeletion.deleteModel db id with
    | (db', .ok ()) => some db'
    | (_, .error _) => none
  | .createService r => createService db r
  | .updateService id isPublished => updateService db id isPublished
  | .deleteService id => deleteService db id

/-! ## What is meant -/

/-- A live service of the version is published. -/
def HasPublished (db : Database) (m : Model) : Prop :=
  ∃ s ∈ db.services, s.liveOf m.modelId m.version = true ∧ s.isPublished = true

/-- The deletion of a version does what its rules say. -/
structure Deletes (db : Database) (m : Model) : Prop where
  succeeds : (deleteModel db m.modelId).2 = .ok () ↔ ¬HasPublished db m
  gone : (deleteModel db m.modelId).2 = .ok () →
    m ∉ (deleteModel db m.modelId).1.models ∧
      ∀ s ∈ (deleteModel db m.modelId).1.services, s.liveOf m.modelId m.version = false
  unchanged : (deleteModel db m.modelId).2 ≠ .ok () → (deleteModel db m.modelId).1 = db

/-! ## Runs -/

/-- Ids of models are different, and a service names a version that is there. -/
structure Inv (db : Database) : Prop where
  nodup : (db.models.map (·.modelId)).Nodup
  refers : ∀ s ∈ db.services, ∃ m ∈ db.models, m.modelId = s.modelId ∧ m.version = s.modelVersion

theorem Inv.mapServices {db : Database} (h : Inv db) {f : Service → Service}
    (hf : ∀ s, (f s).modelId = s.modelId ∧ (f s).modelVersion = s.modelVersion) :
    Inv { db with services := db.services.map f } where
  nodup := h.nodup
  refers := by
    intro s' hs'
    obtain ⟨s, hs, rfl⟩ := List.mem_map.mp hs'
    rw [(hf s).1, (hf s).2]
    exact h.refers s hs

theorem Inv.mapModels {db : Database} (h : Inv db) {g : Model → Model}
    (hg : ∀ m, (g m).modelId = m.modelId ∧ (g m).version = m.version) :
    Inv { db with models := db.models.map g } where
  nodup := by
    show ((db.models.map g).map (·.modelId)).Nodup
    rw [List.map_map]
    have heq : (fun m : Model => m.modelId) ∘ g = fun m => m.modelId := funext fun m => (hg m).1
    rw [heq]
    exact h.nodup
  refers := by
    intro s hs
    obtain ⟨m, hm, hid, hversion⟩ := h.refers s hs
    exact ⟨g m, List.mem_map_of_mem hm, (hg m).1.trans hid, (hg m).2.trans hversion⟩

theorem listPublished_eq_nil_iff {db : Database} {m : Model} :
    listPublishedForModelVersion db m.modelId m.version = [] ↔ ¬HasPublished db m := by
  unfold listPublishedForModelVersion HasPublished
  rw [List.map_eq_nil_iff, List.filter_eq_nil_iff]
  simp only [Bool.and_eq_true, not_exists, not_and]

/-- The marks leave the references. -/
theorem deleteByModelId_marked {db : Database} {m : Model} (hm : m ∈ db.models)
    {f : Service → Service} (hf : ∀ s, (f s).modelId = s.modelId)
    (hrefers : ∃ s ∈ db.services, s.modelId = m.modelId) :
    deleteByModelId { db with services := db.services.map f } m.modelId = .error .integrity := by
  obtain ⟨s, hs, hid⟩ := hrefers
  refine if_pos ?_
  rw [Bool.and_eq_true]
  constructor
  · exact List.any_eq_true.mpr ⟨m, hm, decide_eq_true rfl⟩
  · exact List.any_eq_true.mpr ⟨f s, List.mem_map_of_mem hs, decide_eq_true ((hf s).trans hid)⟩

/-- **How a deletion ends.** -/
theorem deleteModel_cases {db : Database} {m : Model} (hm : getByModelId db m.modelId = some m) :
    (HasPublished db m ∧ ∃ e, deleteModel db m.modelId = (db, .error e)) ∨
      (¬HasPublished db m ∧ (∃ s ∈ db.services, s.modelId = m.modelId) ∧
        deleteModel db m.modelId = (db, .error .integrity)) ∨
      (¬HasPublished db m ∧ (∀ s ∈ db.services, s.modelId ≠ m.modelId) ∧
        deleteModel db m.modelId =
          ({ db with models := db.models.filter (·.modelId ≠ m.modelId) }, .ok ())) := by
  have hmem : m ∈ db.models := Table.mem_of_get hm
  unfold deleteModel
  rw [hm]
  dsimp only
  by_cases hpublished : HasPublished db m
  · rw [if_pos fun hnil => listPublished_eq_nil_iff.mp hnil hpublished]
    exact .inl ⟨hpublished, _, rfl⟩
  · rw [if_neg (not_not.mpr (listPublished_eq_nil_iff.mpr hpublished))]
    by_cases hrefers : ∃ s ∈ db.services, s.modelId = m.modelId
    · refine .inr (.inl ⟨hpublished, hrefers, ?_⟩)
      have herror : deleteByModelId
          (if listUnpublishedForModelVersion db m.modelId m.version ≠ [] then
            deleteUnpublishedForModelVersion db m.modelId m.version else db) m.modelId =
          .error .integrity := by
        split
        · refine deleteByModelId_marked hmem (fun s => ?_) hrefers
          split <;> rfl
        · have hid := @deleteByModelId_marked db m hmem id (fun _ => rfl) hrefers
          rwa [List.map_id] at hid
      rw [herror]
    · have hnone : ∀ s ∈ db.services, s.modelId ≠ m.modelId := fun s hs hid => hrefers ⟨s, hs, hid⟩
      refine .inr (.inr ⟨hpublished, hnone, ?_⟩)
      have hunpublished : listUnpublishedForModelVersion db m.modelId m.version = [] := by
        refine List.filter_eq_nil_iff.mpr fun s hs => ?_
        simp [Service.liveOf, hnone s hs]
      rw [if_neg (not_not.mpr hunpublished)]
      have hany : db.services.any (·.modelId = m.modelId) = false := by
        rw [List.any_eq_false]
        exact fun s hs hid => hnone s hs (of_decide_eq_true hid)
      unfold deleteByModelId
      rw [hany, Bool.and_false, if_neg Bool.false_ne_true]

/-- What `create_model` appends: a version with an id of its own. -/
theorem createModel_eq_some {settings : Settings} {db db' : Database} {r : ModelCreateRequest}
    (h : createModel settings db r = some db') :
    ∃ m, (∀ other ∈ db.models, other.modelId ≠ m.modelId) ∧
      db' = { db with models := db.models ++ [m] } := by
  unfold createModel at h
  dsimp only at h
  split at h
  · cases h
  · split at h
    · cases h
    · split at h
      · cases h
      · rename_i hnew
        exact ⟨_, fun other hother hid =>
          hnew (List.any_eq_true.mpr ⟨other, hother, decide_eq_true hid⟩), (Option.some.inj h).symm⟩

theorem Inv.addModel {db : Database} {m : Model} (h : Inv db)
    (hnew : ∀ other ∈ db.models, other.modelId ≠ m.modelId) :
    Inv { db with models := db.models ++ [m] } where
  nodup := by
    rw [List.map_append]
    refine List.nodup_append.mpr ⟨h.nodup, List.nodup_singleton _, ?_⟩
    intro id hid id' hid'
    obtain ⟨other, hother, rfl⟩ := List.mem_map.mp hid
    rw [List.mem_singleton.mp hid']
    exact hnew other hother
  refers := by
    intro s hs
    obtain ⟨other, hother, heq⟩ := h.refers s hs
    exact ⟨other, List.mem_append_left _ hother, heq⟩

theorem Inv.removeModel {db : Database} {id : String} (h : Inv db)
    (hnone : ∀ s ∈ db.services, s.modelId ≠ id) :
    Inv { db with models := db.models.filter (·.modelId ≠ id) } where
  nodup := h.nodup.sublist (List.Sublist.map _ List.filter_sublist)
  refers := by
    intro s hs
    obtain ⟨m, hm, hid, hversion⟩ := h.refers s hs
    exact ⟨m, List.mem_filter.mpr ⟨hm, decide_eq_true (hid ▸ hnone s hs)⟩, hid, hversion⟩

theorem inv_step {settings : Settings} {db db' : Database} {request : Request} (h : Inv db)
    (hstep : step settings db request = some db') : Inv db' := by
  cases request with
  | createModel r =>
    obtain ⟨m, hnew, rfl⟩ := createModel_eq_some hstep
    exact h.addModel hnew
  | updateModel r =>
    obtain ⟨version, -, hstep⟩ := Option.bind_eq_some_iff.mp hstep
    obtain ⟨instance_, -, hstep⟩ := Option.bind_eq_some_iff.mp hstep
    obtain ⟨-, -, hstep⟩ := Option.bind_eq_some_iff.mp hstep
    obtain rfl := Option.some.inj hstep
    refine h.mapModels fun m => ?_
    split <;> exact ⟨rfl, rfl⟩
  | deleteModel id =>
    change (match deleteModel db id with
      | (db', .ok ()) => some db'
      | (_, .error _) => none) = some db' at hstep
    cases hm : getByModelId db id with
    | none =>
      rw [deleteModel, hm] at hstep
      cases hstep
    | some m =>
      obtain rfl : m.modelId = id := Table.key_of_get hm
      rcases deleteModel_cases hm with ⟨-, e, heq⟩ | ⟨-, -, heq⟩ | ⟨-, hnone, heq⟩
      · rw [heq] at hstep
        cases hstep
      · rw [heq] at hstep
        cases hstep
      · rw [heq] at hstep
        obtain rfl := Option.some.inj hstep
        exact h.removeModel hnone
  | createService r =>
    obtain ⟨m, hm, hstep⟩ := Option.bind_eq_some_iff.mp hstep
    obtain ⟨-, -, hstep⟩ := Option.bind_eq_some_iff.mp hstep
    obtain rfl := Option.some.inj hstep
    refine ⟨h.nodup, fun s hs => ?_⟩
    rcases List.mem_append.mp hs with hs | hs
    · exact h.refers s hs
    · rw [List.mem_singleton.mp hs]
      have hfound := List.find?_some hm
      rw [Bool.and_eq_true, decide_eq_true_eq, decide_eq_true_eq] at hfound
      exact ⟨m, List.mem_of_find?_eq_some hm, hfound⟩
  | updateService id isPublished =>
    obtain ⟨instance_, -, hstep⟩ := Option.bind_eq_some_iff.mp hstep
    obtain rfl := Option.some.inj hstep
    refine h.mapServices fun s => ?_
    split <;> exact ⟨rfl, rfl⟩
  | deleteService id =>
    obtain ⟨instance_, -, hstep⟩ := Option.bind_eq_some_iff.mp hstep
    obtain ⟨-, -, hstep⟩ := Option.bind_eq_some_iff.mp hstep
    obtain rfl := Option.some.inj hstep
    refine h.mapServices fun s => ?_
    split <;> exact ⟨rfl, rfl⟩

theorem inv_run {settings : Settings} {requests : List Request} {db : Database}
    (h : Run (step settings) ⟨[], []⟩ requests db) : Inv db :=
  Run.invariant (fun _ _ _ hs h => inv_step hs h) h
    ⟨List.nodup_nil, fun _ hs => absurd hs List.not_mem_nil⟩

/-- **Deletion of a version**, after any requests: it does what its rules say if and only if a
published service stands in its way, or no row of a service was ever made of the version. -/
theorem deletion_iff (settings : Settings) {requests : List Request} {db : Database} {m : Model}
    (h : Run (step settings) ⟨[], []⟩ requests db) (hm : m ∈ db.models) :
    Deletes db m ↔ HasPublished db m ∨ ∀ s ∈ db.services, s.modelId ≠ m.modelId := by
  have hfound : getByModelId db m.modelId = some m := Table.get_of_mem (inv_run h).nodup hm
  rcases deleteModel_cases hfound with ⟨hpublished, e, heq⟩ | ⟨hnot, ⟨s, hs, hid⟩, heq⟩ |
    ⟨hnot, hnone, heq⟩
  · refine iff_of_true ⟨?_, ?_, ?_⟩ (.inl hpublished)
    · rw [heq]
      exact iff_of_false (by simp) (not_not.mpr hpublished)
    · rw [heq]
      intro hok
      cases hok
    · rw [heq]
      exact fun _ => rfl
  · refine iff_of_false (fun hdeletes => ?_) ?_
    · have hok := hdeletes.succeeds.mpr hnot
      rw [heq] at hok
      cases hok
    · rintro (hpublished | hnone)
      · exact hnot hpublished
      · exact hnone s hs hid
  · refine iff_of_true ⟨?_, ?_, ?_⟩ (.inr hnone)
    · rw [heq]
      exact iff_of_true rfl hnot
    · rw [heq]
      intro _
      refine ⟨fun hmem => ?_, fun s hs => ?_⟩
      · exact of_decide_eq_true (List.mem_filter.mp hmem).2 rfl
      · simp [Service.liveOf, hnone s hs]
    · rw [heq]
      exact fun hne => absurd rfl hne

/-! ## A version that cannot be deleted any more -/

/-- Ids are names with versions; five active versions of a model. -/
def fiveActive : Settings := ⟨fun name version => name ++ "/" ++ version, 5, false⟩

/-- The service of a model is deleted before the model is. -/
def serviceFirst : List Request :=
  [.createModel ⟨"m", "1", none⟩, .createService ⟨"s", "s", "m/1", "1"⟩, .deleteService "s"]

/-- What is left: the row of the service, marked. -/
def marked : Database := ⟨[⟨"m/1", "1", "m", .active⟩], [⟨"s", "s", "m/1", "1", false, true⟩]⟩

theorem deletion_refused : Run (step fiveActive) ⟨[], []⟩ serviceFirst marked ∧
    ¬Deletes marked ⟨"m/1", "1", "m", .active⟩ := by
  refine ⟨by decide +kernel, fun hdeletes => ?_⟩
  have hnot : ¬HasPublished marked ⟨"m/1", "1", "m", .active⟩ := by
    rintro ⟨s, hs, -, hpublished⟩
    obtain rfl := List.mem_singleton.mp hs
    cases hpublished
  have hok := hdeletes.succeeds.mpr hnot
  have herror : (deleteModel marked "m/1").2 = .error .integrity := by decide +kernel
  exact absurd (herror.symm.trans hok) (by simp)

theorem deletion_without_services :
    Deletes ⟨[⟨"m/1", "1", "m", .active⟩], []⟩ ⟨"m/1", "1", "m", .active⟩ := by
  have hrun : Run (step fiveActive) ⟨[], []⟩ [.createModel ⟨"m", "1", none⟩]
      ⟨[⟨"m/1", "1", "m", .active⟩], []⟩ := by decide +kernel
  exact (deletion_iff fiveActive hrun (List.mem_singleton_self _)).mpr
    (.inr fun s hs => absurd hs List.not_mem_nil)

end Ai4iCore.Registry.ModelDeletion
