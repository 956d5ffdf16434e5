import Ai4iCore.Base.Checked
import Mathlib

/-!
# Range partitions of a table

A table that is partitioned by a key has partitions for disjoint ranges, and perhaps a DEFAULT
partition for the rest. The statements that rearrange it are functions of the schema, with the
errors of the database: a name that is in use, a range that overlaps another or that the DEFAULT
partition has rows of, and a row without a partition. `WellFormed` is what every statement keeps,
and `rows` is what none but `INSERT` changes.
-/

namespace Partitioning

inductive PgError
  | undefinedTable
  | nameInUse
  | overlaps
  | defaultHasRows
  | noPartition
  deriving DecidableEq, Repr

/-- A partition for the keys from `lower` to before `upper`. -/
structure Partition (ν ρ : Type) where
  name : ν
  lower : Int
  upper : Int
  rows : List ρ

/-- The partitioned table with its partitions and the other tables of the schema. -/
structure Schema (ν ρ : Type) where
  name : ν
  partitions : List (Partition ν ρ)
  /-- The DEFAULT partition. -/
  rest : Option (ν × List ρ)
  tables : List (ν × List ρ)

variable {ν ρ : Type}

def Partition.Holds (key : ρ → Int) (p : Partition ν ρ) (row : ρ) : Prop :=
  p.lower ≤ key row ∧ key row < p.upper

instance (key : ρ → Int) (p : Partition ν ρ) (row : ρ) : Decidable (p.Holds key row) :=
  inferInstanceAs (Decidable (_ ∧ _))

namespace Schema

variable (db : Schema ν ρ)

def defaultRows : List ρ := db.rest.elim [] Prod.snd

/-- The rows of the partitioned table. -/
def rows : List ρ := db.partitions.flatMap Partition.rows ++ db.defaultRows

/-- The names of all relations. -/
def names : List ν :=
  db.name :: (db.partitions.map Partition.name ++ db.rest.toList.map Prod.fst ++
    db.tables.map Prod.fst)

end Schema

/-! ## Statements -/

section Statements

variable [DecidableEq ν] (key : ρ → Int)

/-- `ALTER TABLE .. DETACH PARTITION`. -/
def detach (name : ν) (db : Schema ν ρ) : Except PgError (Schema ν ρ) :=
  match db.partitions.find? fun p => p.name = name with
  | none => .error .undefinedTable
  | some p =>
    .ok
      { db with
        partitions := db.partitions.filter fun q => q.name ≠ name
        tables := db.tables ++ [(name, p.rows)] }

/-- `ALTER TABLE .. RENAME TO` of a table that is no partition. -/
def rename (old new : ν) (db : Schema ν ρ) : Except PgError (Schema ν ρ) :=
  if new ∈ db.names then .error .nameInUse
  else
    .ok { db with tables := db.tables.map fun t => if t.1 = old then (new, t.2) else t }

/-- The rows of a table that is no partition. -/
def select (name : ν) (db : Schema ν ρ) : Except PgError (List ρ) :=
  match db.tables.find? fun t => t.1 = name with
  | none => .error .undefinedTable
  | some t => .ok t.2

/-- `DELETE .. RETURNING` on the DEFAULT partition: the schema after it and the rows deleted. -/
def deleteDefault (test : ρ → Bool) (db : Schema ν ρ) : Schema ν ρ × List ρ :=
  ({ db with rest := db.rest.map fun r => (r.1, r.2.filter fun row => !test row) },
    db.defaultRows.filter test)

/-- `CREATE TABLE .. PARTITION OF .. FOR VALUES FROM .. TO ..`. -/
def create (name : ν) (lower upper : Int) (db : Schema ν ρ) : Except PgError (Schema ν ρ) :=
  if name ∈ db.names then .error .nameInUse
  else if db.partitions.any fun p => decide (lower < p.upper) && decide (p.lower < upper) then
    .error .overlaps
  else if db.defaultRows.any fun row => decide (lower ≤ key row) && decide (key row < upper) then
    .error .defaultHasRows
  else .ok { db with partitions := db.partitions ++ [⟨name, lower, upper, []⟩] }

/-- `INSERT`: every row goes to the partition that holds its key, else to the DEFAULT partition. -/
def insert (rows : List ρ) (db : Schema ν ρ) : Except PgError (Schema ν ρ) :=
  let unheld := rows.filter fun row => !db.partitions.any fun p => decide (p.Holds key row)
  if db.rest.isNone ∧ unheld ≠ [] then .error .noPartition
  else
    .ok
      { db with
        partitions := db.partitions.map fun p =>
          { p with rows := p.rows ++ rows.filter fun row => p.Holds key row }
        rest := db.rest.map fun r => (r.1, r.2 ++ unheld) }

/-- `DROP TABLE`. -/
def drop (name : ν) (db : Schema ν ρ) : Except PgError (Schema ν ρ) :=
  if name ∈ db.tables.map Prod.fst then
    .ok { db with tables := db.tables.filter fun t => t.1 ≠ name }
  else .error .undefinedTable

end Statements

/-! ## What every statement keeps -/

/-- What a database enforces of a schema. -/
structure WellFormed (key : ρ → Int) (db : Schema ν ρ) : Prop where
  names : db.names.Nodup
  ordered : ∀ p ∈ db.partitions, p.lower < p.upper
  disjoint : db.partitions.Pairwise fun p q => p.upper ≤ q.lower ∨ q.upper ≤ p.lower
  held : ∀ p ∈ db.partitions, ∀ row ∈ p.rows, p.Holds key row
  unheld : ∀ row ∈ db.defaultRows, ∀ p ∈ db.partitions, ¬p.Holds key row

section Lemmas

variable {key : ρ → Int} {db : Schema ν ρ}

theorem mem_names_of_table {t : ν × List ρ} (h : t ∈ db.tables) : t.1 ∈ db.names := by
  unfold Schema.names
  simp only [List.mem_cons, List.mem_append, List.mem_map]
  exact .inr (.inr ⟨t, h, rfl⟩)

theorem WellFormed.partitionNames (h : WellFormed key db) :
    (db.partitions.map Partition.name).Nodup :=
  ((List.nodup_cons.mp h.names).2.of_append_left).of_append_left

theorem WellFormed.tableNames (h : WellFormed key db) : (db.tables.map Prod.fst).Nodup :=
  (List.nodup_cons.mp h.names).2.of_append_right

/-- **Rows are distributed** over disjoint ranges that hold them all. -/
theorem flatMap_filter_perm (partitions : List (Partition ν ρ))
    (hdisjoint : partitions.Pairwise fun p q => p.upper ≤ q.lower ∨ q.upper ≤ p.lower)
    (rows : List ρ) (hheld : ∀ row ∈ rows, ∃ p ∈ partitions, p.Holds key row) :
    (partitions.flatMap fun p => rows.filter fun row => p.Holds key row).Perm rows := by
  induction partitions generalizing rows with
  | nil =>
    have hnil : rows = [] := by
      refine List.eq_nil_iff_forall_not_mem.mpr fun row hrow => ?_
      obtain ⟨p, hp, -⟩ := hheld row hrow
      cases hp
    subst hnil
    exact List.Perm.refl _
  | cons p partitions ih =>
    obtain ⟨hp, hrest⟩ := List.pairwise_cons.mp hdisjoint
    rw [List.flatMap_cons]
    refine List.Perm.trans ?_ (List.filter_append_perm (fun row => decide (p.Holds key row)) rows)
    refine List.Perm.append_left _ ?_
    -- the rows that the first range does not hold are left to the others
    have hothers : (partitions.flatMap fun q => rows.filter fun row => q.Holds key row) =
        partitions.flatMap fun q => (rows.filter fun row => !decide (p.Holds key row)).filter
          fun row => q.Holds key row := by
      refine List.flatMap_congr fun q hq => ?_
      rw [List.filter_filter]
      refine List.filter_congr fun row _ => ?_
      by_cases hheldq : q.Holds key row
      · have hnot : ¬p.Holds key row := by
          rcases hp q hq with hbefore | hafter
          · intro hboth
            exact absurd (hboth.2.trans_le hbefore) (not_lt.mpr hheldq.1)
          · intro hboth
            exact absurd (hheldq.2.trans_le hafter) (not_lt.mpr hboth.1)
        simp [hheldq, hnot]
      · simp [hheldq]
    rw [hothers]
    refine ih hrest _ fun row hrow => ?_
    obtain ⟨hmem, hnot⟩ := List.mem_filter.mp hrow
    obtain ⟨q, hq, hheldq⟩ := hheld row hmem
    rcases List.mem_cons.mp hq with rfl | hq
    · simp [hheldq] at hnot
    · exact ⟨q, hq, hheldq⟩

/-! ## What the statements do to a well-formed schema -/

section Specs

/-- A partition taken out, as a table of another name. -/
def detached [DecidableEq ν] (p : Partition ν ρ) (new : ν) (db : Schema ν ρ) : Schema ν ρ :=
  { db with
    partitions := db.partitions.filter fun q => q.name ≠ p.name
    tables := db.tables ++ [(new, p.rows)] }

theorem detach_rename [DecidableEq ν] (hwf : WellFormed key db) {p : Partition ν ρ}
    (hp : p ∈ db.partitions) {new : ν} (hnew : new ∉ db.names) :
    (detach p.name db >>= rename p.name new) = .ok (detached p new db) := by
  have hfind : (db.partitions.find? fun q => q.name = p.name) = some p := by
    cases hfound : db.partitions.find? fun q => q.name = p.name with
    | none =>
      have hnot := List.find?_eq_none.mp hfound p hp
      exact absurd (decide_eq_true rfl) hnot
    | some q =>
      have hname : q.name = p.name := by simpa using List.find?_some hfound
      rw [List.inj_on_of_nodup_map hwf.partitionNames (List.mem_of_find?_eq_some hfound) hp hname]
  have hother : ∀ t ∈ db.tables, t.1 ≠ p.name := by
    intro t ht heq
    have hdisjoint := List.disjoint_of_nodup_append (List.nodup_cons.mp hwf.names).2
    refine hdisjoint (List.mem_append_left _ (List.mem_map_of_mem hp)) ?_
    exact heq ▸ List.mem_map_of_mem ht
  have hnew' : new ∉ Schema.names { db with
      partitions := db.partitions.filter fun q => q.name ≠ p.name
      tables := db.tables ++ [(p.name, p.rows)] } := by
    intro hmem
    refine hnew ?_
    unfold Schema.names at hmem ⊢
    simp only [List.mem_cons, List.mem_append, List.mem_map, List.mem_filter, List.not_mem_nil,
      or_false] at hmem ⊢
    rcases hmem with h | (⟨q, hq, h⟩ | h) | ⟨t, ht | rfl, h⟩
    · exact .inl h
    · exact .inr (.inl (.inl ⟨q, hq.1, h⟩))
    · exact .inr (.inl (.inr h))
    · exact .inr (.inr ⟨t, ht, h⟩)
    · exact .inr (.inl (.inl ⟨p, hp, h⟩))
  rw [detach, hfind]
  dsimp only
  rw [Checked.ok_bind, rename, if_neg hnew']
  refine congrArg Except.ok ?_
  rw [detached]
  dsimp only
  rw [List.map_append, List.map_singleton, if_pos rfl]
  have hsame : (db.tables.map fun t => if t.1 = p.name then (new, t.2) else t) = db.tables := by
    refine (List.map_congr_left fun t ht => ?_).trans (List.map_id _)
    exact if_neg (hother t ht)
  rw [hsame]

theorem names_detached [DecidableEq ν] (p : Partition ν ρ) (new : ν) :
    (detached p new db).names.Sublist (db.names ++ [new]) := by
  unfold Schema.names detached
  simp only [List.map_append, List.map_cons, List.map_nil, List.cons_append, List.append_assoc]
  refine List.Sublist.cons_cons _ (List.Sublist.append ?_ (List.Sublist.refl _))
  exact List.filter_sublist.map _

theorem WellFormed.detached [DecidableEq ν] (hwf : WellFormed key db) (p : Partition ν ρ)
    {new : ν} (hnew : new ∉ db.names) : WellFormed key (detached p new db) where
  names := by
    refine List.Nodup.sublist (names_detached p new) ?_
    refine List.nodup_append.mpr ⟨hwf.names, List.nodup_singleton _, fun a ha b hb heq => ?_⟩
    obtain rfl := List.mem_singleton.mp hb
    exact hnew (heq ▸ ha)
  ordered q hq := hwf.ordered q (List.mem_filter.mp hq).1
  disjoint := hwf.disjoint.sublist List.filter_sublist
  held q hq := hwf.held q (List.mem_filter.mp hq).1
  unheld row hrow q hq := hwf.unheld row hrow q (List.mem_filter.mp hq).1

theorem flatMap_detached [DecidableEq ν] (hwf : WellFormed key db) {p : Partition ν ρ}
    (hp : p ∈ db.partitions) (new : ν) : (p.rows ++ (Partitioning.detached p new db).partitions.flatMap Partition.rows).Perm
      (db.partitions.flatMap Partition.rows) := by
  obtain ⟨left, right, hsplit⟩ := List.append_of_mem hp
  have hnames := hwf.partitionNames
  rw [hsplit, List.map_append, List.map_cons] at hnames
  obtain ⟨-, hright, hdisjoint⟩ := List.nodup_append.mp hnames
  have hleft : left.filter (fun q => q.name ≠ p.name) = left :=
    List.filter_eq_self.mpr fun q hq => decide_eq_true
      (hdisjoint _ (List.mem_map_of_mem hq) _ List.mem_cons_self)
  have hright' : right.filter (fun q => q.name ≠ p.name) = right := by
    refine List.filter_eq_self.mpr fun q hq => decide_eq_true fun heq => ?_
    exact (List.nodup_cons.mp hright).1 (heq ▸ List.mem_map_of_mem hq)
  have hfilter : (Partitioning.detached p new db).partitions = left ++ right := by
    rw [Partitioning.detached]
    dsimp only
    rw [hsplit, List.filter_append, List.filter_cons_of_neg (by simp), hleft, hright']
  rw [hfilter, hsplit, List.flatMap_append, List.flatMap_append, List.flatMap_cons]
  exact List.perm_append_comm_assoc _ _ _

/-- A new partition without rows. -/
def created (name : ν) (lower upper : Int) (db : Schema ν ρ) : Schema ν ρ :=
  { db with partitions := db.partitions ++ [⟨name, lower, upper, []⟩] }

theorem create_ok [DecidableEq ν] {name : ν} {lower upper : Int} (hname : name ∉ db.names)
    (hfree : ∀ p ∈ db.partitions, p.upper ≤ lower ∨ upper ≤ p.lower)
    (hrest : ∀ row ∈ db.defaultRows, ¬(lower ≤ key row ∧ key row < upper)) :
    create key name lower upper db = .ok (created name lower upper db) := by
  have hoverlap : (db.partitions.any fun p => decide (lower < p.upper) && decide (p.lower < upper)) =
      false := by
    refine List.any_eq_false.mpr fun p hp => ?_
    have := hfree p hp
    simp only [Bool.and_eq_true, decide_eq_true_eq]
    omega
  have hrows : (db.defaultRows.any fun row => decide (lower ≤ key row) && decide (key row < upper)) =
      false := by
    refine List.any_eq_false.mpr fun row hrow => ?_
    simpa only [Bool.and_eq_true, decide_eq_true_eq] using hrest row hrow
  rw [create, if_neg hname, hoverlap, hrows]
  rfl

theorem WellFormed.created (hwf : WellFormed key db) {name : ν} {lower upper : Int}
    (hname : name ∉ db.names) (hlt : lower < upper)
    (hfree : ∀ p ∈ db.partitions, p.upper ≤ lower ∨ upper ≤ p.lower)
    (hrest : ∀ row ∈ db.defaultRows, ¬(lower ≤ key row ∧ key row < upper)) :
    WellFormed key (created name lower upper db) where
  names := by
    have hperm : (Partitioning.created name lower upper db).names.Perm (name :: db.names) := by
      unfold Schema.names Partitioning.created
      simp only [List.map_append, List.map_cons, List.map_nil, List.append_assoc,
        List.cons_append, List.nil_append]
      exact (List.Perm.cons _ List.perm_middle).trans (List.Perm.swap _ _ _)
    exact hperm.nodup_iff.mpr (List.nodup_cons.mpr ⟨hname, hwf.names⟩)
  ordered p hp := by
    rcases List.mem_append.mp hp with hp | hp
    · exact hwf.ordered p hp
    · obtain rfl := List.mem_singleton.mp hp
      exact hlt
  disjoint := by
    refine List.pairwise_append.mpr ⟨hwf.disjoint, List.pairwise_singleton _ _, fun p hp q hq => ?_⟩
    obtain rfl := List.mem_singleton.mp hq
    exact hfree p hp
  held p hp row hrow := by
    rcases List.mem_append.mp hp with hp | hp
    · exact hwf.held p hp row hrow
    · obtain rfl := List.mem_singleton.mp hp
      cases hrow
  unheld row hrow p hp := by
    rcases List.mem_append.mp hp with hp | hp
    · exact hwf.unheld row hrow p hp
    · obtain rfl := List.mem_singleton.mp hp
      exact hrest row hrow

/-- The rows added to the partitions that hold them. -/
def inserted (key : ρ → Int) (rows : List ρ) (db : Schema ν ρ) : Schema ν ρ :=
  { db with
    partitions := db.partitions.map fun p =>
      { p with rows := p.rows ++ rows.filter fun row => p.Holds key row } }

theorem insert_ok {rows : List ρ} (hheld : ∀ row ∈ rows, ∃ p ∈ db.partitions, p.Holds key row) :
    insert key rows db = .ok (inserted key rows db) := by
  have hunheld : (rows.filter fun row =>
      !db.partitions.any fun p => decide (p.Holds key row)) = [] := by
    refine List.filter_eq_nil_iff.mpr fun row hrow => ?_
    obtain ⟨p, hp, hholds⟩ := hheld row hrow
    have hany : (db.partitions.any fun p => decide (p.Holds key row)) = true :=
      List.any_eq_true.mpr ⟨p, hp, decide_eq_true hholds⟩
    simp [hany]
  unfold insert
  dsimp only
  rw [hunheld, if_neg (by simp), inserted]
  have hrest : (db.rest.map fun r => (r.1, r.2 ++ [])) = db.rest := by
    cases db.rest with
    | none => rfl
    | some r => rw [Option.map_some, List.append_nil]
  rw [hrest]

theorem names_inserted (rows : List ρ) : (inserted key rows db).names = db.names := by
  unfold Schema.names inserted
  dsimp only
  rw [List.map_map]
  rfl

theorem mem_inserted {rows : List ρ} {p : Partition ν ρ} :
    p ∈ (inserted key rows db).partitions ↔
      ∃ q ∈ db.partitions, p = { q with rows := q.rows ++ rows.filter fun row => q.Holds key row } := by
  rw [inserted]
  dsimp only
  rw [List.mem_map]
  exact exists_congr fun q => and_congr_right fun _ => eq_comm

theorem WellFormed.inserted (hwf : WellFormed key db) (rows : List ρ) :
    WellFormed key (inserted key rows db) where
  names := by
    rw [names_inserted]
    exact hwf.names
  ordered p hp := by
    obtain ⟨q, hq, rfl⟩ := mem_inserted.mp hp
    exact hwf.ordered q hq
  disjoint := List.pairwise_map.mpr hwf.disjoint
  held p hp row hrow := by
    obtain ⟨q, hq, rfl⟩ := mem_inserted.mp hp
    rcases List.mem_append.mp hrow with hrow | hrow
    · exact hwf.held q hq row hrow
    · exact of_decide_eq_true (List.mem_filter.mp hrow).2
  unheld row hrow p hp := by
    obtain ⟨q, hq, rfl⟩ := mem_inserted.mp hp
    exact hwf.unheld row hrow q hq

theorem flatMap_append_perm {α β : Type} (l : List α) (f g : α → List β) :
    (l.flatMap fun a => f a ++ g a).Perm (l.flatMap f ++ l.flatMap g) := by
  induction l with
  | nil => exact List.Perm.refl _
  | cons a l ih =>
    simp only [List.flatMap_cons, List.append_assoc]
    refine List.Perm.append_left _ ((List.Perm.append_left _ ih).trans ?_)
    exact List.perm_append_comm_assoc _ _ _

/-- **An insertion adds its rows.** -/
theorem flatMap_inserted (hwf : WellFormed key db) {rows : List ρ}
    (hheld : ∀ row ∈ rows, ∃ p ∈ db.partitions, p.Holds key row) :
    ((inserted key rows db).partitions.flatMap Partition.rows).Perm
      (db.partitions.flatMap Partition.rows ++ rows) := by
  rw [Partitioning.inserted]
  dsimp only
  rw [List.flatMap_map]
  refine (flatMap_append_perm _ _ _).trans (List.Perm.append_left _ ?_)
  exact flatMap_filter_perm _ hwf.disjoint rows hheld

theorem WellFormed.deleteDefault (hwf : WellFormed key db) (test : ρ → Bool) :
    WellFormed key (deleteDefault test db).1 where
  names := by
    have hnames : (Partitioning.deleteDefault test db).1.names = db.names := by
      unfold Schema.names Partitioning.deleteDefault
      cases db.rest <;> rfl
    rw [hnames]
    exact hwf.names
  ordered := hwf.ordered
  disjoint := hwf.disjoint
  held := hwf.held
  unheld row hrow p hp := by
    refine hwf.unheld row ?_ p hp
    unfold Schema.defaultRows Partitioning.deleteDefault at hrow
    unfold Schema.defaultRows
    cases hrest : db.rest with
    | none => simp [hrest] at hrow
    | some r =>
      simp [hrest] at hrow
      exact hrow.1

theorem defaultRows_deleteDefault (test : ρ → Bool) :
    (deleteDefault test db).1.defaultRows = db.defaultRows.filter fun row => !test row := by
  unfold Schema.defaultRows deleteDefault
  cases db.rest <;> rfl

theorem WellFormed.dropTables (hwf : WellFormed key db) {tables : List (ν × List ρ)}
    (h : tables.Sublist db.tables) : WellFormed key { db with tables } where
  names := hwf.names.sublist
    (List.Sublist.cons_cons _ (List.Sublist.append (List.Sublist.refl _) (h.map _)))
  ordered := hwf.ordered
  disjoint := hwf.disjoint
  held := hwf.held
  unheld := hwf.unheld

end Specs

end Lemmas

end Partitioning
