import Mathlib

/-!
# Grouping and joining

`GROUP BY`, `LEFT JOIN` and `count(DISTINCT …)` on lists of rows. A group is a key with the
rows that have it, so that a sum over all rows is a sum over the groups; a join pairs every row with
its matches, or with nothing, and on a unique column with exactly one thing.
-/

namespace Relational

universe u v w

variable {α : Type u} {β : Type v} {κ : Type w} [DecidableEq κ]

/-- `GROUP BY key`. -/
def groupBy (key : α → κ) (rows : List α) : List (κ × List α) :=
  (rows.map key).dedup.map fun k => (k, rows.filter fun a => key a = k)

/-- `count(DISTINCT f) FILTER (WHERE p)`. -/
def countDistinct (f : α → κ) (p : α → Bool) (rows : List α) : Nat :=
  ((rows.filter p).map f).dedup.length

/-- `LEFT JOIN table ON on`. -/
def leftJoin (on : α → β → Bool) (rows : List α) (table : List β) : List (α × Option β) :=
  rows.flatMap fun a =>
    match table.filter (on a) with
    | [] => [(a, none)]
    | b :: bs => (b :: bs).map fun b => (a, some b)

theorem groupBy_fst (key : α → κ) (rows : List α) :
    (groupBy key rows).map Prod.fst = (rows.map key).dedup := by
  rw [groupBy, List.map_map]
  exact List.map_id _

theorem mem_groupBy {key : α → κ} {rows : List α} {g : κ × List α}
    (hg : g ∈ groupBy key rows) : g.2 = rows.filter fun a => key a = g.1 := by
  obtain ⟨k, -, rfl⟩ := List.mem_map.mp hg
  rfl

/-- Fewer rows have fewer distinct values. -/
theorem countDistinct_mono (f : α → κ) {p q : α → Bool} {rows : List α}
    (h : ∀ a ∈ rows, p a = true → q a = true) :
    countDistinct f p rows ≤ countDistinct f q rows := by
  unfold countDistinct
  rw [← List.card_toFinset, ← List.card_toFinset]
  refine Finset.card_le_card fun c hc => ?_
  rw [List.mem_toFinset] at hc ⊢
  obtain ⟨a, ha, rfl⟩ := List.mem_map.mp hc
  obtain ⟨hrow, hp⟩ := List.mem_filter.mp ha
  exact List.mem_map_of_mem (List.mem_filter.mpr ⟨hrow, h a hrow hp⟩)

section Sum

variable {M : Type*} [AddCommMonoid M] (key : α → κ) (f : α → M)

/-- A sum over some keys is the sum over the rows that have one of them. -/
theorem sum_filter_mem (keys : Finset κ) (rows : List α) :
    ∑ k ∈ keys, ((rows.filter fun a => key a = k).map f).sum =
      ((rows.filter fun a => key a ∈ keys).map f).sum := by
  induction rows with
  | nil => simp
  | cons a rows ih =>
    have hhead : ∀ k, (((a :: rows).filter fun a => key a = k).map f).sum =
        (if key a = k then f a else 0) + ((rows.filter fun a => key a = k).map f).sum := by
      intro k
      by_cases hk : key a = k <;> simp [hk]
    rw [Finset.sum_congr rfl fun k _ => hhead k, Finset.sum_add_distrib, ih, Finset.sum_ite_eq]
    by_cases ha : key a ∈ keys <;> simp [ha]

/-- A sum over the groups is the sum over the rows. -/
theorem sum_fiberwise (rows : List α) :
    ((rows.map key).dedup.map fun k => ((rows.filter fun a => key a = k).map f).sum).sum =
      (rows.map f).sum := by
  have hdedup := List.sum_toFinset
    (fun k => ((rows.filter fun a => key a = k).map f).sum) (rows.map key).nodup_dedup
  have hall : (rows.filter fun a => key a ∈ (rows.map key).dedup.toFinset) = rows := by
    refine List.filter_eq_self.mpr fun a ha => ?_
    simpa using ⟨a, ha, rfl⟩
  rw [← hdedup, sum_filter_mem, hall]

/-- A condition of a filter as a case of the summand. -/
theorem sum_filter_and (p q : α → Bool) (rows : List α) :
    ((rows.filter fun a => p a && q a).map f).sum =
      ((rows.filter p).map fun a => if q a then f a else 0).sum := by
  induction rows with
  | nil => rfl
  | cons a rows ih =>
    rw [List.filter_cons, List.filter_cons]
    cases hp : p a <;> cases hq : q a <;> simp [hq, ih]

/-- Rows that are of two kinds, and never of both. -/
theorem sum_filter_or {p q r : α → Bool} {rows : List α} (hp : ∀ a, p a = (q a || r a))
    (hdisjoint : ∀ a, q a = true → r a = false) :
    ((rows.filter p).map f).sum = ((rows.filter q).map f).sum + ((rows.filter r).map f).sum := by
  induction rows with
  | nil => simp
  | cons a rows ih =>
    rw [List.filter_cons, List.filter_cons, List.filter_cons, hp a]
    cases hq : q a with
    | true => simp [hdisjoint a hq, ih, add_assoc]
    | false => cases hr : r a <;> simp [ih, add_left_comm]

end Sum

/-- A sum over the groups of some keys is the sum over their rows. -/
theorem sum_groupBy {M : Type*} [AddCommMonoid M] (key : α → κ) (p : κ → Bool) (f : α → M)
    (rows : List α) :
    (((groupBy key rows).filter fun g => p g.1).map fun g => (g.2.map f).sum).sum =
      ((rows.filter fun a => p (key a)).map f).sum := by
  have hrows := sum_filter_and f (fun _ => true) (fun a => p (key a)) rows
  have hgroups := sum_filter_and (fun g : κ × List α => (g.2.map f).sum) (fun _ => true)
    (fun g => p g.1) (groupBy key rows)
  simp only [Bool.true_and, List.filter_true] at hrows hgroups
  rw [hrows, hgroups, ← sum_fiberwise key, groupBy, List.map_map]
  refine congrArg List.sum (List.map_congr_left fun k _ => ?_)
  show (if p k = true then ((rows.filter fun a => key a = k).map f).sum else 0) = _
  have hkey : ∀ a ∈ rows.filter (fun a => key a = k), key a = k :=
    fun a ha => of_decide_eq_true (List.mem_filter.mp ha).2
  split
  · rename_i hp
    refine congrArg List.sum (List.map_congr_left fun a ha => ?_)
    rw [hkey a ha, if_pos hp]
  · rename_i hp
    refine (List.sum_eq_zero fun x hx => ?_).symm
    obtain ⟨a, ha, rfl⟩ := List.mem_map.mp hx
    rw [hkey a ha, if_neg hp]

/-- The group of one key, or none. -/
theorem sum_group {M : Type*} [AddCommMonoid M] (key : α → κ) (F : List α → M) (hF : F [] = 0)
    (rows : List α) (k : κ) :
    (((groupBy key rows).filter fun g => g.1 = k).map fun g => F g.2).sum =
      F (rows.filter fun a => key a = k) := by
  have hgroups : ((groupBy key rows).filter fun g => g.1 = k) =
      (((rows.map key).dedup).filter fun k' => k' = k).map fun k =>
        (k, rows.filter fun a => key a = k) := by
    rw [groupBy, List.filter_map]
    rfl
  rw [hgroups, List.filter_eq]
  by_cases hk : k ∈ rows.map key
  · have hcount : List.count k (rows.map key).dedup = 1 :=
      List.count_eq_one_of_mem (List.nodup_dedup _) (List.mem_dedup.mpr hk)
    rw [hcount]
    simp
  · have hcount : List.count k (rows.map key).dedup = 0 :=
      List.count_eq_zero_of_not_mem fun h => hk (List.mem_dedup.mp h)
    have hnone : (rows.filter fun a => key a = k) = [] :=
      List.filter_eq_nil_iff.mpr fun a ha h => hk (of_decide_eq_true h ▸ List.mem_map_of_mem ha)
    rw [hcount, hnone, hF]
    rfl

/-- A sum over some keys, one of them apart. -/
theorem sum_dedup_of_ne {M : Type*} [AddCommMonoid M] (G : κ → M) (keys : List κ) (k : κ)
    (hG : k ∉ keys → G k = 0) :
    (keys.dedup.map G).sum = ((keys.dedup.filter fun k' => k' ≠ k).map G).sum + G k := by
  have hsplit : ((keys.dedup.filter fun _ => true).map G).sum =
      ((keys.dedup.filter fun k' => k' ≠ k).map G).sum +
        ((keys.dedup.filter fun k' => k' = k).map G).sum :=
    sum_filter_or G (fun k' => by by_cases h : k' = k <;> simp [h]) fun k' h => by simpa using h
  rw [List.filter_true] at hsplit
  rw [hsplit, List.filter_eq]
  by_cases hk : k ∈ keys
  · rw [List.count_eq_one_of_mem (List.nodup_dedup _) (List.mem_dedup.mpr hk)]
    simp
  · rw [List.count_eq_zero_of_not_mem fun h => hk (List.mem_dedup.mp h), hG hk]
    simp

theorem sum_length_filter {ι : Type v} [DecidableEq ι] (part : α → ι) (p : α → Bool)
    (rows : List α) :
    ((rows.map part).dedup.map fun c => ((rows.filter fun a => part a = c).filter p).length).sum =
      (rows.filter p).length := by
  have hlength : ∀ rows : List α, (rows.filter p).length =
      (rows.map fun a => if p a then 1 else 0).sum := by
    intro rows
    induction rows with
    | nil => rfl
    | cons a rows ih => cases hp : p a <;> simp [hp, ih, Nat.add_comm]
  rw [hlength, ← sum_fiberwise part]
  exact congrArg List.sum (List.map_congr_left fun c _ => hlength _)

section Parts

variable {ι : Type v} [DecidableEq ι] (part : α → ι) (f : α → κ) (p : α → Bool) (rows : List α)

/-- The values of a column with the parts they occur in. -/
private def partValues : Finset (ι × κ) := ((rows.filter p).map fun a => (part a, f a)).toFinset

private theorem mem_partValues {c : ι × κ} :
    c ∈ partValues part f p rows ↔ ∃ a ∈ rows, p a = true ∧ part a = c.1 ∧ f a = c.2 := by
  unfold partValues
  rw [List.mem_toFinset, List.mem_map]
  constructor
  · rintro ⟨a, ha, rfl⟩
    obtain ⟨hrow, hp⟩ := List.mem_filter.mp ha
    exact ⟨a, hrow, hp, rfl, rfl⟩
  · rintro ⟨a, hrow, hp, hpart, hf⟩
    exact ⟨a, List.mem_filter.mpr ⟨hrow, hp⟩, Prod.ext hpart hf⟩

private theorem card_partValues :
    (partValues part f p rows).card =
      ((rows.map part).dedup.map fun c =>
        countDistinct f p (rows.filter fun a => part a = c)).sum := by
  have hparts : ∀ v ∈ partValues part f p rows, v.1 ∈ (rows.map part).dedup.toFinset := by
    intro v hv
    obtain ⟨a, ha, -, hpart, -⟩ := (mem_partValues part f p rows).mp hv
    exact List.mem_toFinset.mpr (List.mem_dedup.mpr (hpart ▸ List.mem_map_of_mem ha))
  rw [Finset.card_eq_sum_card_fiberwise hparts, List.sum_toFinset _ (List.nodup_dedup _)]
  refine congrArg List.sum (List.map_congr_left fun c _ => ?_)
  rw [countDistinct, ← List.card_toFinset]
  -- within one part the value says it all
  refine Finset.card_bij (fun v _ => v.2) (fun v hv => ?_) (fun v hv w hw h => ?_) fun k hk => ?_
  · obtain ⟨hv, hc⟩ := Finset.mem_filter.mp hv
    obtain ⟨a, ha, hp, hpart, hf⟩ := (mem_partValues part f p rows).mp hv
    refine List.mem_toFinset.mpr (List.mem_map.mpr ⟨a, ?_, hf⟩)
    exact List.mem_filter.mpr ⟨List.mem_filter.mpr ⟨ha, by simp [hpart, hc]⟩, hp⟩
  · exact Prod.ext ((Finset.mem_filter.mp hv).2.trans (Finset.mem_filter.mp hw).2.symm) h
  · obtain ⟨a, ha, rfl⟩ := List.mem_map.mp (List.mem_toFinset.mp hk)
    obtain ⟨ha, hp⟩ := List.mem_filter.mp ha
    obtain ⟨ha, hpart⟩ := List.mem_filter.mp ha
    refine ⟨(c, f a), Finset.mem_filter.mpr ⟨(mem_partValues part f p rows).mpr ?_, rfl⟩, rfl⟩
    exact ⟨a, ha, hp, of_decide_eq_true hpart, rfl⟩

/-- Counting distinct values part by part comes to the same when no value occurs in two parts. -/
theorem sum_countDistinct_eq_iff :
    ((rows.map part).dedup.map fun c =>
        countDistinct f p (rows.filter fun a => part a = c)).sum = countDistinct f p rows ↔
      ∀ a ∈ rows, ∀ b ∈ rows, p a = true → p b = true → f a = f b → part a = part b := by
  have himage : ((rows.filter p).map f).toFinset = (partValues part f p rows).image Prod.snd := by
    ext k
    rw [List.mem_toFinset, Finset.mem_image, List.mem_map]
    constructor
    · rintro ⟨a, ha, rfl⟩
      obtain ⟨hrow, hp⟩ := List.mem_filter.mp ha
      exact ⟨(part a, f a), (mem_partValues part f p rows).mpr ⟨a, hrow, hp, rfl, rfl⟩, rfl⟩
    · rintro ⟨v, hv, rfl⟩
      obtain ⟨a, ha, hp, -, hf⟩ := (mem_partValues part f p rows).mp hv
      exact ⟨a, List.mem_filter.mpr ⟨ha, hp⟩, hf⟩
  rw [← card_partValues, countDistinct, ← List.card_toFinset, himage, eq_comm,
    Finset.card_image_iff]
  constructor
  · intro hinj a ha b hb hpa hpb hf
    have ha := (mem_partValues part f p rows (c := (part a, f a))).mpr ⟨a, ha, hpa, rfl, rfl⟩
    have hb := (mem_partValues part f p rows (c := (part b, f b))).mpr ⟨b, hb, hpb, rfl, rfl⟩
    exact congrArg Prod.fst (hinj ha hb hf)
  · intro h v hv w hw hvalue
    obtain ⟨a, ha, hpa, hpart, hf⟩ := (mem_partValues part f p rows).mp hv
    obtain ⟨b, hb, hpb, hpart', hf'⟩ := (mem_partValues part f p rows).mp hw
    refine Prod.ext ?_ hvalue
    rw [← hpart, ← hpart']
    exact h a ha b hb hpa hpb (hf.trans (Eq.trans hvalue hf'.symm))

end Parts

/-- A column with unique values matches a value at most once, and a null never. -/
theorem length_filter_le_one {f : β → κ} {table : List β} (hunique : (table.map f).Nodup)
    (o : Option κ) : (table.filter fun b => o = some (f b)).length ≤ 1 := by
  cases o with
  | none => simp
  | some k =>
    have hsub : ((table.filter fun b => some k = some (f b)).map f).Nodup :=
      hunique.sublist (List.filter_sublist.map f)
    have hall : ∀ c ∈ (table.filter fun b => some k = some (f b)).map f, k = c := by
      intro c hc
      obtain ⟨b, hb, rfl⟩ := List.mem_map.mp hc
      exact Option.some.inj (of_decide_eq_true (List.mem_filter.mp hb).2)
    rw [← List.length_map f, ← List.count_eq_length.mpr hall]
    exact List.nodup_iff_count_le_one.mp hsub k

/-- Over a unique column a join pairs every row with its one match. -/
theorem leftJoin_unique {f : β → κ} {table : List β} (o : α → Option κ)
    (hunique : (table.map f).Nodup) (rows : List α) :
    leftJoin (fun a b => o a = some (f b)) rows table =
      rows.map fun a => (a, table.find? fun b => o a = some (f b)) := by
  unfold leftJoin
  rw [← List.flatMap_singleton' (rows.map _), List.flatMap_map]
  refine List.flatMap_congr fun a _ => ?_
  have hle := length_filter_le_one hunique (o a)
  split
  · rename_i hnone
    rw [← List.head?_filter, hnone]
    rfl
  · rename_i b bs hsome
    rw [hsome, List.length_cons] at hle
    obtain rfl : bs = [] := List.length_eq_zero_iff.mp (by omega)
    rw [← List.head?_filter, hsome]
    rfl

/-- A row that is paired with something. -/
theorem mem_leftJoin_some {on : α → β → Bool} {rows : List α} {table : List β} {a : α} {b : β} :
    (a, some b) ∈ leftJoin on rows table ↔ a ∈ rows ∧ b ∈ table ∧ on a b = true := by
  have hmatches : ∀ a', (a, some b) ∈ (match table.filter (on a') with
      | [] => [(a', none)]
      | b :: bs => (b :: bs).map fun b => (a', some b)) ↔ a = a' ∧ b ∈ table ∧ on a' b = true := by
    intro a'
    rw [← List.mem_filter]
    cases table.filter (on a') with
    | nil => simp
    | cons b' bs =>
      constructor
      · intro h
        obtain ⟨c, hc, he⟩ := List.mem_map.mp h
        cases he
        exact ⟨rfl, hc⟩
      · rintro ⟨rfl, hb⟩
        exact List.mem_map.mpr ⟨b, hb, rfl⟩
  constructor
  · intro h
    obtain ⟨a', ha', hmem⟩ := List.mem_flatMap.mp h
    obtain ⟨rfl, hb⟩ := (hmatches a').mp hmem
    exact ⟨ha', hb⟩
  · rintro ⟨ha, hb⟩
    exact List.mem_flatMap.mpr ⟨a, ha, (hmatches a).mpr ⟨rfl, hb⟩⟩

/-- A join keeps every row. -/
theorem exists_mem_leftJoin {on : α → β → Bool} {rows : List α} {table : List β} {a : α} :
    (∃ o, (a, o) ∈ leftJoin on rows table) ↔ a ∈ rows := by
  constructor
  · rintro ⟨o, h⟩
    obtain ⟨a', ha', hmem⟩ := List.mem_flatMap.mp h
    split at hmem
    · cases List.mem_singleton.mp hmem
      exact ha'
    · obtain ⟨b, -, hb⟩ := List.mem_map.mp hmem
      cases hb
      exact ha'
  · intro ha
    cases hmatches : table.filter (on a) with
    | nil =>
      refine ⟨none, List.mem_flatMap.mpr ⟨a, ha, ?_⟩⟩
      rw [hmatches]
      exact List.mem_singleton_self _
    | cons b bs =>
      refine ⟨some b, List.mem_flatMap.mpr ⟨a, ha, ?_⟩⟩
      rw [hmatches]
      exact List.mem_map.mpr ⟨b, List.mem_cons_self, rfl⟩

end Relational
