import Ai4iCore.Base.Checked
import Mathlib

/-!
# Nested lists

Lists of lists of values, of any depth (`Nested`). A nested list is rectangular when the lists at
every level have one length (`HasShape`); then it has as many values as the product of these
lengths, and the lengths can be read off the first element at every level (`firstShape`).
-/

universe u v

/-- A value, or a list of such. -/
inductive Nested (α : Type u)
  | leaf (a : α)
  | node (xs : List (Nested α))

namespace Nested

variable {α : Type u} {β : Type v}

mutual

/-- The values, those of the first element first. -/
def flatten : Nested α → List α
  | leaf a => [a]
  | node xs => flattenAll xs

def flattenAll : List (Nested α) → List α
  | [] => []
  | x :: xs => flatten x ++ flattenAll xs

end

mutual

def map (f : α → β) : Nested α → Nested β
  | leaf a => leaf (f a)
  | node xs => node (mapAll f xs)

def mapAll (f : α → β) : List (Nested α) → List (Nested β)
  | [] => []
  | x :: xs => map f x :: mapAll f xs

end

mutual

/-- A nested list for every value; the first error is raised. -/
def bindM {ε : Type*} (f : α → Except ε (Nested β)) : Nested α → Except ε (Nested β)
  | leaf a => f a
  | node xs => (bindAll f xs).map node

def bindAll {ε : Type*} (f : α → Except ε (Nested β)) :
    List (Nested α) → Except ε (List (Nested β))
  | [] => .ok []
  | x :: xs => do
    let y ← bindM f x
    let ys ← bindAll f xs
    return y :: ys

end

/-- The lengths of the lists, read off the first element of each. -/
def firstShape : Nested α → List Nat
  | leaf _ => []
  | node [] => [0]
  | node (x :: xs) => (xs.length + 1) :: firstShape x

/-- The lists at each level have these lengths. -/
def HasShape : List Nat → Nested α → Prop
  | [], t => ∃ a, t = leaf a
  | n :: dims, t => ∃ xs, t = node xs ∧ xs.length = n ∧ ∀ x ∈ xs, HasShape dims x

/-- A property of nested lists that goes up from the elements. -/
theorem induct {motive : Nested α → Prop} (leaf : ∀ a, motive (.leaf a))
    (node : ∀ xs, (∀ x ∈ xs, motive x) → motive (.node xs)) : ∀ t, motive t
  | .leaf a => leaf a
  | .node xs => node xs fun x _ => induct leaf node x

@[simp] theorem flatten_leaf (a : α) : (leaf a).flatten = [a] := by rw [flatten]

@[simp] theorem flatten_node (xs : List (Nested α)) : (node xs).flatten = xs.flatMap flatten := by
  rw [flatten]
  induction xs with
  | nil => rw [flattenAll, List.flatMap_nil]
  | cons x xs ih => rw [flattenAll, List.flatMap_cons, ih]

@[simp] theorem map_leaf (f : α → β) (a : α) : (leaf a).map f = leaf (f a) := by rw [map]

@[simp] theorem map_node (f : α → β) (xs : List (Nested α)) :
    (node xs).map f = node (xs.map (map f)) := by
  rw [map]
  induction xs with
  | nil => rw [mapAll, List.map_nil]
  | cons x xs ih => rw [mapAll, List.map_cons, Nested.node.inj ih]

theorem flatten_map (f : α → β) (t : Nested α) : (t.map f).flatten = t.flatten.map f := by
  induction t using induct with
  | leaf a => simp
  | node xs ih =>
    rw [map_node, flatten_node, flatten_node, List.flatMap_map, List.map_flatMap]
    exact List.flatMap_congr ih

theorem bindM_leaf {ε : Type*} (f : α → Except ε (Nested β)) (a : α) :
    (leaf a).bindM f = f a := by
  rw [bindM]

theorem bindM_node {ε : Type*} (f : α → Except ε (Nested β)) (xs : List (Nested α)) :
    (node xs).bindM f = (xs.mapM (bindM f)).map node := by
  rw [bindM]
  congr 1
  induction xs with
  | nil => rw [bindAll, List.mapM_nil]; rfl
  | cons x xs ih => rw [bindAll, List.mapM_cons, ih]

/-- What is true of all the values that one value becomes. -/
theorem forall_flatten_of_bindM {ε : Type*} {f : α → Except ε (Nested β)} {P : β → Prop}
    (hf : ∀ a t, f a = .ok t → ∀ b ∈ t.flatten, P b) {t : Nested α} {t' : Nested β}
    (h : t.bindM f = .ok t') : ∀ b ∈ t'.flatten, P b := by
  induction t using induct generalizing t' with
  | leaf a =>
    rw [bindM_leaf] at h
    exact hf a t' h
  | node xs ih =>
    rw [bindM_node] at h
    cases hxs : xs.mapM (bindM f) with
    | error e =>
      rw [hxs] at h
      cases h
    | ok ys =>
      rw [hxs] at h
      obtain rfl := Except.ok.inj h
      intro b hb
      rw [flatten_node, List.mem_flatMap] at hb
      obtain ⟨y, hy, hb⟩ := hb
      obtain ⟨x, hx, hy⟩ := Checked.mapM_ok_mem hxs hy
      exact ih x hx hy b hb

namespace HasShape

theorem map {f : α → β} {dims : List Nat} {t : Nested α} (h : HasShape dims t) :
    HasShape dims (t.map f) := by
  induction dims generalizing t with
  | nil =>
    obtain ⟨a, rfl⟩ := h
    exact ⟨f a, map_leaf f a⟩
  | cons n dims ih =>
    obtain ⟨xs, rfl, hlength, hxs⟩ := h
    refine ⟨xs.map (Nested.map f), map_node f xs, by rw [List.length_map, hlength], ?_⟩
    intro y hy
    obtain ⟨x, hx, rfl⟩ := List.mem_map.mp hy
    exact ih (hxs x hx)

/-- As many values as the product of the lengths. -/
theorem length_flatten {dims : List Nat} {t : Nested α} (h : HasShape dims t) :
    t.flatten.length = dims.prod := by
  induction dims generalizing t with
  | nil =>
    obtain ⟨a, rfl⟩ := h
    simp
  | cons n dims ih =>
    obtain ⟨xs, rfl, rfl, hxs⟩ := h
    rw [flatten_node, List.length_flatMap, List.prod_cons,
      List.map_congr_left fun x hx => ih (hxs x hx), List.map_const', List.sum_replicate]
    rfl

/-- Of two with the same lengths, what the first elements of one say is true of the other. -/
theorem firstShape_of {dims : List Nat} {t t' : Nested α} (h : HasShape dims t)
    (h' : HasShape dims t') : HasShape t.firstShape t' := by
  induction dims generalizing t t' with
  | nil =>
    obtain ⟨a, rfl⟩ := h
    rw [firstShape]
    exact h'
  | cons n dims ih =>
    obtain ⟨xs, rfl, rfl, hxs⟩ := h
    obtain ⟨ys, rfl, hlength, hys⟩ := h'
    cases xs with
    | nil =>
      rw [firstShape]
      obtain rfl := List.length_eq_zero_iff.mp hlength
      exact ⟨[], rfl, rfl, fun x hx => absurd hx List.not_mem_nil⟩
    | cons x xs =>
      rw [firstShape]
      exact ⟨ys, rfl, hlength, fun y hy => ih (hxs x List.mem_cons_self) (hys y hy)⟩

theorem firstShape {dims : List Nat} {t : Nested α} (h : HasShape dims t) :
    HasShape t.firstShape t :=
  h.firstShape_of h

/-- The elements of a list have the shape that is read off the first one. -/
theorem of_mem {dims : List Nat} {t u : Nested α} {ts : List (Nested α)}
    (h : HasShape dims (node (t :: ts))) (hu : u ∈ t :: ts) : HasShape t.firstShape u := by
  cases dims with
  | nil =>
    obtain ⟨a, ha⟩ := h
    cases ha
  | cons n dims =>
    obtain ⟨xs, hxs, -, hall⟩ := h
    obtain rfl := Nested.node.inj hxs
    exact (hall t List.mem_cons_self).firstShape_of (hall u hu)

theorem node_map {γ : Type*} {f : γ → Nested α} {dims : List Nat} {l : List γ}
    (h : ∀ b ∈ l, HasShape dims (f b)) : HasShape (l.length :: dims) (node (l.map f)) := by
  refine ⟨l.map f, rfl, List.length_map .., ?_⟩
  intro t ht
  obtain ⟨b, hb, rfl⟩ := List.mem_map.mp ht
  exact h b hb

end HasShape

theorem firstShape_cons (t : Nested α) (ts : List (Nested α)) :
    (node (t :: ts)).firstShape = (ts.length + 1) :: t.firstShape := by
  rw [firstShape]

/-- The length of a list of values can be read off, whatever it is. -/
theorem firstShape_of_flat {n : Nat} {t : Nested α} (h : HasShape [n] t) : t.firstShape = [n] := by
  obtain ⟨xs, rfl, rfl, hxs⟩ := h
  cases xs with
  | nil =>
    rw [firstShape]
    rfl
  | cons x xs =>
    obtain ⟨y, rfl⟩ := hxs x List.mem_cons_self
    rw [firstShape_cons, firstShape, List.length_cons]

end Nested
