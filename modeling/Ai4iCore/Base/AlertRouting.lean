import Mathlib.Data.List.Basic

/-!
# Routing trees and inhibition

An alert is a set of labels. A routing tree hands it to receivers: a node takes it when its
matchers hold, its children are asked in their order until one has taken the alert that does not
continue, and a node none of whose children takes it is its receiver itself. An inhibition rule
mutes an alert while another one fires.

A tree whose children are leaves that all continue hands an alert to every child that matches
(`receivers_flat`).
-/

namespace AlertRouting

universe u v w

/-- The value of every label. A label that is not there has the empty value. -/
abbrev Labels (ν : Type u) (β : Type v) : Type (max u v) := ν → β

/-- A condition on one label: a value, or an anchored alternative of literal values. -/
inductive Matcher (ν : Type u) (β : Type v)
  | eq (name : ν) (value : β)
  | oneOf (name : ν) (values : List β)
  deriving DecidableEq, Repr

/-- A node of a routing tree. -/
inductive Route (ν : Type u) (β : Type v) (ρ : Type w)
  | node (matchers : List (Matcher ν β)) (receiver : ρ) (continues : Bool)
    (children : List (Route ν β ρ))

/-- A rule by which an alert that has `source` mutes one that has `target`, when they agree on
the labels of `equal`. -/
structure InhibitRule (ν : Type u) (β : Type v) where
  source : List (Matcher ν β)
  target : List (Matcher ν β)
  equal : List ν

variable {ν : Type u} {β : Type v} {ρ : Type w} [DecidableEq β]

def Matcher.holds (labels : Labels ν β) : Matcher ν β → Bool
  | .eq name value => labels name = value
  | .oneOf name values => labels name ∈ values

@[simp] theorem Matcher.holds_eq {labels : Labels ν β} {name : ν} {value : β} :
    (Matcher.eq name value).holds labels = true ↔ labels name = value :=
  decide_eq_true_iff

@[simp] theorem Matcher.holds_oneOf {labels : Labels ν β} {name : ν} {values : List β} :
    (Matcher.oneOf name values).holds labels = true ↔ labels name ∈ values :=
  decide_eq_true_iff

def matchesAll (matchers : List (Matcher ν β)) (labels : Labels ν β) : Bool :=
  matchers.all (Matcher.holds labels)

/-! ## Routing -/

namespace Route

def continues : Route ν β ρ → Bool
  | .node _ _ continues _ => continues

mutual

/-- The receivers to which a node hands an alert. -/
def receivers (labels : Labels ν β) : Route ν β ρ → List ρ
  | .node matchers receiver _ children =>
    if matchesAll matchers labels then
      match receiversOf labels children with
      | [] => [receiver]
      | r :: rs => r :: rs
    else []

/-- The receivers to which its children hand it. -/
def receiversOf (labels : Labels ν β) : List (Route ν β ρ) → List ρ
  | [] => []
  | child :: rest =>
    match receivers labels child with
    | [] => receiversOf labels rest
    | r :: rs => r :: rs ++ if child.continues then receiversOf labels rest else []

end

/-- A node without children that continues. -/
def leaf (matchers : List (Matcher ν β)) (receiver : ρ) : Route ν β ρ :=
  .node matchers receiver true []

theorem receivers_leaf (labels : Labels ν β) (matchers : List (Matcher ν β)) (receiver : ρ) :
    (leaf matchers receiver).receivers labels =
      if matchesAll matchers labels then [receiver] else [] := by
  rw [leaf, receivers, receiversOf]

variable {α : Type*} {matchers : α → List (Matcher ν β)} {receiver : α → ρ}

theorem receiversOf_leaves (labels : Labels ν β) (as : List α) :
    receiversOf labels (as.map fun a => leaf (matchers a) (receiver a)) =
      (as.filter fun a => matchesAll (matchers a) labels).map receiver := by
  induction as with
  | nil => rw [List.map_nil, receiversOf, List.filter_nil, List.map_nil]
  | cons a as ih =>
    rw [List.map_cons, receiversOf, receivers_leaf, List.filter_cons]
    cases matchesAll (matchers a) labels with
    | false => exact ih
    | true =>
      show receiver a :: ([] ++ receiversOf labels _) = receiver a :: List.map receiver _
      rw [List.nil_append, ih]

/-- A flat tree hands an alert to all children that match, or to its root. -/
theorem receivers_flat (labels : Labels ν β) (default : ρ) (continues : Bool) (as : List α) :
    (Route.node [] default continues
        (as.map fun a => leaf (matchers a) (receiver a))).receivers labels =
      match (as.filter fun a => matchesAll (matchers a) labels).map receiver with
      | [] => [default]
      | r :: rs => r :: rs := by
  rw [receivers, receiversOf_leaves]
  rfl

/-- Who gets an alert from a flat tree. -/
theorem mem_receivers_flat {labels : Labels ν β} {default : ρ} {continues : Bool} {as : List α}
    {r : ρ} (h : r ∈ (Route.node [] default continues
      (as.map fun a => leaf (matchers a) (receiver a))).receivers labels) :
    r = default ∨ ∃ a ∈ as, matchesAll (matchers a) labels = true ∧ receiver a = r := by
  rw [receivers_flat] at h
  split at h
  · exact .inl (List.mem_singleton.mp h)
  · rename_i heq
    rw [← heq] at h
    obtain ⟨a, ha, hr⟩ := List.mem_map.mp h
    obtain ⟨hmem, hmatch⟩ := List.mem_filter.mp ha
    exact .inr ⟨a, hmem, hmatch, hr⟩

/-- Where a child matches, it gets it along children only. -/
theorem exists_of_mem_receivers_flat {labels : Labels ν β} {default : ρ} {continues : Bool}
    {as : List α} {a : α} {r : ρ} (ha : a ∈ as) (hmatch : matchesAll (matchers a) labels = true)
    (h : r ∈ (Route.node [] default continues
      (as.map fun a => leaf (matchers a) (receiver a))).receivers labels) :
    ∃ a' ∈ as, matchesAll (matchers a') labels = true ∧ receiver a' = r := by
  have hmem : receiver a ∈ (as.filter fun a => matchesAll (matchers a) labels).map receiver :=
    List.mem_map_of_mem (List.mem_filter.mpr ⟨ha, hmatch⟩)
  rw [receivers_flat] at h
  split at h
  · rename_i hnil
    rw [hnil] at hmem
    cases hmem
  · rename_i heq
    rw [← heq] at h
    obtain ⟨a', ha', hr⟩ := List.mem_map.mp h
    obtain ⟨hmem', hmatch'⟩ := List.mem_filter.mp ha'
    exact ⟨a', hmem', hmatch', hr⟩

/-- A child that matches is among them. -/
theorem receivers_flat_of_match {labels : Labels ν β} {default : ρ} {continues : Bool}
    {as : List α} {a : α} (ha : a ∈ as) (hmatch : matchesAll (matchers a) labels = true) :
    receiver a ∈ (Route.node [] default continues
      (as.map fun a => leaf (matchers a) (receiver a))).receivers labels := by
  have hmem : receiver a ∈ (as.filter fun a => matchesAll (matchers a) labels).map receiver :=
    List.mem_map_of_mem (List.mem_filter.mpr ⟨ha, hmatch⟩)
  rw [receivers_flat]
  split
  · rename_i hnil
    rw [hnil] at hmem
    cases hmem
  · rename_i heq
    rw [← heq]
    exact hmem

end Route

/-! ## Inhibition -/

/-- While `source` fires, `target` is muted. Of two alerts that both have both sides, neither
mutes the other. -/
def InhibitRule.mutes (rule : InhibitRule ν β) (source target : Labels ν β) : Bool :=
  matchesAll rule.target target && matchesAll rule.source source &&
    rule.equal.all (fun name => source name = target name) &&
    !(matchesAll rule.source target && matchesAll rule.target source)

/-- An alert is muted by one of those that fire. -/
def muted (rules : List (InhibitRule ν β)) (firing : List (Labels ν β)) (labels : Labels ν β) :
    Bool :=
  rules.any fun rule => firing.any fun source => rule.mutes source labels

end AlertRouting
