import Ai4iCore.Base.Dict
import Ai4iCore.Base.Run
import Mathlib

/-!
# The permission of an endpoint

`PermissionChecker` of auth-service maps a method and a path to the permission that the gateway asks
for: an exact entry of the process-wide map, or the first template of the map that fits, looked up
in an index by method and number of segments. The index is kept under the identity and the size of
the map, and the map is replaced in place; so a map of the size of the one that was indexed is
answered with the templates of the other (`replaced_map_answers`).

As long as that does not happen, the index answers what a plain scan of the map does
(`lookup_eq_scan`). The order of the templates is the order of the map: a template with a literal
segment has no precedence over an earlier one with a placeholder.
-/

namespace Ai4iCore.Gateway.EndpointPermission

open StepSystem

abbrev Text := List Char

/-! ## Templates -/

/-- `path.rstrip("/").split("/")`. -/
def segments (path : Text) : List Text := (path.rdropWhile (· = '/')).splitOn '/'

/-- `pattern.partition(":")`, when there is a colon. -/
def partitionColon (pattern : Text) : Option (Text × Text) :=
  if ':' ∈ pattern then
    some (pattern.takeWhile (· ≠ ':'), (pattern.dropWhile (· ≠ ':')).tail)
  else none

/-- The segment stands for any other. -/
def isPlaceholder (segment : Text) : Bool :=
  segment.head? = some '\x7b' && segment.getLast? = some '\x7d'

/-- A segment of a template, and whether it is a placeholder. -/
abbrev SegSpec : Type := Text × Bool

/-- `seg_specs` of a path. -/
def segSpecs (path : Text) : List SegSpec := (segments path).map fun s => (s, isPlaceholder s)

/-- The template fits the segments of a path. -/
def fits (specs : List SegSpec) (path : List Text) : Bool :=
  (specs.zip path).all fun p => p.1.2 || p.1.1 = p.2

/-! ## The index -/

/-- The endpoint map: keys `METHOD:path`, in the order of the file. -/
abbrev Mapping : Type := Dict Text Int

/-- The templates with their permissions, by method and number of segments. -/
abbrev Index : Type := Dict (Text × Nat) (List (List SegSpec × Int))

section Lookup

/- `str.upper`. -/
variable (upper : Text → Text)

/-- What an entry adds to the index. -/
def indexEntry (e : Text × Int) : Option ((Text × Nat) × List (List SegSpec × Int)) :=
  (partitionColon e.1).map fun p =>
    ((upper p.1, (segments p.2).length), [(segSpecs p.2, e.2)])

/-- The index of a map. -/
def buildIndex (mapping : Mapping) : Index :=
  Dict.extendAll (mapping.filterMap (indexEntry upper))

/-- The process-wide map, and the checker with its index and the fingerprint it was built under. -/
structure Checker where
  mapping : Mapping
  templateIndex : Index
  templateIndexFp : Nat × Nat

/-- Before anything is loaded. -/
def Checker.start : Checker := ⟨[], [], (0, 0)⟩

/-- `id(mapping)`: the one dictionary of the process. -/
def mapId : Nat := 1

/-- `set_global_endpoint_permission_map`: the dictionary is cleared and filled. -/
def setGlobalEndpointPermissionMap (s : Checker) (mapping : Mapping) : Checker :=
  { s with mapping := Dict.setAll [] mapping }

/-- `_get_template_index`, with the checker afterwards. -/
def getTemplateIndex (s : Checker) : Index × Checker :=
  let fp := (mapId, s.mapping.length)
  if fp = s.templateIndexFp ∧ s.templateIndex ≠ [] then (s.templateIndex, s)
  else
    let index := buildIndex upper s.mapping
    (index, { s with templateIndex := index, templateIndexFp := fp })

/-- `endpoint_key`. -/
def endpointKey (method path : Text) : Text := upper method ++ ':' :: path

/-- The first of the candidates that fits. -/
def findTemplate (index : Index) (method path : Text) : Option Int :=
  (((index.get? (upper method, (segments path).length)).getD []).find? fun c =>
    fits c.1 (segments path)).map Prod.snd

/-- `get_required_permission`, with the checker afterwards. -/
def getRequiredPermission (s : Checker) (method path : Text) : Option Int × Checker :=
  if s.mapping = [] then (none, s)
  else
    match s.mapping.get? (endpointKey upper method path) with
    | some perm => (some perm, s)
    | none =>
      let (index, s') := getTemplateIndex upper s
      (findTemplate upper index method path, s')

/-- `_required_endpoint_permission`, of the two headers. -/
def requiredEndpointPermission (s : Checker) (method uri : Option Text) :
    (Bool × Option Int) × Checker :=
  match method.filter (· ≠ []), uri.filter (· ≠ []) with
  | some method, some uri =>
    if s.mapping = [] then ((false, none), s)
    else
      let (perm, s') := getRequiredPermission upper s method (uri.takeWhile (· ≠ '?'))
      ((true, perm), s')
  | _, _ => ((false, none), s)

/-! ## The plain scan -/

/-- The permission of an entry whose template fits. -/
def entryPermission (method path : Text) (e : Text × Int) : Option Int :=
  (partitionColon e.1).bind fun p =>
    if upper p.1 = upper method ∧ (segments p.2).length = (segments path).length ∧
      fits (segSpecs p.2) (segments path) = true then some e.2 else none

/-- The exact entry, or the first entry of the map that fits. -/
def scan (mapping : Mapping) (method path : Text) : Option Int :=
  ((mapping.get? (endpointKey upper method path)).map some).getD
    (mapping.findSome? (entryPermission upper method path))

end Lookup

/-! ## The index of a map answers like the scan -/

section Index

variable {upper : Text → Text}

theorem findTemplate_buildIndex (mapping : Mapping) (method path : Text) :
    findTemplate upper (buildIndex upper mapping) method path =
      mapping.findSome? (entryPermission upper method path) := by
  unfold findTemplate buildIndex
  rw [Dict.get?_extendAll]
  induction mapping with
  | nil => rfl
  | cons e mapping ih =>
    rw [List.findSome?_cons]
    cases hp : partitionColon e.1 with
    | none =>
      have hentry : indexEntry upper e = none := by rw [indexEntry, hp]; rfl
      have hperm : entryPermission upper method path e = none := by rw [entryPermission, hp]; rfl
      rw [List.filterMap_cons_none hentry, hperm]
      exact ih
    | some p =>
      have hentry : indexEntry upper e = some
          ((upper p.1, (segments p.2).length), [(segSpecs p.2, e.2)]) := by
        rw [indexEntry, hp]
        rfl
      rw [List.filterMap_cons_some hentry]
      by_cases hkey : (upper p.1, (segments p.2).length) = (upper method, (segments path).length)
      · obtain ⟨hmethod, hlength⟩ := Prod.mk.inj hkey
        rw [List.filter_cons_of_pos (by exact decide_eq_true hkey), List.flatMap_cons,
          List.singleton_append, List.find?_cons]
        by_cases hfits : fits (segSpecs p.2) (segments path) = true
        · have hperm : entryPermission upper method path e = some e.2 := by
            rw [entryPermission, hp]
            exact if_pos ⟨hmethod, hlength, hfits⟩
          rw [hperm, hfits]
          rfl
        · have hperm : entryPermission upper method path e = none := by
            rw [entryPermission, hp]
            exact if_neg fun h => hfits h.2.2
          rw [hperm, Bool.eq_false_iff.mpr hfits]
          exact ih
      · have hperm : entryPermission upper method path e = none := by
          rw [entryPermission, hp]
          exact if_neg fun h => hkey (Prod.ext h.1 h.2.1)
        rw [List.filter_cons_of_neg (by simpa using hkey), hperm]
        exact ih

end Index

/-! ## Replacing the map -/

inductive Label
  | install (mapping : Mapping)
  | lookup (method path : Text)
deriving Repr

def step (upper : Text → Text) (s : Checker) : Label → Option Checker
  | .install mapping => some (setGlobalEndpointPermissionMap s mapping)
  | .lookup method path => some (getRequiredPermission upper s method path).2

/-- A map is installed with another size than the fingerprint has, or with the templates of the
index. -/
def Distinguished (upper : Text → Text) (s : Checker) : Label → Prop
  | .install mapping => (mapId, (Dict.setAll [] mapping).length) = s.templateIndexFp →
      s.templateIndex = [] ∨ s.templateIndex = buildIndex upper (Dict.setAll [] mapping)
  | .lookup _ _ => True

/-- An index under the fingerprint of the map is the index of the map. -/
def Inv (upper : Text → Text) (s : Checker) : Prop :=
  (mapId, s.mapping.length) = s.templateIndexFp →
    s.templateIndex = [] ∨ s.templateIndex = buildIndex upper s.mapping

section Runs

variable {upper : Text → Text} {s s' : Checker}

theorem getTemplateIndex_fst (hinv : Inv upper s) :
    (getTemplateIndex upper s).1 = buildIndex upper s.mapping := by
  unfold getTemplateIndex
  dsimp only
  split
  · rename_i hfp
    exact (hinv hfp.1).resolve_left hfp.2
  · rfl

theorem inv_getTemplateIndex (hinv : Inv upper s) : Inv upper (getTemplateIndex upper s).2 := by
  unfold getTemplateIndex
  dsimp only
  split
  · exact hinv
  · exact fun _ => .inr rfl

theorem inv_getRequiredPermission (hinv : Inv upper s) (method path : Text) :
    Inv upper (getRequiredPermission upper s method path).2 := by
  unfold getRequiredPermission
  split
  · exact hinv
  · split
    · exact hinv
    · exact inv_getTemplateIndex hinv

theorem inv_step {a : Label} (hinv : Inv upper s) (hguard : Distinguished upper s a)
    (h : step upper s a = some s') : Inv upper s' := by
  cases a with
  | install mapping =>
    obtain rfl := Option.some.inj h
    exact hguard
  | lookup method path =>
    obtain rfl := Option.some.inj h
    exact inv_getRequiredPermission hinv method path

theorem getRequiredPermission_eq (hinv : Inv upper s) (method path : Text) :
    (getRequiredPermission upper s method path).1 = scan upper s.mapping method path := by
  unfold getRequiredPermission scan
  split
  · rename_i hempty
    rw [hempty]
    rfl
  · split
    · rename_i perm hperm
      rw [hperm]
      rfl
    · rename_i hnone
      rw [hnone]
      show findTemplate upper (getTemplateIndex upper s).1 method path = _
      rw [getTemplateIndex_fst hinv]
      exact findTemplate_buildIndex s.mapping method path

end Runs

/-- **The indexed lookup is the plain scan**, over every sequence of replacements and lookups in
which no map is installed while the index holds the templates of a different map of the same
size: an exact entry of the map that is installed, else the first template of it that fits; and the
gateway gets that answer for the path without the query. -/
theorem lookup_eq_scan (upper : Text → Text) (labels : List Label) (s : Checker)
    (hrun : Run (step upper) Checker.start labels s)
    (hguard : Guarded (step upper) (Distinguished upper) Checker.start labels) :
    (∀ method path, (getRequiredPermission upper s method path).1 =
      scan upper s.mapping method path) ∧
    ∀ method uri, method ≠ [] → uri ≠ [] → s.mapping ≠ [] →
      (requiredEndpointPermission upper s (some method) (some uri)).1 =
        (true, scan upper s.mapping method (uri.takeWhile (· ≠ '?'))) := by
  have hstart : Inv upper Checker.start := fun _ => .inl rfl
  have hinv : Inv upper s :=
    Run.guardedInvariant (fun _ _ _ hinv hG h => inv_step hinv hG h) hrun hguard hstart
  refine ⟨getRequiredPermission_eq hinv, fun method uri hmethod huri hloaded => ?_⟩
  have hkept : ∀ header : Text, header ≠ [] →
      (some header).filter (fun h => decide (h ≠ [])) = some header :=
    fun header hheader => if_pos (decide_eq_true hheader)
  unfold requiredEndpointPermission
  rw [hkept method hmethod, hkept uri huri]
  show (if s.mapping = [] then _ else _ : (Bool × Option Int) × Checker).1 = _
  rw [if_neg hloaded]
  exact congrArg (Prod.mk true) (getRequiredPermission_eq hinv method _)

/-- Two maps of different sizes. -/
def growingMaps : List Label :=
  [.install [("GET:/a/\x7bid\x7d".toList, 1)], .lookup "GET".toList "/a/7".toList,
    .install [("GET:/b/\x7bid\x7d".toList, 2), ("GET:/b/me".toList, 3)]]

theorem lookup_eq_scan_after_growth :
    ∃ s, Run (step id) Checker.start growingMaps s ∧
      (getRequiredPermission id s "GET".toList "/b/7".toList).1 = some 2 ∧
      ((∀ method path, (getRequiredPermission id s method path).1 = scan id s.mapping method path) ∧
        ∀ method uri, method ≠ [] → uri ≠ [] → s.mapping ≠ [] →
          (requiredEndpointPermission id s (some method) (some uri)).1 =
            (true, scan id s.mapping method (uri.takeWhile (· ≠ '?')))) := by
  have hrun : Run (step id) Checker.start growingMaps
      (final (step id) Checker.start growingMaps) := run_final (by decide +kernel)
  have hguard : Guarded (step id) (Distinguished id) Checker.start growingMaps := by
    refine ⟨fun _ => .inl rfl, fun s₁ h₁ => ⟨trivial, fun s₂ h₂ => ⟨fun hfp => ?_,
      fun _ _ => trivial⟩⟩⟩
    obtain rfl := Option.some.inj h₁
    obtain rfl := Option.some.inj h₂
    exact absurd hfp (by decide +kernel)
  exact ⟨_, hrun, by decide +kernel, lookup_eq_scan id growingMaps _ hrun hguard⟩

/-- A map of the same size: the old templates are answered, and the new ones are public. And a
template with a literal segment loses to an earlier one with a placeholder. -/
theorem replaced_map_answers :
    (∃ s, Run (step id) Checker.start
        [.install [("GET:/a/\x7bid\x7d".toList, 1)], .lookup "GET".toList "/a/7".toList,
          .install [("GET:/b/\x7bid\x7d".toList, 2)]] s ∧
      (getRequiredPermission id s "GET".toList "/a/7".toList).1 = some 1 ∧
      (getRequiredPermission id s "GET".toList "/b/7".toList).1 = none ∧
      scan id s.mapping "GET".toList "/a/7".toList = none ∧
      scan id s.mapping "GET".toList "/b/7".toList = some 2) ∧
    ∃ s, Run (step id) Checker.start
        [.install [("GET:/t/\x7ba\x7d/\x7bb\x7d".toList, 1), ("GET:/t/me/\x7bb\x7d".toList, 2)]] s ∧
      (getRequiredPermission id s "GET".toList "/t/me/7".toList).1 = some 1 :=
  ⟨⟨_, run_final (by decide +kernel), by decide +kernel, by decide +kernel, by decide +kernel,
      by decide +kernel⟩,
    ⟨_, run_final (by decide +kernel), by decide +kernel⟩⟩

end Ai4iCore.Gateway.EndpointPermission
