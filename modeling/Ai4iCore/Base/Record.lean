import Mathlib.Data.List.AList

/-!
# Records of named fields

A finite map from field names to values, unordered: a JSON object, or a Redis
hash. The lookup equations of its operations are all that a proof about such a
record needs.
-/

/-- A finite map from field names to values. -/
abbrev Record (β : Type) := AList fun _ : String => β

namespace Record

variable {β : Type}

/-- Equality is decided on the entries, so that it evaluates. -/
instance [DecidableEq β] : DecidableEq (Record β) := fun r r' =>
  decidable_of_iff (r.entries = r'.entries) ⟨AList.ext, congrArg AList.entries⟩

/-- A record literal; of two equal names the first counts. -/
def ofList (l : List (String × β)) : Record β :=
  (l.map fun e => (⟨e.1, e.2⟩ : Σ _ : String, β)).toAList

/-- `{**old, **new}`. -/
def overlay (old new : Record β) : Record β := new ∪ old

/-- The same fields with the same values, in any order: `r == r'` on dictionaries. -/
def Same (r r' : Record β) : Prop := r.entries.Perm r'.entries

instance [DecidableEq β] (r r' : Record β) : Decidable (Same r r') :=
  inferInstanceAs (Decidable (r.entries.Perm r'.entries))

/-- Apply `f` to every value. -/
def mapValues (f : β → β) (r : Record β) : Record β where
  entries := r.entries.map (Sigma.map id fun _ => f)
  nodupKeys := List.NodupKeys.map₂ (fun _ => f) r.entries r.nodupKeys

/-- The fields whose name passes `p`. -/
def filterKeys (p : String → Bool) (r : Record β) : Record β where
  entries := r.entries.filter fun e => p e.1
  nodupKeys := r.nodupKeys.sublist List.filter_sublist

theorem same_iff {r r' : Record β} : Same r r' ↔ ∀ k, r.lookup k = r'.lookup k := by
  constructor
  · intro h k
    exact AList.perm_lookup h
  · intro h
    refine List.lookup_ext r.nodupKeys r'.nodupKeys fun k v => ?_
    show v ∈ r.lookup k ↔ v ∈ r'.lookup k
    rw [h k]

/-- Assigning a field the value it has changes nothing. -/
theorem same_insert_iff {r : Record β} {k : String} {v : β} :
    Same (r.insert k v) r ↔ r.lookup k = some v := by
  constructor
  · intro h
    rw [← same_iff.mp h k, AList.lookup_insert]
  · intro h
    refine same_iff.mpr fun other => ?_
    by_cases hother : other = k
    · rw [hother, AList.lookup_insert, h]
    · exact AList.lookup_insert_ne hother

/-- A record literal has the fields it names. -/
theorem isSome_lookup_ofList {l : List (String × β)} {k : String} (hk : k ∈ l.map Prod.fst) :
    ((ofList l).lookup k).isSome = true := by
  obtain ⟨e, he, rfl⟩ := List.mem_map.mp hk
  rw [ofList, AList.lookup_to_alist, List.dlookup_isSome]
  exact List.mem_keys_of_mem (List.mem_map_of_mem he)

theorem lookup_overlay (old new : Record β) (k : String) :
    (overlay old new).lookup k = (new.lookup k).or (old.lookup k) := by
  by_cases hk : k ∈ new
  · rw [overlay, AList.lookup_union_left hk]
    obtain ⟨v, hv⟩ := Option.isSome_iff_exists.mp (AList.lookup_isSome.mpr hk)
    rw [hv, Option.some_or]
  · rw [overlay, AList.lookup_union_right hk, AList.lookup_eq_none.mpr hk, Option.none_or]

theorem lookup_mapValues (f : β → β) (r : Record β) (k : String) :
    (mapValues f r).lookup k = (r.lookup k).map f :=
  List.dlookup_map₂ k

theorem lookup_filterKeys_of_false {p : String → Bool} (r : Record β) {k : String}
    (hk : p k = false) : (filterKeys p r).lookup k = none := by
  rw [AList.lookup_eq_none]
  intro hmem
  obtain ⟨e, he, rfl⟩ := List.mem_map.mp (show k ∈ (filterKeys p r).entries.keys from hmem)
  have hpass := (List.mem_filter.mp he).2
  rw [hk] at hpass
  cases hpass

/-- A field that passes is found as before. -/
theorem lookup_filterKeys_of_true {p : String → Bool} (r : Record β) {k : String}
    (hk : p k = true) : (filterKeys p r).lookup k = r.lookup k := by
  obtain ⟨l, hl⟩ := r
  show (l.filter fun e => p e.1).dlookup k = l.dlookup k
  clear hl
  induction l with
  | nil => rfl
  | cons e l ih =>
    obtain ⟨name, v⟩ := e
    by_cases hname : name = k
    · subst hname
      rw [List.filter_cons, if_pos hk, List.dlookup_cons_eq, List.dlookup_cons_eq]
    · rw [List.dlookup_cons_ne _ _ (Ne.symm hname)]
      by_cases hp : p name = true
      · rw [List.filter_cons, if_pos hp, List.dlookup_cons_ne _ _ (Ne.symm hname), ih]
      · rw [List.filter_cons, if_neg hp, ih]

end Record
