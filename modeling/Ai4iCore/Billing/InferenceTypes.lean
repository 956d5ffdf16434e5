import Ai4iCore.Base.JsonText
import Ai4iCore.Task.Tokens
import Mathlib

/-!
# The cached catalogue of inference types

`inference_type_cache` keeps a row of `inference_types` twice: as the hash
`core:inference_type:{name}` with one field for each column, and as one JSON text in the hash
`core:inference_type:all`. Both are written by one pipeline.

* `fromHash_toHash`, `readAll_allHash` — a row is read back from either hash as it was written, and
  `readAll_toHash`, `fromHash_allHash` — neither hash is taken for the other, also where a type is
  called `all` and both have one key.
* `execute_pipeline` — what a key holds after the pipeline.
-/

namespace Ai4iCore.Billing.InferenceTypeCache

/-! ## One row, two encodings -/

/-- A row of `inference_types`. -/
structure InferenceType where
  id : Nat
  name : List Char
  endpointPatterns : List (List Char)
  unit : List Char
  pricing : List Char
deriving Repr, DecidableEq

/-- The dictionary of a row. -/
def dictOf (id : Json) (name : List Char) (endpointPatterns : Json) (unit pricing : List Char) :
    Json :=
  .obj [("id".toList, id), ("name".toList, .str name),
    ("endpoint_patterns".toList, endpointPatterns), ("unit".toList, .str unit),
    ("pricing".toList, .str pricing)]

/-- `list(row.endpoint_patterns)`, as a JSON value. -/
def InferenceType.patterns (row : InferenceType) : Json := .arr (row.endpointPatterns.map .str)

/-- `_to_dict`. -/
def toDict (row : InferenceType) : Json :=
  dictOf (.num row.id) row.name row.patterns row.unit row.pricing

/-- A Redis hash, field by field. -/
abbrev Hash : Type := List (List Char × List Char)

/-- `_to_hash` of `_to_dict(row)`. -/
def toHash (row : InferenceType) : Hash :=
  [("id".toList, Nat.toDigits 10 row.id), ("name".toList, row.name),
    ("endpoint_patterns".toList, row.patterns.dumps), ("unit".toList, row.unit),
    ("pricing".toList, row.pricing)]

/-- `text or default`. -/
def textOr (text : Option (List Char)) (default : List Char) : List Char :=
  match text with
  | some (c :: rest) => c :: rest
  | _ => default

/-- `_from_hash`; `none` when it raises. -/
def fromHash (mapping : Hash) : Option Json := do
  let id ← (mapping.lookup "id".toList).bind Decimal.parseNat
  let name ← mapping.lookup "name".toList
  let endpointPatterns ← Json.loads (textOr (mapping.lookup "endpoint_patterns".toList) ['[', ']'])
  let unit ← mapping.lookup "unit".toList
  let pricing ← mapping.lookup "pricing".toList
  return dictOf (.num id) name endpointPatterns unit pricing

/-- The mapping of `:all`. -/
def allHash (rows : List InferenceType) : Hash := rows.map fun row => (row.name, (toDict row).dumps)

/-- `entry["name"]`, for a text. -/
def nameOf : Json → Option (List Char)
  | .obj fields =>
    match fields.lookup "name".toList with
    | some (.str name) => some name
    | _ => none
  | _ => none

/-- The entries of a mapping, by name. -/
def namedEntries (mapping : Hash) : Option (List (List Char × Json)) :=
  mapping.mapM fun f => (Json.loads f.2).bind fun e => (nameOf e).map fun name => (name, e)

/-- The entries, sorted by name; `none` when `json.loads` or the sort raises. -/
def readAll (mapping : Hash) : Option (List Json) :=
  (namedEntries mapping).map fun entries =>
    (entries.insertionSort fun a b => a.1 ≤ b.1).map Prod.snd

section Encodings

variable {row : InferenceType} {rows : List InferenceType}

theorem textOr_dumps (v : Json) (default : List Char) : textOr (some v.dumps) default = v.dumps := by
  obtain ⟨c, rest, hv, -, -⟩ := Json.dumps_head v
  rw [hv]
  rfl

/-- **The round trip of a row.** -/
theorem fromHash_toHash (row : InferenceType) : fromHash (toHash row) = some (toDict row) := by
  show (do
    let id ← Decimal.parseNat (Nat.toDigits 10 row.id)
    let endpointPatterns ← Json.loads (textOr (some row.patterns.dumps) ['[', ']'])
    return dictOf (.num id) row.name endpointPatterns row.unit row.pricing) = _
  rw [Decimal.parseNat_toDigits, textOr_dumps, Json.loads_dumps]
  rfl

theorem namedEntries_allHash (rows : List InferenceType) :
    namedEntries (allHash rows) = some (rows.map fun row => (row.name, toDict row)) := by
  induction rows with
  | nil => rfl
  | cons row rows ih =>
    rw [allHash, List.map_cons, namedEntries, List.mapM_cons, ← namedEntries, ← allHash, ih,
      Json.loads_dumps]
    rfl

/-- **The round trip of the catalogue**, up to the order. -/
theorem readAll_allHash (rows : List InferenceType) :
    ∃ entries, readAll (allHash rows) = some entries ∧ entries.Perm (rows.map toDict) := by
  refine ⟨_, congrArg (Option.map _) (namedEntries_allHash rows), ?_⟩
  refine ((List.perm_insertionSort _ _).map Prod.snd).trans (List.Perm.of_eq ?_)
  rw [List.map_map]
  rfl

/-- An id spells a number, which has no name. -/
theorem readAll_toHash (row : InferenceType) : readAll (toHash row) = none := by
  have hid : Json.loads (Nat.toDigits 10 row.id) = some (.num row.id) :=
    Json.loads_dumps (.num row.id)
  rw [readAll, namedEntries, toHash, List.mapM_cons, hid]
  rfl

theorem lookup_allHash {name text : List Char} (h : (allHash rows).lookup name = some text) :
    ∃ row ∈ rows, text = (toDict row).dumps := by
  induction rows with
  | nil => cases h
  | cons row rows ih =>
    rw [allHash, List.map_cons, List.lookup_cons, ← allHash] at h
    split at h
    · exact ⟨row, List.mem_cons_self, (Option.some.inj h).symm⟩
    · obtain ⟨r, hr, htext⟩ := ih h
      exact ⟨r, List.mem_cons_of_mem _ hr, htext⟩

/-- A row in JSON spells no number. -/
theorem fromHash_allHash (rows : List InferenceType) : fromHash (allHash rows) = none := by
  have hid : ((allHash rows).lookup "id".toList).bind Decimal.parseNat = none := by
    cases hlookup : (allHash rows).lookup "id".toList with
    | none => rfl
    | some text =>
      obtain ⟨row, -, rfl⟩ := lookup_allHash hlookup
      show Decimal.parseNat (toDict row).dumps = none
      refine if_neg fun h => ?_
      rw [toDict, dictOf, Json.dumps, List.all_cons] at h
      cases h.2
  rw [fromHash, hid]
  rfl

end Encodings

/-! ## The pipeline -/

/-- The hashes, by what follows `core:inference_type:` in their keys. -/
abbrev Cache : Type := List Char → Option Hash

/-- `_ALL_KEY`. -/
def allKey : List Char := "all".toList

/-- A command of the pipeline. Its `EXPIRE`s are left out: that a key ends is a step of its own. -/
inductive Command
  | delete (keys : List (List Char))
  | hset (key : List Char) (mapping : Hash)
deriving Repr, DecidableEq

/-- `HSET` keeps the other fields of a hash. -/
def merged (old mapping : Hash) : Hash :=
  (old.filter fun f => f.1 ∉ mapping.map Prod.fst) ++ mapping

def Command.run (cache : Cache) : Command → Cache
  | .delete keys => fun k => if k ∈ keys then none else cache k
  | .hset key mapping => Function.update cache key (some (merged ((cache key).getD []) mapping))

/-- `pipe.execute()`. -/
def execute (cache : Cache) (commands : List Command) : Cache := commands.foldl Command.run cache

/-- A hash that is deleted immediately before it is written. -/
def rewrite (key : List Char) (mapping : Hash) : List Command := [.delete [key], .hset key mapping]

/-- The commands of `rebuild`, over what `str.lower` is. -/
def pipeline (lower : List Char → List Char) (rows : List InferenceType)
    (stale : List (List Char)) : List Command :=
  (if stale = [] then [] else [.delete stale]) ++
    (.delete [allKey] :: if rows = [] then [] else [.hset allKey (allHash rows)]) ++
    rows.flatMap fun row => rewrite (lower row.name) (toHash row)

section Pipeline

variable {lower : List Char → List Char} {cache : Cache} {rows : List InferenceType}
  {stale : List (List Char)} {key k : List Char} {mapping hash : Hash}

theorem execute_append (cache : Cache) (before after : List Command) :
    execute cache (before ++ after) = execute (execute cache before) after :=
  List.foldl_append ..

theorem execute_rewrite (cache : Cache) (key : List Char) (mapping : Hash) :
    execute cache (rewrite key mapping) = Function.update cache key (some mapping) := by
  have hgone : (Command.delete [key]).run cache key = none := if_pos (List.mem_singleton.mpr rfl)
  funext k
  show Function.update ((Command.delete [key]).run cache) key (some (merged
    (((Command.delete [key]).run cache key).getD []) mapping)) k = _
  rw [hgone]
  by_cases hk : k = key
  · rw [hk, Function.update_self, Function.update_self]
    rfl
  · rw [Function.update_of_ne hk, Function.update_of_ne hk]
    exact if_neg fun h => hk (List.mem_singleton.mp h)

/-- What a key holds after the rows are written. -/
theorem execute_rows (h : execute cache (rows.flatMap fun row =>
      rewrite (lower row.name) (toHash row)) k = some hash) :
    (∃ row ∈ rows, lower row.name = k ∧ hash = toHash row) ∨
      ((∀ row ∈ rows, lower row.name ≠ k) ∧ cache k = some hash) := by
  induction rows generalizing cache with
  | nil => exact .inr ⟨fun _ hrow => absurd hrow List.not_mem_nil, h⟩
  | cons row rows ih =>
    rw [List.flatMap_cons, execute_append, execute_rewrite] at h
    rcases ih h with ⟨r, hr, hkey, hhash⟩ | ⟨hnone, hcache⟩
    · exact .inl ⟨r, List.mem_cons_of_mem _ hr, hkey, hhash⟩
    · by_cases hk : k = lower row.name
      · rw [hk, Function.update_self] at hcache
        exact .inl ⟨row, List.mem_cons_self, hk.symm, (Option.some.inj hcache).symm⟩
      · rw [Function.update_of_ne hk] at hcache
        refine .inr ⟨fun r hr => ?_, hcache⟩
        rcases List.mem_cons.mp hr with rfl | hr
        · exact Ne.symm hk
        · exact hnone r hr

/-- What `:all` and the stale keys are before that. -/
theorem execute_all (h : execute cache ((if stale = [] then [] else [.delete stale]) ++
      (.delete [allKey] :: if rows = [] then [] else [.hset allKey (allHash rows)])) k =
      some hash) :
    (k = allKey ∧ rows ≠ [] ∧ hash = allHash rows) ∨
      (k ≠ allKey ∧ k ∉ stale ∧ cache k = some hash) := by
  have hswept : ∀ {hash}, execute cache (if stale = [] then [] else [.delete stale]) k = some hash →
      k ∉ stale ∧ cache k = some hash := by
    intro hash h
    by_cases hstale : stale = []
    · rw [if_pos hstale] at h
      exact ⟨hstale ▸ List.not_mem_nil, h⟩
    · rw [if_neg hstale] at h
      change (if k ∈ stale then none else cache k) = _ at h
      split at h
      · cases h
      · exact ⟨‹_›, h⟩
  rw [execute_append] at h
  by_cases hrows : rows = []
  · rw [if_pos hrows] at h
    change (if k ∈ [allKey] then none else _) = _ at h
    split at h
    · cases h
    · rename_i hk
      exact .inr ⟨fun heq => hk (List.mem_singleton.mpr heq), hswept h⟩
  · have hrewrite : [Command.delete [allKey], .hset allKey (allHash rows)] =
        rewrite allKey (allHash rows) := rfl
    rw [if_neg hrows, hrewrite, execute_rewrite] at h
    by_cases hk : k = allKey
    · rw [hk, Function.update_self] at h
      exact .inl ⟨hk, hrows, (Option.some.inj h).symm⟩
    · rw [Function.update_of_ne hk] at h
      exact .inr ⟨hk, hswept h⟩

/-- **What a key holds after the pipeline**: a row, the catalogue, or what it held. -/
theorem execute_pipeline (h : execute cache (pipeline lower rows stale) k = some hash) :
    (∃ row ∈ rows, lower row.name = k ∧ hash = toHash row) ∨
      (k = allKey ∧ rows ≠ [] ∧ hash = allHash rows) ∨
      (k ≠ allKey ∧ k ∉ stale ∧ (∀ row ∈ rows, lower row.name ≠ k) ∧ cache k = some hash) := by
  rw [pipeline, execute_append] at h
  rcases execute_rows h with hrow | ⟨hnone, hrest⟩
  · exact .inl hrow
  · rcases execute_all hrest with hall | ⟨hk, hstale, hcache⟩
    · exact .inr (.inl hall)
    · exact .inr (.inr ⟨hk, hstale, hnone, hcache⟩)

end Pipeline

end Ai4iCore.Billing.InferenceTypeCache
