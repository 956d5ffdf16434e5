import Ai4iCore.Base.Dict
import Ai4iCore.Base.Nested

/-!
# Input tensors

`render_inputs` (config_mapper.py): the values of the items of a batch, as the tensors that an
adapter config declares. A tensor goes to the model server as JSON, its shape read off the first
elements and held against the declared one (`materializeTensor`), or, where all of its values are
numeric arrays of one size, as bytes (`asBinaryTensor`).

Neither path looks at all of what makes a tensor well formed: the first does not see that a later
item is of another shape, the second does not look at the declared dimensions.
`tensors_well_formed_iff` says which batches come out right.

What numpy and the constructors of Python make of single values is `Numerics`.
-/

namespace Ai4iCore.Task.Tensors

open Checked

/-! ## Values -/

inductive Dtype
  | bool | bytes | fp16 | fp32 | fp64
  | int8 | int16 | int32 | int64 | uint8 | uint16 | uint32 | uint64
  deriving DecidableEq, Repr

/-- `dtype.startswith("FP")`. -/
def Dtype.isFloat : Dtype → Bool
  | .fp16 | .fp32 | .fp64 => true
  | _ => false

/-- `dtype.startswith("INT") or dtype.startswith("UINT")`. -/
def Dtype.isInt : Dtype → Bool
  | .int8 | .int16 | .int32 | .int64 | .uint8 | .uint16 | .uint32 | .uint64 => true
  | _ => false

/-- `_BINARY_WIRE_DTYPE`: the bytes of an element. -/
def Dtype.wireSize : Dtype → Option Nat
  | .int8 | .uint8 => some 1
  | .fp16 | .int16 | .uint16 => some 2
  | .fp32 | .int32 | .uint32 => some 4
  | .fp64 | .int64 | .uint64 => some 8
  | .bool | .bytes => none

inductive PyError
  | runtimeError
  | typeError
  | valueError
  deriving DecidableEq, Repr

/-- A numeric array of numpy. -/
structure NdArray (ν : Type) where
  dims : List Nat
  cells : Nested ν
  hasShape : cells.HasShape dims

/-- What an item has that is no list. -/
inductive Atom (σ ν : Type)
  | scalar (x : σ)
  | array (a : NdArray ν)

/-- What `_resolve_value` finds for an item. -/
abbrev Value (σ ν : Type) := Nested (Atom σ ν)

/-- The conversions of single values, `σ` outside arrays and `ν` in them. -/
structure Numerics (σ ν : Type) where
  /-- `float`, `int`, `bool` and `str`, by the dtype -/
  cast : Dtype → σ → Except PyError σ
  cast_cast : ∀ d x y, cast d x = .ok y → cast d y = .ok y
  /-- `bool` and `str` of an array -/
  castArray : Dtype → NdArray ν → Except PyError σ
  cast_castArray : ∀ d a y, castArray d a = .ok y → cast d y = .ok y
  /-- an element of `astype(float32).tolist()` -/
  asFloat32 : ν → σ
  cast_asFloat32 : ∀ d x, d.isFloat = true → cast d (asFloat32 x) = .ok (asFloat32 x)
  /-- an element of `astype(int64).tolist()` -/
  asInt64 : ν → σ
  cast_asInt64 : ∀ d x, d.isInt = true → cast d (asInt64 x) = .ok (asInt64 x)
  /-- the bytes of an element of `astype` of the wire dtype -/
  wire : Dtype → ν → List UInt8
  length_wire : ∀ d size x, d.wireSize = some size → (wire d x).length = size
  /-- the number that these bytes stand for -/
  wireValue : Dtype → ν → σ

/-! ## Rendering -/

section Rendering

variable {σ ν : Type} (np : Numerics σ ν)

/-- An element of an array, as JSON has it. -/
def Numerics.jsonValue (d : Dtype) (x : ν) : σ := if d.isFloat then np.asFloat32 x else np.asInt64 x

/-- `_cast_dtype` of what is no list. -/
def castAtom (d : Dtype) : Atom σ ν → Except PyError (Nested σ)
  | .array a =>
    if d.isFloat || d.isInt then .ok (a.cells.map (np.jsonValue d))
    else (np.castArray d a).map .leaf
  | .scalar x => (np.cast d x).map .leaf

/-- `_cast_dtype`. -/
def castDtype (d : Dtype) (v : Value σ ν) : Except PyError (Nested σ) := v.bindM (castAtom np d)

def arrayOf : Value σ ν → Option (NdArray ν)
  | .leaf (.array a) => some a
  | _ => none

/-- The arrays, where all values are arrays of one size. -/
def binaryArrays (d : Dtype) (values : List (Value σ ν)) : Option (List (NdArray ν)) := do
  let _ ← d.wireSize
  let arrays ← values.mapM arrayOf
  match arrays with
  | [] => none
  | a :: rest =>
    if rest.all fun b => b.cells.flatten.length = a.cells.flatten.length then some (a :: rest)
    else none

/-- The elements of the arrays in row-major order. -/
def elements (arrays : List (NdArray ν)) : List ν := arrays.flatMap fun a => a.cells.flatten

/-- `row_len`. -/
def rowLength (arrays : List (NdArray ν)) : Nat :=
  ((arrays.head?).map fun a => a.cells.flatten.length).getD 0

/-- The shape of a binary tensor. -/
def binaryShape (declared : List Int) (arrays : List (NdArray ν)) : List Nat :=
  if 2 ≤ declared.length then [arrays.length, rowLength arrays]
  else if arrays.length = 1 then [rowLength arrays]
  else [arrays.length * rowLength arrays]

/-- `_as_binary_tensor`. -/
def asBinaryTensor (d : Dtype) (declared : List Int) (values : List (Value σ ν)) :
    Option (List Nat × List UInt8) :=
  (binaryArrays d values).map fun arrays =>
    (binaryShape declared arrays, (elements arrays).flatMap (np.wire d))

/-- `value if isinstance(value, list) else [value]`. -/
def asList : Nested σ → Nested σ
  | .leaf x => .node [.leaf x]
  | .node xs => .node xs

def normalize (declared : List Int) (rendered : List (Nested σ)) : List (Nested σ) :=
  if 1 < declared.length then rendered.map asList else rendered

/-- A dimension against the declared one. -/
def resolveDim (p : Int × Nat) : Except PyError Nat :=
  if p.1 = -1 ∨ p.1 = (p.2 : Int) then .ok p.2 else .error .runtimeError

/-- `_apply_declared_shape`. -/
def applyDeclaredShape (inferred : List Nat) (declared : List Int) : Except PyError (List Nat) :=
  let inferred : List Nat := inferred ++ List.replicate (declared.length - inferred.length) 1
  if declared.length < inferred.length then .error .runtimeError
  else (declared.zip inferred).mapM resolveDim

/-- `for item in sublist`. -/
def iterate : Nested σ → Except PyError (List (Nested σ))
  | .node xs => .ok xs
  | .leaf _ => .error .typeError

/-- The first element of the first list is there, and is no list. It is a number then, where the
dtype is numeric. -/
def startsFlat : List (Nested σ) → Bool
  | .node (.leaf _ :: _) :: _ => true
  | _ => false

/-- `_materialize_tensor`. -/
def materializeTensor (declared : List Int) (d : Dtype) (rendered : List (Nested σ)) :
    Except PyError (List Nat × List (Nested σ)) := do
  let normalized := normalize declared rendered
  let shape ← applyDeclaredShape (Nested.node normalized).firstShape declared
  if startsFlat normalized && (d.isFloat || d.isInt) then
    let rows ← normalized.mapM iterate
    return (shape, rows.flatten)
  else
    let casted ← (Nested.node normalized).flatten.mapM (np.cast d)
    return (shape, casted.map .leaf)

/-- An entry of the payload. -/
inductive Tensor (σ : Type)
  | json (shape : List Nat) (data : List (Nested σ))
  | binary (shape : List Nat) (raw : List UInt8)

/-- A declared tensor from the values of the items. -/
def renderTensor (declared : List Int) (d : Dtype) (values : List (Value σ ν)) :
    Except PyError (Tensor σ) :=
  match asBinaryTensor np d declared values with
  | some (shape, raw) => .ok (.binary shape raw)
  | none => do
    let rendered ← values.mapM (castDtype np d)
    let (shape, data) ← materializeTensor np declared d rendered
    return .json shape data

/-- An input declaration, as `_validate_config` accepts it. -/
structure InputTensorDeclaration where
  tensor : String
  dtype : Dtype
  shape : List Int
  shape_ne : shape ≠ []

/-- `render_inputs`, where `resolve` is `_resolve_value` for an item and its index. -/
def renderInputs {ι : Type}
    (resolve : InputTensorDeclaration → ι × Nat → Except PyError (Value σ ν))
    (inputs : List InputTensorDeclaration) (inputData : List ι) :
    Except PyError (Dict String (Tensor σ)) :=
  if inputData = [] then .error .runtimeError
  else
    inputs.foldlM (fun tritonInputs cfg => do
      let values ← inputData.zipIdx.mapM (resolve cfg)
      let tensor ← renderTensor np cfg.shape cfg.dtype values
      return tritonInputs.set cfg.tensor tensor) []

end Rendering

/-! ## What is meant -/

section Meaning

variable {σ ν : Type} (np : Numerics σ ν)

/-- As many dimensions as declared, and those that are not -1 are as declared. -/
def Agrees (declared : List Int) (shape : List Nat) : Prop :=
  List.Forall₂ (fun (expected : Int) (actual : Nat) => expected = -1 ∨ expected = actual) declared
    shape

/-- The batch is not ragged. -/
def Rectangular (declared : List Int) (rendered : List (Nested σ)) : Prop :=
  ∃ dims, (Nested.node (normalize declared rendered)).HasShape dims

/-- The values of the items as the dtype has them, in row-major order. -/
def rowMajor (rendered : List (Nested σ)) : List (Nested σ) :=
  (rendered.flatMap Nested.flatten).map .leaf

/-- A tensor is well formed. One that goes as bytes has the shape and the elements that it would
have had as JSON. -/
def WellFormed (declared : List Int) (d : Dtype) (values : List (Value σ ν)) : Tensor σ → Prop
  | .json shape data =>
    ∃ rendered, values.mapM (castDtype np d) = .ok rendered ∧ Rectangular declared rendered ∧
      Agrees declared shape ∧ data.length = shape.prod ∧ data = rowMajor rendered
  | .binary shape raw =>
    ∃ rendered arrays size, values.mapM (castDtype np d) = .ok rendered ∧
      values = arrays.map (fun a => .leaf (.array a)) ∧ d.wireSize = some size ∧
      Rectangular declared rendered ∧ Agrees declared shape ∧
      raw.length = shape.prod * size ∧ raw = (elements arrays).flatMap (np.wire d) ∧
      materializeTensor np declared d rendered =
        .ok (shape, (elements arrays).map fun x => .leaf (np.wireValue d x))

/-- `tolist` is a number or a flat list. -/
def NdArray.Flat (a : NdArray ν) : Prop := a.dims = [] ∨ a.dims.length = 1 ∨ a.dims.head? = some 0

/-- The arrays are what a binary tensor stands for. -/
def ArraysFit (declared : List Int) (d : Dtype) (arrays : List (NdArray ν)) : Prop :=
  (∀ a ∈ arrays, ∀ x ∈ a.cells.flatten, np.wireValue d x = np.jsonValue d x) ∧
    ((declared.length = 1 ∧ (∀ a ∈ arrays, a.dims = []) ∧ Agrees declared [arrays.length]) ∨
      (declared.length = 2 ∧ (∀ a ∈ arrays, a.Flat) ∧
        Agrees declared [arrays.length, rowLength arrays]))

/-- The values of the items are what the tensor stands for: arrays that fit, or a batch that is not
ragged, or one that is refused for its first elements. -/
def ValuesFit (declared : List Int) (d : Dtype) (values : List (Value σ ν)) : Prop :=
  match binaryArrays d values with
  | some arrays => ArraysFit np declared d arrays
  | none =>
    ∀ rendered shape, values.mapM (castDtype np d) = .ok rendered →
      applyDeclaredShape (Nested.node (normalize declared rendered)).firstShape declared =
        .ok shape → Rectangular declared rendered

end Meaning

/-! ## Shapes -/

section Shapes

variable {σ ν : Type}

theorem resolveDim_ok_iff {p : Int × Nat} {n : Nat} :
    resolveDim p = .ok n ↔ (p.1 = -1 ∨ p.1 = (n : Int)) ∧ n = p.2 := by
  unfold resolveDim
  split
  · rename_i h
    constructor
    · intro heq
      obtain rfl := Except.ok.inj heq
      exact ⟨h, rfl⟩
    · rintro ⟨-, rfl⟩
      rfl
  · rename_i h
    constructor
    · intro heq
      cases heq
    · rintro ⟨h', rfl⟩
      exact absurd h' h

theorem resolveDims_iff {declared : List Int} {inferred shape : List Nat}
    (hlength : declared.length = inferred.length) :
    List.Forall₂ (fun p n => resolveDim p = .ok n) (declared.zip inferred) shape ↔
      shape = inferred ∧ Agrees declared shape := by
  induction declared generalizing inferred shape with
  | nil =>
    obtain rfl := List.length_eq_zero_iff.mp hlength.symm
    rw [List.zip_nil_left, List.forall₂_nil_left_iff]
    constructor
    · rintro rfl
      exact ⟨rfl, .nil⟩
    · exact fun h => h.1
  | cons expected declared ih =>
    cases inferred with
    | nil => cases hlength
    | cons actual inferred =>
      rw [List.zip_cons_cons, List.forall₂_cons_left_iff]
      have hrest := @ih inferred
      constructor
      · rintro ⟨n, shape, hn, hshape, rfl⟩
        obtain ⟨rfl, hagrees⟩ := (hrest (Nat.succ.inj hlength)).mp hshape
        obtain ⟨hdim, rfl⟩ := resolveDim_ok_iff.mp hn
        exact ⟨rfl, .cons hdim hagrees⟩
      · rintro ⟨rfl, hagrees⟩
        cases hagrees with
        | cons hdim hagrees =>
          exact ⟨actual, inferred, resolveDim_ok_iff.mpr ⟨hdim, rfl⟩,
            (hrest (Nat.succ.inj hlength)).mpr ⟨rfl, hagrees⟩, rfl⟩

/-- A shape that is not refused is the one that is inferred, with ones behind it. -/
theorem applyDeclaredShape_ok_iff {inferred shape : List Nat} {declared : List Int} :
    applyDeclaredShape inferred declared = .ok shape ↔
      shape = inferred ++ List.replicate (declared.length - inferred.length) 1 ∧
        Agrees declared shape := by
  unfold applyDeclaredShape
  dsimp only
  split
  · rename_i hlong
    constructor
    · intro h
      cases h
    · rintro ⟨rfl, hagrees⟩
      have := hagrees.length_eq
      omega
  · rename_i hshort
    have hlength : declared.length =
        (inferred ++ List.replicate (declared.length - inferred.length) 1).length := by
      rw [List.length_append, List.length_replicate] at hshort ⊢
      omega
    rw [mapM_ok_iff, resolveDims_iff hlength]

/-- Ones do not change the product. -/
theorem prod_append_ones (inferred : List Nat) (n : Nat) :
    (inferred ++ List.replicate n 1).prod = inferred.prod := by
  rw [List.prod_append, List.prod_replicate, one_pow, mul_one]

theorem flatten_asList (t : Nested σ) : (asList t).flatten = t.flatten := by
  cases t with
  | leaf x => simp [asList]
  | node xs => rfl

/-- Values that are put into lists of their own are the same values. -/
theorem flatten_normalize (declared : List Int) (rendered : List (Nested σ)) :
    (Nested.node (normalize declared rendered)).flatten = rendered.flatMap Nested.flatten := by
  rw [Nested.flatten_node]
  unfold normalize
  split
  · rw [List.flatMap_map]
    exact List.flatMap_congr fun t _ => flatten_asList t
  · rfl

/-- A batch that is not ragged has the shape of its first elements. -/
theorem Rectangular.hasShape {declared : List Int} {rendered : List (Nested σ)}
    (h : Rectangular declared rendered) :
    (Nested.node (normalize declared rendered)).HasShape
      (Nested.node (normalize declared rendered)).firstShape := by
  obtain ⟨dims, hdims⟩ := h
  exact hdims.firstShape

end Shapes

/-! ## The JSON path -/

section JsonPath

variable {σ ν : Type} {np : Numerics σ ν} {d : Dtype}

theorem cast_jsonValue (np : Numerics σ ν) (hd : (d.isFloat || d.isInt) = true) (x : ν) :
    np.cast d (np.jsonValue d x) = .ok (np.jsonValue d x) := by
  unfold Numerics.jsonValue
  split
  · exact np.cast_asFloat32 d x ‹_›
  · rename_i hfloat
    refine np.cast_asInt64 d x ?_
    simpa [hfloat] using hd

/-- A value that is cast is one of the dtype. -/
theorem cast_of_castAtom {a : Atom σ ν} {t : Nested σ} (h : castAtom np d a = .ok t) :
    ∀ x ∈ t.flatten, np.cast d x = .ok x := by
  cases a with
  | scalar y =>
    change (np.cast d y).map .leaf = .ok t at h
    cases hy : np.cast d y with
    | error e =>
      rw [hy] at h
      cases h
    | ok z =>
      rw [hy] at h
      obtain rfl := Except.ok.inj h
      simpa using np.cast_cast d y z hy
  | array a =>
    unfold castAtom at h
    dsimp only at h
    split at h
    · rename_i hnumeric
      obtain rfl := Except.ok.inj h
      intro x hx
      rw [Nested.flatten_map] at hx
      obtain ⟨y, -, rfl⟩ := List.mem_map.mp hx
      exact cast_jsonValue np hnumeric y
    · cases hy : np.castArray d a with
      | error e =>
        rw [hy] at h
        cases h
      | ok z =>
        rw [hy] at h
        obtain rfl := Except.ok.inj h
        simpa using np.cast_castArray d a z hy

/-- The values that are cast can be cast again, and stay what they are. -/
theorem cast_of_rendered {values : List (Value σ ν)} {rendered : List (Nested σ)}
    (h : values.mapM (castDtype np d) = .ok rendered) :
    ∀ x ∈ rendered.flatMap Nested.flatten, np.cast d x = .ok x := by
  intro x hx
  obtain ⟨t, ht, hx⟩ := List.mem_flatMap.mp hx
  obtain ⟨v, -, hv⟩ := mapM_ok_mem h ht
  exact Nested.forall_flatten_of_bindM (fun a u hu => cast_of_castAtom hu) hv x hx

/-- The rows of a batch that is not ragged and starts flat are flat lists. -/
theorem flatten_rows {declared : List Int} {rendered : List (Nested σ)}
    (hrect : Rectangular declared rendered)
    (hflat : startsFlat (normalize declared rendered) = true) :
    ∃ rows, (normalize declared rendered).mapM iterate = .ok rows ∧
      rows.flatten = rowMajor rendered := by
  have hshape := hrect.hasShape
  unfold rowMajor
  rw [← flatten_normalize declared rendered]
  generalize normalize declared rendered = normalized at *
  cases normalized with
  | nil => cases hflat
  | cons first rest =>
    cases first with
    | leaf x => cases hflat
    | node xs =>
      cases xs with
      | nil => cases hflat
      | cons x xs =>
        cases x with
        | node ys => cases hflat
        | leaf y =>
          obtain ⟨ts, hts, -, hall⟩ := hshape
          obtain rfl := Nested.node.inj hts
          have hrow : ∀ t ∈ Nested.node (.leaf y :: xs) :: rest,
              iterate t = .ok (t.flatten.map .leaf) := by
            intro t ht
            obtain ⟨zs, rfl, -, hzs⟩ := hall t ht
            have hleaves : ∀ zs : List (Nested σ),
                (∀ z ∈ zs, ∃ a, z = .leaf a) → (zs.flatMap Nested.flatten).map .leaf = zs := by
              intro zs hzs
              induction zs with
              | nil => rfl
              | cons z zs ih =>
                obtain ⟨a, rfl⟩ := hzs z List.mem_cons_self
                rw [List.flatMap_cons, List.map_append,
                  ih fun z' hz' => hzs z' (List.mem_cons_of_mem _ hz')]
                simp
            rw [Nested.flatten_node, hleaves zs hzs]
            rfl
          refine ⟨_, mapM_eq_ok hrow, ?_⟩
          rw [Nested.flatten_node, List.map_flatMap, List.flatMap_def]

/-- What a batch that is not ragged becomes. -/
theorem materializeTensor_of_rectangular {declared : List Int} {rendered : List (Nested σ)}
    (hrect : Rectangular declared rendered)
    (hcast : ∀ x ∈ rendered.flatMap Nested.flatten, np.cast d x = .ok x) :
    materializeTensor np declared d rendered =
      (applyDeclaredShape (Nested.node (normalize declared rendered)).firstShape declared).map
        fun shape => (shape, rowMajor rendered) := by
  unfold materializeTensor
  dsimp only
  cases applyDeclaredShape (Nested.node (normalize declared rendered)).firstShape declared with
  | error e => rfl
  | ok shape =>
    rw [ok_bind]
    split
    · rename_i hflat
      rw [Bool.and_eq_true] at hflat
      obtain ⟨rows, hrows, hflatten⟩ := flatten_rows hrect hflat.1
      rw [hrows, ok_bind, hflatten]
      rfl
    · have hcasted : (rendered.flatMap Nested.flatten).mapM (np.cast d) =
          .ok ((rendered.flatMap Nested.flatten).map id) := mapM_eq_ok hcast
      rw [flatten_normalize, hcasted, ok_bind, List.map_id]
      rfl

/-- A shape that is not refused is enough for the tensor to be made. -/
theorem exists_materializeTensor {declared : List Int} {rendered : List (Nested σ)}
    {shape : List Nat}
    (hshape : applyDeclaredShape (Nested.node (normalize declared rendered)).firstShape declared =
      .ok shape) (hcast : ∀ x ∈ rendered.flatMap Nested.flatten, np.cast d x = .ok x) :
    ∃ data, materializeTensor np declared d rendered = .ok (shape, data) := by
  unfold materializeTensor
  dsimp only
  rw [hshape, ok_bind]
  split
  · rename_i hflat
    rw [Bool.and_eq_true] at hflat
    -- lists of lists take two dimensions, so every item is in a list
    have hrank : 1 < declared.length := by
      obtain ⟨rfl, hagrees⟩ := applyDeclaredShape_ok_iff.mp hshape
      have hlength := hagrees.length_eq
      have hflat := hflat.1
      generalize normalize declared rendered = normalized at *
      cases normalized with
      | nil => cases hflat
      | cons first rest =>
        cases first with
        | leaf x => cases hflat
        | node xs =>
          cases xs with
          | nil => cases hflat
          | cons x xs =>
            simp only [Nested.firstShape, List.length_append, List.length_cons] at hlength
            omega
    obtain ⟨rows, hrows⟩ : ∃ rows, (normalize declared rendered).mapM iterate = .ok rows := by
      apply exists_mapM_ok
      intro t ht
      unfold normalize at ht
      rw [if_pos hrank] at ht
      obtain ⟨u, -, rfl⟩ := List.mem_map.mp ht
      cases u with
      | leaf x => exact ⟨_, rfl⟩
      | node xs => exact ⟨_, rfl⟩
    rw [hrows, ok_bind]
    exact ⟨_, rfl⟩
  · have hcasted : (rendered.flatMap Nested.flatten).mapM (np.cast d) =
        .ok ((rendered.flatMap Nested.flatten).map id) := mapM_eq_ok hcast
    rw [flatten_normalize, hcasted, ok_bind]
    exact ⟨_, rfl⟩

/-- A tensor from a batch that is not ragged is well formed. -/
theorem wellFormed_of_rectangular {declared : List Int} {values : List (Value σ ν)}
    {rendered : List (Nested σ)} {shape : List Nat} {data : List (Nested σ)}
    (hrendered : values.mapM (castDtype np d) = .ok rendered)
    (hrect : Rectangular declared rendered)
    (h : materializeTensor np declared d rendered = .ok (shape, data)) :
    WellFormed np declared d values (.json shape data) := by
  rw [materializeTensor_of_rectangular hrect (cast_of_rendered hrendered)] at h
  cases happly : applyDeclaredShape (Nested.node (normalize declared rendered)).firstShape
      declared with
  | error e =>
    rw [happly] at h
    cases h
  | ok shape' =>
    rw [happly] at h
    obtain ⟨rfl, rfl⟩ := Prod.mk.inj (Except.ok.inj h)
    obtain ⟨hshape, hagrees⟩ := applyDeclaredShape_ok_iff.mp happly
    refine ⟨rendered, hrendered, hrect, hagrees, ?_, rfl⟩
    unfold rowMajor
    rw [hshape, prod_append_ones, ← hrect.hasShape.length_flatten, flatten_normalize,
      List.length_map]

/-- Tensors of JSON are well formed where the batch is not ragged, or refused. -/
theorem json_wellFormed_iff {declared : List Int} {values : List (Value σ ν)}
    (hbinary : binaryArrays d values = none) :
    (∀ tensor, renderTensor np declared d values = .ok tensor →
      WellFormed np declared d values tensor) ↔ ValuesFit np declared d values := by
  unfold renderTensor asBinaryTensor ValuesFit
  rw [hbinary]
  dsimp only [Option.map_none]
  constructor
  · intro h rendered shape hrendered hshape
    obtain ⟨data, hdata⟩ := exists_materializeTensor hshape (cast_of_rendered hrendered)
    have hwell := h (.json shape data) (by rw [hrendered, ok_bind, hdata]; rfl)
    obtain ⟨rendered', hrendered', hrect, -⟩ := hwell
    rw [hrendered] at hrendered'
    obtain rfl := Except.ok.inj hrendered'
    exact hrect
  · intro h tensor htensor
    obtain ⟨rendered, hrendered, htensor⟩ := bind_ok htensor
    obtain ⟨⟨shape, data⟩, hdata, htensor⟩ := bind_ok htensor
    obtain rfl := Except.ok.inj htensor
    refine wellFormed_of_rectangular hrendered ?_ hdata
    unfold materializeTensor at hdata
    obtain ⟨shape', hshape, -⟩ := bind_ok hdata
    exact h rendered shape' hrendered hshape

end JsonPath

/-! ## The binary path -/

section BinaryPath

variable {σ ν : Type} {np : Numerics σ ν} {d : Dtype} {declared : List Int}
  {values : List (Value σ ν)} {arrays : List (NdArray ν)}

theorem map_of_mapM_arrayOf (h : values.mapM arrayOf = some arrays) :
    values = arrays.map fun a => .leaf (.array a) := by
  induction values generalizing arrays with
  | nil =>
    rw [List.mapM_nil] at h
    obtain rfl := Option.some.inj h
    rfl
  | cons v values ih =>
    rw [List.mapM_cons] at h
    obtain ⟨a, ha, h⟩ := Option.bind_eq_some_iff.mp h
    obtain ⟨rest, hrest, h⟩ := Option.bind_eq_some_iff.mp h
    obtain rfl := Option.some.inj h
    have hv : v = .leaf (.array a) := by
      unfold arrayOf at ha
      split at ha
      · rw [Option.some.inj ha]
      · cases ha
    rw [List.map_cons, ← ih hrest, hv]

/-- Arrays of one size, for which there is a wire dtype. -/
theorem binaryArrays_spec (h : binaryArrays d values = some arrays) :
    ∃ size, d.wireSize = some size ∧ values = arrays.map (fun a => .leaf (.array a)) ∧
      arrays ≠ [] ∧ ∀ a ∈ arrays, a.cells.flatten.length = rowLength arrays := by
  unfold binaryArrays at h
  obtain ⟨size, hsize, h⟩ := Option.bind_eq_some_iff.mp h
  obtain ⟨arrays', harrays, h⟩ := Option.bind_eq_some_iff.mp h
  cases arrays' with
  | nil => cases h
  | cons a rest =>
    dsimp only at h
    split at h
    · rename_i hall
      obtain rfl := Option.some.inj h
      refine ⟨size, hsize, map_of_mapM_arrayOf harrays, List.cons_ne_nil _ _, ?_⟩
      intro b hb
      rcases List.mem_cons.mp hb with rfl | hb
      · rfl
      · exact of_decide_eq_true (List.all_eq_true.mp hall b hb)
    · cases h

theorem isNumeric_of_wireSize {size : Nat} (h : d.wireSize = some size) :
    (d.isFloat || d.isInt) = true := by
  cases d <;> first | rfl | cases h

/-- The same arrays on their way to JSON. -/
def renderedArrays (np : Numerics σ ν) (d : Dtype) (arrays : List (NdArray ν)) :
    List (Nested σ) := arrays.map fun a => a.cells.map (np.jsonValue d)

theorem mapM_castDtype_arrays (hd : (d.isFloat || d.isInt) = true) :
    (arrays.map fun a => (.leaf (.array a) : Value σ ν)).mapM (castDtype np d) =
      .ok (renderedArrays np d arrays) := by
  rw [List.mapM_map]
  refine mapM_eq_ok fun a _ => ?_
  change (Nested.leaf (Atom.array a)).bindM (castAtom np d) = _
  rw [Nested.bindM_leaf, castAtom, if_pos hd]

theorem rowMajor_renderedArrays :
    rowMajor (renderedArrays np d arrays) =
      (elements arrays).map fun x => .leaf (np.jsonValue d x) := by
  unfold rowMajor renderedArrays elements
  rw [List.flatMap_map, List.map_flatMap, List.map_flatMap]
  refine List.flatMap_congr fun a _ => ?_
  rw [Nested.flatten_map, List.map_map]
  rfl

theorem length_elements (hrows : ∀ a ∈ arrays, a.cells.flatten.length = rowLength arrays) :
    (elements arrays).length = arrays.length * rowLength arrays := by
  unfold elements
  rw [List.length_flatMap, List.map_congr_left hrows, List.map_const', List.sum_replicate]
  rfl

theorem prod_binaryShape : (binaryShape declared arrays).prod =
    arrays.length * rowLength arrays := by
  unfold binaryShape
  split
  · simp
  · split
    · rename_i hone
      simp [hone]
    · simp

/-- A list of numbers is what flat arrays become. -/
theorem hasShape_asList_iff {a : NdArray ν} {f : ν → σ} {k : Nat}
    (hk : a.cells.flatten.length = k) : (asList (a.cells.map f)).HasShape [k] ↔ a.Flat := by
  obtain ⟨dims, cells, hshape⟩ := a
  unfold NdArray.Flat
  dsimp only at hk ⊢
  cases dims with
  | nil =>
    obtain ⟨x, rfl⟩ := hshape
    rw [Nested.flatten_leaf] at hk
    subst hk
    rw [Nested.map_leaf]
    exact ⟨fun _ => .inl rfl, fun _ => ⟨_, rfl, rfl, fun t ht => ⟨f x, List.mem_singleton.mp ht⟩⟩⟩
  | cons n dims =>
    obtain ⟨xs, rfl, rfl, hxs⟩ := hshape
    rw [Nested.map_node]
    constructor
    · rintro ⟨ts, hts, -, hleaves⟩
      obtain rfl := Nested.node.inj hts
      cases xs with
      | nil => exact .inr (.inr rfl)
      | cons x xs =>
        -- the elements are numbers, so there is no dimension left
        cases dims with
        | nil => exact .inr (.inl rfl)
        | cons m dims =>
          obtain ⟨ys, rfl, -, -⟩ := hxs x List.mem_cons_self
          obtain ⟨y, hy⟩ := hleaves _ List.mem_cons_self
          rw [Nested.map_node] at hy
          cases hy
    · intro hflat
      have hleaves : ∀ x ∈ xs, ∃ y, x = .leaf y := by
        rcases hflat with hnil | hone | hzero
        · cases hnil
        · obtain rfl := List.length_eq_zero_iff.mp (Nat.succ.inj hone)
          exact hxs
        · obtain rfl := List.length_eq_zero_iff.mp (Option.some.inj hzero)
          exact fun x hx => absurd hx List.not_mem_nil
      have hlength : xs.length = k := by
        rw [← hk, Nested.flatten_node, List.length_flatMap, List.map_congr_left (g := fun _ => 1),
          List.map_const', List.sum_replicate, smul_eq_mul, mul_one]
        intro x hx
        obtain ⟨y, rfl⟩ := hleaves x hx
        simp
      refine ⟨_, rfl, by rw [List.length_map, hlength], ?_⟩
      intro t ht
      obtain ⟨x, hx, rfl⟩ := List.mem_map.mp ht
      obtain ⟨y, rfl⟩ := hleaves x hx
      exact ⟨f y, Nested.map_leaf f y⟩

/-- A number is what an array without dimensions becomes. -/
theorem hasShape_nil_iff {a : NdArray ν} {f : ν → σ} :
    (a.cells.map f).HasShape [] ↔ a.dims = [] := by
  obtain ⟨dims, cells, hshape⟩ := a
  dsimp only
  cases dims with
  | nil => exact ⟨fun _ => rfl, fun _ => hshape.map⟩
  | cons n dims =>
    obtain ⟨xs, rfl, -, -⟩ := hshape
    rw [Nested.map_node]
    constructor
    · rintro ⟨x, hx⟩
      cases hx
    · intro h
      cases h

theorem firstShape_asList_ne_nil (t : Nested σ) : (asList t).firstShape ≠ [] := by
  cases t with
  | leaf x => simp [asList, Nested.firstShape]
  | node xs => cases xs <;> simp [asList, Nested.firstShape]

/-- The batch is not ragged, and the shape of the bytes is the one that is read off the first
elements. -/
def SameShape (np : Numerics σ ν) (d : Dtype) (declared : List Int) (arrays : List (NdArray ν)) :
    Prop :=
  Rectangular declared (renderedArrays np d arrays) ∧
    applyDeclaredShape
        (Nested.node (normalize declared (renderedArrays np d arrays))).firstShape declared =
      .ok (binaryShape declared arrays)

/-- For two dimensions the rows are put into lists, and have to be flat. -/
theorem sameShape_iff_flat (htwo : 2 ≤ declared.length) (harrays : arrays ≠ [])
    (hrows : ∀ a ∈ arrays, a.cells.flatten.length = rowLength arrays) :
    SameShape np d declared arrays ↔ declared.length = 2 ∧ (∀ a ∈ arrays, a.Flat) ∧
      Agrees declared [arrays.length, rowLength arrays] := by
  obtain ⟨a, rest, rfl⟩ := List.exists_cons_of_ne_nil harrays
  have hnormalize : normalize declared (renderedArrays np d (a :: rest)) =
      (a :: rest).map fun b => asList (b.cells.map (np.jsonValue d)) := by
    unfold normalize renderedArrays
    rw [if_pos (by omega), List.map_map]
    rfl
  have hbinary : binaryShape declared (a :: rest) = [(a :: rest).length, rowLength (a :: rest)] :=
    if_pos htwo
  unfold SameShape Rectangular
  rw [applyDeclaredShape_ok_iff, hnormalize, hbinary]
  constructor
  · rintro ⟨⟨dims, hdims⟩, hshape, hagrees⟩
    have hrank := hagrees.length_eq
    refine ⟨hrank, ?_, hagrees⟩
    -- one dimension is left for a row
    rw [List.map_cons, Nested.firstShape_cons] at hshape
    have hlength := congrArg List.length hshape
    simp only [List.length_append, List.length_cons, List.length_nil] at hlength
    obtain ⟨k, hk⟩ : ∃ k, (asList (a.cells.map (np.jsonValue d))).firstShape = [k] := by
      refine List.length_eq_one_iff.mp ?_
      have hpos := List.length_pos_iff.mpr
        (firstShape_asList_ne_nil (a.cells.map (np.jsonValue d)))
      omega
    intro b hb
    have hrow := Nested.HasShape.of_mem hdims
      (List.mem_map_of_mem (f := fun b => asList (b.cells.map (np.jsonValue d))) hb)
    rw [hk] at hrow
    have hlen := hrow.length_flatten
    rw [flatten_asList, Nested.flatten_map, List.length_map, List.prod_singleton] at hlen
    exact (hasShape_asList_iff hlen).mp hrow
  · rintro ⟨hrank, hflat, hagrees⟩
    have hrow : ∀ b ∈ a :: rest,
        (asList (b.cells.map (np.jsonValue d))).HasShape [rowLength (a :: rest)] :=
      fun b hb => (hasShape_asList_iff (hrows b hb)).mpr (hflat b hb)
    refine ⟨⟨_, Nested.HasShape.node_map hrow⟩, ?_, hagrees⟩
    rw [List.map_cons, Nested.firstShape_cons,
      Nested.firstShape_of_flat (hrow a List.mem_cons_self), List.length_map, hrank]
    rfl

/-- For less they stay as they are, and have to be numbers. -/
theorem sameShape_iff_numbers (hshort : ¬2 ≤ declared.length) (harrays : arrays ≠ [])
    (hrows : ∀ a ∈ arrays, a.cells.flatten.length = rowLength arrays) :
    SameShape np d declared arrays ↔ declared.length = 1 ∧ (∀ a ∈ arrays, a.dims = []) ∧
      Agrees declared [arrays.length] := by
  obtain ⟨a, rest, rfl⟩ := List.exists_cons_of_ne_nil harrays
  have hnormalize : normalize declared (renderedArrays np d (a :: rest)) =
      (a :: rest).map fun b => b.cells.map (np.jsonValue d) := by
    unfold normalize renderedArrays
    rw [if_neg (by omega)]
  unfold SameShape Rectangular
  rw [applyDeclaredShape_ok_iff, hnormalize]
  constructor
  · rintro ⟨⟨dims, hdims⟩, hshape, hagrees⟩
    have hrank := hagrees.length_eq
    rw [List.map_cons, Nested.firstShape_cons, List.length_map] at hshape
    have hlength := congrArg List.length hshape
    have hone : (binaryShape declared (a :: rest)).length = 1 := by
      unfold binaryShape
      rw [if_neg hshort]
      split <;> rfl
    rw [hone] at hrank hlength
    simp only [List.length_append, List.length_cons] at hlength
    have hnil : (a.cells.map (np.jsonValue d)).firstShape = [] :=
      List.length_eq_zero_iff.mp (by omega)
    refine ⟨hrank, ?_, ?_⟩
    · intro b hb
      have hrow := Nested.HasShape.of_mem hdims
        (List.mem_map_of_mem (f := fun b => b.cells.map (np.jsonValue d)) hb)
      rw [hnil] at hrow
      exact hasShape_nil_iff.mp hrow
    · rw [hshape, hnil, hrank] at hagrees
      exact hagrees
  · rintro ⟨hrank, hdims, hagrees⟩
    have hrow : ∀ b ∈ a :: rest, (b.cells.map (np.jsonValue d)).HasShape [] :=
      fun b hb => hasShape_nil_iff.mpr (hdims b hb)
    have hone : rowLength (a :: rest) = 1 := by
      have hlen := (hrow a List.mem_cons_self).length_flatten
      rw [Nested.flatten_map, List.length_map, hrows a List.mem_cons_self] at hlen
      exact hlen
    have hfirst : (a.cells.map (np.jsonValue d)).firstShape = [] := by
      obtain ⟨x, hx⟩ := hrow a List.mem_cons_self
      rw [hx, Nested.firstShape]
    have hbinary : binaryShape declared (a :: rest) = [(a :: rest).length] := by
      unfold binaryShape
      rw [if_neg hshort, hone]
      split
      · rename_i hsingle
        rw [hsingle]
      · rw [mul_one]
    rw [hbinary]
    refine ⟨⟨_, Nested.HasShape.node_map hrow⟩, ?_, hagrees⟩
    rw [List.map_cons, Nested.firstShape_cons, hfirst, List.length_map, hrank]
    rfl

theorem sameShape_iff (harrays : arrays ≠ [])
    (hrows : ∀ a ∈ arrays, a.cells.flatten.length = rowLength arrays) :
    SameShape np d declared arrays ↔
      (declared.length = 1 ∧ (∀ a ∈ arrays, a.dims = []) ∧ Agrees declared [arrays.length]) ∨
        (declared.length = 2 ∧ (∀ a ∈ arrays, a.Flat) ∧
          Agrees declared [arrays.length, rowLength arrays]) := by
  by_cases htwo : 2 ≤ declared.length
  · rw [sameShape_iff_flat htwo harrays hrows]
    constructor
    · exact .inr
    · rintro (⟨hone, -, -⟩ | h)
      · omega
      · exact h
  · rw [sameShape_iff_numbers htwo harrays hrows]
    constructor
    · exact .inl
    · rintro (h | ⟨hrank, -, -⟩)
      · exact h
      · omega

/-- On a batch that is not ragged the JSON path gives the numbers of the arrays. -/
theorem materializeTensor_iff (hrendered : values.mapM (castDtype np d) =
    .ok (renderedArrays np d arrays)) (hrect : Rectangular declared (renderedArrays np d arrays)) :
    materializeTensor np declared d (renderedArrays np d arrays) =
        .ok (binaryShape declared arrays, (elements arrays).map fun x => .leaf (np.wireValue d x)) ↔
      applyDeclaredShape (Nested.node (normalize declared
        (renderedArrays np d arrays))).firstShape declared = .ok (binaryShape declared arrays) ∧
      ∀ a ∈ arrays, ∀ x ∈ a.cells.flatten, np.wireValue d x = np.jsonValue d x := by
  rw [materializeTensor_of_rectangular hrect (cast_of_rendered hrendered), rowMajor_renderedArrays]
  have hsame : ((elements arrays).map (fun x => Nested.leaf (np.jsonValue d x)) =
      (elements arrays).map fun x => Nested.leaf (np.wireValue d x)) ↔
        ∀ a ∈ arrays, ∀ x ∈ a.cells.flatten, np.wireValue d x = np.jsonValue d x := by
    rw [List.map_inj_left]
    unfold elements
    constructor
    · intro heq a ha x hx
      exact (Nested.leaf.inj (heq x (List.mem_flatMap.mpr ⟨a, ha, hx⟩))).symm
    · intro heq x hx
      obtain ⟨a, ha, hx⟩ := List.mem_flatMap.mp hx
      rw [heq a ha x hx]
  cases happly : applyDeclaredShape (Nested.node (normalize declared
      (renderedArrays np d arrays))).firstShape declared with
  | error e =>
    constructor
    · intro heq
      cases heq
    · rintro ⟨heq, -⟩
      cases heq
  | ok shape =>
    rw [← hsame]
    constructor
    · intro heq
      obtain ⟨hshape, hdata⟩ := Prod.mk.inj (Except.ok.inj heq)
      exact ⟨congrArg Except.ok hshape, hdata⟩
    · rintro ⟨hshape, hdata⟩
      rw [← hdata, Except.ok.inj hshape]
      rfl

/-- Tensors of bytes are well formed where the arrays fit. -/
theorem binary_wellFormed_iff (h : binaryArrays d values = some arrays) :
    (∀ tensor, renderTensor np declared d values = .ok tensor →
      WellFormed np declared d values tensor) ↔ ValuesFit np declared d values := by
  obtain ⟨size, hsize, hvalues, harrays, hrows⟩ := binaryArrays_spec h
  have hrendered : values.mapM (castDtype np d) = .ok (renderedArrays np d arrays) := by
    rw [hvalues]
    exact mapM_castDtype_arrays (isNumeric_of_wireSize hsize)
  have hraw : ((elements arrays).flatMap (np.wire d)).length =
      (binaryShape declared arrays).prod * size := by
    rw [List.length_flatMap, List.map_congr_left fun x _ => np.length_wire d size x hsize,
      List.map_const', List.sum_replicate, length_elements hrows, prod_binaryShape, smul_eq_mul]
  have htensor : renderTensor np declared d values =
      .ok (.binary (binaryShape declared arrays) ((elements arrays).flatMap (np.wire d))) := by
    unfold renderTensor asBinaryTensor
    rw [h]
    rfl
  have hfit : ValuesFit np declared d values ↔ ArraysFit np declared d arrays := by
    unfold ValuesFit
    rw [h]
  rw [hfit]
  unfold ArraysFit
  rw [← @sameShape_iff σ ν np d declared arrays harrays hrows]
  constructor
  · intro hwell
    obtain ⟨rendered, arrays', size', hrendered', hvalues', -, hrect, -, -, -, hmaterialize⟩ :=
      hwell _ htensor
    rw [hrendered] at hrendered'
    obtain rfl := Except.ok.inj hrendered'
    have harrays' : arrays' = arrays := by
      rw [hvalues] at hvalues'
      refine (List.map_injective_iff.mpr ?_ hvalues').symm
      intro a b hab
      exact Atom.array.inj (Nested.leaf.inj hab)
    rw [harrays'] at hmaterialize
    obtain ⟨happly, hsame⟩ := (materializeTensor_iff hrendered hrect).mp hmaterialize
    exact ⟨hsame, hrect, happly⟩
  · rintro ⟨hsame, hrect, happly⟩ tensor ht
    rw [htensor] at ht
    obtain rfl := Except.ok.inj ht
    exact ⟨_, arrays, size, hrendered, hvalues, hsize, hrect,
      (applyDeclaredShape_ok_iff.mp happly).2, hraw, rfl,
      (materializeTensor_iff hrendered hrect).mpr ⟨happly, hsame⟩⟩

end BinaryPath

/-! ## Batches -/

section Batches

variable {σ ν ι : Type} (np : Numerics σ ν)
  (resolve : InputTensorDeclaration → ι × Nat → Except PyError (Value σ ν))

/-- A declared tensor is well formed if and only if the values of the items fit. -/
theorem wellFormed_iff (declared : List Int) (d : Dtype) (values : List (Value σ ν)) :
    (∀ tensor, renderTensor np declared d values = .ok tensor →
      WellFormed np declared d values tensor) ↔ ValuesFit np declared d values := by
  cases h : binaryArrays d values with
  | none => exact json_wellFormed_iff h
  | some arrays => exact binary_wellFormed_iff h

/-- The last declaration of a tensor, whose entry stays. -/
def Stays (inputs : List InputTensorDeclaration) (cfg : InputTensorDeclaration) : Prop :=
  ∃ before after, inputs = before ++ cfg :: after ∧ ∀ c ∈ after, c.tensor ≠ cfg.tensor

/-- What is rendered for a declaration. -/
def renderInput (inputData : List ι) (cfg : InputTensorDeclaration) :
    Except PyError (Tensor σ) := do
  let values ← inputData.zipIdx.mapM (resolve cfg)
  renderTensor np cfg.shape cfg.dtype values

variable {np resolve} {inputs : List InputTensorDeclaration} {inputData : List ι}

/-- The loop over the declarations. -/
theorem foldlM_renderInput {acc tensors : Dict String (Tensor σ)} :
    inputs.foldlM (fun tritonInputs cfg => do
        let values ← inputData.zipIdx.mapM (resolve cfg)
        let tensor ← renderTensor np cfg.shape cfg.dtype values
        return tritonInputs.set cfg.tensor tensor) acc = .ok tensors ↔
      ∃ rendered, inputs.mapM (renderInput np resolve inputData) = .ok rendered ∧
        tensors = acc.setAll ((inputs.map InputTensorDeclaration.tensor).zip rendered) := by
  induction inputs generalizing acc with
  | nil =>
    rw [List.foldlM_nil, List.mapM_nil]
    constructor
    · intro h
      exact ⟨[], rfl, (Except.ok.inj h).symm⟩
    · rintro ⟨rendered, -, rfl⟩
      rfl
  | cons cfg inputs ih =>
    rw [List.foldlM_cons, List.mapM_cons]
    constructor
    · intro h
      obtain ⟨acc', hacc, h⟩ := bind_ok h
      obtain ⟨values, hvalues, hacc⟩ := bind_ok hacc
      obtain ⟨tensor, htensor, hacc⟩ := bind_ok hacc
      obtain rfl := Except.ok.inj hacc
      obtain ⟨rendered, hrendered, rfl⟩ := ih.mp h
      refine ⟨tensor :: rendered, ?_, rfl⟩
      have hcfg : renderInput np resolve inputData cfg = .ok tensor := by
        unfold renderInput
        rw [hvalues]
        exact htensor
      rw [hcfg, ok_bind, hrendered]
      rfl
    · rintro ⟨rendered, h, rfl⟩
      obtain ⟨tensor, htensor, h⟩ := bind_ok h
      obtain ⟨rest, hrest, h⟩ := bind_ok h
      obtain rfl := Except.ok.inj h
      obtain ⟨values, hvalues, htensor⟩ := bind_ok htensor
      rw [hvalues, ok_bind, htensor, ok_bind]
      exact ih.mpr ⟨rest, hrest, rfl⟩

/-- The entry of a declaration that stays. -/
theorem get?_of_stays {acc : Dict String (Tensor σ)} {before after : List InputTensorDeclaration}
    {cfg : InputTensorDeclaration} {rendered : List (Tensor σ)}
    (h : List.Forall₂ (fun c t => renderInput np resolve inputData c = .ok t)
      (before ++ cfg :: after) rendered) (hafter : ∀ c ∈ after, c.tensor ≠ cfg.tensor) :
    ∃ tensor, renderInput np resolve inputData cfg = .ok tensor ∧
      Dict.get? (acc.setAll (((before ++ cfg :: after).map InputTensorDeclaration.tensor).zip
        rendered)) cfg.tensor = some tensor := by
  induction before generalizing acc rendered with
  | nil =>
    cases h with
    | @cons _ tensor _ rest htensor hrest =>
      refine ⟨tensor, htensor, ?_⟩
      change Dict.get? ((acc.set cfg.tensor tensor).setAll
        ((after.map InputTensorDeclaration.tensor).zip rest)) cfg.tensor = _
      rw [Dict.get?_setAll_of_ne, Dict.get?_set, if_pos rfl]
      intro e he hkey
      obtain ⟨c, hc, hname⟩ := List.mem_map.mp (List.of_mem_zip he).1
      exact hafter c hc (hname.trans hkey)
  | cons c before ih =>
    cases h with
    | @cons _ tensor _ rest htensor hrest => exact ih hrest

/-- **Tensors are well formed** for every batch and declaration for which `render_inputs` returns,
if and only if the values that it finds fit. -/
theorem tensors_well_formed_iff :
    (∀ tensors, renderInputs np resolve inputs inputData = .ok tensors →
      ∀ cfg, Stays inputs cfg → ∃ values tensor,
        inputData.zipIdx.mapM (resolve cfg) = .ok values ∧
        Dict.get? tensors cfg.tensor = some tensor ∧
        WellFormed np cfg.shape cfg.dtype values tensor) ↔
      ((∃ tensors, renderInputs np resolve inputs inputData = .ok tensors) →
        ∀ cfg, Stays inputs cfg → ∀ values, inputData.zipIdx.mapM (resolve cfg) = .ok values →
          ValuesFit np cfg.shape cfg.dtype values) := by
  have hentry : ∀ {tensors}, renderInputs np resolve inputs inputData = .ok tensors →
      ∀ cfg, Stays inputs cfg → ∃ values tensor,
        inputData.zipIdx.mapM (resolve cfg) = .ok values ∧
        renderTensor np cfg.shape cfg.dtype values = .ok tensor ∧
        Dict.get? tensors cfg.tensor = some tensor := by
    intro tensors htensors cfg hstays
    unfold renderInputs at htensors
    split at htensors
    · cases htensors
    · obtain ⟨rendered, hrendered, rfl⟩ := foldlM_renderInput.mp htensors
      obtain ⟨before, after, rfl, hafter⟩ := hstays
      obtain ⟨tensor, htensor, hget⟩ := get?_of_stays (mapM_ok_iff.mp hrendered) hafter
      obtain ⟨values, hvalues, htensor⟩ := bind_ok htensor
      exact ⟨values, tensor, hvalues, htensor, hget⟩
  constructor
  · rintro h ⟨tensors, htensors⟩ cfg hstays values hvalues
    refine (wellFormed_iff np cfg.shape cfg.dtype values).mp fun tensor htensor => ?_
    obtain ⟨values', tensor', hvalues', htensor', hget⟩ := hentry htensors cfg hstays
    obtain ⟨values'', tensor'', hvalues'', hget'', hwell⟩ := h tensors htensors cfg hstays
    rw [hvalues] at hvalues' hvalues''
    obtain rfl := Except.ok.inj hvalues'
    obtain rfl := Except.ok.inj hvalues''
    rw [htensor] at htensor'
    obtain rfl := Except.ok.inj htensor'
    rw [hget] at hget''
    obtain rfl := Option.some.inj hget''
    exact hwell
  · intro h tensors htensors cfg hstays
    obtain ⟨values, tensor, hvalues, htensor, hget⟩ := hentry htensors cfg hstays
    have hfit := h ⟨tensors, htensors⟩ cfg hstays values hvalues
    exact ⟨values, tensor, hvalues, hget,
      (wellFormed_iff np cfg.shape cfg.dtype values).mpr hfit tensor htensor⟩

/-- Whole numbers, as they are. -/
def plain : Numerics Int Int where
  cast := fun _ x => .ok x
  cast_cast := fun _ _ _ _ => rfl
  castArray := fun _ _ => .error .valueError
  cast_castArray := fun _ _ _ _ => rfl
  asFloat32 := id
  cast_asFloat32 := fun _ _ _ => rfl
  asInt64 := id
  cast_asInt64 := fun _ _ _ => rfl
  wire := fun d x => (List.range (d.wireSize.getD 0)).map fun i =>
    UInt8.ofNat ((x / 256 ^ i) % 256).toNat
  length_wire := by
    intro d size x h
    rw [List.length_map, List.length_range, h]
    rfl
  wireValue := fun _ x => x

/-- Token ids of two items. -/
def tokenIds : InputTensorDeclaration :=
  ⟨"input_ids", .int64, [-1, -1], List.cons_ne_nil _ _⟩

/-- The second item has fewer ids than the first; the shape says two rows of two. -/
theorem ragged_batch_accepted :
    ¬∀ tensors, renderInputs plain (fun _ item => .ok item.1) [tokenIds]
        [Nested.node [.leaf (.scalar 1), .leaf (.scalar 2)], Nested.node [.leaf (.scalar 3)]] =
          .ok tensors →
      ∀ cfg, Stays [tokenIds] cfg → ∃ values tensor,
        [Nested.node [.leaf (.scalar 1), .leaf (.scalar 2)],
          Nested.node [.leaf (.scalar 3)]].zipIdx.mapM
            (fun item => (.ok item.1 : Except PyError (Value Int Int))) = .ok values ∧
        Dict.get? tensors cfg.tensor = some tensor ∧
        WellFormed plain cfg.shape cfg.dtype values tensor := by
  intro h
  obtain ⟨values, tensor, -, hget, hwell⟩ := h
    [("input_ids", .json [2, 2] [.leaf 1, .leaf 2, .leaf 3])] rfl tokenIds
    ⟨[], [], rfl, fun c hc => absurd hc List.not_mem_nil⟩
  have htensor : (.json [2, 2] [.leaf 1, .leaf 2, .leaf 3] : Tensor Int) = tensor :=
    Option.some.inj hget
  rw [← htensor] at hwell
  obtain ⟨rendered, -, -, -, hlength, -⟩ := hwell
  exact absurd hlength (by decide)

end Batches

end Ai4iCore.Task.Tensors
