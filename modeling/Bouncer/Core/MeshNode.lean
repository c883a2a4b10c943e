import Bouncer.Datastructure.Structs
import Bouncer.Library.Documents
import Mathlib.Data.BitVec

/-!
# Mesh documents

How a `MeshNode` becomes a document of the database.  `serialise` appends its fields and puts its arrays aside, and when
the document is inserted the arrays go into a file and `_blobRef` says where they are.

What the filters of the optimizer look at is: the type and the revision, the primitive of the first face that has one,
one of three material properties, and whether there are normals (`document_normals`).
-/

namespace Bouncer

open Library (Value lookup lookup_concat lookup_cons lookup_nil appendElementsUnique lookup_appendElementsUnique)

inductive RepoVariant (U R : Type) where
  | bool (b : Bool)
  | int (n : ℤ)
  | uuid (u : U)
  | string (s : String)
  | double (x : R)
  deriving DecidableEq

/-- `RepoBSONBuilder`: the fields, and the sizes in bytes of the large arrays.  The source has no order among these. -/
structure RepoBSONBuilder (S : Type) where
  fields : List (String × Value S)
  binMapping : List (String × ℕ)

namespace RepoBSONBuilder

variable {S : Type}

def empty : RepoBSONBuilder S := ⟨[], []⟩

def append (builder : RepoBSONBuilder S) (label : String) (value : Value S) : RepoBSONBuilder S :=
  { builder with fields := builder.fields ++ [(label, value)] }

def appendLargeArray (builder : RepoBSONBuilder S) (name : String) (size : ℕ) : RepoBSONBuilder S :=
  { builder with binMapping := builder.binMapping.filter (fun entry => decide (entry.1 ≠ name)) ++ [(name, size)] }

end RepoBSONBuilder

inductive Primitive where
  | unknown
  | points
  | lines
  | triangles
  | quads
  deriving DecidableEq

def Primitive.toInt : Primitive → ℤ
  | .unknown => 0
  | .points => 1
  | .lines => 2
  | .triangles => 3
  | .quads => 4

inductive MaterialProperties where
  | unset
  | opaqueMat
  | transparentMat
  | texturedMat
  deriving DecidableEq

structure MeshNode (U R : Type) where
  uniqueId : U
  sharedId : U
  name : String
  parentIds : List U
  revId : U
  boundingBox : RepoBounds R
  vertices : List (RepoVector3D R)
  faces : List RepoFace
  normals : List (RepoVector3D R)
  channels : List (List (RepoVector2D R))
  /-- `material.opacity`. -/
  opacity : R
  textureId : U
  grouping : String

namespace MeshNode

variable {U R : Type}

/-- The cast of a size to `int32_t`. -/
def int32 (size : ℕ) : ℤ := (size : ℤ).bmod (2 ^ 32)

abbrev Builder (U R : Type) := RepoBSONBuilder (RepoVariant U R)

/-- `RepoNode::serialise`, for a mesh.  The default identifier is that of no node. -/
def serialiseNode [DecidableEq U] [Inhabited U] (node : MeshNode U R) (builder : Builder U R) : Builder U R :=
  let builder := if node.name ≠ "" then builder.append "name" (.scalar (.string node.name)) else builder
  let builder := builder.append "type" (.scalar (.string "mesh"))
  let builder := if node.sharedId ≠ default then builder.append "shared_id" (.scalar (.uuid node.sharedId)) else builder
  let builder := builder.append "_id" (.scalar (.uuid node.uniqueId))
  let builder :=
    if node.parentIds ≠ [] then
      builder.append "parents" (.array (node.parentIds.map fun id => .scalar (.uuid id)))
    else builder
  if node.revId ≠ default then builder.append "rev_id" (.scalar (.uuid node.revId)) else builder

def vectorValue (v : RepoVector3D R) : Value (RepoVariant U R) :=
  .array [.scalar (.double v.x), .scalar (.double v.y), .scalar (.double v.z)]

def appendBounds (builder : Builder U R) (boundingBox : RepoBounds R) : Builder U R :=
  builder.append "bounding_box" (.array [vectorValue boundingBox.bmin, vectorValue boundingBox.bmax])

def appendVertices (builder : Builder U R) (vertices : List (RepoVector3D R)) : Builder U R :=
  if vertices ≠ [] then
    (builder.append "vertices_count" (.scalar (.int (int32 vertices.length)))).appendLargeArray "vertices"
      (12 * vertices.length)
  else builder

/-- The primitive of the first face that is a line or a triangle. -/
def inferPrimitive (faces : List RepoFace) : Primitive :=
  faces.foldl (fun primitive face =>
    if primitive = .unknown then
      if face.sides = 2 then .lines else if face.sides = 3 then .triangles else primitive
    else primitive) .unknown

def facesLevel1 (faces : List RepoFace) : List ℕ := faces.flatMap fun face => face.sides :: face.indices

def appendFaces (builder : Builder U R) (faces : List RepoFace) : Builder U R :=
  if faces ≠ [] then
    ((builder.append "faces_count" (.scalar (.int (int32 faces.length)))).append "primitive"
      (.scalar (.int (inferPrimitive faces).toInt))).appendLargeArray "faces" (4 * (facesLevel1 faces).length)
  else builder

def appendNormals (builder : Builder U R) (normals : List (RepoVector3D R)) : Builder U R :=
  if normals ≠ [] then builder.appendLargeArray "normals" (12 * normals.length) else builder

def appendUVChannels (builder : Builder U R) (numChannels : ℕ) (concatenated : List (RepoVector2D R)) : Builder U R :=
  if concatenated ≠ [] then
    (builder.append "uv_channels_count" (.scalar (.int (int32 numChannels)))).appendLargeArray "uv_channels"
      (8 * concatenated.length)
  else builder

/-- `getUVChannelsSerialised`. -/
def uvChannelsSerialised (node : MeshNode U R) : List (RepoVector2D R) := node.channels.flatten

section Material

variable [DecidableEq U] [Inhabited U] [DecidableEq R] [One R]

def determineMaterialProperties (opacity : R) (texId : U) (numUvChannels : ℕ) : MaterialProperties :=
  if texId ≠ default ∧ numUvChannels > 0 then .texturedMat
  else if opacity = 1 then .opaqueMat
  else .transparentMat

end Material

/-- `matPropsBson` of `appendFilterTags`. -/
def matPropsBson (matProps : MaterialProperties) (textureId : U) : Value (RepoVariant U R) :=
  .object (match matProps with
    | .opaqueMat => [("isOpaque", .scalar (.bool true))]
    | .transparentMat => [("isTransparent", .scalar (.bool true))]
    | .texturedMat => [("textureId", .scalar (.uuid textureId))]
    | .unset => [])

def appendFilterTags (builder : Builder U R) (grouping : String) (matProps : MaterialProperties) (textureId : U) :
    Builder U R :=
  let builder := if grouping ≠ "" then builder.append "grouping" (.scalar (.string grouping)) else builder
  builder.append "materialProperties" (matPropsBson matProps textureId)

variable [DecidableEq U] [Inhabited U] [DecidableEq R] [One R]

def matProps (node : MeshNode U R) : MaterialProperties :=
  determineMaterialProperties node.opacity node.textureId node.channels.length

def serialise (node : MeshNode U R) (builder : Builder U R) : Builder U R :=
  let builder := node.serialiseNode builder
  let builder := appendBounds builder node.boundingBox
  let builder := appendVertices builder node.vertices
  let builder := appendFaces builder node.faces
  let builder := appendNormals builder node.normals
  let builder := appendUVChannels builder node.channels.length node.uvChannelsSerialised
  appendFilterTags builder node.grouping node.matProps node.textureId

end MeshNode

namespace RepoBSONBuilder

variable {U R : Type}

/-- The elements that `getBinariesAsBuffer` lists, from a position of the buffer on. -/
def elements : ℕ → List (String × ℕ) → List (String × Value (RepoVariant U R))
  | _, [] => []
  | start, entry :: binMapping =>
    (entry.1, .object [("start", .scalar (.int start)), ("size", .scalar (.int entry.2))]) ::
      elements (start + entry.2) binMapping

/-- The document that `insertManyDocuments` stores, with what `replaceBinaryWithReference` puts in the place of the
arrays. -/
def stored (bson : RepoBSONBuilder (RepoVariant U R)) (fileRef : Value (RepoVariant U R)) : Value (RepoVariant U R) :=
  if (bson.binMapping.map Prod.snd).sum ≠ 0 then
    .object (appendElementsUnique
      [("_blobRef", .object [("elements", .object (elements 0 bson.binMapping)), ("buffer", fileRef)])] bson.fields)
  else .object bson.fields

end RepoBSONBuilder

/-! ### What is in the document -/

namespace RepoBSONBuilder

variable {S : Type} (builder : RepoBSONBuilder S) (label : String) (value : Value S) (name : String)

@[simp] theorem lookup_append : lookup (builder.append label value).fields name =
    (lookup builder.fields name).or (if label = name then some value else none) := lookup_concat (label, value)

@[simp] theorem fields_appendLargeArray (size : ℕ) : (builder.appendLargeArray label size).fields = builder.fields := rfl

@[simp] theorem binMapping_append : (builder.append label value).binMapping = builder.binMapping := rfl

/-- There is a large array of this name and size. -/
def HasArray (size : ℕ) : Prop := (name, size) ∈ builder.binMapping

@[simp] theorem not_hasArray_empty (size : ℕ) : ¬ (empty : RepoBSONBuilder S).HasArray name size := List.not_mem_nil

@[simp] theorem hasArray_append (size : ℕ) :
    (builder.append label value).HasArray name size ↔ builder.HasArray name size := Iff.rfl

@[simp] theorem hasArray_appendLargeArray (size size' : ℕ) :
    (builder.appendLargeArray label size').HasArray name size ↔
      if name = label then size = size' else builder.HasArray name size := by
  simp only [HasArray, appendLargeArray, List.mem_append, List.mem_singleton, List.mem_filter, decide_eq_true_iff,
    Prod.mk.injEq]
  by_cases h : name = label <;> simp [h]

theorem isSome_lookup_elements {U R : Type} (start : ℕ) (binMapping : List (String × ℕ)) (name : String) :
    (lookup (elements (U := U) (R := R) start binMapping) name).isSome ↔ ∃ size, (name, size) ∈ binMapping := by
  induction binMapping generalizing start with
  | nil => simp [elements]
  | cons entry binMapping ih =>
    rw [elements, lookup_cons]
    by_cases h : entry.1 = name
    · rw [if_pos h]
      exact iff_of_true rfl ⟨entry.2, List.mem_cons.2 (.inl (by rw [← h]))⟩
    · rw [if_neg h, ih]
      refine exists_congr fun size => ⟨List.mem_cons_of_mem _, fun hm => ?_⟩
      exact (List.mem_cons.1 hm).resolve_left fun he => h (congrArg Prod.fst he).symm

/-- What is at a field of the document that is not among the large arrays. -/
theorem get?_stored {U R : Type} (bson : RepoBSONBuilder (RepoVariant U R)) (fileRef : Value (RepoVariant U R))
    {name : String} (hname : "_blobRef" ≠ name) (path : List String) :
    (bson.stored fileRef).get? (name :: path) = (lookup bson.fields name).bind fun value => value.get? path := by
  unfold stored
  split
  · rw [Value.get?_object, lookup_appendElementsUnique, lookup_cons, if_neg hname, lookup_nil, Option.none_or]
  · rfl

private theorem isSome_get?_elements {U R : Type} (bson : RepoBSONBuilder (RepoVariant U R)) (fileRef : Value (RepoVariant U R))
    (hfields : lookup bson.fields "_blobRef" = none) (hsize : ∀ size, bson.HasArray name size → size ≠ 0) :
    ((bson.stored fileRef).get? ["_blobRef", "elements", name]).isSome ↔ ∃ size, bson.HasArray name size := by
  unfold stored
  split
  · rw [Value.get?_object, lookup_appendElementsUnique, lookup_cons, if_pos rfl, Option.some_or, Option.bind_some,
      Value.get?_object, lookup_cons, if_pos rfl, Option.bind_some, Value.get?_object_singleton]
    exact isSome_lookup_elements 0 _ name
  · next hsum =>
    rw [Value.get?_object, hfields]
    refine iff_of_false (by simp) ?_
    intro ⟨size, harray⟩
    have hzero : ∀ size ∈ bson.binMapping.map Prod.snd, size = 0 := List.sum_eq_zero_iff.1 (not_not.1 hsum)
    exact hsize size harray (hzero size (List.mem_map_of_mem harray))

end RepoBSONBuilder

namespace MeshNode

variable {U R : Type} [DecidableEq U] [Inhabited U] [DecidableEq R] [One R] (node : MeshNode U R)

theorem lookup_ite {S : Type} {p : Prop} [Decidable p] (builder builder' : RepoBSONBuilder S) (name : String) :
    lookup (if p then builder else builder').fields name =
      if p then lookup builder.fields name else lookup builder'.fields name := by
  split <;> rfl

private theorem hasArray_ite {S : Type} {p : Prop} [Decidable p] (builder builder' : RepoBSONBuilder S)
    (name : String) (size : ℕ) : (if p then builder else builder').HasArray name size ↔
      if p then builder.HasArray name size else builder'.HasArray name size := by
  split <;> rfl

/-- The fields of a mesh that a filter may ask for. -/
structure Fields (node : MeshNode U R) (fields : List (String × Value (RepoVariant U R))) : Prop where
  type : lookup fields "type" = some (.scalar (.string "mesh"))
  revId : lookup fields "rev_id" = if node.revId = default then none else some (.scalar (.uuid node.revId))
  primitive : lookup fields "primitive" =
    if node.faces = [] then none else some (.scalar (.int (inferPrimitive node.faces).toInt))
  materialProperties : lookup fields "materialProperties" = some (matPropsBson node.matProps node.textureId)
  blobRef : lookup fields "_blobRef" = none

theorem fields_serialise : node.Fields (node.serialise .empty).fields := by
  constructor <;> simp [serialise, serialiseNode, appendBounds, appendVertices, appendFaces, appendNormals,
    appendUVChannels, appendFilterTags, lookup_ite, RepoBSONBuilder.empty]

theorem lookup_facesCount : lookup (node.serialise .empty).fields "faces_count" =
    if node.faces = [] then none else some (.scalar (.int (int32 node.faces.length))) := by
  simp [serialise, serialiseNode, appendBounds, appendVertices, appendFaces, appendNormals, appendUVChannels,
    appendFilterTags, lookup_ite, RepoBSONBuilder.empty]

theorem lookup_uvChannelsCount : lookup (node.serialise .empty).fields "uv_channels_count" =
    if node.uvChannelsSerialised = [] then none else some (.scalar (.int (int32 node.channels.length))) := by
  simp [serialise, serialiseNode, appendBounds, appendVertices, appendFaces, appendNormals, appendUVChannels,
    appendFilterTags, lookup_ite, RepoBSONBuilder.empty]

private theorem hasArray_normals (size : ℕ) :
    (node.serialise .empty).HasArray "normals" size ↔ node.normals ≠ [] ∧ size = 12 * node.normals.length := by
  simp [serialise, serialiseNode, appendBounds, appendVertices, appendFaces, appendNormals, appendUVChannels,
    appendFilterTags, hasArray_ite]

/-- The document of a mesh in the database. -/
def document (node : MeshNode U R) (fileRef : Value (RepoVariant U R)) : Value (RepoVariant U R) :=
  (node.serialise .empty).stored fileRef

theorem document_normals (fileRef : Value (RepoVariant U R)) :
    ((node.document fileRef).get? ["_blobRef", "elements", "normals"]).isSome ↔ node.normals ≠ [] := by
  have hsize : ∀ size, (node.serialise .empty).HasArray "normals" size → size ≠ 0 := by
    intro size harray hzero
    obtain ⟨hne, rfl⟩ := (node.hasArray_normals size).1 harray
    have := List.length_pos_iff.2 hne
    omega
  unfold document
  rw [RepoBSONBuilder.isSome_get?_elements _ _ _ node.fields_serialise.blobRef hsize]
  simp only [hasArray_normals, exists_and_left, exists_eq, and_true]

/-- A mesh of lines and triangles has a primitive. -/
theorem inferPrimitive_eq {faces : List RepoFace} (hne : faces ≠ [])
    (hfaces : ∀ face ∈ faces, face.sides = 2 ∨ face.sides = 3) :
    inferPrimitive faces = .lines ∨ inferPrimitive faces = .triangles := by
  have hkeep : ∀ (faces : List RepoFace) {primitive : Primitive}, primitive ≠ .unknown →
      faces.foldl (fun primitive face =>
        if primitive = .unknown then
          if face.sides = 2 then Primitive.lines else if face.sides = 3 then .triangles else primitive
        else primitive) primitive = primitive := by
    intro faces primitive hprimitive
    induction faces with
    | nil => rfl
    | cons face faces ih => rw [List.foldl_cons, if_neg hprimitive, ih]
  cases faces with
  | nil => exact absurd rfl hne
  | cons face faces =>
    unfold inferPrimitive
    rw [List.foldl_cons, if_pos rfl]
    rcases hfaces face List.mem_cons_self with h | h
    · rw [if_pos h]
      exact .inl (hkeep faces (by decide))
    · rw [if_neg (by omega), if_pos h]
      exact .inr (hkeep faces (by decide))

end MeshNode

end Bouncer
