import Bouncer.Core.MeshGeometry
import Bouncer.Library.Identifiers
import Bouncer.Library.ParentPaths
import Bouncer.Multipart.Supermesh

/-!
# The tree of an imported IFC file

The elements of an IFC file are delivered one by one, and the tree is built around them.  An object may have a leaf node
for its meshes and a branch node for what is below it; both are made on demand, and a branch may be put above a leaf that
is there already.  Below an object that is no element, elements are grouped by their type.

A table has the product of the matrices from the root to each node, so that the vertices of a mesh can be moved into the
space of its parent.
-/

namespace Bouncer.IfcSerialiser

open Library Library.Fallible Library.Identifiers
open MultipartOptimizer (Failure orFail orFail_mapM transformNormals transformNormals_ok)

variable {U R : Type}

/-! ### The file -/

/-- What the schema derives an object from, as far as it matters. -/
inductive ObjectKind where
  | IfcElement
  | IfcSpace
  | other
  deriving DecidableEq

/-- An `IfcObjectDefinition`, with the name and the number of its declaration. -/
structure IfcObject where
  name : String
  declaration : String
  type : ℕ
  kind : ObjectKind

/-- An `IfcRelDecomposes`, with its `RelatingObject`. -/
inductive Composition (Object : Type) where
  | IfcRelNests (relatingObject : Option Object)
  | IfcRelAggregates (relatingObject : Option Object)
  | other

/-- The objects are the instances with the identifiers up to `getMaxId`.  The relations of an object are those that
`getInverse` gives. -/
structure IfcRelations where
  maxId : ℕ
  object : Fin (maxId + 1) → IfcObject
  containedIn : Fin (maxId + 1) → List (Option (Fin (maxId + 1)))
  decomposes : Fin (maxId + 1) → List (Composition (Fin (maxId + 1)))

abbrev IfcRelations.Object (file : IfcRelations) : Type := Fin (file.maxId + 1)

def IfcRelations.getParent (file : IfcRelations) (object : file.Object) : Option file.Object :=
  match (file.containedIn object).findSome? fun relatingStructure =>
      relatingStructure.filter fun p => decide (p ≠ object) with
  | some relatingStructure => some relatingStructure
  | none => (file.decomposes object).findSome? fun
    | .IfcRelNests relatingObject => relatingObject.filter fun p => decide (p ≠ object)
    | .IfcRelAggregates relatingObject => relatingObject.filter fun p => decide (p ≠ object)
    | .other => none

/-- A file in which no object is above itself. -/
structure IfcFile extends IfcRelations where
  acyclic : WellFounded fun p object => toIfcRelations.getParent object = some p

namespace IfcFile

def shouldGroupByType (file : IfcFile) (object : file.Object) (parent : Option file.Object) : Bool :=
  match parent with
  | some parent =>
    decide ((file.object parent).kind ≠ .IfcElement) && decide ((file.object object).kind = .IfcElement)
  | none => false

def nodeName (file : IfcFile) (object : file.Object) : String :=
  if (file.object object).name = "" then (file.object object).declaration else (file.object object).name

/-- The key of the group of a type below an object. -/
def groupId (file : IfcFile) (parent : file.Object) (type : ℕ) : ℕ := file.maxId + parent + type + 1

end IfcFile

/-- What the iterator delivers for an element.  The triangles have the numbers of their materials, of which we keep the
opacities.  The transformation is the placement of a product. -/
structure TriangulationElement (file : IfcFile) (R : Type) [Field R] where
  product : file.Object
  name : String
  transformation : RepoMatrix R
  verts : List (RepoVector3D R)
  normals : List (RepoVector3D R)
  uvs : List (RepoVector2D R)
  faces : List (RepoFace × ℕ)
  opacity : ℕ → R
  affine : transformation.Affine

/-! ### The tree -/

/-- What a transformation node is made for. -/
inductive Origin (file : IfcFile) where
  | root
  | leaf (object : file.Object)
  | branch (object : file.Object)
  | group (parent : file.Object) (type : ℕ)
  deriving DecidableEq

structure TransformationNode (file : IfcFile) (U R : Type) where
  sharedId : U
  name : String
  parentIds : List U
  matrix : RepoMatrix R
  origin : Origin file

structure TransformationNodesInfo (U : Type) where
  branchSharedId : Option U
  leafNode : Option U

/-- A member of the entry with a key. -/
inductive Slot where
  | leaf (key : ℕ)
  | branch (key : ℕ)
  deriving DecidableEq

/-- The nodes of the builder, and what the serialiser remembers. -/
structure ImportState (file : IfcFile) (U R : Type) where
  nodes : List (TransformationNode file U R)
  meshes : List (MeshNode U R)
  sharedIds : ℕ → TransformationNodesInfo U
  parentLocalToWorld : U → RepoMatrix R
  created : ℕ

section Tree

variable [DecidableEq U] [Field R] (createUUID : ℕ → U) {file : IfcFile}

omit [DecidableEq U] in
/-- `createRootNode`. -/
def ImportState.initial (file : IfcFile) : ImportState file U R :=
  { nodes := [⟨createUUID 0, "rootNode", [], 1, .root⟩]
    meshes := []
    sharedIds := fun _ => ⟨none, none⟩
    parentLocalToWorld := fun _ => 1
    created := 1 }

/-- Adds a node below a parent, and inserts the product of the matrices into the table. -/
def ImportState.addNode (state : ImportState file U R) (name : String) (parentId : U) (transformMat : RepoMatrix R)
    (origin : Origin file) : ImportState file U R :=
  { state with
    nodes := state.nodes ++ [⟨createUUID state.created, name, [parentId], transformMat, origin⟩]
    parentLocalToWorld := Function.update state.parentLocalToWorld (createUUID state.created)
      (state.parentLocalToWorld parentId * transformMat)
    created := state.created + 1 }

def ImportState.entry (state : ImportState file U R) : Slot → Option U
  | .leaf key => (state.sharedIds key).leafNode
  | .branch key => (state.sharedIds key).branchSharedId

def ImportState.setEntry (state : ImportState file U R) (slot : Slot) (id : U) : ImportState file U R :=
  { state with sharedIds :=
      match slot with
      | .leaf key => Function.update state.sharedIds key { state.sharedIds key with leafNode := some id }
      | .branch key => Function.update state.sharedIds key { state.sharedIds key with branchSharedId := some id } }

/-- `setParents` of the node with this identifier. -/
def ImportState.setParents (state : ImportState file U R) (id : U) (parentIds : List U) : ImportState file U R :=
  { state with nodes := state.nodes.map fun node =>
      if node.sharedId = id then { node with parentIds := parentIds } else node }

def ImportState.getParentIDs (state : ImportState file U R) (id : U) : List U :=
  ((state.nodes.find? fun node => decide (node.sharedId = id)).map TransformationNode.parentIds).getD []

/-- `getTransformationNode` for a group, below the branch of its parent. -/
def getTypeGroupNode (parent : file.Object) (type : ℕ) (typeName : String) (transformMat : RepoMatrix R)
    (branch : U × ImportState file U R) : U × ImportState file U R :=
  let groupId := file.groupId parent type
  match (branch.2.sharedIds groupId).branchSharedId with
  | some group => (group, branch.2)
  | none =>
    let id := createUUID branch.2.created
    (id, (branch.2.addNode createUUID typeName branch.1 transformMat (.group parent type)).setEntry (.branch groupId)
      id)

/-- `createTransformationNode` for a leaf, and the entry for it. -/
def createLeaf (object : file.Object) (transformMat : RepoMatrix R) (parent : U × ImportState file U R) :
    U × ImportState file U R :=
  let id := createUUID parent.2.created
  (id, (parent.2.addNode createUUID (file.nodeName object) parent.1 transformMat (.leaf object)).setEntry (.leaf object)
    id)

/-- `createTransformationNode` for a branch, and the entry for it. -/
def createBranch (object : file.Object) (transformMat : RepoMatrix R) (parent : U × ImportState file U R) :
    U × ImportState file U R :=
  let id := createUUID parent.2.created
  (id, (parent.2.addNode createUUID (file.nodeName object) parent.1 transformMat (.branch object)).setEntry
    (.branch object) id)

/-- The branch of an object, or its leaf.  The root has the first identifier. -/
def getTransformationNode (object : file.Object) (leafNode : Bool) (transformMat : RepoMatrix R)
    (state : ImportState file U R) : U × ImportState file U R :=
  match leafNode, (state.sharedIds object).leafNode, (state.sharedIds object).branchSharedId with
  | true, some leaf, _ => (leaf, state)
  | false, _, some branch => (branch, state)
  | true, none, some branch => createLeaf createUUID object transformMat (branch, state)
  | false, some leaf, none =>
    -- the branch is put between the leaf and its parent
    let branch := createBranch createUUID object 1 ((state.getParentIDs leaf).headD (createUUID 0), state)
    (branch.1, branch.2.setParents leaf [branch.1])
  | leafNode, none, none =>
    let parent := match _h : file.getParent object with
      | some parent =>
        let branch := getTransformationNode parent false 1 state
        if file.shouldGroupByType object (some parent) then
          getTypeGroupNode createUUID parent (file.object object).type (file.object object).declaration 1 branch
        else branch
      | none => (createUUID 0, state)
    if leafNode then createLeaf createUUID object transformMat parent
    else createBranch createUUID object transformMat parent
termination_by file.acyclic.wrap object

/-- The node that the meshes of an element are put under. -/
def getParentId (object : file.Object) (createTransform : Bool) (transformMat : RepoMatrix R)
    (state : ImportState file U R) : U × ImportState file U R :=
  if createTransform then getTransformationNode createUUID object true transformMat state
  else
    match file.getParent object with
    | some parent =>
      if file.shouldGroupByType object (some parent) then
        getTypeGroupNode createUUID parent (file.object object).type (file.object object).declaration transformMat
          (getTransformationNode createUUID parent false 1 state)
      else getTransformationNode createUUID parent false transformMat state
    | none => (createUUID 0, state)

end Tree

/-! ### Elements -/

section Elements

variable [DecidableEq U] [Inhabited U] [ExactReal R] (createUUID : ℕ → U) {file : IfcFile}

/-- The triangles of each material. -/
def TriangulationElement.facesByMaterial (element : TriangulationElement file R) : List (ℕ × List RepoFace) :=
  (element.faces.map Prod.snd).dedup.map fun material =>
    (material, (element.faces.filter fun face => decide (face.2 = material)).map Prod.fst)

def TriangulationElement.isIfcSpace (element : TriangulationElement file R) : Bool :=
  decide ((file.object element.product).kind = .IfcSpace)

/-- The mesh node for a material; two identifiers are created for each. -/
def makeMeshNode (element : TriangulationElement file R) (parentId : U) (vertices normals : List (RepoVector3D R))
    (created : ℕ) (i : ℕ) (pair : ℕ × List RepoFace) : MeshNode U R :=
  { uniqueId := createUUID (created + 2 * i + 1)
    sharedId := createUUID (created + 2 * i)
    name := if element.isIfcSpace then element.name ++ " (IFC Space)" else ""
    parentIds := [parentId]
    revId := default
    boundingBox := .ofPoints vertices
    vertices := vertices
    faces := pair.2
    normals := normals
    channels := [element.uvs]
    opacity := element.opacity pair.1
    textureId := default
    grouping := "" }

/-- `import` of an element. -/
def importElement (state : ImportState file U R) (element : TriangulationElement file R) :
    Except Failure (ImportState file U R) := do
  let transformed ← element.verts.mapM fun v => orFail .exit (element.transformation.mulVector v)
  if element.faces = [] then return state
  let newSpaceMat := RepoMatrix.translate (RepoBounds.ofPoints transformed).center
  let parent := getParentId createUUID element.product (!element.isIfcSpace) newSpaceMat state
  let parentMat := parent.2.parentLocalToWorld parent.1
  let fullCorrMat : RepoMatrix R := parentMat.inverse * element.transformation
  let vertices ← element.verts.mapM fun v => orFail .exit (fullCorrMat.mulVector v)
  let normals ← transformNormals element.normals fullCorrMat
  return { parent.2 with
    meshes := parent.2.meshes ++
      element.facesByMaterial.mapIdx (makeMeshNode createUUID element parent.1 vertices normals parent.2.created)
    created := parent.2.created + 2 * element.facesByMaterial.length }

/-- `import`, of the elements in the order in which they are delivered. -/
def importElements (elements : List (TriangulationElement file R)) : Except Failure (ImportState file U R) :=
  elements.foldlM (importElement createUUID) (.initial createUUID file)

end Elements

/-! ### Entries of the table of nodes -/

section Entries

variable {file : IfcFile} {state state' : ImportState file U R}

/-- Where the identifier of the node is. -/
def Origin.slot : Origin file → Option Slot
  | .root => none
  | .leaf object => some (.leaf object)
  | .branch object => some (.branch object)
  | .group parent type => some (.branch (file.groupId parent type))

/-- The node that an object is put under: its parent's branch or the group there. -/
def ImportState.place (createUUID : ℕ → U) (state : ImportState file U R) (object : file.Object) : Option U :=
  match file.getParent object with
  | some parent =>
    if file.shouldGroupByType object (some parent) then
      state.entry (.branch (file.groupId parent (file.object object).type))
    else state.entry (.branch parent)
  | none => some (createUUID 0)

/-- The parents that a node should have. -/
def ImportState.parentsOf (createUUID : ℕ → U) (state : ImportState file U R) : Origin file → Option (List U)
  | .root => some []
  | .leaf object => ((state.entry (.branch object)).or (state.place createUUID object)).map fun id => [id]
  | .branch object => (state.place createUUID object).map fun id => [id]
  | .group parent _ => (state.entry (.branch parent)).map fun id => [id]

/-- The identifiers of the nodes. -/
def ImportState.ids (state : ImportState file U R) : List U := state.nodes.map TransformationNode.sharedId

private theorem entry_setEntry (slot slot' : Slot) (id : U) :
    (state.setEntry slot id).entry slot' = if slot' = slot then some id else state.entry slot' := by
  cases slot with
  | leaf key =>
    cases slot' with
    | leaf key' =>
      show ((Function.update state.sharedIds key _) key').leafNode = _
      by_cases h : key' = key
      · subst h
        simp
      · simp [h, ImportState.entry]
    | branch key' =>
      show ((Function.update state.sharedIds key _) key').branchSharedId = _
      by_cases h : key' = key
      · subst h
        simp [ImportState.entry]
      · simp [h, ImportState.entry]
  | branch key =>
    cases slot' with
    | leaf key' =>
      show ((Function.update state.sharedIds key _) key').leafNode = _
      by_cases h : key' = key
      · subst h
        simp [ImportState.entry]
      · simp [h, ImportState.entry]
    | branch key' =>
      show ((Function.update state.sharedIds key _) key').branchSharedId = _
      by_cases h : key' = key
      · subst h
        simp
      · simp [h, ImportState.entry]

theorem origin_of_leaf {origin : Origin file} {object : file.Object} (h : origin.slot = some (.leaf object)) :
    origin = .leaf object := by
  cases origin with
  | leaf x =>
    have hsame : (x : ℕ) = object := Slot.leaf.inj (Option.some.inj h)
    rw [Fin.ext hsame]
  | _ => exact absurd h nofun

/-- The keys of groups are above those of objects. -/
theorem groupId_ne (parent object : file.Object) (type : ℕ) : file.groupId parent type ≠ object := by
  have hlt := object.isLt
  unfold IfcFile.groupId
  omega

theorem origin_of_branch {origin : Origin file} {object : file.Object} (h : origin.slot = some (.branch object)) :
    origin = .branch object := by
  cases origin with
  | branch x =>
    have hsame : (x : ℕ) = object := Slot.branch.inj (Option.some.inj h)
    rw [Fin.ext hsame]
  | group parent type => exact absurd (Slot.branch.inj (Option.some.inj h)) (groupId_ne parent object type)
  | _ => exact absurd h nofun

/-- Entries that are set stay, and so do nodes and their positions. -/
structure Extends (state state' : ImportState file U R) : Prop where
  entry : ∀ slot id, state.entry slot = some id → state'.entry slot = some id
  ids : ∀ id ∈ state.ids, id ∈ state'.ids ∧ state'.parentLocalToWorld id = state.parentLocalToWorld id
  meshes : state'.meshes = state.meshes

theorem Extends.ne_none (h : Extends state state') {slot : Slot} (hne : state.entry slot ≠ none) :
    state'.entry slot ≠ none := by
  obtain ⟨id, hid⟩ := Option.ne_none_iff_exists'.1 hne
  rw [h.entry slot id hid]
  exact nofun

theorem Extends.refl (state : ImportState file U R) : Extends state state :=
  ⟨fun _ _ h => h, fun _ h => ⟨h, rfl⟩, rfl⟩

theorem Extends.trans {state'' : ImportState file U R} (h : Extends state state') (h' : Extends state' state'') :
    Extends state state'' := by
  refine ⟨fun slot id hid => h'.entry slot id (h.entry slot id hid), fun id hid => ?_, h'.meshes.trans h.meshes⟩
  obtain ⟨hmem, hsame⟩ := h.ids id hid
  obtain ⟨hmem', hsame'⟩ := h'.ids id hmem
  exact ⟨hmem', hsame'.trans hsame⟩

section Place

variable {createUUID : ℕ → U} {object parent : file.Object} {q : U}

theorem place_of_none (h : file.getParent object = none) : state.place createUUID object = some (createUUID 0) := by
  rw [ImportState.place, h]

theorem place_of_group (h : file.getParent object = some parent)
    (hgroup : file.shouldGroupByType object (some parent) = true) :
    state.place createUUID object = state.entry (.branch (file.groupId parent (file.object object).type)) := by
  rw [ImportState.place, h]
  exact if_pos hgroup

theorem place_of_parent (h : file.getParent object = some parent)
    (hgroup : file.shouldGroupByType object (some parent) = false) :
    state.place createUUID object = state.entry (.branch parent) := by
  rw [ImportState.place, h]
  exact if_neg (Bool.eq_false_iff.1 hgroup)

theorem place_mono (h : ∀ slot id, state.entry slot = some id → state'.entry slot = some id)
    (hplace : state.place createUUID object = some q) : state'.place createUUID object = some q := by
  cases hparent : file.getParent object with
  | none =>
    rw [place_of_none hparent] at hplace ⊢
    exact hplace
  | some parent =>
    cases hgroup : file.shouldGroupByType object (some parent) with
    | true =>
      rw [place_of_group hparent hgroup] at hplace ⊢
      exact h _ _ hplace
    | false =>
      rw [place_of_parent hparent hgroup] at hplace ⊢
      exact h _ _ hplace

end Place

end Entries

/-! ### The invariant -/

section Invariant

variable [Field R] {createUUID : ℕ → U} {file : IfcFile} {state state' : ImportState file U R}

/-- The product of the matrices from the root to the node with this identifier. -/
def ProductTo (nodes : List (TransformationNode file U R)) : U → RepoMatrix R → Prop :=
  ParentPaths.Product TransformationNode.sharedId TransformationNode.parentIds TransformationNode.matrix nodes

/-- The parent of the object, if there is one, has a branch. -/
def ImportState.HasBranchAbove (state : ImportState file U R) (object : file.Object) : Prop :=
  ∀ parent, file.getParent object = some parent → state.entry (.branch parent) ≠ none

structure Inv (createUUID : ℕ → U) (state : ImportState file U R) : Prop where
  ids : CreatedIn createUUID 0 state.created state.ids
  root : ∃ node ∈ state.nodes, node.sharedId = createUUID 0 ∧ node.origin = .root
  /-- The table has the products, which are translations. -/
  products : ∀ node ∈ state.nodes, ProductTo state.nodes node.sharedId (state.parentLocalToWorld node.sharedId)
  translations : ∀ node ∈ state.nodes, ∃ t, state.parentLocalToWorld node.sharedId = .translate t
  entries : ∀ node ∈ state.nodes, ∀ slot, node.origin.slot = some slot → state.entry slot = some node.sharedId
  found : ∀ slot id, state.entry slot = some id → ∃ node ∈ state.nodes, node.sharedId = id ∧ node.origin.slot = some slot
  parents : ∀ node ∈ state.nodes, state.parentsOf createUUID node.origin = some node.parentIds
  above : ∀ node ∈ state.nodes, ∀ object, node.origin = .leaf object ∨ node.origin = .branch object →
    state.HasBranchAbove object

theorem Inv.root_mem (h : Inv createUUID state) : createUUID 0 ∈ state.ids := by
  obtain ⟨node, hnode, hid, -⟩ := h.root
  exact hid ▸ List.mem_map_of_mem hnode

theorem Inv.entry_mem (h : Inv createUUID state) {slot : Slot} {id : U} (hentry : state.entry slot = some id) :
    id ∈ state.ids := by
  obtain ⟨node, hnode, rfl, -⟩ := h.found slot id hentry
  exact List.mem_map_of_mem hnode

theorem Inv.place_mem (h : Inv createUUID state) {object : file.Object} {q : U}
    (hplace : state.place createUUID object = some q) : q ∈ state.ids := by
  cases hparent : file.getParent object with
  | none =>
    rw [place_of_none hparent] at hplace
    cases hplace
    exact h.root_mem
  | some parent =>
    cases hgroup : file.shouldGroupByType object (some parent) with
    | true =>
      rw [place_of_group hparent hgroup] at hplace
      exact h.entry_mem hplace
    | false =>
      rw [place_of_parent hparent hgroup] at hplace
      exact h.entry_mem hplace

/-- No two nodes share an identifier. -/
theorem Inv.node_ext (h : Inv createUUID state) (hinj : Function.Injective createUUID)
    {node node' : TransformationNode file U R} (hnode : node ∈ state.nodes) (hnode' : node' ∈ state.nodes)
    (hsame : node.sharedId = node'.sharedId) : node = node' :=
  List.inj_on_of_nodup_map (h.ids.nodup hinj) hnode hnode' hsame

theorem Inv.getParentIDs [DecidableEq U] (h : Inv createUUID state) (hinj : Function.Injective createUUID)
    {node : TransformationNode file U R} (hnode : node ∈ state.nodes) :
    state.getParentIDs node.sharedId = node.parentIds := by
  unfold ImportState.getParentIDs
  cases hfind : state.nodes.find? fun other => decide (other.sharedId = node.sharedId) with
  | none =>
    have hne := List.find?_eq_none.1 hfind node hnode
    exact absurd (decide_eq_true rfl) hne
  | some other =>
    obtain rfl := h.node_ext hinj (List.mem_of_find?_eq_some hfind) hnode (of_decide_eq_true (List.find?_some hfind :))
    rfl

theorem inv_initial (file : IfcFile) : Inv createUUID (.initial createUUID file : ImportState file U R) := by
  have hsingle : ∀ node ∈ (ImportState.initial createUUID file : ImportState file U R).nodes,
      node = ⟨createUUID 0, "rootNode", [], 1, .root⟩ := fun node hnode => List.mem_singleton.1 hnode
  refine ⟨createdIn_single le_rfl one_pos, ⟨_, List.mem_singleton_self _, rfl, rfl⟩, ?_, ?_, ?_, ?_, ?_, ?_⟩
  · intro node hnode
    obtain rfl := hsingle node hnode
    exact .root hnode rfl
  · intro node hnode
    exact ⟨0, RepoMatrix.translate_zero.symm⟩
  · intro node hnode slot hslot
    obtain rfl := hsingle node hnode
    exact absurd hslot nofun
  · intro slot id hentry
    cases slot <;> exact absurd hentry nofun
  · intro node hnode
    obtain rfl := hsingle node hnode
    rfl
  · intro node hnode object horigin
    obtain rfl := hsingle node hnode
    rcases horigin with horigin | horigin
    · exact absurd horigin nofun
    · exact absurd horigin nofun

/-- The parents stay as they should be if entries are set, but for the leaf of a new branch. -/
theorem Inv.parentsOf_of_extends (h : Inv createUUID state)
    (hentry : ∀ slot id, state.entry slot = some id → state'.entry slot = some id)
    {node : TransformationNode file U R} (hnode : node ∈ state.nodes)
    (hbranch : ∀ object, node.origin = .leaf object →
      state'.entry (.branch object) = state.entry (.branch object)) :
    state'.parentsOf createUUID node.origin = some node.parentIds := by
  have hparents := h.parents node hnode
  cases horigin : node.origin with
  | root =>
    rw [horigin] at hparents
    exact hparents
  | leaf object =>
    rw [horigin] at hparents
    unfold ImportState.parentsOf at hparents ⊢
    dsimp only at hparents ⊢
    rw [hbranch object horigin]
    cases hb : state.entry (.branch object) with
    | some b =>
      rw [hb] at hparents
      exact hparents
    | none =>
      rw [hb] at hparents
      obtain ⟨q, hq, hsome⟩ := Option.map_eq_some_iff.1 hparents
      have hq : state.place createUUID object = some q := hq
      rw [Option.none_or, place_mono hentry hq]
      exact congrArg some hsome
  | branch object =>
    rw [horigin] at hparents
    obtain ⟨q, hq, hsome⟩ := Option.map_eq_some_iff.1 hparents
    unfold ImportState.parentsOf
    dsimp only
    rw [place_mono hentry hq]
    exact congrArg some hsome
  | group parent type =>
    rw [horigin] at hparents
    obtain ⟨q, hq, hsome⟩ := Option.map_eq_some_iff.1 hparents
    unfold ImportState.parentsOf
    dsimp only
    rw [hentry _ _ hq]
    exact congrArg some hsome

end Invariant

/-! ### A new node -/

section AddsNode

variable [DecidableEq U] [Field R] {createUUID : ℕ → U} {file : IfcFile} {state state' : ImportState file U R}

/-- There is one more node, with its entry.  If its matrix is one, then nodes below its parent may be put below it. -/
structure AddsNode (createUUID : ℕ → U) (state state' : ImportState file U R) (new : TransformationNode file U R)
    (slot : Slot) (parentId : U) : Prop where
  sharedId : new.sharedId = createUUID state.created
  parentIds : new.parentIds = [parentId]
  originSlot : new.origin.slot = some slot
  nodes : ∃ f : TransformationNode file U R → TransformationNode file U R,
    state'.nodes = state.nodes.map f ++ [new] ∧ ∀ node ∈ state.nodes,
    (f node).sharedId = node.sharedId ∧ (f node).origin = node.origin ∧ (f node).matrix = node.matrix ∧
      ((f node).parentIds = node.parentIds ∨
        node.parentIds = [parentId] ∧ new.matrix = 1 ∧ (f node).parentIds = [new.sharedId])
  table : state'.parentLocalToWorld = Function.update state.parentLocalToWorld new.sharedId
    (state.parentLocalToWorld parentId * new.matrix)
  created : state'.created = state.created + 1
  entry : ∀ slot', state'.entry slot' = if slot' = slot then some new.sharedId else state.entry slot'
  meshes : state'.meshes = state.meshes

variable {new : TransformationNode file U R} {slot : Slot} {parentId : U}

section AddedNode

variable (h : AddsNode createUUID state state' new slot parentId)
include h

theorem AddsNode.not_mem (hinv : Inv createUUID state)
    (hinj : Function.Injective createUUID) : new.sharedId ∉ state.ids := by
  rw [h.sharedId]
  exact hinv.ids.not_mem_of_le hinj le_rfl

theorem AddsNode.ids : state'.ids = state.ids ++ [new.sharedId] := by
  obtain ⟨f, hnodes, hf⟩ := h.nodes
  rw [ImportState.ids, hnodes, List.map_append, List.map_map]
  refine congrArg (· ++ [new.sharedId]) (List.map_congr_left fun node hnode => ?_)
  exact (hf node hnode).1

theorem AddsNode.table_of_mem (hinv : Inv createUUID state)
    (hinj : Function.Injective createUUID) {id : U} (hid : id ∈ state.ids) :
    state'.parentLocalToWorld id = state.parentLocalToWorld id := by
  rw [h.table, Function.update_of_ne]
  rintro rfl
  exact h.not_mem hinv hinj hid

theorem AddsNode.extends (hinv : Inv createUUID state)
    (hinj : Function.Injective createUUID) (hfree : state.entry slot = none) : Extends state state' := by
  refine ⟨fun slot' id hid => ?_, fun id hid => ⟨?_, h.table_of_mem hinv hinj hid⟩, h.meshes⟩
  · rw [h.entry, if_neg]
    · exact hid
    · rintro rfl
      rw [hfree] at hid
      exact absurd hid nofun
  · rw [h.ids]
    exact List.mem_append_left _ hid

theorem AddsNode.inv (hinv : Inv createUUID state)
    (hinj : Function.Injective createUUID) (hfree : state.entry slot = none) (hparent : parentId ∈ state.ids)
    (hmatrix : ∃ t, new.matrix = .translate t)
    (hparents : ∀ node ∈ state'.nodes, state'.parentsOf createUUID node.origin = some node.parentIds)
    (habove : ∀ object, new.origin = .leaf object ∨ new.origin = .branch object → state.HasBranchAbove object) :
    Inv createUUID state' := by
  have hids := h.ids
  have hextends := h.extends hinv hinj hfree
  obtain ⟨f, hnodes, hf⟩ := h.nodes
  have hnew : new ∈ state'.nodes := by
    rw [hnodes]
    exact List.mem_append_right _ (List.mem_singleton_self _)
  have hold : ∀ node ∈ state.nodes, f node ∈ state'.nodes := fun node hnode => by
    rw [hnodes]
    exact List.mem_append_left _ (List.mem_map_of_mem hnode)
  -- a node is an old one, which may have been moved, or the new one
  have hcases : ∀ node ∈ state'.nodes, (∃ old ∈ state.nodes, f old = node) ∨ node = new := by
    intro node hnode
    rw [hnodes] at hnode
    rcases List.mem_append.1 hnode with hnode | hnode
    · exact .inl (List.mem_map.1 hnode)
    · exact .inr (List.mem_singleton.1 hnode)
  have hproducts : ∀ {k : U} {m : RepoMatrix R}, ProductTo state.nodes k m → ProductTo state'.nodes k m := by
    intro k m hproduct
    refine ParentPaths.Product.insert (fun node hnode => ?_) hproduct
    obtain ⟨hid, -, hmatrix, hparent⟩ := hf node hnode
    refine ⟨f node, hold node hnode, hid, hmatrix, hparent.imp_right ?_⟩
    rintro ⟨hbelow, hone, hmoved⟩
    exact ⟨new, hnew, parentId, hbelow, h.parentIds, hone, hmoved⟩
  obtain ⟨upper, hupper, rfl⟩ := List.mem_map.1 hparent
  have hlast : state'.parentLocalToWorld new.sharedId = state.parentLocalToWorld upper.sharedId * new.matrix := by
    rw [h.table, Function.update_self]
  refine ⟨?_, ?_, ?_, ?_, ?_, ?_, hparents, ?_⟩
  · rw [hids, h.created, h.sharedId]
    exact hinv.ids.append (createdIn_single le_rfl (Nat.lt_succ_self _)) (Nat.zero_le _) (Nat.le_succ _)
  · obtain ⟨node, hnode, hid, horigin⟩ := hinv.root
    obtain ⟨hsame, hsame', -⟩ := hf node hnode
    exact ⟨f node, hold node hnode, hsame.trans hid, hsame'.trans horigin⟩
  · intro node hnode
    rcases hcases node hnode with ⟨old, hmem, rfl⟩ | rfl
    · rw [(hf old hmem).1, (hextends.ids _ (List.mem_map_of_mem hmem)).2]
      exact hproducts (hinv.products old hmem)
    · rw [hlast]
      exact .child hnew h.parentIds (hproducts (hinv.products upper hupper))
  · intro node hnode
    rcases hcases node hnode with ⟨old, hmem, rfl⟩ | rfl
    · rw [(hf old hmem).1, (hextends.ids _ (List.mem_map_of_mem hmem)).2]
      exact hinv.translations old hmem
    · obtain ⟨t, ht⟩ := hinv.translations upper hupper
      obtain ⟨t', ht'⟩ := hmatrix
      rw [hlast, ht, ht']
      exact ⟨t' + t, RepoMatrix.translate_mul_translate t t'⟩
  · intro node hnode slot' hslot'
    rcases hcases node hnode with ⟨old, hmem, rfl⟩ | rfl
    · obtain ⟨hid, horigin, -⟩ := hf old hmem
      rw [horigin] at hslot'
      rw [hid]
      exact hextends.entry _ _ (hinv.entries old hmem slot' hslot')
    · obtain rfl : slot = slot' := Option.some.inj (h.originSlot.symm.trans hslot')
      rw [h.entry, if_pos rfl]
  · intro slot' id hid
    rw [h.entry] at hid
    by_cases hslot : slot' = slot
    · rw [if_pos hslot] at hid
      cases hid
      exact ⟨new, hnew, rfl, hslot ▸ h.originSlot⟩
    · rw [if_neg hslot] at hid
      obtain ⟨old, hmem, hid, hslot'⟩ := hinv.found slot' id hid
      obtain ⟨hsame, horigin, -⟩ := hf old hmem
      exact ⟨f old, hold old hmem, hsame.trans hid, by rw [horigin, hslot']⟩
  · intro node hnode object horigin parent hparent
    refine hextends.ne_none ?_
    rcases hcases node hnode with ⟨old, hmem, rfl⟩ | rfl
    · rw [(hf old hmem).2.1] at horigin
      exact hinv.above old hmem object horigin parent hparent
    · exact habove object horigin parent hparent

end AddedNode

variable (createUUID) in
private theorem addsNode_addNode (state : ImportState file U R) (name : String) (parentId : U) (transformMat : RepoMatrix R)
    (origin : Origin file) (hslot : origin.slot = some slot) :
    AddsNode createUUID state
      ((state.addNode createUUID name parentId transformMat origin).setEntry slot (createUUID state.created))
      ⟨createUUID state.created, name, [parentId], transformMat, origin⟩ slot parentId where
  sharedId := rfl
  parentIds := rfl
  originSlot := hslot
  nodes := ⟨id, by rw [List.map_id]; rfl, fun _ _ => ⟨rfl, rfl, rfl, .inl rfl⟩⟩
  table := rfl
  created := rfl
  entry := fun slot' => by
    rw [entry_setEntry]
    cases slot' <;> rfl
  meshes := rfl

/-- The same, if then a node without a matrix of its own is put above another one. -/
theorem addsNode_setParents (hinv : Inv createUUID state) (hinj : Function.Injective createUUID) (name : String)
    (origin : Origin file) (hslot : origin.slot = some slot) {below : U}
    (hbelow : ∀ node ∈ state.nodes, node.sharedId = below → node.parentIds = [parentId]) (hmem : below ∈ state.ids) :
    AddsNode createUUID state
      (((state.addNode createUUID name parentId 1 origin).setEntry slot (createUUID state.created)).setParents below
        [createUUID state.created])
      ⟨createUUID state.created, name, [parentId], 1, origin⟩ slot parentId where
  sharedId := rfl
  parentIds := rfl
  originSlot := hslot
  nodes := by
    have hne : createUUID state.created ≠ below := by
      rintro rfl
      exact hinv.ids.not_mem_of_le hinj le_rfl hmem
    refine ⟨fun node => if node.sharedId = below then { node with parentIds := [createUUID state.created] } else node, ?_,
      fun node hnode => ?_⟩
    · show (state.nodes ++ [_]).map _ = _
      rw [List.map_append, List.map_singleton, if_neg hne]
    · dsimp only
      by_cases hid : node.sharedId = below
      · rw [if_pos hid]
        exact ⟨rfl, rfl, rfl, .inr ⟨hbelow node hnode hid, rfl, rfl⟩⟩
      · rw [if_neg hid]
        exact ⟨rfl, rfl, rfl, .inl rfl⟩
  table := rfl
  created := rfl
  entry := fun slot' => by
    have hsame : ∀ (state : ImportState file U R) ids, (state.setParents below ids).entry slot' = state.entry slot' := by
      intro state ids
      cases slot' <;> rfl
    rw [hsame, entry_setEntry]
    cases slot' <;> rfl
  meshes := rfl

end AddsNode

/-! ### What is made on demand -/

/-- The first object is the second one, or above it. -/
def Above {file : IfcFile} (object below : file.Object) : Prop :=
  Relation.ReflTransGen (fun a b => file.getParent a = some b) below object

/-- What may be made when a node for the object is asked for. -/
def CausedBy {file : IfcFile} (object : file.Object) : Origin file → Prop
  | .root => False
  | .leaf x => Above x object
  | .branch x => Above x object
  | .group parent type => ∃ x, Above x object ∧ file.getParent x = some parent ∧
    file.shouldGroupByType x (some parent) = true ∧ (file.object x).type = type

section Reaches

variable [DecidableEq U] [Field R] {createUUID : ℕ → U} {file : IfcFile} {state state' : ImportState file U R}
  {P Q : Origin file → Prop}

structure Reaches (createUUID : ℕ → U) (P : Origin file → Prop) (state state' : ImportState file U R) : Prop where
  inv : Inv createUUID state'
  extends_ : Extends state state'
  origins : ∀ node ∈ state'.nodes, (∃ old ∈ state.nodes, old.origin = node.origin) ∨ P node.origin

omit [DecidableEq U] in
theorem Reaches.refl (h : Inv createUUID state) : Reaches createUUID P state state :=
  ⟨h, .refl state, fun node hnode => .inl ⟨node, hnode, rfl⟩⟩

omit [DecidableEq U] in
theorem Reaches.trans {state'' : ImportState file U R} (h : Reaches createUUID P state state')
    (h' : Reaches createUUID P state' state'') : Reaches createUUID P state state'' := by
  refine ⟨h'.inv, h.extends_.trans h'.extends_, fun node hnode => ?_⟩
  rcases h'.origins node hnode with ⟨mid, hmid, horigin⟩ | hP
  · rw [← horigin]
    exact h.origins mid hmid
  · exact .inr hP

omit [DecidableEq U] in
theorem Reaches.mono (h : Reaches createUUID P state state') (hPQ : ∀ origin, P origin → Q origin) :
    Reaches createUUID Q state state' :=
  ⟨h.inv, h.extends_, fun node hnode => (h.origins node hnode).imp_right (hPQ _)⟩

omit [DecidableEq U] in
private theorem Reaches.entry_eq_none (h : Reaches createUUID P state state') (hinv : Inv createUUID state) {slot : Slot}
    (hfree : state.entry slot = none) (hP : ∀ origin, P origin → origin.slot ≠ some slot) : state'.entry slot = none := by
  by_contra hsome
  obtain ⟨id, hid⟩ := Option.ne_none_iff_exists'.1 hsome
  obtain ⟨node, hnode, -, hslot⟩ := h.inv.found slot id hid
  rcases h.origins node hnode with ⟨old, hold, horigin⟩ | hmade
  · rw [hinv.entries old hold slot (horigin ▸ hslot)] at hfree
    exact absurd hfree nofun
  · exact hP _ hmade hslot

private theorem AddsNode.reaches {new : TransformationNode file U R} {slot : Slot} {parentId : U}
    (h : AddsNode createUUID state state' new slot parentId) (hinv : Inv createUUID state)
    (hinj : Function.Injective createUUID) (hfree : state.entry slot = none) (hparent : parentId ∈ state.ids)
    (hmatrix : ∃ t, new.matrix = .translate t)
    (hparents : ∀ node ∈ state'.nodes, state'.parentsOf createUUID node.origin = some node.parentIds)
    (habove : ∀ object, new.origin = .leaf object ∨ new.origin = .branch object → state.HasBranchAbove object)
    (hP : P new.origin) : Reaches createUUID P state state' ∧ state'.entry slot = some new.sharedId := by
  refine ⟨⟨h.inv hinv hinj hfree hparent hmatrix hparents habove, h.extends hinv hinj hfree, fun node hnode => ?_⟩, ?_⟩
  · obtain ⟨f, hnodes, hf⟩ := h.nodes
    rw [hnodes] at hnode
    rcases List.mem_append.1 hnode with hnode | hnode
    · obtain ⟨old, hold, rfl⟩ := List.mem_map.1 hnode
      exact .inl ⟨old, hold, (hf old hold).2.1.symm⟩
    · rw [List.mem_singleton.1 hnode]
      exact .inr hP
  · rw [h.entry, if_pos rfl]

omit [DecidableEq U] [Field R] in
private theorem parentsOf_leaf {object : file.Object} {q : U}
    (h : (state.entry (.branch object)).or (state.place createUUID object) = some q) :
    state.parentsOf createUUID (.leaf object) = some [q] := congrArg (Option.map fun id => [id]) h

omit [DecidableEq U] [Field R] in
private theorem parentsOf_branch {object : file.Object} {q : U} (h : state.place createUUID object = some q) :
    state.parentsOf createUUID (.branch object) = some [q] := congrArg (Option.map fun id => [id]) h

variable {transformMat : RepoMatrix R}

/-- A leaf, below the branch of its object or at its place. -/
theorem createLeaf_reaches (hinj : Function.Injective createUUID) {object : file.Object}
    (parent : U × ImportState file U R) (hinv : Inv createUUID parent.2)
    (hfree : parent.2.entry (.leaf object) = none)
    (hparent : (parent.2.entry (.branch object)).or (parent.2.place createUUID object) = some parent.1)
    (habove : parent.2.HasBranchAbove object) (hmatrix : ∃ t, transformMat = .translate t) :
    Reaches createUUID (CausedBy object) parent.2 (createLeaf createUUID object transformMat parent).2 ∧
      (createLeaf createUUID object transformMat parent).2.entry (.leaf object) =
        some (createLeaf createUUID object transformMat parent).1 := by
  have hadds := addsNode_addNode createUUID parent.2 (file.nodeName object) parent.1 transformMat (.leaf object) rfl
  have hmem : parent.1 ∈ parent.2.ids := by
    rcases Option.or_eq_some_iff.1 hparent with hbranch | ⟨-, hplace⟩
    · exact hinv.entry_mem hbranch
    · exact hinv.place_mem hplace
  have hextends := hadds.extends hinv hinj hfree
  refine hadds.reaches hinv hinj hfree hmem hmatrix (fun node hnode => ?_) (fun x hx => ?_) .refl
  rcases List.mem_append.1 hnode with hold | hnew
  · refine hinv.parentsOf_of_extends hextends.entry hold fun x _ => ?_
    rw [hadds.entry, if_neg nofun]
  · rw [List.mem_singleton.1 hnew]
    refine parentsOf_leaf ?_
    rw [hadds.entry, if_neg nofun]
    rcases Option.or_eq_some_iff.1 hparent with hbranch | ⟨hnone, hplace⟩
    · exact Option.or_eq_some_iff.2 (.inl hbranch)
    · exact Option.or_eq_some_iff.2 (.inr ⟨hnone, place_mono hextends.entry hplace⟩)
  · rcases hx with hx | hx
    · exact Origin.leaf.inj hx ▸ habove
    · exact absurd hx nofun

/-- A branch, if the object has no leaf yet. -/
theorem createBranch_reaches (hinj : Function.Injective createUUID) {object : file.Object}
    (parent : U × ImportState file U R) (hinv : Inv createUUID parent.2)
    (hleaf : parent.2.entry (.leaf object) = none) (hfree : parent.2.entry (.branch object) = none)
    (hparent : parent.2.place createUUID object = some parent.1) (habove : parent.2.HasBranchAbove object)
    (hmatrix : ∃ t, transformMat = .translate t) :
    Reaches createUUID (CausedBy object) parent.2 (createBranch createUUID object transformMat parent).2 ∧
      (createBranch createUUID object transformMat parent).2.entry (.branch object) =
        some (createBranch createUUID object transformMat parent).1 := by
  have hadds := addsNode_addNode createUUID parent.2 (file.nodeName object) parent.1 transformMat (.branch object) rfl
  have hextends := hadds.extends hinv hinj hfree
  refine hadds.reaches hinv hinj hfree (hinv.place_mem hparent) hmatrix (fun node hnode => ?_) (fun x hx => ?_) .refl
  rcases List.mem_append.1 hnode with hold | hnew
  · refine hinv.parentsOf_of_extends hextends.entry hold fun x hx => ?_
    have hne : Slot.branch x ≠ .branch object := by
      intro hsame
      obtain rfl : x = object := Fin.ext (Slot.branch.inj hsame)
      rw [hinv.entries node hold _ (by rw [hx]; rfl)] at hleaf
      exact absurd hleaf nofun
    rw [hadds.entry, if_neg hne]
  · rw [List.mem_singleton.1 hnew]
    exact parentsOf_branch (place_mono hextends.entry hparent)
  · rcases hx with hx | hx
    · exact absurd hx nofun
    · exact Origin.branch.inj hx ▸ habove

/-- A branch that is put above the leaf of its object. -/
theorem createBranch_setParents_reaches (hinj : Function.Injective createUUID) {object : file.Object}
    (hinv : Inv createUUID state) {leaf : U} (hleaf : state.entry (.leaf object) = some leaf)
    (hfree : state.entry (.branch object) = none) :
    let branch := createBranch createUUID object 1 ((state.getParentIDs leaf).headD (createUUID 0), state)
    Reaches createUUID (CausedBy object) state (branch.2.setParents leaf [branch.1]) ∧
      (branch.2.setParents leaf [branch.1]).entry (.branch object) = some branch.1 := by
  obtain ⟨below, hbelow, rfl, hslot⟩ := hinv.found _ _ hleaf
  have horigin := origin_of_leaf hslot
  -- the leaf is at the place of the object
  have hparents := hinv.parents below hbelow
  rw [horigin, ImportState.parentsOf, hfree, Option.none_or] at hparents
  obtain ⟨q, hplace, hq⟩ := Option.map_eq_some_iff.1 hparents
  rw [hinv.getParentIDs hinj hbelow, ← hq]
  have honly : ∀ node ∈ state.nodes, node.sharedId = below.sharedId → node.parentIds = [q] := by
    intro node hnode hsame
    rw [hinv.node_ext hinj hnode hbelow hsame, hq]
  have hadds := addsNode_setParents hinv hinj (file.nodeName object) (.branch object) rfl honly
    (List.mem_map_of_mem hbelow)
  have hextends := hadds.extends hinv hinj hfree
  have habove : ∀ x, Origin.branch object = .leaf x ∨ Origin.branch object = .branch x → state.HasBranchAbove x := by
    rintro x (hx | hx)
    · exact absurd hx nofun
    · exact Origin.branch.inj hx ▸ hinv.above below hbelow object (.inl horigin)
  refine hadds.reaches hinv hinj hfree (hinv.place_mem hplace) ⟨0, RepoMatrix.translate_zero.symm⟩ (fun node hnode => ?_)
    habove .refl
  obtain ⟨old, hold, rfl⟩ := List.mem_map.1 hnode
  have hcases : old ∈ state.nodes ∨ _ := List.mem_append.1 hold
  rcases hcases with hmem | hnew
  · by_cases hsame : old.sharedId = below.sharedId
    · obtain rfl := hinv.node_ext hinj hmem hbelow hsame
      rw [if_pos rfl]
      dsimp only
      rw [horigin]
      refine parentsOf_leaf ?_
      rw [hadds.entry, if_pos rfl]
      rfl
    · rw [if_neg hsame]
      refine hinv.parentsOf_of_extends hextends.entry hmem fun x hx => ?_
      have hne : Slot.branch x ≠ .branch object := by
        intro hkeys
        obtain rfl : x = object := Fin.ext (Slot.branch.inj hkeys)
        have hentry := hinv.entries old hmem _ (by rw [hx]; rfl)
        rw [hleaf] at hentry
        exact hsame (Option.some.inj hentry).symm
      rw [hadds.entry, if_neg hne]
  · rw [List.mem_singleton.1 hnew]
    have hne : createUUID state.created ≠ below.sharedId := fun hsame =>
      hinv.ids.not_mem_of_le hinj le_rfl (hsame ▸ List.mem_map_of_mem hbelow)
    rw [if_neg hne]
    exact parentsOf_branch (place_mono hextends.entry hplace)

variable {branch : U × ImportState file U R}

/-- The group of a type. -/
theorem getTypeGroupNode_reaches (hinj : Function.Injective createUUID) {parent : file.Object} (type : ℕ)
    (typeName : String)
    (hinv : Inv createUUID branch.2) (hbranch : branch.2.entry (.branch parent) = some branch.1)
    (hmatrix : ∃ t, transformMat = .translate t) (hP : P (.group parent type)) :
    let group := getTypeGroupNode createUUID parent type typeName transformMat branch
    Reaches createUUID P branch.2 group.2 ∧ group.2.entry (.branch (file.groupId parent type)) = some group.1 := by
  unfold getTypeGroupNode
  cases hgroup : (branch.2.sharedIds (file.groupId parent type)).branchSharedId with
  | some group =>
    simp only [hgroup]
    exact ⟨.refl hinv, hgroup⟩
  | none =>
    simp only [hgroup]
    have hfree : branch.2.entry (.branch (file.groupId parent type)) = none := hgroup
    have hadds := addsNode_addNode createUUID branch.2 typeName branch.1 transformMat (.group parent type) rfl
    have hextends := hadds.extends hinv hinj hfree
    have habove : ∀ x, Origin.group parent type = .leaf x ∨ Origin.group parent type = .branch x →
        branch.2.HasBranchAbove x := by
      rintro x (hx | hx)
      · exact absurd hx nofun
      · exact absurd hx nofun
    refine hadds.reaches hinv hinj hfree (hinv.entry_mem hbranch) hmatrix (fun node hnode => ?_) habove hP
    rcases List.mem_append.1 hnode with hold | hnew
    · refine hinv.parentsOf_of_extends hextends.entry hold fun x _ => ?_
      have hne : Slot.branch x ≠ .branch (file.groupId parent type) := fun hkeys =>
        groupId_ne parent x type (Slot.branch.inj hkeys).symm
      rw [hadds.entry, if_neg hne]
    · rw [List.mem_singleton.1 hnew]
      exact congrArg (Option.map fun id => [id]) (hextends.entry _ _ hbranch)

private theorem above_of_parent {x object parent : file.Object} (h : Above x parent) (hparent : file.getParent object = some parent) :
    Above x object := .head hparent h

variable {object parent : file.Object}

private theorem not_above_parent (hparent : file.getParent object = some parent) :
    ¬ Above object parent := by
  intro h
  have hcycle : Relation.TransGen (fun a b => file.getParent a = some b) object object :=
    Relation.TransGen.head' hparent h
  exact file.acyclic.transGen.irrefl.irrefl object (Relation.transGen_swap.1 hcycle)

/-- What may be made before the nodes of the object itself. -/
def CausedAbove (object : file.Object) (origin : Origin file) : Prop :=
  CausedBy object origin ∧ origin.slot ≠ some (.leaf object) ∧ origin.slot ≠ some (.branch object)

theorem CausedBy.above (hparent : file.getParent object = some parent)
    {origin : Origin file} (h : CausedBy parent origin) : CausedAbove object origin := by
  have hne : ∀ x : file.Object, Above x parent → x ≠ object := by
    rintro x habove rfl
    exact not_above_parent hparent habove
  refine ⟨?_, fun hleaf => ?_, fun hbranch => ?_⟩
  · cases origin with
    | root => exact h
    | leaf x => exact above_of_parent h hparent
    | branch x => exact above_of_parent h hparent
    | group p type =>
      obtain ⟨x, habove, hrest⟩ := h
      exact ⟨x, above_of_parent habove hparent, hrest⟩
  · rw [origin_of_leaf hleaf] at h
    exact hne object h rfl
  · rw [origin_of_branch hbranch] at h
    exact hne object h rfl

private theorem causedAbove_group (hparent : file.getParent object = some parent)
    (hgroup : file.shouldGroupByType object (some parent) = true) :
    CausedAbove object (.group parent (file.object object).type) := by
  refine ⟨⟨object, .refl, hparent, hgroup, rfl⟩, nofun, fun hslot => ?_⟩
  exact groupId_ne parent object _ (Slot.branch.inj (Option.some.inj hslot))

omit [DecidableEq U] in
private theorem placed_of_parent (hparent : file.getParent object = some parent)
    (hgroup : file.shouldGroupByType object (some parent) = false)
    (hreaches : Reaches createUUID (CausedBy parent) state branch.2)
    (hbranch : branch.2.entry (.branch parent) = some branch.1) :
    Reaches createUUID (CausedAbove object) state branch.2 ∧ branch.2.place createUUID object = some branch.1 ∧
      branch.2.HasBranchAbove object := by
  refine ⟨hreaches.mono fun _ => CausedBy.above hparent, (place_of_parent hparent hgroup).trans hbranch, ?_⟩
  intro p hp
  obtain rfl : parent = p := Option.some.inj (hparent.symm.trans hp)
  rw [hbranch]
  exact nofun

private theorem placed_of_group (hinj : Function.Injective createUUID)
    (hparent : file.getParent object = some parent) (hgroup : file.shouldGroupByType object (some parent) = true)
    (hreaches : Reaches createUUID (CausedBy parent) state branch.2)
    (hbranch : branch.2.entry (.branch parent) = some branch.1)
    (hmatrix : ∃ t, transformMat = .translate t) (typeName : String) :
    let group := getTypeGroupNode createUUID parent (file.object object).type typeName transformMat branch
    Reaches createUUID (CausedAbove object) state group.2 ∧ group.2.place createUUID object = some group.1 ∧
      group.2.HasBranchAbove object := by
  have hmade := getTypeGroupNode_reaches (P := CausedAbove object) hinj (file.object object).type typeName hreaches.inv
    hbranch hmatrix (causedAbove_group hparent hgroup)
  refine ⟨(hreaches.mono fun _ => CausedBy.above hparent).trans hmade.1, (place_of_group hparent hgroup).trans hmade.2, ?_⟩
  intro p hp
  obtain rfl : parent = p := Option.some.inj (hparent.symm.trans hp)
  rw [hmade.1.extends_.entry _ _ hbranch]
  exact nofun

private theorem exists_translate_one : ∃ t : RepoVector3D R, (1 : RepoMatrix R) = .translate t :=
  ⟨0, RepoMatrix.translate_zero.symm⟩

/-- What is asked for is there afterwards. -/
theorem getTransformationNode_reaches (hinj : Function.Injective createUUID) (object : file.Object) :
    ∀ (leafNode : Bool) (transformMat : RepoMatrix R) (state : ImportState file U R), Inv createUUID state →
      (∃ t, transformMat = .translate t) →
        Reaches createUUID (CausedBy object) state
            (getTransformationNode createUUID object leafNode transformMat state).2 ∧
          (getTransformationNode createUUID object leafNode transformMat state).2.entry
              (if leafNode then .leaf object else .branch object) =
            some (getTransformationNode createUUID object leafNode transformMat state).1 := by
  induction object using file.acyclic.induction with
  | _ object ih =>
    intro leafNode transformMat state hinv hmatrix
    rw [getTransformationNode.eq_def]
    cases hleaf : (state.sharedIds object).leafNode with
    | some leaf =>
      cases leafNode with
      | true => exact ⟨.refl hinv, hleaf⟩
      | false =>
        cases hbranch : (state.sharedIds object).branchSharedId with
        | some branch => exact ⟨.refl hinv, hbranch⟩
        | none => exact createBranch_setParents_reaches hinj hinv hleaf hbranch
    | none =>
      cases hbranch : (state.sharedIds object).branchSharedId with
      | some branch =>
        cases leafNode with
        | true =>
          obtain ⟨node, hnode, -, hslot⟩ := hinv.found (.branch object) branch hbranch
          have habove := hinv.above node hnode object (.inr (origin_of_branch hslot))
          exact createLeaf_reaches hinj (branch, state) hinv hleaf (Option.or_eq_some_iff.2 (.inl hbranch)) habove hmatrix
        | false => exact ⟨.refl hinv, hbranch⟩
      | none =>
        -- the place of the object
        obtain ⟨place, hplaced, hreaches, hplace, habove⟩ : ∃ place : U × ImportState file U R,
            (match _h : file.getParent object with
            | some parent =>
              let branch := getTransformationNode createUUID parent false 1 state
              if file.shouldGroupByType object (some parent) then
                getTypeGroupNode createUUID parent (file.object object).type (file.object object).declaration 1 branch
              else branch
            | none => (createUUID 0, state)) = place ∧ Reaches createUUID (CausedAbove object) state place.2 ∧
              place.2.place createUUID object = some place.1 ∧ place.2.HasBranchAbove object := by
          refine ⟨_, rfl, ?_⟩
          split
          · next parent hparent =>
            obtain ⟨hreaches, hentry⟩ := ih parent hparent false 1 state hinv exists_translate_one
            cases hgroup : file.shouldGroupByType object (some parent) with
            | true => exact placed_of_group hinj hparent hgroup hreaches hentry exists_translate_one _
            | false => exact placed_of_parent hparent hgroup hreaches hentry
          · next hparent =>
            refine ⟨.refl hinv, place_of_none hparent, fun p hp => ?_⟩
            rw [hparent] at hp
            exact absurd hp nofun
        have hleaf := hreaches.entry_eq_none hinv (show state.entry (.leaf object) = none from hleaf) fun _ h => h.2.1
        have hbranch := hreaches.entry_eq_none hinv (show state.entry (.branch object) = none from hbranch) fun _ h => h.2.2
        have hreaches := hreaches.mono fun _ h => h.1
        dsimp only
        rw [hplaced]
        cases leafNode with
        | true =>
          have hmade := createLeaf_reaches hinj place hreaches.inv hleaf
            (Option.or_eq_some_iff.2 (.inr ⟨hbranch, hplace⟩)) habove hmatrix
          exact ⟨hreaches.trans hmade.1, hmade.2⟩
        | false =>
          have hmade := createBranch_reaches hinj place hreaches.inv hleaf hbranch hplace habove hmatrix
          exact ⟨hreaches.trans hmade.1, hmade.2⟩

/-- The node that the meshes of an element should be under. -/
def ImportState.target (createUUID : ℕ → U) (state : ImportState file U R) (object : file.Object)
    (createTransform : Bool) : Option U :=
  if createTransform then state.entry (.leaf object) else state.place createUUID object

/-- What may be made for an element. -/
def CausedByElement (object : file.Object) (createTransform : Bool) (origin : Origin file) : Prop :=
  if createTransform then CausedBy object origin else CausedAbove object origin

omit [DecidableEq U] in
theorem Inv.target_mem (h : Inv createUUID state) {object : file.Object} {createTransform : Bool} {q : U}
    (htarget : state.target createUUID object createTransform = some q) : q ∈ state.ids := by
  cases createTransform with
  | true =>
    have htarget : state.entry (.leaf object) = some q := htarget
    exact h.entry_mem htarget
  | false => exact h.place_mem htarget

theorem getParentId_reaches (hinj : Function.Injective createUUID) (object : file.Object) (createTransform : Bool)
    (hinv : Inv createUUID state) (hmatrix : ∃ t, transformMat = .translate t) :
    let parent := getParentId createUUID object createTransform transformMat state
    Reaches createUUID (CausedByElement object createTransform) state parent.2 ∧
      parent.2.target createUUID object createTransform = some parent.1 := by
  cases createTransform with
  | true => exact getTransformationNode_reaches hinj object true transformMat state hinv hmatrix
  | false =>
    show Reaches createUUID (CausedAbove object) _ _ ∧ ImportState.place _ _ _ = _
    unfold getParentId
    rw [if_neg Bool.false_ne_true]
    cases hparent : file.getParent object with
    | none => exact ⟨.refl hinv, place_of_none hparent⟩
    | some parent =>
      dsimp only
      cases hgroup : file.shouldGroupByType object (some parent) with
      | true =>
        obtain ⟨hreaches, hentry⟩ := getTransformationNode_reaches hinj parent false 1 state hinv exists_translate_one
        have hplaced := placed_of_group hinj hparent hgroup hreaches hentry hmatrix (file.object object).declaration
        exact ⟨hplaced.1, hplaced.2.1⟩
      | false =>
        obtain ⟨hreaches, hentry⟩ :=
          getTransformationNode_reaches hinj parent false transformMat state hinv hmatrix
        have hplaced := placed_of_parent hparent hgroup hreaches hentry
        exact ⟨hplaced.1, hplaced.2.1⟩

end Reaches

end Bouncer.IfcSerialiser
