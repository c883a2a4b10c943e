import Bouncer.Core.MeshGeometry
import Bouncer.Core.RepoNode
import Bouncer.Library.Identifiers
import Bouncer.Library.ParentPaths
import Bouncer.Library.RoseTree
import Bouncer.Multipart.Supermesh

/-!
# The import of an Assimp scene

`convertAiSceneToRepoScene` makes texture nodes, material nodes, and of each mesh a template.  Then it walks through the
tree of nodes, and makes of each node a transformation node, and of each mesh of a node an instance of its template.  But
a leaf with one mesh gets no transformation node, as its transformation is applied to the instance.

The world offset is subtracted from all vertices, and the transformations are changed to make up for that.

Every node that is made gets new identifiers, so that inserting it into a `RepoNodeSet` adds it.
-/

namespace Bouncer.AssimpModelImport

open Library Library.Fallible Library.Identifiers
open MultipartOptimizer (Failure orFail transformNormals)

variable {U R : Type}

/-- A material, with what `GetTexture` gives of its diffuse textures. -/
structure AiMaterial (R : Type) where
  name : String
  opacity : Option R
  diffuse : List (Option String)

structure AiMesh (R : Type) where
  name : String
  vertices : List (RepoVector3D R)
  faces : List RepoFace
  normals : List (RepoVector3D R)
  textureCoords : Option (List (RepoVector2D R))
  materialIndex : ℕ

structure AiNode (R : Type) where
  name : String
  transformation : RepoMatrix R
  meshes : List ℕ

structure AiScene (R : Type) where
  materials : List (AiMaterial R)
  meshes : List (AiMesh R)
  rootNode : RoseTree (AiNode R)
  materialIndex_lt : ∀ mesh ∈ meshes, mesh.materialIndex < materials.length

structure MaterialNode (U R : Type) extends RepoNode U where
  opacity : R

structure TransformationNode (U R : Type) extends RepoNode U where
  matrix : RepoMatrix R

/-- What the scene is constructed from. -/
structure ConvertedScene (U R : Type) where
  meshes : List (MeshNode U R)
  materials : List (MaterialNode U R)
  textures : List (RepoNode U)
  transformations : List (TransformationNode U R)

section Nodes

variable [DecidableEq U] (createUUID : ℕ → U)

/-- A node without parents; two identifiers are created for it. -/
def makeNode (type : NodeType) (name : String) (created : ℕ) : RepoNode U :=
  ⟨type, name, createUUID (created + 1), createUUID created, [], List.nodup_nil⟩

/-! ### Textures and materials -/

/-- The texture nodes, and at which position the one for a name is. -/
structure Textures (U : Type) where
  nodes : List (RepoNode U)
  nameToTexture : String → Option ℕ
  created : ℕ

/-- One turn of the loop over the diffuse textures of all materials. -/
def addTexture (textures : Textures U) (path : Option String) : Textures U :=
  match path with
  | some texName =>
    if texName ≠ "" then
      { nodes := textures.nodes ++ [makeNode createUUID .TEXTURE texName textures.created]
        nameToTexture := Function.update textures.nameToTexture texName (some textures.nodes.length)
        created := textures.created + 2 }
    else textures
  | none => textures

def createTextures (materials : List (AiMaterial R)) : Textures U :=
  (materials.flatMap AiMaterial.diffuse).foldl (addTexture createUUID) ⟨[], fun _ => none, 0⟩

structure Materials (U R : Type) where
  nodes : List (MaterialNode U R)
  textures : Textures U
  created : ℕ

def makeMaterialNode [Field R] [DecidableEq R] (material : AiMaterial R) (created : ℕ) : MaterialNode U R :=
  { makeNode createUUID .MATERIAL material.name created with
    opacity := match material.opacity with
      | some opacity => if opacity = 0 then 1 else opacity
      | none => 1 }

omit createUUID in
/-- The texture node of the first diffuse texture gets the material as a parent. -/
def addTextureParent (material : AiMaterial R) (sharedId : U) (textures : Textures U) : Textures U :=
  match material.diffuse.head? with
  | some (some texPath) =>
    match textures.nameToTexture texPath with
    | some i => { textures with nodes := textures.nodes.modify i fun texture => texture.addParent sharedId }
    | none => textures
  | _ => textures

/-- `createMaterialRepoNode`, and the insertion of the material. -/
def createMaterialRepoNode [Field R] [DecidableEq R] (materials : Materials U R) (material : AiMaterial R) :
    Materials U R :=
  let node := makeMaterialNode createUUID material materials.created
  ⟨materials.nodes ++ [node], addTextureParent material node.sharedId materials.textures, materials.created + 2⟩

def createMaterials [Field R] [DecidableEq R] (scene : AiScene R) : Materials U R :=
  let textures := createTextures createUUID scene.materials
  scene.materials.foldl (createMaterialRepoNode createUUID) ⟨[], textures, textures.created⟩

/-- The parents of the materials that are collected in `matParents`. -/
def updateMaterialParents (matParents : ℕ → List U) (materials : List (MaterialNode U R)) : List (MaterialNode U R) :=
  materials.mapIdx fun i material => { material with toRepoNode := material.addParents (matParents i) }

end Nodes

/-! ### Meshes -/

section Meshes

variable [ExactReal R] (createUUID : ℕ → U)

/-- `createMeshRepoNode`.  A mesh without UVs, but with a texture, gets some. -/
def createMeshRepoNode [Inhabited U] (assimpMesh : AiMesh R) (materials : List (MaterialNode U R)) (hasTexture : Bool)
    (texId : U) (offset : RepoVector3D R) (created : ℕ) : MeshNode U R :=
  let vertices := assimpMesh.vertices.map (· - offset)
  let minVertex := vertices.foldl RepoVector3D.min (vertices.headD 0)
  let maxVertex := vertices.foldl RepoVector3D.max (vertices.headD 0)
  let channel : List (RepoVector2D R) := match assimpMesh.textureCoords with
    | some coords => coords
    | none =>
      if hasTexture then vertices.map fun v =>
        ⟨|v.x - minVertex.x| / |maxVertex.x - minVertex.x|, |v.y - minVertex.y| / |maxVertex.y - minVertex.y|⟩
      else []
  { uniqueId := createUUID (created + 1)
    sharedId := createUUID created
    name := assimpMesh.name
    parentIds := []
    revId := default
    boundingBox := .ofMinMax minVertex maxVertex
    vertices := vertices
    faces := assimpMesh.faces
    normals := assimpMesh.normals
    channels := if channel.isEmpty then [] else [channel]
    opacity := ((materials[assimpMesh.materialIndex]?).map MaterialNode.opacity).getD 1
    textureId := if hasTexture then texId else default
    grouping := "" }

/-- The templates, and for each material the identifiers of the meshes with it. -/
structure Templates (U R : Type) where
  originalOrderMesh : List (MeshNode U R)
  matParents : ℕ → List U
  created : ℕ

/-- One turn of the loop over the meshes. -/
def addTemplate [Inhabited U] (scene : AiScene R) (materials : Materials U R) (offset : RepoVector3D R)
    (templates : Templates U R) (assimpMesh : AiMesh R) : Templates U R :=
  let diffuse := ((scene.materials[assimpMesh.materialIndex]?).map AiMaterial.diffuse).getD []
  let texPath := (diffuse.head?.getD none).getD ""
  let texture := (materials.textures.nameToTexture texPath).bind fun i => materials.textures.nodes[i]?
  let texId := (texture.map RepoNode.uniqueId).getD default
  let mesh := createMeshRepoNode createUUID assimpMesh materials.nodes (!diffuse.isEmpty) texId offset templates.created
  { originalOrderMesh := if mesh.vertices.isEmpty then templates.originalOrderMesh else templates.originalOrderMesh ++ [mesh]
    matParents := Function.update templates.matParents assimpMesh.materialIndex
      (templates.matParents assimpMesh.materialIndex ++ [mesh.sharedId])
    created := templates.created + 2 }

def createTemplates [Inhabited U] (scene : AiScene R) (materials : Materials U R) (offset : RepoVector3D R) :
    Templates U R :=
  scene.meshes.foldl (addTemplate createUUID scene materials offset) ⟨[], fun _ => [], materials.created⟩

def applyTransformation (mesh : MeshNode U R) (matrix : RepoMatrix R) : Except Failure (MeshNode U R) :=
  if matrix.IsIdentity then .ok mesh
  else do
    let vertices ← mesh.vertices.mapM fun v => orFail .exit (matrix.mulVector v)
    let normals ← transformNormals mesh.normals matrix
    return { mesh with vertices := vertices, boundingBox := .ofPoints vertices, normals := normals }

/-! ### Transformations -/

/-- The instances, the parents of the materials, and the number of identifiers so far. -/
structure ImportState (U R : Type) where
  newMeshes : List (MeshNode U R)
  matParents : ℕ → List U
  created : ℕ

variable [DecidableEq U]

/-- The material of a template. -/
def meshToMat (materials : ℕ) (matParents : ℕ → List U) (meshId : U) : Option ℕ :=
  (List.range materials).find? fun i => decide (meshId ∈ matParents i)

def duplicateMesh (newParent : List U) (mesh : MeshNode U R) (meshToMat : U → Option ℕ) (state : ImportState U R) :
    MeshNode U R × ImportState U R :=
  let newMesh := { mesh with
    uniqueId := createUUID state.created, sharedId := createUUID (state.created + 1), parentIds := newParent }
  (newMesh, { state with
    matParents := match meshToMat mesh.sharedId with
      | some i => Function.update state.matParents i (state.matParents i ++ [newMesh.sharedId])
      | none => state.matParents
    created := state.created + 2 })

/-- The transformation, with its translation changed because of the world offset. -/
def offsetTransform (m : RepoMatrix R) (worldOffset : RepoVector3D R) : RepoMatrix R := fun i j =>
  if j = 3 then
    if i = 0 then
      m 0 3 + (worldOffset.x * m 0 0 + m 0 1 * worldOffset.y + worldOffset.z * m 0 2 - worldOffset.x)
    else if i = 1 then
      m 1 3 + (worldOffset.x * m 1 0 + m 1 1 * worldOffset.y + worldOffset.z * m 1 2 - worldOffset.y)
    else if i = 2 then
      m 2 3 + (worldOffset.x * m 2 0 + m 2 1 * worldOffset.y + worldOffset.z * m 2 2 - worldOffset.z)
    else m 3 3
  else m i j

/-- What names an instance: nothing, if its name stays. -/
def instanceName (absorbTransform hasChildren : Bool) (transName meshName : String) : String :=
  if absorbTransform then transName
  else if hasChildren && meshName = "" then (if transName ≠ "" then transName else "Unnamed Mesh")
  else if !hasChildren && meshName ≠ "" then ""
  else meshName

/-- One turn of the loop over the meshes of a node. -/
def addInstance (originalMeshes : List (MeshNode U R)) (meshToMat : U → Option ℕ) (parents : List U)
    (absorbTransform hasChildren : Bool) (transName : String) (transform : RepoMatrix R) (state : ImportState U R)
    (meshIndex : ℕ) : Except Failure (ImportState U R) :=
  match originalMeshes[meshIndex]? with
  | none => .ok state
  | some mesh =>
    if mesh.vertices.isEmpty then .ok state
    else do
      let duplicated := duplicateMesh createUUID parents mesh meshToMat state
      let transformed ←
        if absorbTransform then applyTransformation duplicated.1 transform else Except.ok duplicated.1
      let named := { transformed with name := instanceName absorbTransform hasChildren transName mesh.name }
      return { duplicated.2 with newMeshes := duplicated.2.newMeshes ++ [named] }

def createTransformationNodesRecursive (originalMeshes : List (MeshNode U R)) (meshToMat : U → Option ℕ)
    (worldOffset : RepoVector3D R) :
    RoseTree (AiNode R) → List U → ImportState U R → Except Failure (List (TransformationNode U R) × ImportState U R)
  | .node assimpNode children, parents, state => do
    let transform := offsetTransform assimpNode.transformation worldOffset
    let absorbTransform := children.isEmpty && decide (assimpNode.meshes.length = 1) && !parents.isEmpty
    let transNode : TransformationNode U R :=
      { (makeNode createUUID .TRANSFORMATION assimpNode.name state.created).addParents parents with matrix := transform }
    let transNodes := if absorbTransform then [] else [transNode]
    let parents := if absorbTransform then parents else [transNode.sharedId]
    let state := if absorbTransform then state else { state with created := state.created + 2 }
    let state ← assimpNode.meshes.foldlM (addInstance createUUID originalMeshes meshToMat parents absorbTransform
      (!children.isEmpty) assimpNode.name transform) state
    let childSets ← go originalMeshes meshToMat worldOffset children parents state
    return (transNodes ++ childSets.1, childSets.2)
where
  go (originalMeshes : List (MeshNode U R)) (meshToMat : U → Option ℕ) (worldOffset : RepoVector3D R) :
      List (RoseTree (AiNode R)) → List U → ImportState U R →
        Except Failure (List (TransformationNode U R) × ImportState U R)
    | [], _, state => .ok ([], state)
    | child :: children, parents, state => do
      let childSet ← createTransformationNodesRecursive originalMeshes meshToMat worldOffset child parents state
      let childSets ← go originalMeshes meshToMat worldOffset children parents childSet.2
      return (childSet.1 ++ childSets.1, childSets.2)

/-- `convertAiSceneToRepoScene`, with the offset that it finds. -/
def convertAiSceneToRepoScene [Inhabited U] (scene : AiScene R) (worldOffset : RepoVector3D R) :
    Except Failure (ConvertedScene U R) := do
  let materials := createMaterials createUUID scene
  let templates := createTemplates createUUID scene materials worldOffset
  let materialNodes := updateMaterialParents templates.matParents materials.nodes
  let converted ← createTransformationNodesRecursive createUUID templates.originalOrderMesh
    (meshToMat materials.nodes.length templates.matParents) worldOffset scene.rootNode []
    ⟨[], fun _ => [], templates.created⟩
  return ⟨converted.2.newMeshes, updateMaterialParents converted.2.matParents materialNodes, materials.textures.nodes,
    converted.1⟩

end Meshes

/-- The meshes that the nodes of a tree refer to, with the product of the transformations from the root. -/
def references [Field R] (scene : AiScene R) : RoseTree (AiNode R) → RepoMatrix R → List (RepoMatrix R × AiMesh R)
  | .node assimpNode children, above =>
    (assimpNode.meshes.filterMap fun i => scene.meshes[i]?).map (fun mesh => (above * assimpNode.transformation, mesh)) ++
      go scene children (above * assimpNode.transformation)
where
  go (scene : AiScene R) : List (RoseTree (AiNode R)) → RepoMatrix R → List (RepoMatrix R × AiMesh R)
    | [], _ => []
    | child :: children, above => references scene child above ++ go scene children above

def AiScene.references [Field R] (scene : AiScene R) : List (RepoMatrix R × AiMesh R) :=
  AssimpModelImport.references scene scene.rootNode 1

/-! ### The two kinds of nodes -/

section Equations

variable [ExactReal R] [DecidableEq U] {createUUID : ℕ → U} {originalMeshes : List (MeshNode U R)}
  {meshToMat : U → Option ℕ} {worldOffset : RepoVector3D R} {parents : List U} {state : ImportState U R}

/-- A leaf with one mesh, below the root, has no node of its own. -/
theorem create_absorbed (assimpNode : AiNode R) {i : ℕ} (hmeshes : assimpNode.meshes = [i]) (hparents : parents ≠ []) :
    createTransformationNodesRecursive createUUID originalMeshes meshToMat worldOffset (.node assimpNode []) parents
        state =
      (addInstance createUUID originalMeshes meshToMat parents true false assimpNode.name
        (offsetTransform assimpNode.transformation worldOffset) state i).map fun state => ([], state) := by
  have hempty : parents.isEmpty = false := List.isEmpty_eq_false_iff.2 hparents
  rw [createTransformationNodesRecursive]
  simp only [hmeshes, hempty, List.isEmpty_nil, List.length_singleton, decide_true, Bool.not_false, Bool.and_self,
    Bool.not_true, if_true, List.foldlM_cons, List.foldlM_nil, createTransformationNodesRecursive.go]
  cases addInstance createUUID originalMeshes meshToMat parents true false assimpNode.name
    (offsetTransform assimpNode.transformation worldOffset) state i <;> rfl

/-- The transformation node of any other node. -/
def transformationNode (createUUID : ℕ → U) (assimpNode : AiNode R) (worldOffset : RepoVector3D R) (parents : List U)
    (created : ℕ) : TransformationNode U R :=
  { (makeNode createUUID .TRANSFORMATION assimpNode.name created).addParents parents with
    matrix := offsetTransform assimpNode.transformation worldOffset }

theorem create_node (assimpNode : AiNode R) (children : List (RoseTree (AiNode R)))
    (h : ¬ (children = [] ∧ assimpNode.meshes.length = 1 ∧ parents ≠ [])) :
    createTransformationNodesRecursive createUUID originalMeshes meshToMat worldOffset (.node assimpNode children) parents
        state = do
      let transNode := transformationNode createUUID assimpNode worldOffset parents state.created
      let state ← assimpNode.meshes.foldlM (addInstance createUUID originalMeshes meshToMat [transNode.sharedId] false
        (!children.isEmpty) assimpNode.name (offsetTransform assimpNode.transformation worldOffset))
        { state with created := state.created + 2 }
      let childSets ← createTransformationNodesRecursive.go createUUID originalMeshes meshToMat worldOffset children
        [transNode.sharedId] state
      return (transNode :: childSets.1, childSets.2) := by
  have hkept : (children.isEmpty && decide (assimpNode.meshes.length = 1) && !parents.isEmpty) = false := by
    rw [Bool.eq_false_iff]
    intro habsorbs
    simp only [Bool.and_eq_true, List.isEmpty_iff, decide_eq_true_eq, Bool.not_eq_true', List.isEmpty_eq_false_iff]
      at habsorbs
    exact h ⟨habsorbs.1.1, habsorbs.1.2, habsorbs.2⟩
  rw [createTransformationNodesRecursive]
  simp only [hkept, Bool.false_eq_true, if_false]
  rfl

end Equations

/-! ### New identifiers -/

/-- What making instances does: identifiers are created, and meshes with such are added. -/
structure Grows (createUUID : ℕ → U) (state state' : ImportState U R) : Prop where
  created_le : state.created ≤ state'.created
  newMeshes : ∃ new, state'.newMeshes = state.newMeshes ++ new ∧
    CreatedIn createUUID state.created state'.created (new.map MeshNode.sharedId)

theorem Grows.refl {createUUID : ℕ → U} (state : ImportState U R) : Grows createUUID state state :=
  ⟨le_rfl, [], (List.append_nil _).symm, createdIn_nil⟩

theorem Grows.trans {createUUID : ℕ → U} {state state' state'' : ImportState U R} (h : Grows createUUID state state')
    (h' : Grows createUUID state' state'') : Grows createUUID state state'' := by
  obtain ⟨hle, new, hnew, hids⟩ := h
  obtain ⟨hle', new', hnew', hids'⟩ := h'
  refine ⟨hle.trans hle', new ++ new', ?_, ?_⟩
  · rw [hnew', hnew, List.append_assoc]
  · rw [List.map_append]
    exact hids.append hids' hle hle'

section Create

variable [ExactReal R] {createUUID : ℕ → U} {originalMeshes : List (MeshNode U R)} {meshToMat : U → Option ℕ}

private theorem sharedId_applyTransformation {mesh mesh' : MeshNode U R} {matrix : RepoMatrix R}
    (h : applyTransformation mesh matrix = .ok mesh') : mesh'.sharedId = mesh.sharedId := by
  unfold applyTransformation at h
  by_cases hidentity : matrix.IsIdentity
  · rw [if_pos hidentity] at h
    cases h
    rfl
  · rw [if_neg hidentity] at h
    obtain ⟨vertices, -, h⟩ := bind_eq_ok.1 h
    obtain ⟨normals, -, h⟩ := bind_eq_ok.1 h
    cases h
    rfl

private theorem grows_addInstance {parents : List U} {absorbTransform hasChildren : Bool} {transName : String}
    {transform : RepoMatrix R} {state state' : ImportState U R} {meshIndex : ℕ}
    (h : addInstance createUUID originalMeshes meshToMat parents absorbTransform hasChildren transName transform state
      meshIndex = .ok state') : Grows createUUID state state' := by
  unfold addInstance at h
  cases hmesh : originalMeshes[meshIndex]? with
  | none =>
    simp only [hmesh] at h
    cases h
    exact .refl state
  | some mesh =>
    simp only [hmesh] at h
    by_cases hempty : mesh.vertices.isEmpty = true
    · rw [if_pos hempty] at h
      cases h
      exact .refl state
    · rw [if_neg hempty] at h
      have hids : CreatedIn createUUID state.created (state.created + 2) [createUUID (state.created + 1)] :=
        createdIn_single (by omega) (by omega)
      cases absorbTransform with
      | false =>
        cases h
        exact ⟨Nat.le_add_right _ 2, _, rfl, hids⟩
      | true =>
        obtain ⟨transformed, happly, h⟩ := bind_eq_ok.1 h
        cases h
        refine ⟨Nat.le_add_right _ 2, _, rfl, ?_⟩
        show CreatedIn createUUID state.created (state.created + 2) [transformed.sharedId]
        rw [sharedId_applyTransformation happly]
        exact hids

private theorem grows_foldlM_addInstance {parents : List U} {absorbTransform hasChildren : Bool} {transName : String}
    {transform : RepoMatrix R} {state state' : ImportState U R} {meshes : List ℕ}
    (h : meshes.foldlM (addInstance createUUID originalMeshes meshToMat parents absorbTransform hasChildren transName
      transform) state = .ok state') : Grows createUUID state state' := by
  induction meshes generalizing state with
  | nil =>
    cases h
    exact .refl _
  | cons i meshes ih =>
    obtain ⟨mid, hfirst, hrest⟩ := foldlM_cons_eq_ok.1 h
    exact (grows_addInstance hfirst).trans (ih hrest)

variable [DecidableEq U] {worldOffset : RepoVector3D R}

/-- What holds of a subtree that is absorbed, and of a node if it holds of the subtrees below it, holds of each tree from
which nodes could be created. -/
theorem create_rec {P : RoseTree (AiNode R) → List U → ImportState U R →
      List (TransformationNode U R) × ImportState U R → Prop}
    {Q : List (RoseTree (AiNode R)) → List U → ImportState U R →
      List (TransformationNode U R) × ImportState U R → Prop}
    (absorbed : ∀ {assimpNode i parents state state'}, assimpNode.meshes = [i] → parents ≠ [] →
      addInstance createUUID originalMeshes meshToMat parents true false assimpNode.name
        (offsetTransform assimpNode.transformation worldOffset) state i = .ok state' →
      P (.node assimpNode []) parents state ([], state'))
    (node : ∀ {assimpNode children parents state state' childSets},
      ¬ (children = [] ∧ assimpNode.meshes.length = 1 ∧ parents ≠ []) →
      assimpNode.meshes.foldlM (addInstance createUUID originalMeshes meshToMat
        [(transformationNode createUUID assimpNode worldOffset parents state.created).sharedId] false (!children.isEmpty)
        assimpNode.name (offsetTransform assimpNode.transformation worldOffset))
        { state with created := state.created + 2 } = .ok state' →
      Q children [(transformationNode createUUID assimpNode worldOffset parents state.created).sharedId] state'
        childSets →
      P (.node assimpNode children) parents state
        (transformationNode createUUID assimpNode worldOffset parents state.created :: childSets.1, childSets.2))
    (nil : ∀ {parents state}, Q [] parents state ([], state))
    (cons : ∀ {c cs parents state childSet childSets}, P c parents state childSet → Q cs parents childSet.2 childSets →
      Q (c :: cs) parents state (childSet.1 ++ childSets.1, childSets.2))
    (t : RoseTree (AiNode R)) : ∀ {parents : List U} {state : ImportState U R}
      {result : List (TransformationNode U R) × ImportState U R},
      createTransformationNodesRecursive createUUID originalMeshes meshToMat worldOffset t parents state = .ok result →
        P t parents state result := by
  induction t using RoseTree.rec_children with
  | h assimpNode children ih =>
    have hgo : ∀ (cs : List (RoseTree (AiNode R))), (∀ c ∈ cs, c ∈ children) → ∀ {parents : List U}
        {state : ImportState U R} {result : List (TransformationNode U R) × ImportState U R},
        createTransformationNodesRecursive.go createUUID originalMeshes meshToMat worldOffset cs parents state =
          .ok result → Q cs parents state result := by
      intro cs hcs
      induction cs with
      | nil =>
        rintro parents state result ⟨⟩
        exact nil
      | cons c cs ihcs =>
        intro parents state result h
        rw [createTransformationNodesRecursive.go] at h
        obtain ⟨childSet, hfirst, h⟩ := bind_eq_ok.1 h
        obtain ⟨childSets, hrest, h⟩ := bind_eq_ok.1 h
        cases h
        exact cons (ih c (hcs c List.mem_cons_self) hfirst) (ihcs (fun c hc => hcs c (List.mem_cons_of_mem _ hc)) hrest)
    intro parents state result h
    by_cases habsorbs : children = [] ∧ assimpNode.meshes.length = 1 ∧ parents ≠ []
    · obtain ⟨rfl, hlength, hparents⟩ := habsorbs
      obtain ⟨i, hmeshes⟩ := List.length_eq_one_iff.1 hlength
      rw [create_absorbed assimpNode hmeshes hparents] at h
      obtain ⟨state', hinstance, rfl⟩ := map_eq_ok.1 h
      exact absorbed hmeshes hparents hinstance
    · rw [create_node assimpNode children habsorbs] at h
      obtain ⟨state', hmeshes, h⟩ := bind_eq_ok.1 h
      obtain ⟨childSets, hchildren, h⟩ := bind_eq_ok.1 h
      cases h
      exact node habsorbs hmeshes (hgo children (fun _ hc => hc) hchildren)

/-- All identifiers that a tree gets are new. -/
theorem grows_create (t : RoseTree (AiNode R)) {parents : List U} {state : ImportState U R}
    {result : List (TransformationNode U R) × ImportState U R}
    (h : createTransformationNodesRecursive createUUID originalMeshes meshToMat worldOffset t parents state =
      .ok result) :
    Grows createUUID state result.2 ∧
      CreatedIn createUUID state.created result.2.created (result.1.map fun node => node.sharedId) := by
  refine create_rec
    (P := fun _ _ state result => Grows createUUID state result.2 ∧
      CreatedIn createUUID state.created result.2.created (result.1.map fun node => node.sharedId))
    (Q := fun _ _ state result => Grows createUUID state result.2 ∧
      CreatedIn createUUID state.created result.2.created (result.1.map fun node => node.sharedId)) ?_ ?_ ?_ ?_ t h
  · exact fun _ _ hinstance => ⟨grows_addInstance hinstance, createdIn_nil⟩
  · intro assimpNode children parents state state' childSets _ hmeshes hchildren
    obtain ⟨hgrows', hids⟩ := hchildren
    have hgrows := grows_foldlM_addInstance hmeshes
    have hstart : Grows createUUID state { state with created := state.created + 2 } :=
      ⟨Nat.le_add_right _ 2, [], (List.append_nil _).symm, createdIn_nil⟩
    refine ⟨(hstart.trans hgrows).trans hgrows', ?_⟩
    have hnode : (transformationNode createUUID assimpNode worldOffset parents state.created).sharedId =
        createUUID state.created := RepoNode.addParents_sharedId _ _
    have hsingle : CreatedIn createUUID state.created (state.created + 2) [createUUID state.created] :=
      createdIn_single le_rfl (by omega)
    have hle : state.created + 2 ≤ childSets.2.created := hgrows.created_le.trans hgrows'.created_le
    rw [List.map_cons, hnode]
    exact hsingle.append (hids.mono hgrows.created_le le_rfl) (by omega) hle
  · exact ⟨.refl _, createdIn_nil⟩
  · rintro c cs parents state childSet childSets ⟨hgrows, hids⟩ ⟨hgrows', hids'⟩
    refine ⟨hgrows.trans hgrows', ?_⟩
    rw [List.map_append]
    exact hids.append hids' hgrows.created_le hgrows'.created_le

end Create

end Bouncer.AssimpModelImport
