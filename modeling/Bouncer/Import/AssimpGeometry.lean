import Bouncer.Import.AssimpModelImport

/-!
# The positions of an imported scene

The vertices of an instance, below the transformations of its parents, should be those of its mesh below the
transformations of the Assimp nodes, less the world offset.

This holds in every scene that is imported (`places_of_convert`).  But the import of a scene calls `exit(0)` if a leaf
that is absorbed has a transformation without an inverse, and its mesh has normals (`exists_create_iff`).
-/

namespace Bouncer.AssimpModelImport

open Library Library.Fallible Library.Identifiers
open MultipartOptimizer (Failure orFail orFail_mapM transformNormals transformNormalsBy_exits transformNormals_ok)

variable {U R : Type}

/-! ### What should hold -/

/-- The product of the matrices from the root to the transformation with this identifier. -/
def ProductTo [Field R] (transformations : List (TransformationNode U R)) : U → RepoMatrix R → Prop :=
  ParentPaths.Product (fun node => node.sharedId) (fun node => node.parentIds) TransformationNode.matrix transformations

/-- The mesh has one parent, and stands where the reference is, less the offset. -/
structure Places [Field R] (worldOffset : RepoVector3D R) (transformations : List (TransformationNode U R))
    (reference : RepoMatrix R × AiMesh R) (mesh : MeshNode U R) : Prop where
  parent : ∃ p product, mesh.parentIds = [p] ∧ ProductTo transformations p product
  vertices : ∀ p product, mesh.parentIds = [p] → ProductTo transformations p product →
    mesh.vertices.map product.image = reference.2.vertices.map fun v => reference.1.image v - worldOffset

def PreservesGeometry [ExactReal R] [DecidableEq U] [Inhabited U] (createUUID : ℕ → U) (scene : AiScene R)
    (worldOffset : RepoVector3D R) : Prop :=
  ∃ converted, convertAiSceneToRepoScene createUUID scene worldOffset = .ok converted ∧
    List.Forall₂ (Places worldOffset converted.transformations) scene.references converted.meshes

/-- The subtree is a leaf with one mesh. -/
def IsLeafOf (scene : AiScene R) (leaf : RoseTree (AiNode R)) (mesh : AiMesh R) : Prop :=
  leaf.children = [] ∧ ∃ i, leaf.value.meshes = [i] ∧ scene.meshes[i]? = some mesh

/-! ### The offset -/

section Offset

variable [ExactReal R] {m : RepoMatrix R} {worldOffset : RepoVector3D R}

private theorem image_offsetTransform (m : RepoMatrix R) (worldOffset v : RepoVector3D R) :
    (offsetTransform m worldOffset).image v = m.image (v + worldOffset) - worldOffset := by
  ext <;> simp [RepoMatrix.image, offsetTransform] <;> ring

private theorem affine_offsetTransform (h : m.Affine) (worldOffset : RepoVector3D R) : (offsetTransform m worldOffset).Affine := by
  obtain ⟨h0, h1, h2, h3⟩ := h
  refine ⟨?_, ?_, ?_, ?_⟩ <;> simp [offsetTransform, h0, h1, h2, h3]

private theorem determinant_offsetTransform (h : m.Affine) (worldOffset : RepoVector3D R) :
    (offsetTransform m worldOffset).determinant = m.determinant := by
  rw [(affine_offsetTransform h worldOffset).determinant, h.determinant]
  simp [offsetTransform]

/-- The product of the transformations made so far is that of the Assimp nodes, but for the offset. -/
def Shifted (worldOffset : RepoVector3D R) (above product : RepoMatrix R) : Prop :=
  ∀ v, product.image v = above.image (v + worldOffset) - worldOffset

private theorem sub_add_cancel_offset (v worldOffset : RepoVector3D R) : v - worldOffset + worldOffset = v := by ext <;> simp

private theorem shifted_one : Shifted worldOffset (1 : RepoMatrix R) 1 := by
  intro v
  rw [RepoMatrix.image_one, RepoMatrix.image_one]
  ext <;> simp

private theorem Shifted.mul {above product : RepoMatrix R} (h : Shifted worldOffset above product) (hm : m.Affine) :
    Shifted worldOffset (above * m) (product * offsetTransform m worldOffset) := by
  intro v
  rw [RepoMatrix.image_mul _ (affine_offsetTransform hm worldOffset), image_offsetTransform, h, sub_add_cancel_offset,
    RepoMatrix.image_mul _ hm]

end Offset

/-! ### Absorbed transformations -/

section Absorb

variable [ExactReal R] {m : RepoMatrix R} {mesh mesh' : MeshNode U R}

private theorem isIdentity_one : RepoMatrix.IsIdentity (1 : RepoMatrix R) := by
  have heps : (0 : R) ≤ RepoMatrix.eps := by
    unfold RepoMatrix.eps
    positivity
  refine ⟨fun i => ?_, fun i j hij => ?_⟩
  · rw [Matrix.one_apply_eq]
    exact ⟨by linarith, by linarith⟩
  · rw [Matrix.one_apply_ne hij, abs_zero]
    exact heps

private theorem determinant_one : RepoMatrix.determinant (1 : RepoMatrix R) = 1 := by
  rw [RepoMatrix.affine_one.determinant]
  simp

private theorem vertices_applyTransformation (haffine : m.Affine) (hidentity : m = 1 ∨ ¬ m.IsIdentity)
    (h : applyTransformation mesh m = .ok mesh') :
    mesh'.vertices = mesh.vertices.map m.image ∧ mesh'.parentIds = mesh.parentIds := by
  unfold applyTransformation at h
  rcases hidentity with rfl | hidentity
  · rw [if_pos isIdentity_one] at h
    cases h
    have himage : RepoMatrix.image (1 : RepoMatrix R) = id := funext RepoMatrix.image_one
    rw [himage, List.map_id]
    exact ⟨rfl, rfl⟩
  · rw [if_neg hidentity, orFail_mapM haffine.mulVector] at h
    obtain ⟨normals, -, h⟩ := bind_eq_ok.1 (show transformNormals mesh.normals m >>= _ = _ from h)
    cases h
    exact ⟨rfl, rfl⟩

variable (mesh) in
private theorem exists_applyTransformation_iff (haffine : m.Affine) (hidentity : m = 1 ∨ ¬ m.IsIdentity) :
    (∃ mesh', applyTransformation mesh m = .ok mesh') ↔ (mesh.normals ≠ [] → m.determinant ≠ 0) := by
  unfold applyTransformation
  rcases hidentity with rfl | hidentity
  · rw [if_pos isIdentity_one, determinant_one]
    exact ⟨fun _ _ => one_ne_zero, fun _ => ⟨_, rfl⟩⟩
  · rw [if_neg hidentity, orFail_mapM haffine.mulVector]
    constructor
    · rintro ⟨mesh', h⟩ hnormals hdet
      obtain ⟨normals, hnormal, -⟩ := bind_eq_ok.1 (show transformNormals mesh.normals m >>= _ = _ from h)
      obtain ⟨n, rest, hcons⟩ := List.exists_cons_of_ne_nil hnormals
      rw [transformNormals, transformNormalsBy_exits (RepoMatrix.exits_worldMat hdet) (hcons ▸ List.cons_ne_nil _ _)] at hnormal
      exact absurd hnormal nofun
    · intro hdet
      have hnormal : ∃ normals, transformNormals mesh.normals m = .ok normals := by
        by_cases hnormals : mesh.normals = []
        · rw [hnormals]
          exact ⟨[], rfl⟩
        · exact ⟨_, transformNormals_ok haffine (hdet hnormals) _⟩
      obtain ⟨normals, hnormal⟩ := hnormal
      exact ⟨_, bind_eq_ok.2 ⟨_, rfl, bind_eq_ok.2 ⟨normals, hnormal, rfl⟩⟩⟩

end Absorb

/-! ### Instances -/

variable {i : ℕ}

section Instances

variable [ExactReal R] {createUUID : ℕ → U} {scene : AiScene R} {worldOffset : RepoVector3D R}

/-- The mesh node is the template of the mesh. -/
structure TemplateOf (worldOffset : RepoVector3D R) (assimpMesh : AiMesh R) (mesh : MeshNode U R) : Prop where
  vertices : mesh.vertices = assimpMesh.vertices.map (· - worldOffset)
  ne_nil : mesh.vertices ≠ []
  normals : mesh.normals = assimpMesh.normals

private theorem templates_foldl [Inhabited U] (materials : Materials U R) (meshes : List (AiMesh R))
    (hvertices : ∀ mesh ∈ meshes, mesh.vertices ≠ []) {done : List (AiMesh R)} {templates : Templates U R}
    (h : List.Forall₂ (TemplateOf worldOffset) done templates.originalOrderMesh) :
    List.Forall₂ (TemplateOf worldOffset) (done ++ meshes)
      (meshes.foldl (addTemplate createUUID scene materials worldOffset) templates).originalOrderMesh := by
  induction meshes generalizing done templates with
  | nil => rwa [List.append_nil]
  | cons assimpMesh meshes ih =>
    rw [List.foldl_cons, ← List.singleton_append, ← List.append_assoc]
    refine ih (fun mesh hmesh => hvertices mesh (List.mem_cons_of_mem _ hmesh)) ?_
    have hne : assimpMesh.vertices.map (· - worldOffset) ≠ [] := fun h =>
      hvertices assimpMesh List.mem_cons_self (List.map_eq_nil_iff.1 h)
    have hadd : ∃ mesh : MeshNode U R, TemplateOf worldOffset assimpMesh mesh ∧
        (addTemplate createUUID scene materials worldOffset templates assimpMesh).originalOrderMesh =
          templates.originalOrderMesh ++ [mesh] := by
      refine ⟨_, ⟨?_, ?_, ?_⟩, if_neg (List.isEmpty_iff.not.2 hne)⟩
      · rfl
      · exact hne
      · rfl
    obtain ⟨mesh, hmesh, hadded⟩ := hadd
    rw [hadded]
    exact List.rel_append h (.cons hmesh .nil)

private theorem templates_createTemplates [Inhabited U] (materials : Materials U R)
    (hvertices : ∀ mesh ∈ scene.meshes, mesh.vertices ≠ []) :
    List.Forall₂ (TemplateOf worldOffset) scene.meshes
      (createTemplates createUUID scene materials worldOffset).originalOrderMesh := by
  have hstart : List.Forall₂ (TemplateOf worldOffset) []
      (⟨[], fun _ => [], materials.created⟩ : Templates U R).originalOrderMesh := .nil
  exact templates_foldl materials scene.meshes hvertices hstart

/-- The node has these parents, and the vertices of the mesh below a matrix, less the offset. -/
structure Stored (worldOffset : RepoVector3D R) (parents : List U) (m : RepoMatrix R) (assimpMesh : AiMesh R)
    (mesh : MeshNode U R) : Prop where
  parentIds : mesh.parentIds = parents
  vertices : mesh.vertices = assimpMesh.vertices.map fun v => m.image (v - worldOffset)

variable {originalMeshes : List (MeshNode U R)} {meshToMat : U → Option ℕ} {parents : List U} {hasChildren : Bool}
  {transName : String} {transform : RepoMatrix R} {state state' : ImportState U R}

section Templates

variable (hmeshes : List.Forall₂ (TemplateOf worldOffset) scene.meshes originalMeshes)
include hmeshes

private theorem addInstance_none
    (hi : scene.meshes[i]? = none) (absorbTransform : Bool) :
    addInstance createUUID originalMeshes meshToMat parents absorbTransform hasChildren transName transform state i =
      .ok state := by
  have hnone : originalMeshes[i]? = none := by
    rw [List.getElem?_eq_none_iff] at hi ⊢
    rwa [← hmeshes.length_eq]
  unfold addInstance
  rw [hnone]

private theorem addInstance_some {assimpMesh : AiMesh R}
    (hi : scene.meshes[i]? = some assimpMesh) : ∃ mesh, TemplateOf worldOffset assimpMesh mesh ∧
      ∀ absorbTransform,
        addInstance createUUID originalMeshes meshToMat parents absorbTransform hasChildren transName transform state i =
          do
            let duplicated := duplicateMesh createUUID parents mesh meshToMat state
            let transformed ←
              if absorbTransform then applyTransformation duplicated.1 transform else Except.ok duplicated.1
            let named :=
              { transformed with name := instanceName absorbTransform hasChildren transName mesh.name }
            return { duplicated.2 with newMeshes := duplicated.2.newMeshes ++ [named] } := by
  obtain ⟨hlt, rfl⟩ := List.getElem?_eq_some_iff.1 hi
  have hlt' : i < originalMeshes.length := hmeshes.length_eq ▸ hlt
  have htemplate : TemplateOf worldOffset scene.meshes[i] originalMeshes[i] := hmeshes.get hlt hlt'
  refine ⟨originalMeshes[i], htemplate, fun absorbTransform => ?_⟩
  have hne : ¬ originalMeshes[i].vertices.isEmpty = true := List.isEmpty_iff.not.2 htemplate.ne_nil
  unfold addInstance
  rw [List.getElem?_eq_getElem hlt']
  exact if_neg hne

variable (createUUID) in
private theorem addInstance_kept (i : ℕ) :
    ∃ state' new, addInstance createUUID originalMeshes meshToMat parents false hasChildren transName transform state i =
        .ok state' ∧ state'.newMeshes = state.newMeshes ++ new ∧
      List.Forall₂ (Stored worldOffset parents 1) (scene.meshes[i]?).toList new := by
  cases hi : scene.meshes[i]? with
  | none =>
    exact ⟨state, [], addInstance_none hmeshes hi false, (List.append_nil _).symm, .nil⟩
  | some assimpMesh =>
    obtain ⟨mesh, htemplate, hadd⟩ := addInstance_some hmeshes hi
    refine ⟨_, _, hadd false, rfl, .cons ⟨rfl, ?_⟩ .nil⟩
    show mesh.vertices = _
    simp only [RepoMatrix.image_one]
    exact htemplate.vertices

/-- An instance that a transformation is applied to. -/
theorem addInstance_absorbed
    (haffine : transform.Affine)
    (hidentity : ∀ mesh, scene.meshes[i]? = some mesh → transform = 1 ∨ ¬ transform.IsIdentity)
    (h : addInstance createUUID originalMeshes meshToMat parents true hasChildren transName transform state i =
      .ok state') :
    ∃ new, state'.newMeshes = state.newMeshes ++ new ∧
      List.Forall₂ (Stored worldOffset parents transform) (scene.meshes[i]?).toList new := by
  cases hi : scene.meshes[i]? with
  | none =>
    rw [addInstance_none hmeshes hi] at h
    cases h
    exact ⟨[], (List.append_nil _).symm, .nil⟩
  | some assimpMesh =>
    obtain ⟨mesh, htemplate, hadd⟩ := addInstance_some hmeshes hi
    rw [hadd] at h
    obtain ⟨transformed, happly, h⟩ := bind_eq_ok.1 h
    cases h
    obtain ⟨hvertices, hparents⟩ := vertices_applyTransformation haffine (hidentity assimpMesh hi) happly
    refine ⟨_, rfl, .cons ⟨hparents, ?_⟩ .nil⟩
    show transformed.vertices = _
    rw [hvertices]
    show mesh.vertices.map transform.image = _
    rw [htemplate.vertices, List.map_map]
    rfl

/-- Whether it can be applied. -/
theorem exists_addInstance_iff
    (haffine : transform.Affine)
    (hidentity : ∀ mesh, scene.meshes[i]? = some mesh → transform = 1 ∨ ¬ transform.IsIdentity) :
    (∃ state', addInstance createUUID originalMeshes meshToMat parents true hasChildren transName transform state i =
        .ok state') ↔
      ∀ mesh, scene.meshes[i]? = some mesh → mesh.normals ≠ [] → transform.determinant ≠ 0 := by
  cases hi : scene.meshes[i]? with
  | none =>
    refine iff_of_true ⟨state, addInstance_none hmeshes hi true⟩ nofun
  | some assimpMesh =>
    obtain ⟨mesh, htemplate, hadd⟩ := addInstance_some hmeshes hi
    have happly := exists_applyTransformation_iff (duplicateMesh createUUID parents mesh meshToMat state).1
      haffine (hidentity assimpMesh hi)
    have hnormals : (duplicateMesh createUUID parents mesh meshToMat state).1.normals = assimpMesh.normals :=
      htemplate.normals
    rw [hnormals] at happly
    simp only [Option.some.injEq, forall_eq']
    rw [← happly, hadd]
    constructor
    · rintro ⟨state', h⟩
      obtain ⟨transformed, happly, -⟩ := bind_eq_ok.1 h
      exact ⟨transformed, happly⟩
    · rintro ⟨transformed, happly⟩
      exact ⟨_, bind_eq_ok.2 ⟨transformed, happly, rfl⟩⟩

variable (createUUID meshToMat parents hasChildren transName transform) in
private theorem foldlM_addInstance
    (indices : List ℕ) (state : ImportState U R) :
    ∃ state' new, indices.foldlM (addInstance createUUID originalMeshes meshToMat parents false hasChildren transName
        transform) state = .ok state' ∧ state'.newMeshes = state.newMeshes ++ new ∧
      List.Forall₂ (Stored worldOffset parents 1) (indices.filterMap fun i => scene.meshes[i]?) new := by
  induction indices generalizing state with
  | nil => exact ⟨state, [], rfl, (List.append_nil _).symm, .nil⟩
  | cons i indices ih =>
    obtain ⟨mid, new, hadd, hnew, hstored⟩ := addInstance_kept createUUID hmeshes i
    obtain ⟨state', new', hrest, hnew', hstored'⟩ := ih mid
    refine ⟨state', new ++ new', foldlM_cons_eq_ok.2 ⟨mid, hadd, hrest⟩, ?_, ?_⟩
    · rw [hnew', hnew, List.append_assoc]
    · have hcons : ((i :: indices).filterMap fun i => scene.meshes[i]?) =
          (scene.meshes[i]?).toList ++ indices.filterMap fun i => scene.meshes[i]? := by
        cases hi : scene.meshes[i]? with
        | none => rw [List.filterMap_cons_none hi]; rfl
        | some mesh => rw [List.filterMap_cons_some hi]; rfl
      rw [hcons]
      exact List.rel_append hstored hstored'

end Templates

end Instances

/-! ### The tree -/

section Tree

variable [ExactReal R] {createUUID : ℕ → U} {scene : AiScene R} {worldOffset : RepoVector3D R}
  {originalMeshes : List (MeshNode U R)} {meshToMat : U → Option ℕ}

/-- The subtrees that may be absorbed: the tree itself only if it is below another node. -/
def candidates (parents : List U) (t : RoseTree (AiNode R)) : List (RoseTree (AiNode R)) :=
  if parents.isEmpty then t.descendants else t.nodes

/-- The matrices are affine, and one that is absorbed is the identity or outside of the tolerance. -/
structure Tame (scene : AiScene R) (worldOffset : RepoVector3D R) (parents : List U) (t : RoseTree (AiNode R)) :
    Prop where
  affine : ∀ s ∈ t.nodes, s.value.transformation.Affine
  identity : ∀ leaf ∈ candidates parents t, ∀ mesh, IsLeafOf scene leaf mesh →
    offsetTransform leaf.value.transformation worldOffset = 1 ∨
      ¬ (offsetTransform leaf.value.transformation worldOffset).IsIdentity

/-- No mesh with normals is absorbed with a transformation without an inverse. -/
def Invertible (scene : AiScene R) (leaves : List (RoseTree (AiNode R))) : Prop :=
  ∀ leaf ∈ leaves, ∀ mesh, IsLeafOf scene leaf mesh → mesh.normals ≠ [] →
    leaf.value.transformation.determinant ≠ 0

variable {parents : List U}

omit [ExactReal R] in
private theorem mem_nodes_of_mem_candidates {s t : RoseTree (AiNode R)} (hs : s ∈ candidates parents t) :
    s ∈ t.nodes := by
  unfold candidates at hs
  split at hs
  · rw [RoseTree.nodes_eq]
    exact List.mem_cons_of_mem _ hs
  · exact hs

variable {assimpNode : AiNode R}

omit [ExactReal R] in
private theorem mem_candidates_node {children : List (RoseTree (AiNode R))}
    {s : RoseTree (AiNode R)} : s ∈ candidates parents (.node assimpNode children) ↔
      (s = .node assimpNode children ∧ parents ≠ []) ∨ ∃ c ∈ children, s ∈ c.nodes := by
  have hdescendants : s ∈ (RoseTree.node assimpNode children).descendants ↔ ∃ c ∈ children, s ∈ c.nodes :=
    List.mem_flatMap
  cases parents with
  | nil =>
    show s ∈ (RoseTree.node assimpNode children).descendants ↔ _
    rw [hdescendants]
    simp
  | cons p parents =>
    show s ∈ (RoseTree.node assimpNode children).nodes ↔ _
    rw [RoseTree.nodes_eq, List.mem_cons, hdescendants]
    simp

omit [ExactReal R] in
private theorem candidates_of_ne_nil (h : parents ≠ []) (t : RoseTree (AiNode R)) :
    candidates parents t = t.nodes := if_neg (List.isEmpty_iff.not.2 h)

theorem Tame.child {parents parents' : List U} {children : List (RoseTree (AiNode R))}
    (h : Tame scene worldOffset parents (.node assimpNode children)) {c : RoseTree (AiNode R)} (hc : c ∈ children) :
    Tame scene worldOffset parents' c := by
  refine ⟨fun s hs => h.affine s ?_, fun leaf hleaf => h.identity leaf ?_⟩
  · rw [RoseTree.nodes_node]
    exact List.mem_cons_of_mem _ (List.mem_flatMap.2 ⟨c, hc, hs⟩)
  · exact mem_candidates_node.2 (.inr ⟨c, hc, mem_nodes_of_mem_candidates hleaf⟩)

private theorem Tame.leaf (h : Tame scene worldOffset parents (.node assimpNode []))
    (hparents : parents ≠ []) {i : ℕ} (hi : assimpNode.meshes = [i]) :
    assimpNode.transformation.Affine ∧ ∀ mesh, scene.meshes[i]? = some mesh →
      offsetTransform assimpNode.transformation worldOffset = 1 ∨
        ¬ (offsetTransform assimpNode.transformation worldOffset).IsIdentity :=
  ⟨h.affine _ (RoseTree.self_mem_nodes _), fun mesh hmesh =>
    h.identity _ (mem_candidates_node.2 (.inl ⟨rfl, hparents⟩)) mesh ⟨rfl, i, hi, hmesh⟩⟩

private theorem invertible_leaf (hparents : parents ≠ [])
    (hi : assimpNode.meshes = [i]) :
    Invertible scene (candidates parents (.node assimpNode [])) ↔
      ∀ mesh, scene.meshes[i]? = some mesh → mesh.normals ≠ [] → assimpNode.transformation.determinant ≠ 0 := by
  constructor
  · intro h mesh hmesh
    exact h _ (mem_candidates_node.2 (.inl ⟨rfl, hparents⟩)) mesh ⟨rfl, i, hi, hmesh⟩
  · intro h leaf hleaf mesh hmesh
    rcases mem_candidates_node.1 hleaf with ⟨rfl, -⟩ | ⟨c, hc, -⟩
    · obtain ⟨-, j, hj, hmesh⟩ := hmesh
      obtain rfl : i = j := List.singleton_inj.1 (hi.symm.trans hj)
      exact h mesh hmesh
    · exact absurd hc List.not_mem_nil

private theorem invertible_node {children : List (RoseTree (AiNode R))}
    (hkept : ¬ (children = [] ∧ assimpNode.meshes.length = 1 ∧ parents ≠ [])) :
    Invertible scene (candidates parents (.node assimpNode children)) ↔ ∀ c ∈ children, Invertible scene c.nodes := by
  constructor
  · intro h c hc leaf hleaf
    exact h leaf (mem_candidates_node.2 (.inr ⟨c, hc, hleaf⟩))
  · intro h leaf hleaf mesh hmesh
    rcases mem_candidates_node.1 hleaf with ⟨rfl, hparents⟩ | ⟨c, hc, hleaf⟩
    · obtain ⟨hchildren, i, hi, -⟩ := hmesh
      exact absurd ⟨hchildren, List.length_eq_one_iff.2 ⟨i, hi⟩, hparents⟩ hkept
    · exact h c hc leaf hleaf mesh hmesh

variable [DecidableEq U]

variable (createUUID meshToMat) in
/-- Nodes can be created from a tree if and only if no normals prevent it. -/
theorem exists_create_iff (hmeshes : List.Forall₂ (TemplateOf worldOffset) scene.meshes originalMeshes)
    (t : RoseTree (AiNode R)) : ∀ (parents : List U) (state : ImportState U R), Tame scene worldOffset parents t →
      ((∃ result, createTransformationNodesRecursive createUUID originalMeshes meshToMat worldOffset t parents state =
          .ok result) ↔ Invertible scene (candidates parents t)) := by
  induction t using RoseTree.rec_children with
  | h assimpNode children ih =>
    have hgo : ∀ (cs : List (RoseTree (AiNode R))), (∀ c ∈ cs, c ∈ children) → ∀ (parents : List U)
        (state : ImportState U R), parents ≠ [] → (∀ c ∈ cs, Tame scene worldOffset parents c) →
        ((∃ result, createTransformationNodesRecursive.go createUUID originalMeshes meshToMat worldOffset cs parents
            state = .ok result) ↔ ∀ c ∈ cs, Invertible scene c.nodes) := by
      intro cs hcs
      induction cs with
      | nil => exact fun _ _ _ _ => iff_of_true ⟨_, rfl⟩ nofun
      | cons c cs ihcs =>
        intro parents state hparents htame
        have hfirst := ih c (hcs c List.mem_cons_self) parents state (htame c List.mem_cons_self)
        rw [candidates_of_ne_nil hparents] at hfirst
        have hrest := fun state => ihcs (fun c hc => hcs c (List.mem_cons_of_mem _ hc)) parents state hparents
          fun c hc => htame c (List.mem_cons_of_mem _ hc)
        rw [List.forall_mem_cons, createTransformationNodesRecursive.go]
        constructor
        · rintro ⟨result, h⟩
          obtain ⟨childSet, hchild, h⟩ := bind_eq_ok.1 h
          obtain ⟨childSets, hchildren, -⟩ := bind_eq_ok.1 h
          exact ⟨hfirst.1 ⟨_, hchild⟩, (hrest _).1 ⟨_, hchildren⟩⟩
        · rintro ⟨hc, hcs⟩
          obtain ⟨childSet, hchild⟩ := hfirst.2 hc
          obtain ⟨childSets, hchildren⟩ := (hrest childSet.2).2 hcs
          exact ⟨_, bind_eq_ok.2 ⟨childSet, hchild, bind_eq_ok.2 ⟨childSets, hchildren, rfl⟩⟩⟩
    intro parents state htame
    by_cases habsorbs : children = [] ∧ assimpNode.meshes.length = 1 ∧ parents ≠ []
    · obtain ⟨rfl, hlength, hparents⟩ := habsorbs
      obtain ⟨i, hi⟩ := List.length_eq_one_iff.1 hlength
      obtain ⟨haffine, hidentity⟩ := htame.leaf hparents hi
      rw [create_absorbed assimpNode hi hparents, invertible_leaf hparents hi,
        ← determinant_offsetTransform haffine worldOffset,
        ← exists_addInstance_iff hmeshes (affine_offsetTransform haffine worldOffset) hidentity]
      constructor
      · rintro ⟨result, h⟩
        obtain ⟨state', hinstance, -⟩ := map_eq_ok.1 h
        exact ⟨state', hinstance⟩
      · rintro ⟨state', hinstance⟩
        exact ⟨_, map_eq_ok.2 ⟨state', hinstance, rfl⟩⟩
    · rw [create_node assimpNode children habsorbs, invertible_node habsorbs]
      let transNode := transformationNode createUUID assimpNode worldOffset parents state.created
      obtain ⟨state', new, hadd, -, -⟩ := foldlM_addInstance createUUID meshToMat [transNode.sharedId]
        (!children.isEmpty) assimpNode.name (offsetTransform assimpNode.transformation worldOffset) hmeshes
        assimpNode.meshes { state with created := state.created + 2 }
      rw [← hgo children (fun _ hc => hc) [transNode.sharedId] state' (List.cons_ne_nil _ _) fun c hc => htame.child hc]
      constructor
      · rintro ⟨result, h⟩
        obtain ⟨mid, hmid, h⟩ := bind_eq_ok.1 h
        obtain ⟨childSets, hchildren, -⟩ := bind_eq_ok.1 h
        obtain rfl : state' = mid := Except.ok.inj (hadd.symm.trans hmid)
        exact ⟨childSets, hchildren⟩
      · rintro ⟨childSets, hchildren⟩
        exact ⟨_, bind_eq_ok.2 ⟨state', hadd, bind_eq_ok.2 ⟨childSets, hchildren, rfl⟩⟩⟩

/-- What the parents of a tree are, and the product of the transformations to them. -/
def Below (transformations : List (TransformationNode U R)) (parents : List U) (product : RepoMatrix R) : Prop :=
  (parents = [] ∧ product = 1) ∨ ∃ p, parents = [p] ∧ ProductTo transformations p product

/-- The node stands where the reference is, less the offset, as one path to the root says. -/
def Sits (worldOffset : RepoVector3D R) (transformations : List (TransformationNode U R))
    (reference : RepoMatrix R × AiMesh R) (mesh : MeshNode U R) : Prop :=
  ∃ p product, mesh.parentIds = [p] ∧ ProductTo transformations p product ∧
    mesh.vertices.map product.image = reference.2.vertices.map fun v => reference.1.image v - worldOffset

omit [DecidableEq U] in
theorem Stored.sits {p : U} {m above product : RepoMatrix R} {assimpMesh : AiMesh R} {mesh : MeshNode U R}
    {transformations : List (TransformationNode U R)} (h : Stored worldOffset [p] m assimpMesh mesh) (hm : m.Affine)
    (hproduct : ProductTo transformations p product) (hshifted : Shifted worldOffset above (product * m)) :
    Sits worldOffset transformations (above, assimpMesh) mesh := by
  refine ⟨p, product, h.parentIds, hproduct, ?_⟩
  rw [h.vertices, List.map_map]
  refine List.map_congr_left fun v _ => ?_
  show product.image (m.image (v - worldOffset)) = above.image v - worldOffset
  rw [← RepoMatrix.image_mul _ hm, hshifted, sub_add_cancel_offset]

private theorem Below.node {transformations : List (TransformationNode U R)} {product : RepoMatrix R}
    (h : Below transformations parents product) {created : ℕ}
    (hmem : transformationNode createUUID assimpNode worldOffset parents created ∈ transformations) :
    ProductTo transformations (transformationNode createUUID assimpNode worldOffset parents created).sharedId
      (product * offsetTransform assimpNode.transformation worldOffset) := by
  rcases h with ⟨rfl, rfl⟩ | ⟨p, rfl, hproduct⟩
  · rw [one_mul]
    exact .root hmem rfl
  · exact .child hmem rfl hproduct

/-- Every mesh node stands where it should. -/
theorem sits_create (hmeshes : List.Forall₂ (TemplateOf worldOffset) scene.meshes originalMeshes)
    (t : RoseTree (AiNode R)) {state : ImportState U R}
    {result : List (TransformationNode U R) × ImportState U R}
    (h : createTransformationNodesRecursive createUUID originalMeshes meshToMat worldOffset t parents state =
      .ok result) (htame : Tame scene worldOffset parents t) :
    ∃ new, result.2.newMeshes = state.newMeshes ++ new ∧
      ∀ transformations, (∀ node ∈ result.1, node ∈ transformations) → ∀ above product,
        Below transformations parents product → Shifted worldOffset above product →
          List.Forall₂ (Sits worldOffset transformations) (references scene t above) new := by
  refine create_rec
    (P := fun t parents state result => Tame scene worldOffset parents t → ∃ new,
      result.2.newMeshes = state.newMeshes ++ new ∧
        ∀ transformations, (∀ node ∈ result.1, node ∈ transformations) → ∀ above product,
          Below transformations parents product → Shifted worldOffset above product →
            List.Forall₂ (Sits worldOffset transformations) (references scene t above) new)
    (Q := fun cs parents state result => (∀ c ∈ cs, Tame scene worldOffset parents c) → ∃ new,
      result.2.newMeshes = state.newMeshes ++ new ∧
        ∀ transformations, (∀ node ∈ result.1, node ∈ transformations) → ∀ above product,
          Below transformations parents product → Shifted worldOffset above product →
            List.Forall₂ (Sits worldOffset transformations) (references.go scene cs above) new) ?_ ?_ ?_ ?_ t h htame
  · intro assimpNode i parents state state' hi hparents hinstance htame
    obtain ⟨haffine, hidentity⟩ := htame.leaf hparents hi
    have haffine' := affine_offsetTransform haffine worldOffset
    obtain ⟨new, hnew, hstored⟩ := addInstance_absorbed hmeshes haffine' hidentity hinstance
    refine ⟨new, hnew, fun transformations _ above product hbelow hshifted => ?_⟩
    obtain ⟨hnil, -⟩ | ⟨p, rfl, hproduct⟩ := hbelow
    · exact absurd hnil hparents
    · have hreferences : references scene (.node assimpNode []) above =
          (scene.meshes[i]?).toList.map fun mesh => (above * assimpNode.transformation, mesh) := by
        rw [references, hi, references.go, List.append_nil]
        cases hmesh : scene.meshes[i]? with
        | none => rw [List.filterMap_cons_none hmesh]; rfl
        | some mesh => rw [List.filterMap_cons_some hmesh]; rfl
      rw [hreferences, List.forall₂_map_left_iff]
      exact hstored.imp fun _ _ h => h.sits haffine' hproduct (hshifted.mul haffine)
  · intro assimpNode children parents state state' childSets _ hinstances hchildren htame
    obtain ⟨mid, new, hadd, hnew, hstored⟩ := foldlM_addInstance createUUID meshToMat
      [(transformationNode createUUID assimpNode worldOffset parents state.created).sharedId]
      (!children.isEmpty) assimpNode.name (offsetTransform assimpNode.transformation worldOffset) hmeshes
      assimpNode.meshes { state with created := state.created + 2 }
    obtain rfl : mid = state' := Except.ok.inj (hadd.symm.trans hinstances)
    obtain ⟨new', hnew', hsits⟩ := hchildren fun c hc => htame.child hc
    have haffine := htame.affine _ (RoseTree.self_mem_nodes _)
    refine ⟨new ++ new', ?_, fun transformations hmem above product hbelow hshifted => ?_⟩
    · rw [hnew', hnew, List.append_assoc]
    · have hproduct := hbelow.node (hmem _ List.mem_cons_self)
      have hshifted' := hshifted.mul haffine
      rw [references]
      refine List.rel_append ?_ (hsits transformations (fun node hnode => hmem node (List.mem_cons_of_mem _ hnode)) _ _
        (.inr ⟨_, rfl, hproduct⟩) hshifted')
      rw [List.forall₂_map_left_iff]
      exact hstored.imp fun _ _ h => h.sits RepoMatrix.affine_one hproduct (by rwa [mul_one])
  · exact fun _ => ⟨[], (List.append_nil _).symm, fun _ _ _ _ _ _ => .nil⟩
  · intro c cs parents state childSet childSets hfirst hrest htame
    obtain ⟨new, hnew, hsits⟩ := hfirst (htame c List.mem_cons_self)
    obtain ⟨new', hnew', hsits'⟩ := hrest fun c hc => htame c (List.mem_cons_of_mem _ hc)
    refine ⟨new ++ new', ?_, fun transformations hmem above product hbelow hshifted => ?_⟩
    · rw [hnew', hnew, List.append_assoc]
    · rw [references.go]
      exact List.rel_append
        (hsits transformations (fun node hnode => hmem node (List.mem_append_left _ hnode)) _ _ hbelow hshifted)
        (hsits' transformations (fun node hnode => hmem node (List.mem_append_right _ hnode)) _ _ hbelow hshifted)

end Tree

/-! ### The scene -/

section Scene

variable [ExactReal R] [Inhabited U] [DecidableEq U] {createUUID : ℕ → U} {scene : AiScene R}
  {worldOffset : RepoVector3D R}

private theorem exists_convert_iff (hvertices : ∀ mesh ∈ scene.meshes, mesh.vertices ≠ [])
    (htame : Tame scene worldOffset ([] : List U) scene.rootNode) :
    (∃ converted, convertAiSceneToRepoScene createUUID scene worldOffset = .ok converted) ↔
      Invertible scene scene.rootNode.descendants := by
  let materials := createMaterials createUUID scene
  let templates := createTemplates createUUID scene materials worldOffset
  have hmeshes : List.Forall₂ (TemplateOf worldOffset) scene.meshes templates.originalOrderMesh :=
    templates_createTemplates materials hvertices
  have hcreate := exists_create_iff createUUID (meshToMat materials.nodes.length templates.matParents) hmeshes
    scene.rootNode [] ⟨[], fun _ => [], templates.created⟩ htame
  refine Iff.trans ?_ hcreate
  constructor
  · rintro ⟨converted, h⟩
    obtain ⟨result, hresult, -⟩ := bind_eq_ok.1 h
    exact ⟨result, hresult⟩
  · rintro ⟨result, hresult⟩
    exact ⟨_, bind_eq_ok.2 ⟨result, hresult, rfl⟩⟩

/-- In a scene that is imported every mesh node stands where it should. -/
theorem places_of_convert {converted : ConvertedScene U R} (hinj : Function.Injective createUUID)
    (hvertices : ∀ mesh ∈ scene.meshes, mesh.vertices ≠ [])
    (htame : Tame scene worldOffset ([] : List U) scene.rootNode)
    (h : convertAiSceneToRepoScene createUUID scene worldOffset = .ok converted) :
    List.Forall₂ (Places worldOffset converted.transformations) scene.references converted.meshes := by
  obtain ⟨result, hcreate, hresult⟩ := bind_eq_ok.1 h
  cases hresult
  let materials := createMaterials createUUID scene
  have hmeshes : List.Forall₂ (TemplateOf worldOffset) scene.meshes
      (createTemplates createUUID scene materials worldOffset).originalOrderMesh :=
    templates_createTemplates materials hvertices
  obtain ⟨new, hnew, hsits⟩ := sits_create hmeshes scene.rootNode hcreate htame
  have hsits := hsits result.1 (fun _ hnode => hnode) 1 1 (.inl ⟨rfl, rfl⟩) shifted_one
  rw [List.nil_append] at hnew
  -- no two transformations share an identifier, so that there is only one product
  have hnodup := (grows_create scene.rootNode hcreate).2.nodup hinj
  have hunique : ∀ p product product', ProductTo result.1 p product → ProductTo result.1 p product' →
      product = product' := fun p product product' hproduct hproduct' =>
    hproduct.unique (fun node hnode node' hnode' hsame => List.inj_on_of_nodup_map hnodup hnode hnode' hsame) hproduct'
  show List.Forall₂ _ (references scene scene.rootNode 1) result.2.newMeshes
  rw [hnew]
  refine hsits.imp ?_
  rintro reference mesh ⟨p, product, hparent, hproduct, hvertices⟩
  refine ⟨⟨p, product, hparent, hproduct⟩, fun p' product' hparent' hproduct' => ?_⟩
  obtain rfl : p = p' := List.singleton_inj.1 (hparent.symm.trans hparent')
  rwa [← hunique p product product' hproduct hproduct']

/-- The import preserves the geometry if and only if every leaf that is absorbed into a mesh with normals has a
transformation with an inverse. -/
theorem preservesGeometry_iff (hinj : Function.Injective createUUID)
    (hvertices : ∀ mesh ∈ scene.meshes, mesh.vertices ≠ [])
    (haffine : ∀ t ∈ scene.rootNode.nodes, t.value.transformation.Affine)
    (hidentity : ∀ leaf ∈ scene.rootNode.descendants, ∀ mesh, IsLeafOf scene leaf mesh →
      offsetTransform leaf.value.transformation worldOffset = 1 ∨
        ¬ (offsetTransform leaf.value.transformation worldOffset).IsIdentity) :
    PreservesGeometry createUUID scene worldOffset ↔
      ∀ leaf ∈ scene.rootNode.descendants, ∀ mesh, IsLeafOf scene leaf mesh → mesh.normals ≠ [] →
        leaf.value.transformation.determinant ≠ 0 := by
  have htame : Tame scene worldOffset ([] : List U) scene.rootNode := ⟨haffine, hidentity⟩
  constructor
  · rintro ⟨converted, h, -⟩
    exact (exists_convert_iff hvertices htame).1 ⟨converted, h⟩
  · intro hinvertible
    obtain ⟨converted, h⟩ := (exists_convert_iff hvertices htame).2 hinvertible
    exact ⟨converted, h, places_of_convert hinj hvertices htame h⟩

/-- A leaf with a slab of one vertex and one normal, below a root. -/
def leafScene (transformation : RepoMatrix ℝ) : AiScene ℝ :=
  ⟨[⟨"stone", none, []⟩], [⟨"slab", [⟨1, 2, 3⟩], [], [⟨0, 0, 1⟩], none, 0⟩],
    .node ⟨"root", 1, []⟩ [.node ⟨"leaf", transformation, [0]⟩ []], by simp⟩

private theorem affine_leafScene {transformation : RepoMatrix ℝ} (h : transformation.Affine) :
    ∀ t ∈ (leafScene transformation).rootNode.nodes, t.value.transformation.Affine := by
  have hnodes : (leafScene transformation).rootNode.nodes =
      [.node ⟨"root", 1, []⟩ [.node ⟨"leaf", transformation, [0]⟩ []], .node ⟨"leaf", transformation, [0]⟩ []] := rfl
  rw [hnodes]
  simp [h, RepoMatrix.affine_one]

private theorem mem_descendants_leafScene {transformation : RepoMatrix ℝ} {leaf : RoseTree (AiNode ℝ)} :
    leaf ∈ (leafScene transformation).rootNode.descendants ↔ leaf = .node ⟨"leaf", transformation, [0]⟩ [] :=
  List.mem_singleton

private theorem vertices_leafScene (transformation : RepoMatrix ℝ) :
    ∀ mesh ∈ (leafScene transformation).meshes, mesh.vertices ≠ [] := by simp [leafScene]

/-- Scales `z` by zero. -/
def flatten : RepoMatrix ℝ := Matrix.of ![![1, 0, 0, 0], ![0, 1, 0, 0], ![0, 0, 0, 0], ![0, 0, 0, 1]]

private theorem not_isIdentity_translate : ¬ (offsetTransform (.translate ⟨2, 0, 0⟩ : RepoMatrix ℝ) ⟨5, 0, 0⟩).IsIdentity := by
  intro h
  have hentry : |(2 : ℝ) + (5 * 1 + 0 * 0 + 0 * 0 - 5)| ≤ RepoMatrix.eps := h.2 0 3 (by decide)
  unfold RepoMatrix.eps at hentry
  norm_num at hentry

private theorem not_isIdentity_flatten : ¬ (offsetTransform flatten 0).IsIdentity := by
  intro h
  have hentry : (0 : ℝ) ≥ 1 - RepoMatrix.eps := (h.1 2).2
  unfold RepoMatrix.eps at hentry
  norm_num at hentry

private theorem affine_flatten : flatten.Affine := ⟨rfl, rfl, rfl, rfl⟩

theorem preservesGeometry_example :
    PreservesGeometry (id : ℕ → ℕ) (leafScene (.translate ⟨2, 0, 0⟩)) ⟨5, 0, 0⟩ := by
  have haffine : (.translate ⟨2, 0, 0⟩ : RepoMatrix ℝ).Affine := ⟨rfl, rfl, rfl, rfl⟩
  refine (preservesGeometry_iff Function.injective_id (vertices_leafScene _) (affine_leafScene haffine) ?_).2 ?_
  · intro leaf hleaf mesh _
    rw [mem_descendants_leafScene.1 hleaf]
    exact .inr not_isIdentity_translate
  · intro leaf hleaf mesh _ _
    rw [mem_descendants_leafScene.1 hleaf]
    show (RepoMatrix.translate ⟨2, 0, 0⟩).determinant ≠ 0
    have hdet : (RepoMatrix.translate ⟨2, 0, 0⟩ : RepoMatrix ℝ).determinant =
        1 * (1 * 1 - 0 * 0) - 0 * (0 * 1 - 0 * 0) + 0 * (0 * 0 - 1 * 0) := haffine.determinant
    rw [hdet]
    norm_num

/-- A leaf that is flattened. -/
theorem not_preservesGeometry :
    flatten.Affine ∧ ¬ (offsetTransform flatten 0).IsIdentity ∧ ¬ PreservesGeometry (id : ℕ → ℕ) (leafScene flatten) 0 := by
  have htame : Tame (leafScene flatten) 0 ([] : List ℕ) (leafScene flatten).rootNode := by
    refine ⟨affine_leafScene affine_flatten, fun leaf hleaf mesh _ => ?_⟩
    rw [mem_descendants_leafScene.1 hleaf]
    exact .inr not_isIdentity_flatten
  refine ⟨affine_flatten, not_isIdentity_flatten, ?_⟩
  rintro ⟨converted, h, -⟩
  have hinvertible := (exists_convert_iff (vertices_leafScene _) htame).1 ⟨converted, h⟩
  refine hinvertible _ (mem_descendants_leafScene.2 rfl) _ ⟨rfl, 0, rfl, rfl⟩ (List.cons_ne_nil _ _) ?_
  have hdet : flatten.determinant = 1 * (1 * 0 - 0 * 0) - 0 * (0 * 0 - 0 * 0) + 0 * (0 * 0 - 1 * 0) :=
    affine_flatten.determinant
  show flatten.determinant = 0
  rw [hdet]
  norm_num

end Scene

end Bouncer.AssimpModelImport
