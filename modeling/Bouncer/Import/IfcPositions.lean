import Bouncer.Datastructure.MatrixInverse
import Bouncer.Import.IfcSerialiser

/-!
# The positions of an imported IFC file

In whatever order the elements are delivered, each object has at most one leaf and one branch, and the meshes are where
their elements are (`preservesPositions`).  The table of products is right because all matrices are translations, and as
a branch that is put above a leaf has no matrix of its own.
-/

namespace Bouncer.IfcSerialiser

open Library Library.Fallible Library.Identifiers
open MultipartOptimizer (Failure orFail orFail_mapM transformNormals transformNormals_ok)

variable {U R : Type}

section Import

variable [DecidableEq U] [Inhabited U] [ExactReal R] {createUUID : ℕ → U} {file : IfcFile}
  {state state' : ImportState file U R} {element : TriangulationElement file R}

/-! ### One element -/

/-- The mesh is under its target, and where its element is. -/
def Sits (createUUID : ℕ → U) (state : ImportState file U R) (element : TriangulationElement file R)
    (mesh : MeshNode U R) : Prop :=
  ∃ p, mesh.parentIds = [p] ∧ state.target createUUID element.product (!element.isIfcSpace) = some p ∧
    mesh.vertices.map (state.parentLocalToWorld p).image = element.verts.map element.transformation.image

omit [DecidableEq U] [Inhabited U] in
theorem Sits.mono {mesh : MeshNode U R} (h : Sits createUUID state element mesh) (hinv : Inv createUUID state)
    (hextends : Extends state state') : Sits createUUID state' element mesh := by
  obtain ⟨p, hparent, htarget, hvertices⟩ := h
  refine ⟨p, hparent, ?_, ?_⟩
  · unfold ImportState.target at htarget ⊢
    split_ifs at htarget ⊢
    · exact hextends.entry _ _ htarget
    · exact place_mono hextends.entry htarget
  · rw [(hextends.ids p (hinv.target_mem htarget)).2]
    exact hvertices

omit [DecidableEq U] [Inhabited U] in
theorem Inv.withMeshes (h : Inv createUUID state) (meshes : List (MeshNode U R)) {created : ℕ}
    (hle : state.created ≤ created) : Inv createUUID { state with meshes := meshes, created := created } :=
  ⟨h.ids.mono le_rfl hle, h.root, h.products, h.translations, h.entries, h.found, h.parents, h.above⟩

private theorem translate_mul_inverse (t : RepoVector3D R) (m : RepoMatrix R) :
    (RepoMatrix.translate t * ((RepoMatrix.translate t).inverse * m) : RepoMatrix R) = m := by
  have hsum : -t + t = 0 := by ext <;> exact neg_add_cancel _
  rw [RepoMatrix.inverse_translate, ← mul_assoc, RepoMatrix.translate_mul_translate, hsum, RepoMatrix.translate_zero,
    one_mul]

private theorem affine_fullCorrMat {m : RepoMatrix R} (h : m.Affine) (t : RepoVector3D R) :
    RepoMatrix.Affine ((RepoMatrix.translate t).inverse * m) := by
  rw [RepoMatrix.inverse_translate]
  exact (RepoMatrix.affine_translate _).mul h

omit [DecidableEq U] [Inhabited U] in
private theorem Inv.exists_translate (h : Inv createUUID state) {id : U} (hid : id ∈ state.ids) :
    ∃ t, state.parentLocalToWorld id = .translate t := by
  obtain ⟨node, hnode, rfl⟩ := List.mem_map.1 hid
  exact h.translations node hnode

private theorem forall₂_mapIdx {α β : Type} {r : α → β → Prop} {f : ℕ → α → β} (l : List α) (h : ∀ i a, r a (f i a)) :
    List.Forall₂ r l (l.mapIdx f) := by
  induction l generalizing f with
  | nil => exact .nil
  | cons a l ih =>
    rw [List.mapIdx_cons]
    exact .cons (h 0 a) (ih fun i a => h (i + 1) a)

/-- An element with triangles: only its normals can end the process. -/
theorem importElement_of_faces (hinj : Function.Injective createUUID) (hinv : Inv createUUID state)
    (hfaces : element.faces ≠ []) : ∃ (parent : U × ImportState file U R) (t : RepoVector3D R),
      Reaches createUUID (CausedByElement element.product (!element.isIfcSpace)) state parent.2 ∧
      parent.2.target createUUID element.product (!element.isIfcSpace) = some parent.1 ∧
      parent.2.parentLocalToWorld parent.1 = .translate t ∧
      importElement createUUID state element =
        (transformNormals element.normals ((RepoMatrix.translate t).inverse * element.transformation)).map fun normals =>
          { parent.2 with
            meshes := parent.2.meshes ++ element.facesByMaterial.mapIdx (makeMeshNode createUUID element parent.1
              (element.verts.map (RepoMatrix.image ((RepoMatrix.translate t).inverse * element.transformation))) normals
              parent.2.created)
            created := parent.2.created + 2 * element.facesByMaterial.length } := by
  let newSpaceMat : RepoMatrix R :=
    .translate (RepoBounds.ofPoints (element.verts.map element.transformation.image)).center
  obtain ⟨hreaches, htarget⟩ := getParentId_reaches hinj element.product (!element.isIfcSpace) hinv
    (show ∃ t, newSpaceMat = .translate t from ⟨_, rfl⟩)
  obtain ⟨t, ht⟩ := hreaches.inv.exists_translate (hreaches.inv.target_mem htarget)
  refine ⟨_, t, hreaches, htarget, ht, ?_⟩
  unfold importElement
  rw [orFail_mapM element.affine.mulVector]
  refine (if_neg hfaces).trans ?_
  dsimp only
  rw [show (getParentId createUUID element.product (!element.isIfcSpace) _ state).2.parentLocalToWorld _ = _ from ht,
    orFail_mapM (affine_fullCorrMat element.affine t).mulVector]
  cases transformNormals element.normals ((RepoMatrix.translate t).inverse * element.transformation) <;> rfl

/-- What an element without triangles does, and what another one does. -/
theorem importElement_cases (hinj : Function.Injective createUUID) (hinv : Inv createUUID state)
    (h : importElement createUUID state element = .ok state') :
    (element.faces = [] ∧ state' = state) ∨ element.faces ≠ [] ∧ ∃ (parent : U × ImportState file U R)
      (meshes : List (MeshNode U R)) (created : ℕ),
        state' = { parent.2 with meshes := parent.2.meshes ++ meshes, created := created } ∧
        parent.2.created ≤ created ∧
        Reaches createUUID (CausedByElement element.product (!element.isIfcSpace)) state parent.2 ∧
        List.Forall₂ (Sits createUUID parent.2) (element.facesByMaterial.map fun _ => element) meshes := by
  by_cases hfaces : element.faces = []
  · left
    unfold importElement at h
    rw [orFail_mapM element.affine.mulVector] at h
    have hstate := (if_pos hfaces).symm.trans h
    cases hstate
    exact ⟨hfaces, rfl⟩
  · right
    obtain ⟨parent, t, hreaches, htarget, ht, hequation⟩ := importElement_of_faces hinj hinv hfaces
    rw [hequation] at h
    obtain ⟨normals, -, rfl⟩ := map_eq_ok.1 h
    refine ⟨hfaces, parent, _, _, rfl, Nat.le_add_right _ _, hreaches, ?_⟩
    rw [List.forall₂_map_left_iff]
    refine forall₂_mapIdx _ fun i pair => ⟨parent.1, rfl, htarget, ?_⟩
    rw [ht]
    show (element.verts.map _).map _ = _
    rw [List.map_map]
    refine List.map_congr_left fun v _ => ?_
    rw [Function.comp_apply, ← RepoMatrix.image_mul _ (affine_fullCorrMat element.affine t), translate_mul_inverse]

private theorem exists_importElement (hinj : Function.Injective createUUID) (hinv : Inv createUUID state)
    (hdet : element.transformation.determinant ≠ 0) :
    ∃ state', importElement createUUID state element = .ok state' := by
  by_cases hfaces : element.faces = []
  · refine ⟨state, ?_⟩
    unfold importElement
    rw [orFail_mapM element.affine.mulVector]
    exact if_pos hfaces
  · obtain ⟨parent, t, -, -, -, hequation⟩ := importElement_of_faces hinj hinv hfaces
    have hdet' : RepoMatrix.determinant ((RepoMatrix.translate t).inverse * element.transformation) ≠ 0 := by
      rw [RepoMatrix.inverse_translate, RepoMatrix.determinant_translate_mul _ element.affine]
      exact hdet
    rw [hequation, transformNormals_ok (affine_fullCorrMat element.affine t) hdet']
    exact ⟨_, rfl⟩

/-! ### All elements -/

/-- What holds when these elements have been imported. -/
structure Imported (createUUID : ℕ → U) (elements : List (TriangulationElement file R)) (state : ImportState file U R) :
    Prop where
  inv : Inv createUUID state
  meshes : List.Forall₂ (Sits createUUID state)
    (elements.flatMap fun element => element.facesByMaterial.map fun _ => element) state.meshes
  origins : ∀ node ∈ state.nodes, node.origin = .root ∨ ∃ element ∈ elements, element.faces ≠ [] ∧
    CausedByElement element.product (!element.isIfcSpace) node.origin

omit [DecidableEq U] [Inhabited U] in
private theorem imported_initial (file : IfcFile) :
    Imported createUUID [] (.initial createUUID file : ImportState file U R) :=
  ⟨inv_initial file, .nil, fun node hnode => .inl (by rw [List.mem_singleton.1 hnode])⟩

/-- One element more. -/
theorem Imported.step (hinj : Function.Injective createUUID) {elements : List (TriangulationElement file R)}
    (h : Imported createUUID elements state) (hok : importElement createUUID state element = .ok state') :
    Imported createUUID (elements ++ [element]) state' := by
  have horigins : ∀ origin : Origin file, (∃ element ∈ elements, element.faces ≠ [] ∧
      CausedByElement element.product (!element.isIfcSpace) origin) → ∃ e ∈ elements ++ [element], e.faces ≠ [] ∧
        CausedByElement e.product (!e.isIfcSpace) origin := by
    rintro origin ⟨e, he, hcaused⟩
    exact ⟨e, List.mem_append_left _ he, hcaused⟩
  rcases importElement_cases hinj h.inv hok with ⟨hfaces, rfl⟩ | ⟨hfaces, parent, meshes, created, rfl, hle, hreaches, hnew⟩
  · refine ⟨h.inv, ?_, fun node hnode => (h.origins node hnode).imp_right (horigins _)⟩
    have hnone : element.facesByMaterial = [] := by
      rw [TriangulationElement.facesByMaterial, hfaces]
      rfl
    rw [List.flatMap_append, List.flatMap_singleton, hnone, List.map_nil, List.append_nil]
    exact h.meshes
  · have hinv := hreaches.inv.withMeshes (parent.2.meshes ++ meshes) hle
    refine ⟨hinv, ?_, fun node hnode => ?_⟩
    · rw [List.flatMap_append, List.flatMap_singleton]
      refine List.rel_append ?_ hnew
      rw [hreaches.extends_.meshes]
      exact h.meshes.imp fun _ _ hsits =>
        show Sits createUUID parent.2 _ _ from hsits.mono h.inv hreaches.extends_
    · rcases hreaches.origins node hnode with ⟨old, hold, horigin⟩ | hcaused
      · rw [← horigin]
        exact (h.origins old hold).imp_right (horigins _)
      · exact .inr ⟨element, List.mem_append_right _ (List.mem_singleton_self _), hfaces, hcaused⟩

theorem Imported.run (hinj : Function.Injective createUUID) {done rest : List (TriangulationElement file R)}
    (h : Imported createUUID done state) (hok : rest.foldlM (importElement createUUID) state = .ok state') :
    Imported createUUID (done ++ rest) state' := by
  induction rest generalizing done state with
  | nil =>
    cases hok
    rwa [List.append_nil]
  | cons element rest ih =>
    obtain ⟨mid, hfirst, hrest⟩ := foldlM_cons_eq_ok.1 hok
    rw [← List.singleton_append, ← List.append_assoc]
    exact ih (h.step hinj hfirst) hrest

theorem imported_importElements (hinj : Function.Injective createUUID) {elements : List (TriangulationElement file R)}
    (hok : importElements createUUID elements = .ok state) : Imported createUUID elements state :=
  (imported_initial file).run hinj hok

private theorem exists_importElements (hinj : Function.Injective createUUID) (elements : List (TriangulationElement file R))
    (hdet : ∀ element ∈ elements, element.transformation.determinant ≠ 0) :
    ∃ state, importElements createUUID elements = .ok state := by
  have hrun : ∀ (rest done : List (TriangulationElement file R)) (state : ImportState file U R),
      Imported createUUID done state → (∀ element ∈ rest, element.transformation.determinant ≠ 0) →
        ∃ state', rest.foldlM (importElement createUUID) state = .ok state' := by
    intro rest
    induction rest with
    | nil => exact fun _ state _ _ => ⟨state, rfl⟩
    | cons element rest ih =>
      intro done state h hdet
      obtain ⟨mid, hfirst⟩ := exists_importElement hinj h.inv (hdet element List.mem_cons_self)
      obtain ⟨state', hrest⟩ := ih _ mid (h.step hinj hfirst) fun e he => hdet e (List.mem_cons_of_mem _ he)
      exact ⟨state', foldlM_cons_eq_ok.2 ⟨mid, hfirst, hrest⟩⟩
  exact hrun elements [] _ (imported_initial file) hdet

/-! ### Positions -/

/-- The mesh has one parent, and the product of the matrices to it moves the vertices to where the element has them. -/
structure Places (nodes : List (TransformationNode file U R)) (element : TriangulationElement file R)
    (mesh : MeshNode U R) : Prop where
  parent : ∃ p product, mesh.parentIds = [p] ∧ ProductTo nodes p product
  vertices : ∀ p product, mesh.parentIds = [p] → ProductTo nodes p product →
    mesh.vertices.map product.image = element.verts.map element.transformation.image

/-- Each object has at most one leaf and at most one branch, and there is a mesh in its place for each material of each
element. -/
structure PreservesPositions (elements : List (TriangulationElement file R)) (state : ImportState file U R) : Prop where
  leaf : ∀ object, (state.nodes.map TransformationNode.origin).count (.leaf object) ≤ 1
  branch : ∀ object, (state.nodes.map TransformationNode.origin).count (.branch object) ≤ 1
  meshes : List.Forall₂ (Places state.nodes)
    (elements.flatMap fun element => element.facesByMaterial.map fun _ => element) state.meshes

omit [DecidableEq U] [Inhabited U] in
theorem Inv.count_le_one (h : Inv createUUID state) (hinj : Function.Injective createUUID) {origin : Origin file}
    {slot : Slot} (hslot : origin.slot = some slot) : (state.nodes.map TransformationNode.origin).count origin ≤ 1 := by
  have hnodup : (state.nodes.filter fun node => decide (node.origin = origin)).Nodup :=
    (List.Nodup.of_map _ (h.ids.nodup hinj)).filter _
  have hsame : ∀ node ∈ state.nodes.filter (fun node => decide (node.origin = origin)),
      state.entry slot = some node.sharedId ∧ node ∈ state.nodes := by
    intro node hnode
    obtain ⟨hmem, horigin⟩ := List.mem_filter.1 hnode
    exact ⟨h.entries node hmem slot (of_decide_eq_true horigin ▸ hslot), hmem⟩
  have hcount : (state.nodes.map TransformationNode.origin).count origin =
      (state.nodes.filter fun node => decide (node.origin = origin)).length := by
    rw [List.count, List.countP_map, List.countP_eq_length_filter]
    rfl
  rw [hcount]
  rcases hfilter : state.nodes.filter (fun node => decide (node.origin = origin)) with _ | ⟨node, _ | ⟨node', rest⟩⟩
  · rw [hfilter]
    exact Nat.zero_le 1
  · rw [hfilter]
    exact le_rfl
  · rw [hfilter] at hnodup hsame
    obtain ⟨hentry, hmem⟩ := hsame node List.mem_cons_self
    obtain ⟨hentry', hmem'⟩ := hsame node' (List.mem_cons_of_mem _ List.mem_cons_self)
    have heq := h.node_ext hinj hmem hmem' (Option.some.inj (hentry.symm.trans hentry'))
    exact absurd heq (List.pairwise_cons.1 hnodup |>.1 node' List.mem_cons_self)

omit [DecidableEq U] [Inhabited U] in
private theorem Sits.places (hinv : Inv createUUID state) (hinj : Function.Injective createUUID) {mesh : MeshNode U R}
    (h : Sits createUUID state element mesh) : Places state.nodes element mesh := by
  obtain ⟨p, hparent, htarget, hvertices⟩ := h
  obtain ⟨node, hnode, rfl⟩ := List.mem_map.1 (hinv.target_mem htarget)
  have hproduct := hinv.products node hnode
  refine ⟨⟨_, _, hparent, hproduct⟩, fun p product hparent' hproduct' => ?_⟩
  obtain rfl : node.sharedId = p := List.singleton_inj.1 (hparent.symm.trans hparent')
  have hunique := ParentPaths.Product.unique (fun n hn n' hn' => hinv.node_ext hinj hn hn') hproduct hproduct'
  rwa [← hunique]

/-- For every file and every order of elements the positions are preserved; and the import ends well if all placements have
an inverse. -/
theorem preservesPositions (hinj : Function.Injective createUUID) (elements : List (TriangulationElement file R)) :
    (∀ state, importElements createUUID elements = .ok state → PreservesPositions elements state) ∧
      ((∀ element ∈ elements, element.transformation.determinant ≠ 0) →
        ∃ state, importElements createUUID elements = .ok state) := by
  refine ⟨fun state hok => ?_, exists_importElements hinj elements⟩
  have h := imported_importElements hinj hok
  exact ⟨fun _ => h.inv.count_le_one hinj rfl, fun _ => h.inv.count_le_one hinj rfl,
    h.meshes.imp fun _ _ hsits => hsits.places h.inv hinj⟩

end Import

/-! ### An example -/

/-- Two storeys, with a wall in the first one and a door and a window in the second one. -/
def exampleRelations : IfcRelations where
  maxId := 5
  object := ![⟨"", "IfcProject", 30, .other⟩, ⟨"Level 1", "IfcBuildingStorey", 20, .other⟩,
    ⟨"Level 2", "IfcBuildingStorey", 20, .other⟩, ⟨"", "IfcWall", 8, .IfcElement⟩, ⟨"", "IfcDoor", 7, .IfcElement⟩,
    ⟨"", "IfcWindow", 9, .IfcElement⟩]
  containedIn := ![[], [], [], [some 1], [some 2], [some 2]]
  decomposes := fun _ => []

def exampleFile : IfcFile where
  toIfcRelations := exampleRelations
  acyclic := by
    have hlt : ∀ object p : exampleRelations.Object, exampleRelations.getParent object = some p → p < object := by decide
    exact Subrelation.wf (fun h => hlt _ _ h) wellFounded_lt

/-- A triangle at the origin. -/
def exampleElement (product : Fin 6) : TriangulationElement exampleFile ℝ :=
  ⟨product, "", 1, [⟨0, 0, 0⟩, ⟨1, 0, 0⟩, ⟨0, 1, 0⟩], [], [], [(⟨[0, 1, 2], le_rfl⟩, 0)], fun _ => 1, RepoMatrix.affine_one⟩

/-- Such elements are imported. -/
theorem exists_import_example (products : List (Fin 6)) :
    ∃ state, importElements (id : ℕ → ℕ) (products.map exampleElement) = .ok state := by
  refine exists_importElements Function.injective_id _ fun element helement => ?_
  obtain ⟨product, -, rfl⟩ := List.mem_map.1 helement
  show (1 : RepoMatrix ℝ).determinant ≠ 0
  rw [← RepoMatrix.translate_zero, RepoMatrix.determinant_translate]
  exact one_ne_zero

theorem preservesPositions_example : ∃ state, importElements (id : ℕ → ℕ) [exampleElement 3, exampleElement 4] =
    .ok state ∧ PreservesPositions [exampleElement 3, exampleElement 4] state := by
  obtain ⟨state, hok⟩ := exists_import_example [3, 4]
  exact ⟨state, hok, (preservesPositions Function.injective_id [exampleElement 3, exampleElement 4]).1 state hok⟩

end Bouncer.IfcSerialiser
