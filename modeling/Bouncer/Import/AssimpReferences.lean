import Bouncer.Import.AssimpModelImport

/-!
# The references of an imported scene

The parents of a material node should be the meshes with this material, and those of a texture node the materials with
this texture.  But the identifiers of the templates are given to the materials too, and no template is in the scene.
Also a texture node is made every time a texture is named, not only the first time.

So the references are exact only in a scene without meshes in which every texture is named once
(`exactReferences_iff`).
-/

namespace Bouncer.AssimpModelImport

open Library Library.Fallible Library.Identifiers

variable {U R : Type}

/-- The names of the diffuse textures of all materials. -/
def textureNames (scene : AiScene R) : List String :=
  (scene.materials.flatMap AiMaterial.diffuse).filterMap fun path => path.filter fun texName => decide (texName ≠ "")

/-- The first diffuse texture of the material at this position has this name. -/
def FirstDiffuse (materials : List (AiMaterial R)) (i : ℕ) (texName : String) : Prop :=
  ∃ material, materials[i]? = some material ∧ material.diffuse.head? = some (some texName)

/-- The mesh node is an instance of this mesh: they stand at one position in the order of the nodes. -/
def InstanceOf [Field R] (scene : AiScene R) (converted : ConvertedScene U R) (mesh : MeshNode U R)
    (assimpMesh : AiMesh R) : Prop :=
  ∃ (k : ℕ) (transform : RepoMatrix R), converted.meshes[k]? = some mesh ∧ scene.references[k]? = some (transform, assimpMesh)

structure ExactReferences [Field R] (scene : AiScene R) (converted : ConvertedScene U R) : Prop where
  materials : ∀ i material, converted.materials[i]? = some material → ∀ p, p ∈ material.parentIds ↔
    ∃ mesh assimpMesh, InstanceOf scene converted mesh assimpMesh ∧ mesh.sharedId = p ∧ assimpMesh.materialIndex = i
  textures : ∀ texName ∈ textureNames scene, ∃ texture,
    (converted.textures.filter fun texture => decide (texture.name = texName)) = [texture] ∧
      ∀ p, p ∈ texture.parentIds ↔ ∃ i material, converted.materials[i]? = some material ∧ material.sharedId = p ∧
        FirstDiffuse scene.materials i texName
  textureIds : ∀ mesh assimpMesh texName, InstanceOf scene converted mesh assimpMesh → texName ≠ "" →
    FirstDiffuse scene.materials assimpMesh.materialIndex texName →
      ∃ texture ∈ converted.textures, texture.name = texName ∧ mesh.textureId = texture.uniqueId

/-! ### Textures -/

section Textures

private theorem getElem?_concat_eq_some {α : Type*} {l : List α} {a x : α} {j : ℕ} :
    (l ++ [a])[j]? = some x ↔ l[j]? = some x ∨ (j = l.length ∧ a = x) := by
  by_cases hj : j < l.length
  · rw [List.getElem?_append_left hj]
    exact ⟨.inl, fun h => h.resolve_right fun h => by omega⟩
  · rw [List.getElem?_append_right (not_lt.1 hj), List.getElem?_eq_none (not_lt.1 hj), List.getElem?_singleton]
    by_cases hlast : j = l.length
    · rw [if_pos (by omega)]
      simp [hlast]
    · rw [if_neg (by omega)]
      simp [hlast]

variable (createUUID : ℕ → U)

private theorem map_name_foldl_addTexture (paths : List (Option String)) (textures : Textures U) :
    (paths.foldl (addTexture createUUID) textures).nodes.map RepoNode.name =
      textures.nodes.map RepoNode.name ++
        paths.filterMap fun path => path.filter fun texName => decide (texName ≠ "") := by
  induction paths generalizing textures with
  | nil => exact (List.append_nil _).symm
  | cons path paths ih =>
    rw [List.foldl_cons, ih]
    cases path with
    | none => rfl
    | some texName =>
      by_cases hname : texName = ""
      · subst hname
        rfl
      · have hfilter : (some texName).filter (fun texName => decide (texName ≠ "")) = some texName := by
          simp [Option.filter, hname]
        rw [List.filterMap_cons, hfilter, addTexture, if_pos hname, List.map_append, List.append_assoc]
        rfl

/-- If no name occurs twice, the map has the position of each name. -/
theorem nameToTexture_foldl_addTexture (paths : List (Option String)) (textures : Textures U)
    (h : ∀ texName j, textures.nameToTexture texName = some j ↔
      (textures.nodes.map RepoNode.name)[j]? = some texName)
    (hnodup : ((paths.foldl (addTexture createUUID) textures).nodes.map RepoNode.name).Nodup) (texName : String) (j : ℕ) :
    (paths.foldl (addTexture createUUID) textures).nameToTexture texName = some j ↔
      ((paths.foldl (addTexture createUUID) textures).nodes.map RepoNode.name)[j]? = some texName := by
  induction paths generalizing textures with
  | nil => exact h texName j
  | cons path paths ih =>
    rw [List.foldl_cons] at hnodup ⊢
    refine ih _ ?_ hnodup
    cases path with
    | none => exact h
    | some added =>
      by_cases hname : added = ""
      · subst hname
        exact h
      · rw [map_name_foldl_addTexture] at hnodup
        have hadd : addTexture createUUID textures (some added) =
            { nodes := textures.nodes ++ [makeNode createUUID .TEXTURE added textures.created]
              nameToTexture := Function.update textures.nameToTexture added (some textures.nodes.length)
              created := textures.created + 2 } := if_pos hname
        rw [hadd] at hnodup ⊢
        have hmap : (textures.nodes ++ [makeNode createUUID .TEXTURE added textures.created]).map RepoNode.name =
            textures.nodes.map RepoNode.name ++ [added] := by
          rw [List.map_append]
          rfl
        rw [hmap] at hnodup
        have hnew : added ∉ textures.nodes.map RepoNode.name := fun hmem =>
          (List.nodup_append'.1 (List.nodup_append'.1 hnodup).1).2.2 hmem (List.mem_singleton_self _)
        intro texName j
        dsimp only
        rw [hmap, getElem?_concat_eq_some, List.length_map]
        by_cases htex : texName = added
        · subst htex
          rw [Function.update_self, Option.some.injEq, eq_comm, and_iff_left rfl]
          exact ⟨.inr, fun h => h.resolve_left fun hj => hnew (List.mem_of_getElem? hj)⟩
        · rw [Function.update_of_ne htex, h]
          exact ⟨.inl, fun h => h.resolve_right fun hj => htex hj.2.symm⟩

private theorem parentIds_foldl_addTexture (paths : List (Option String)) (textures : Textures U)
    (h : ∀ texture ∈ textures.nodes, texture.parentIds = []) :
    ∀ texture ∈ (paths.foldl (addTexture createUUID) textures).nodes, texture.parentIds = [] := by
  induction paths generalizing textures with
  | nil => exact h
  | cons path paths ih =>
    refine ih _ ?_
    cases path with
    | none => exact h
    | some texName =>
      by_cases hname : texName ≠ ""
      · rw [addTexture, if_pos hname]
        intro texture htexture
        rcases List.mem_append.1 htexture with htexture | htexture
        · exact h texture htexture
        · rw [List.mem_singleton.1 htexture]
          rfl
      · rw [addTexture, if_neg hname]
        exact h

end Textures

/-! ### Materials -/

section Materials

variable [DecidableEq U] [Field R] [DecidableEq R] {createUUID : ℕ → U}

/-- The parents that the texture nodes should have, of these materials. -/
def HasParents (nodes : List (MaterialNode U R)) (materials : List (AiMaterial R)) (texName : String) (p : U) : Prop :=
  ∃ (i : ℕ) (node : MaterialNode U R), nodes[i]? = some node ∧ node.sharedId = p ∧ FirstDiffuse materials i texName

variable {nodes : List (MaterialNode U R)}

omit [DecidableEq U] [Field R] [DecidableEq R] in
private theorem hasParents_concat {materials : List (AiMaterial R)}
    (hlength : nodes.length = materials.length) {node : MaterialNode U R} {material : AiMaterial R} {texName : String}
    {p : U} : HasParents (nodes ++ [node]) (materials ++ [material]) texName p ↔
      HasParents nodes materials texName p ∨ (p = node.sharedId ∧ material.diffuse.head? = some (some texName)) := by
  constructor
  · rintro ⟨i, found, hnode, rfl, assimpMaterial, hmaterial, hhead⟩
    rcases getElem?_concat_eq_some.1 hnode with hold | ⟨hi, rfl⟩
    · rcases getElem?_concat_eq_some.1 hmaterial with hold' | ⟨hi, rfl⟩
      · exact .inl ⟨i, found, hold, rfl, assimpMaterial, hold', hhead⟩
      · have hlt := (List.getElem?_eq_some_iff.1 hold).1
        omega
    · rcases getElem?_concat_eq_some.1 hmaterial with hold' | ⟨hi, rfl⟩
      · have hlt := (List.getElem?_eq_some_iff.1 hold').1
        omega
      · exact .inr ⟨rfl, hhead⟩
  · rintro (⟨i, found, hnode, hp, assimpMaterial, hmaterial, hhead⟩ | ⟨rfl, hhead⟩)
    · exact ⟨i, found, getElem?_concat_eq_some.2 (.inl hnode), hp, assimpMaterial,
        getElem?_concat_eq_some.2 (.inl hmaterial), hhead⟩
    · exact ⟨nodes.length, node, getElem?_concat_eq_some.2 (.inr ⟨rfl, rfl⟩), rfl, material,
        getElem?_concat_eq_some.2 (.inr ⟨hlength, rfl⟩), hhead⟩

/-- What holds when these materials have nodes. -/
structure Created (textures : Textures U) (done : List (AiMaterial R)) (materials : Materials U R) : Prop where
  length : materials.nodes.length = done.length
  parentIds : ∀ node ∈ materials.nodes, node.parentIds = []
  nameToTexture : materials.textures.nameToTexture = textures.nameToTexture
  names : materials.textures.nodes.map RepoNode.name = textures.nodes.map RepoNode.name
  parents : ∀ (j : ℕ) texture, materials.textures.nodes[j]? = some texture → ∀ p,
    p ∈ texture.parentIds ↔ HasParents materials.nodes done texture.name p

variable {textures : Textures U}

omit [Field R] [DecidableEq R] in
/-- Only the texture node with this name gets the parent. -/
theorem nodes_addTextureParent (material : AiMaterial R) (sharedId : U)
    (hmap : ∀ texName j, textures.nameToTexture texName = some j ↔
      (textures.nodes.map RepoNode.name)[j]? = some texName) :
    (addTextureParent material sharedId textures).nodes = textures.nodes.map fun texture =>
      if material.diffuse.head? = some (some texture.name) then texture.addParent sharedId else texture := by
  have hnone : (∀ texture ∈ textures.nodes, material.diffuse.head? ≠ some (some texture.name)) →
      textures.nodes = textures.nodes.map fun texture =>
        if material.diffuse.head? = some (some texture.name) then texture.addParent sharedId else texture := by
    intro hother
    have hsame : textures.nodes.map (fun texture =>
        if material.diffuse.head? = some (some texture.name) then texture.addParent sharedId else texture) =
          textures.nodes.map id := List.map_congr_left fun texture htexture => if_neg (hother texture htexture)
    rw [hsame, List.map_id]
  unfold addTextureParent
  rcases hhead : material.diffuse.head? with _ | _ | texPath
  · rw [hhead] at hnone
    exact hnone fun _ _ => nofun
  · rw [hhead] at hnone
    exact hnone fun _ _ => nofun
  · rw [hhead] at hnone
    cases hposition : textures.nameToTexture texPath with
    | none =>
      simp only [hposition]
      refine hnone fun texture htexture he => ?_
      obtain ⟨j, hj⟩ := List.mem_iff_getElem?.1 htexture
      have hsome := (hmap texPath j).2 (by rw [List.getElem?_map, hj]; cases he; rfl)
      rw [hposition] at hsome
      exact absurd hsome nofun
    | some i =>
      simp only [hposition]
      apply List.ext_getElem?
      intro j
      rw [List.getElem?_modify, List.getElem?_map]
      cases htexture : textures.nodes[j]? with
      | none => rfl
      | some texture =>
        have hname : i = j ↔ some (some texPath) = some (some texture.name) := by
          have hj := hmap texPath j
          rw [hposition, List.getElem?_map, htexture] at hj
          simpa [eq_comm] using hj
        simp only [Option.map_eq_map, Option.map_some, hname]

omit [Field R] [DecidableEq R] in
private theorem nameToTexture_addTextureParent (material : AiMaterial R) (sharedId : U) :
    (addTextureParent material sharedId textures).nameToTexture = textures.nameToTexture := by
  unfold addTextureParent
  split
  · split <;> rfl
  · rfl

omit [Field R] [DecidableEq R] in
private theorem map_name_addTextureParent (textures : Textures U) (material : AiMaterial R) (sharedId : U) :
    (addTextureParent material sharedId textures).nodes.map RepoNode.name = textures.nodes.map RepoNode.name := by
  unfold addTextureParent
  split
  · split
    · apply List.ext_getElem?
      intro j
      rw [List.getElem?_map, List.getElem?_map, List.getElem?_modify]
      cases textures.nodes[j]? with
      | none => rfl
      | some texture => exact congrArg some (by dsimp only; split <;> rfl)
    · rfl
  · rfl

private theorem foldl_createMaterialRepoNode (rest : List (AiMaterial R)) (materials : Materials U R) :
    let result := rest.foldl (createMaterialRepoNode createUUID) materials
    result.nodes.length = materials.nodes.length + rest.length ∧
      result.textures.nodes.map RepoNode.name = materials.textures.nodes.map RepoNode.name := by
  induction rest generalizing materials with
  | nil => exact ⟨rfl, rfl⟩
  | cons material rest ih =>
    obtain ⟨hlength, hnames⟩ := ih (createMaterialRepoNode createUUID materials material)
    rw [List.foldl_cons]
    refine ⟨?_, hnames.trans (map_name_addTextureParent _ material _)⟩
    have hone : (createMaterialRepoNode createUUID materials material).nodes.length = materials.nodes.length + 1 :=
      List.length_append
    rw [hlength, hone, List.length_cons, Nat.add_right_comm, Nat.add_assoc]

private theorem length_createMaterials (scene : AiScene R) :
    (createMaterials createUUID scene).nodes.length = scene.materials.length := by
  rw [createMaterials, (foldl_createMaterialRepoNode scene.materials _).1]
  exact Nat.zero_add _

variable (createUUID) in
private theorem map_name_createMaterials (scene : AiScene R) :
    (createMaterials createUUID scene).textures.nodes.map RepoNode.name = textureNames scene := by
  rw [createMaterials, (foldl_createMaterialRepoNode scene.materials _).2]
  exact map_name_foldl_addTexture createUUID (scene.materials.flatMap AiMaterial.diffuse) _

theorem Created.createMaterialRepoNode {done : List (AiMaterial R)} {materials : Materials U R}
    (h : Created textures done materials)
    (hmap : ∀ texName j, textures.nameToTexture texName = some j ↔
      (textures.nodes.map RepoNode.name)[j]? = some texName) (material : AiMaterial R) :
    Created textures (done ++ [material]) (createMaterialRepoNode createUUID materials material) := by
  let node := makeMaterialNode createUUID material materials.created
  have hmap' : ∀ texName j, materials.textures.nameToTexture texName = some j ↔
      (materials.textures.nodes.map RepoNode.name)[j]? = some texName := by
    rw [h.nameToTexture, h.names]
    exact hmap
  have hnodes := nodes_addTextureParent material node.sharedId hmap'
  have hname : ∀ texture : RepoNode U,
      (if material.diffuse.head? = some (some texture.name) then texture.addParent node.sharedId else texture).name =
        texture.name := by
    intro texture
    split <;> rfl
  refine ⟨?_, ?_, ?_, ?_, ?_⟩
  · show (materials.nodes ++ [node]).length = _
    rw [List.length_append, List.length_append, h.length]
    rfl
  · intro other hother
    rcases List.mem_append.1 hother with hother | hother
    · exact h.parentIds other hother
    · rw [List.mem_singleton.1 hother]
      rfl
  · exact (nameToTexture_addTextureParent material node.sharedId).trans h.nameToTexture
  · exact (map_name_addTextureParent materials.textures material node.sharedId).trans h.names
  · intro j texture htexture p
    have htexture : (addTextureParent material node.sharedId materials.textures).nodes[j]? = some texture := htexture
    rw [hnodes, List.getElem?_map] at htexture
    obtain ⟨before, hbefore, rfl⟩ := Option.map_eq_some_iff.1 htexture
    rw [hname]
    show _ ↔ HasParents (materials.nodes ++ [node]) (done ++ [material]) before.name p
    rw [hasParents_concat h.length, ← h.parents j before hbefore p]
    by_cases hhead : material.diffuse.head? = some (some before.name)
    · rw [if_pos hhead, and_iff_left hhead]
      exact List.mem_insert_iff.trans or_comm
    · rw [if_neg hhead]
      simp only [hhead, and_false, or_false]

theorem Created.foldl {done : List (AiMaterial R)} {materials : Materials U R}
    (h : Created textures done materials)
    (hmap : ∀ texName j, textures.nameToTexture texName = some j ↔
      (textures.nodes.map RepoNode.name)[j]? = some texName) (rest : List (AiMaterial R)) :
    Created textures (done ++ rest) (rest.foldl (AssimpModelImport.createMaterialRepoNode createUUID) materials) := by
  induction rest generalizing done materials with
  | nil => rwa [List.append_nil]
  | cons material rest ih =>
    rw [List.foldl_cons, ← List.singleton_append, ← List.append_assoc]
    exact ih (h.createMaterialRepoNode hmap material)

variable (createUUID) in
private theorem created_createMaterials (scene : AiScene R) (hnodup : (textureNames scene).Nodup) :
    Created (createTextures createUUID scene.materials) scene.materials (createMaterials createUUID scene) := by
  have hnames := map_name_foldl_addTexture createUUID (scene.materials.flatMap AiMaterial.diffuse)
    ⟨[], fun _ => none, 0⟩
  have hmap := nameToTexture_foldl_addTexture createUUID (scene.materials.flatMap AiMaterial.diffuse)
    ⟨[], fun _ => none, 0⟩ (fun _ _ => ⟨nofun, nofun⟩) (by rw [hnames]; exact hnodup)
  have hnone := parentIds_foldl_addTexture createUUID (scene.materials.flatMap AiMaterial.diffuse)
    ⟨[], fun _ => none, 0⟩ nofun
  have hstart : Created (createTextures createUUID scene.materials) ([] : List (AiMaterial R))
      ⟨[], createTextures createUUID scene.materials, (createTextures createUUID scene.materials).created⟩ := by
    refine ⟨rfl, nofun, rfl, rfl, fun j texture htexture p => ?_⟩
    rw [hnone texture (List.mem_of_getElem? htexture)]
    refine iff_of_false List.not_mem_nil ?_
    rintro ⟨i, node, hnode, -⟩
    exact absurd hnode nofun
  exact hstart.foldl hmap scene.materials

omit [Field R] [DecidableEq R] in
private theorem getElem?_updateMaterialParents {matParents : ℕ → List U} {i : ℕ}
    {node : MaterialNode U R} : (updateMaterialParents matParents nodes)[i]? = some node ↔
      ∃ before : MaterialNode U R, nodes[i]? = some before ∧
        { before with toRepoNode := before.addParents (matParents i) } = node := by
  rw [updateMaterialParents, List.getElem?_mapIdx, Option.map_eq_some_iff]

omit [Field R] [DecidableEq R] in
private theorem hasParents_updateMaterialParents {matParents : ℕ → List U}
    {materials : List (AiMaterial R)} {texName : String} {p : U} :
    HasParents (updateMaterialParents matParents nodes) materials texName p ↔ HasParents nodes materials texName p := by
  constructor
  · rintro ⟨i, node, hnode, rfl, hfirst⟩
    obtain ⟨before, hbefore, rfl⟩ := getElem?_updateMaterialParents.1 hnode
    exact ⟨i, before, hbefore, (RepoNode.addParents_sharedId _ _).symm, hfirst⟩
  · rintro ⟨i, before, hbefore, rfl, hfirst⟩
    exact ⟨i, _, getElem?_updateMaterialParents.2 ⟨before, hbefore, rfl⟩, RepoNode.addParents_sharedId _ _, hfirst⟩

end Materials

/-! ### Templates -/

section Templates

variable [ExactReal R] [Inhabited U] {createUUID : ℕ → U}

variable (createUUID) in
/-- The material of each mesh gets the identifier of a template. -/
theorem mem_matParents_foldl (scene : AiScene R) (materials : Materials U R) (offset : RepoVector3D R)
    (meshes : List (AiMesh R)) (templates : Templates U R) :
    let result := meshes.foldl (addTemplate createUUID scene materials offset) templates
    templates.created ≤ result.created ∧ (∀ i, ∀ p ∈ templates.matParents i, p ∈ result.matParents i) ∧
      ∀ mesh ∈ meshes, ∃ n < result.created, createUUID n ∈ result.matParents mesh.materialIndex := by
  induction meshes generalizing templates with
  | nil => exact ⟨le_rfl, fun _ _ hp => hp, nofun⟩
  | cons mesh meshes ih =>
    obtain ⟨hcreated, hkept, hmeshes⟩ := ih (addTemplate createUUID scene materials offset templates mesh)
    rw [List.foldl_cons]
    have hcreated : templates.created + 2 ≤ _ := hcreated
    refine ⟨(Nat.le_add_right _ 2).trans hcreated, fun i p hp => hkept i p ?_, ?_⟩
    · show p ∈ Function.update templates.matParents mesh.materialIndex _ i
      by_cases hi : i = mesh.materialIndex
      · subst hi
        rw [Function.update_self]
        exact List.mem_append_left _ hp
      · rw [Function.update_of_ne hi]
        exact hp
    · intro mesh' hmesh'
      rcases List.mem_cons.1 hmesh' with rfl | hmesh'
      · refine ⟨templates.created, (Nat.lt_add_of_pos_right two_pos).trans_le hcreated, hkept _ _ ?_⟩
        show _ ∈ Function.update templates.matParents mesh'.materialIndex _ mesh'.materialIndex
        rw [Function.update_self]
        exact List.mem_append_right _ (List.mem_singleton_self _)
      · exact hmeshes mesh' hmesh'

variable [DecidableEq U]

omit [Inhabited U] in
/-- Without templates there are no instances. -/
theorem create_of_nil {meshToMat : U → Option ℕ} {worldOffset : RepoVector3D R} (t : RoseTree (AiNode R))
    {parents : List U} {state : ImportState U R} {result : List (TransformationNode U R) × ImportState U R}
    (h : createTransformationNodesRecursive createUUID [] meshToMat worldOffset t parents state = .ok result) :
    result.2.newMeshes = state.newMeshes ∧ result.2.matParents = state.matParents := by
  have hadd : ∀ (meshes : List ℕ) (parents : List U) (absorbs hasChildren : Bool) (name : String)
      (transform : RepoMatrix R) (state : ImportState U R),
      meshes.foldlM (addInstance createUUID [] meshToMat parents absorbs hasChildren name transform) state =
        .ok state := by
    intro meshes
    induction meshes with
    | nil => exact fun _ _ _ _ _ _ => rfl
    | cons i meshes ih => exact fun _ _ _ _ _ _ => ih _ _ _ _ _ _
  refine create_rec
    (P := fun _ _ state result => result.2.newMeshes = state.newMeshes ∧ result.2.matParents = state.matParents)
    (Q := fun _ _ state result => result.2.newMeshes = state.newMeshes ∧ result.2.matParents = state.matParents)
    ?_ ?_ ⟨rfl, rfl⟩ ?_ t h
  · rintro assimpNode i parents state state' - - ⟨⟩
    exact ⟨rfl, rfl⟩
  · intro assimpNode children parents state state' childSets _ hmeshes hchildren
    rw [hadd] at hmeshes
    cases hmeshes
    exact hchildren
  · exact fun hfirst hrest => ⟨hrest.1.trans hfirst.1, hrest.2.trans hfirst.2⟩

end Templates

section Scene

variable [ExactReal R] [Inhabited U] [DecidableEq U] {createUUID : ℕ → U} {scene : AiScene R}
  {worldOffset : RepoVector3D R} {converted : ConvertedScene U R}

/-- A scene with a mesh has a material whose parent is not in the scene. -/
theorem meshes_eq_nil_of_exactReferences (hinj : Function.Injective createUUID)
    (hconverted : convertAiSceneToRepoScene createUUID scene worldOffset = .ok converted)
    (h : ExactReferences scene converted) : scene.meshes = [] := by
  by_contra hmeshes
  obtain ⟨mesh, hmesh⟩ := List.exists_mem_of_ne_nil _ hmeshes
  obtain ⟨result, hcreate, hresult⟩ := bind_eq_ok.1 hconverted
  cases hresult
  let materials := createMaterials createUUID scene
  obtain ⟨n, hn, hmem⟩ := (mem_matParents_foldl createUUID scene materials worldOffset
    scene.meshes ⟨[], fun _ => [], materials.created⟩).2.2 mesh hmesh
  have hi : mesh.materialIndex < materials.nodes.length :=
    (scene.materialIndex_lt mesh hmesh).trans_eq (length_createMaterials scene).symm
  -- the identifier of the template is among the parents of its material
  have hparents := (h.materials mesh.materialIndex _ (getElem?_updateMaterialParents.2
    ⟨_, getElem?_updateMaterialParents.2 ⟨_, List.getElem?_eq_getElem hi, rfl⟩, rfl⟩) (createUUID n)).1
      (RepoNode.mem_addParents.2 (.inl (RepoNode.mem_addParents.2 (.inr hmem))))
  obtain ⟨node, -, ⟨k, transform, hnode, -⟩, hid, -⟩ := hparents
  -- but the identifiers of the instances are created after those of the templates
  obtain ⟨new, hnew, hids⟩ := (grows_create scene.rootNode hcreate).1.newMeshes
  refine hids.not_mem hinj hn ?_
  rw [← hid]
  refine List.mem_map_of_mem ?_
  rw [← List.nil_append new, ← hnew]
  exact List.mem_of_getElem? hnode

private theorem nodup_of_exactReferences (hconverted : convertAiSceneToRepoScene createUUID scene worldOffset = .ok converted)
    (h : ExactReferences scene converted) : (textureNames scene).Nodup := by
  obtain ⟨result, hcreate, hresult⟩ := bind_eq_ok.1 hconverted
  cases hresult
  rw [List.nodup_iff_count_le_one]
  intro texName
  by_cases hmem : texName ∈ textureNames scene
  · obtain ⟨texture, hfilter, -⟩ := h.textures texName hmem
    rw [← map_name_createMaterials createUUID scene, List.count, List.countP_map, List.countP_eq_length_filter]
    exact (congrArg List.length hfilter).le
  · rw [List.count_eq_zero.2 hmem]
    exact Nat.zero_le 1

private theorem exactReferences_of_nil (hmeshes : scene.meshes = []) (hnodup : (textureNames scene).Nodup)
    (hconverted : convertAiSceneToRepoScene createUUID scene worldOffset = .ok converted) :
    ExactReferences scene converted := by
  obtain ⟨result, hcreate, hresult⟩ := bind_eq_ok.1 hconverted
  cases hresult
  let materials := createMaterials createUUID scene
  have htemplates : createTemplates createUUID scene materials worldOffset = ⟨[], fun _ => [], materials.created⟩ := by
    rw [createTemplates, hmeshes]
    rfl
  have hmaterials := created_createMaterials createUUID scene hnodup
  rw [htemplates] at hcreate ⊢
  obtain ⟨hnone, hparents⟩ := create_of_nil scene.rootNode hcreate
  have hno : ∀ (mesh : MeshNode U R) (assimpMesh : AiMesh R), ¬ InstanceOf scene
      ⟨result.2.newMeshes, updateMaterialParents result.2.matParents (updateMaterialParents (fun _ => []) materials.nodes),
        materials.textures.nodes, result.1⟩ mesh assimpMesh := by
    rintro mesh assimpMesh ⟨k, transform, hk, -⟩
    rw [hnone] at hk
    exact absurd hk nofun
  refine ⟨fun i material hmaterial p => ?_, fun texName hmem => ?_, fun mesh assimpMesh texName hinstance => ?_⟩
  · obtain ⟨given, hgiven, rfl⟩ := getElem?_updateMaterialParents.1 hmaterial
    obtain ⟨made, hmade, rfl⟩ := getElem?_updateMaterialParents.1 hgiven
    have hmade' : made.parentIds = [] := hmaterials.parentIds made (List.mem_of_getElem? hmade)
    refine iff_of_false ?_ ?_
    · simp [hparents, hmade']
    · rintro ⟨mesh, assimpMesh, hinstance, -⟩
      exact hno mesh assimpMesh hinstance
  · have hnames := map_name_createMaterials createUUID scene
    have hcount : ((materials.textures.nodes.filter fun texture => decide (texture.name = texName)).length) = 1 := by
      rw [← List.countP_eq_length_filter]
      have hone := List.count_eq_one_of_mem hnodup hmem
      rw [← hnames, List.count, List.countP_map] at hone
      exact hone
    obtain ⟨texture, htexture⟩ := List.length_eq_one_iff.1 hcount
    refine ⟨texture, htexture, fun p => ?_⟩
    obtain ⟨hnode, hname⟩ := List.mem_filter.1 (htexture ▸ List.mem_singleton_self texture)
    obtain ⟨j, hj⟩ := List.mem_iff_getElem?.1 hnode
    rw [hmaterials.parents j texture hj p, of_decide_eq_true hname, ← hasParents_updateMaterialParents,
      ← hasParents_updateMaterialParents]
    rfl
  · exact absurd hinstance (hno mesh assimpMesh)

/-- The references are exact if and only if no mesh and no repeated texture is there. -/
theorem exactReferences_iff (hinj : Function.Injective createUUID)
    (hconverted : convertAiSceneToRepoScene createUUID scene worldOffset = .ok converted) :
    ExactReferences scene converted ↔ scene.meshes = [] ∧ (textureNames scene).Nodup :=
  ⟨fun h => ⟨meshes_eq_nil_of_exactReferences hinj hconverted h, nodup_of_exactReferences hconverted h⟩,
    fun h => exactReferences_of_nil h.1 h.2 hconverted⟩

/-- One material, and a root with the meshes. -/
def exampleScene (meshes : List (AiMesh ℝ)) (h : ∀ mesh ∈ meshes, mesh.materialIndex < 1) : AiScene ℝ :=
  ⟨[⟨"stone", none, [some "stone.png"]⟩], meshes, .node ⟨"root", 1, List.range meshes.length⟩ [], h⟩

theorem exactReferences_example : ∃ converted,
    convertAiSceneToRepoScene (id : ℕ → ℕ) (exampleScene [] nofun) 0 = .ok converted ∧
      ExactReferences (exampleScene [] nofun) converted := by
  have hnodup : (textureNames (exampleScene [] nofun)).Nodup := List.nodup_singleton "stone.png"
  exact ⟨_, rfl, (exactReferences_iff Function.injective_id rfl).2 ⟨rfl, hnodup⟩⟩

/-- A wall of one vertex: its material has a parent that is in no scene. -/
theorem not_exactReferences : ∃ converted,
    convertAiSceneToRepoScene (id : ℕ → ℕ) (exampleScene [⟨"wall", [0], [], [], none, 0⟩] (by simp)) 0 = .ok converted ∧
      ¬ ExactReferences (exampleScene [⟨"wall", [0], [], [], none, 0⟩] (by simp)) converted := by
  refine ⟨_, rfl, fun h => ?_⟩
  have hmeshes := meshes_eq_nil_of_exactReferences Function.injective_id rfl h
  exact List.cons_ne_nil _ _ hmeshes

end Scene

end Bouncer.AssimpModelImport
