import Bouncer.Datastructure.Buffers
import Bouncer.Library.Fallible
import Bouncer.Library.Pointwise
import Bouncer.Multipart.Supermesh

/-!
# What a supermesh is made of

A supermesh *assembles* a list of meshes (`SupermeshNode.Assembles`): its mappings are in the order of the meshes, their
vertex and triangle ranges tile the buffers, and the faces in the range of a mapping have the corners of the faces of
its mesh.

`appendMesh` keeps this (`Appended.assembles`), and `createSuperMeshes` assembles each mesh once or splits it, if no
transform ends the process (`createSuperMeshes_assembles`).
-/

namespace Bouncer.MultipartOptimizer

open Library (Tiles exists_left_of_forall₂ exists_right_of_forall₂)

variable {U M R : Type}

def SupermeshingData.buffers (data : SupermeshingData U R) : VertexBuffers R :=
  ⟨data.vertices, data.normals, data.channels⟩

def SupermeshNode.buffers (node : SupermeshNode U M R) : VertexBuffers R := ⟨node.vertices, node.normals, node.channels⟩

/-- Before anything is appended there are no channels yet, whatever their number will be. -/
def MappedMesh.buffers (mapped : MappedMesh U M R) (n : ℕ) : VertexBuffers R :=
  ⟨mapped.vertices, mapped.normals, if mapped.uvChannels = [] then List.replicate n [] else mapped.uvChannels⟩

/-- The geometry of a mesh that can be put into a supermesh. -/
structure SupermeshingData.WellFormed (data : SupermeshingData U R) (hasNormals : Bool) (n : ℕ) : Prop where
  vertices : data.vertices ≠ []
  faces : data.faces ≠ []
  format : data.buffers.Format hasNormals n
  inRange : ∀ face ∈ data.faces, ∀ idx ∈ face.indices, idx < data.vertices.length

/-- The mapping is that of the mesh: in its ranges are the faces and the corners of the mesh. -/
structure Holds (buffers : VertexBuffers R) (faces : List RepoFace) (mesh : SceneMeshNode U R × SupermeshingData U R)
    (mapping : RepoMeshMapping U M R) : Prop where
  min : mapping.min = mesh.1.bounds.bmin
  max : mapping.max = mesh.1.bounds.bmax
  meshId : mapping.meshId = mesh.2.uniqueId
  sharedId : mapping.sharedId = mesh.1.sharedId
  vertTo : mapping.vertTo = mapping.vertFrom + mesh.2.vertices.length
  triTo : mapping.triTo = mapping.triFrom + mesh.2.faces.length
  vertex : ∀ i < mesh.2.vertices.length, buffers.corner (mapping.vertFrom + i) = mesh.2.buffers.corner i
  face : ∀ i face, mesh.2.faces[i]? = some face →
    ∃ face', faces[mapping.triFrom + i]? = some face' ∧ face'.sides = face.sides ∧
      ∀ j < face.sides, mapping.vertFrom ≤ face'.get j ∧ face'.get j < mapping.vertTo ∧
        buffers.corner (face'.get j) = mesh.2.buffers.corner (face.get j)

/-- The supermesh consists of the meshes. -/
structure SupermeshNode.Assembles [LinearOrder R] (node : SupermeshNode U M R)
    (meshes : List (SceneMeshNode U R × SupermeshingData U R)) : Prop where
  nonempty : meshes ≠ []
  faceCount : node.faces.length = (meshes.map fun mesh => mesh.2.faces.length).sum
  bounded : node.vertices.length ≤ maxVertexCount
  vertRanges : Tiles 0 (node.meshMapping.map RepoMeshMapping.vertRange) node.vertices.length
  triRanges : Tiles 0 (node.meshMapping.map RepoMeshMapping.triRange) node.faces.length
  boundingBox : ∀ mapping ∈ node.meshMapping,
    node.boundingBox.Contains mapping.min ∧ node.boundingBox.Contains mapping.max
  holds : List.Forall₂ (Holds node.buffers node.faces) meshes node.meshMapping

/-! ### Appending a mesh -/

/-- What `appendMesh` keeps, for the meshes that it was called with. -/
structure MappedMesh.Assembles (mapped : MappedMesh U M R) (hasNormals : Bool) (n : ℕ)
    (meshes : List (SceneMeshNode U R × SupermeshingData U R)) : Prop where
  format : (mapped.buffers n).Format hasNormals n
  channels : meshes ≠ [] → mapped.uvChannels.length = n
  faceCount : mapped.faces.length = (meshes.map fun mesh => mesh.2.faces.length).sum
  vertRanges : Tiles 0 (mapped.meshMapping.map RepoMeshMapping.vertRange) mapped.vertices.length
  triRanges : Tiles 0 (mapped.meshMapping.map RepoMeshMapping.triRange) mapped.faces.length
  holds : List.Forall₂ (Holds (mapped.buffers n) mapped.faces) meshes mapped.meshMapping

theorem MappedMesh.assembles_empty (hasNormals : Bool) (n : ℕ) :
    (MappedMesh.empty : MappedMesh U M R).Assembles hasNormals n [] where
  format :=
    { normals := by cases hasNormals <;> rfl
      channels := List.length_replicate
      channel := fun channel h => congrArg List.length (List.eq_of_mem_replicate h) }
  channels := fun h => absurd rfl h
  faceCount := rfl
  vertRanges := rfl
  triRanges := rfl
  holds := .nil

/-- The result of a call of `appendMesh` that does not throw. -/
structure Appended (mapped mapped' : MappedMesh U M R) (mesh : SceneMeshNode U R × SupermeshingData U R)
    (meshMap : RepoMeshMapping U M R) (n : ℕ) : Prop where
  buffers : mapped'.buffers n = (mapped.buffers n).append mesh.2.buffers
  channels : mapped'.uvChannels.length = n
  faces : mapped'.faces = mapped.faces ++ mesh.2.faces.map fun face => face.offset mapped.vertices.length
  meshMapping : mapped'.meshMapping = mapped.meshMapping ++ [meshMap]
  min : meshMap.min = mesh.1.bounds.bmin
  max : meshMap.max = mesh.1.bounds.bmax
  meshId : meshMap.meshId = mesh.2.uniqueId
  sharedId : meshMap.sharedId = mesh.1.sharedId
  vertRange : meshMap.vertRange = (mapped.vertices.length, mapped.vertices.length + mesh.2.vertices.length)
  triRange : meshMap.triRange = (mapped.faces.length, mapped.faces.length + mesh.2.faces.length)

section Append

variable {hasNormals : Bool} {n : ℕ} {mesh : SceneMeshNode U R × SupermeshingData U R}
  {mapped mapped' : MappedMesh U M R} {meshes : List (SceneMeshNode U R × SupermeshingData U R)}

private theorem appendMesh_ok [DecidableEq U] [Inhabited U] {matPropMap : U → Option (MaterialNode U M)}
    (hmat : (matPropMap mesh.1.sharedId).isSome) (hdata : mesh.2.WellFormed hasNormals n)
    (hmapped : (mapped.buffers n).Format hasNormals n) (texId : U) :
    ∃ mapped' meshMap, appendMesh mesh.1 mesh.2 matPropMap mapped texId = .ok mapped' ∧
      Appended mapped mapped' mesh meshMap n := by
  obtain ⟨matNode, hmat⟩ := Option.isSome_iff_exists.1 hmat
  have hn : mesh.2.channels.length = n := hdata.format.channels
  have hlen : (mapped.buffers n).channels.length = n := hmapped.channels
  have huv : (if mapped.uvChannels = [] then List.replicate mesh.2.channels.length [] else mapped.uvChannels) =
      (mapped.buffers n).channels := by rw [hn]; rfl
  have hzip : (List.zipWith (· ++ ·) (mapped.buffers n).channels mesh.2.channels).length = n := by
    rw [List.length_zipWith, hlen, hn, Nat.min_self]
  unfold MultipartOptimizer.appendMesh
  simp only [hmat, orFail, Except.bind, bind, if_pos (And.intro hdata.vertices hdata.faces), huv,
    if_pos (hlen.trans hn.symm)]
  refine ⟨_, _, rfl, ⟨congrArg (VertexBuffers.mk _ _) ?_, hzip, rfl, rfl, rfl, rfl, rfl, rfl, rfl, rfl⟩⟩
  dsimp only
  split
  · next hnil =>
    -- no channels even now: there are none at all
    rw [hnil] at hzip
    subst hzip
    exact hnil.symm
  · rfl

variable {buffers buffers' : VertexBuffers R} {faces : List RepoFace} {mapping : RepoMeshMapping U M R}

private theorem Holds.append (h : Holds buffers faces mesh mapping) (hto : mapping.vertTo ≤ buffers.vertices.length)
    (hf : buffers.Format hasNormals n) (hf' : buffers'.Format hasNormals n) (faces' : List RepoFace) :
    Holds (buffers.append buffers') (faces ++ faces') mesh mapping where
  min := h.min
  max := h.max
  meshId := h.meshId
  sharedId := h.sharedId
  vertTo := h.vertTo
  triTo := h.triTo
  vertex := by
    intro i hi
    have hlt : mapping.vertFrom + i < mapping.vertTo := by
      rw [h.vertTo]
      omega
    exact (VertexBuffers.corner_append_left hf hf' (Nat.lt_of_lt_of_le hlt hto)).trans (h.vertex i hi)
  face := by
    intro i face hi
    obtain ⟨face', hface', hsides, hcorners⟩ := h.face i face hi
    have hlt := (List.getElem?_eq_some_iff.1 hface').1
    refine ⟨face', (List.getElem?_append_left hlt).trans hface', hsides, fun j hj => ?_⟩
    obtain ⟨hge, hlt, hcorner⟩ := hcorners j hj
    exact ⟨hge, hlt, (VertexBuffers.corner_append_left hf hf' (Nat.lt_of_lt_of_le hlt hto)).trans hcorner⟩

private theorem Appended.holds (h : Appended mapped mapped' mesh mapping n) (hdata : mesh.2.WellFormed hasNormals n)
    (hmapped : (mapped.buffers n).Format hasNormals n) : Holds (mapped'.buffers n) mapped'.faces mesh mapping := by
  obtain ⟨hvertFrom, hvertTo⟩ := Prod.mk.inj h.vertRange
  obtain ⟨htriFrom, htriTo⟩ := Prod.mk.inj h.triRange
  have hvertex : ∀ i, (mapped'.buffers n).corner (mapped.vertices.length + i) = mesh.2.buffers.corner i := by
    rw [h.buffers]
    exact VertexBuffers.corner_append_right hmapped hdata.format
  refine ⟨h.min, h.max, h.meshId, h.sharedId, by rw [hvertTo, hvertFrom], by rw [htriTo, htriFrom], fun i _ => ?_,
    fun i face hi => ?_⟩
  · rw [hvertFrom]
    exact hvertex i
  refine ⟨face.offset mapped.vertices.length, ?_, face.sides_offset _, fun j hj => ?_⟩
  · rw [h.faces, htriFrom, List.getElem?_append_right (Nat.le_add_right _ _), Nat.add_sub_cancel_left,
      List.getElem?_map, hi]
    rfl
  · have hidx := hdata.inRange face (List.mem_of_getElem? hi) _ (face.get_mem hj)
    rw [face.get_offset _ hj, hvertFrom, hvertTo]
    exact ⟨Nat.le_add_right _ _, Nat.add_lt_add_left hidx _, hvertex _⟩

theorem Appended.vertices_eq (h : Appended mapped mapped' mesh mapping n) :
    mapped'.vertices = mapped.vertices ++ mesh.2.vertices := congrArg VertexBuffers.vertices h.buffers

private theorem Appended.assembles (h : Appended mapped mapped' mesh mapping n) (hdata : mesh.2.WellFormed hasNormals n)
    (hmapped : mapped.Assembles hasNormals n meshes) : mapped'.Assembles hasNormals n (meshes ++ [mesh]) := by
  have hvert := List.length_pos_iff.2 hdata.vertices
  have htri := List.length_pos_iff.2 hdata.faces
  refine ⟨?_, fun _ => h.channels, ?_, ?_, ?_, ?_⟩
  · rw [h.buffers]
    exact hmapped.format.append hdata.format
  · rw [h.faces, List.length_append, List.length_map, hmapped.faceCount, List.map_append, List.sum_append]
    rfl
  · rw [h.meshMapping, h.vertices_eq, List.map_append, List.length_append, List.map_singleton, h.vertRange]
    exact hmapped.vertRanges.concat (by omega)
  · rw [h.meshMapping, h.faces, List.map_append, List.length_append, List.length_map, List.map_singleton, h.triRange]
    exact hmapped.triRanges.concat (by omega)
  · rw [h.meshMapping]
    refine List.rel_append ?_ (.cons (h.holds hdata hmapped.format) .nil)
    rw [h.buffers, h.faces]
    have hto : ∀ mapping ∈ mapped.meshMapping, mapping.vertTo ≤ (mapped.buffers n).vertices.length := fun mapping hm =>
      (hmapped.vertRanges.mem_bounds (List.mem_map_of_mem hm)).2.2
    obtain ⟨hlen, hholds⟩ := List.forall₂_iff_zip.1 hmapped.holds
    exact List.forall₂_iff_zip.2 ⟨hlen, fun hm =>
      (hholds hm).append (hto _ (List.of_mem_zip hm).2) hmapped.format hdata.format _⟩

end Append

/-! ### The end of a supermesh -/

private theorem setUVChannel_concat (channels : List (List (RepoVector2D R))) {uvs : List (RepoVector2D R)} (h : uvs ≠ []) :
    setUVChannel channels channels.length uvs = channels ++ [uvs] := by
  unfold setUVChannel
  rw [if_pos h, Nat.add_sub_cancel_left, List.replicate_one, List.set_append_right _ _ (Nat.le_refl _), Nat.sub_self]
  rfl

/-- Channels that are not empty are stored as they are. -/
theorem setUVChannels_eq {uvChannels : List (List (RepoVector2D R))} (h : ∀ channel ∈ uvChannels, channel ≠ []) :
    setUVChannels uvChannels = uvChannels := by
  induction uvChannels using List.reverseRecOn with
  | nil => rfl
  | append_singleton channels uvs ih =>
    have ih := ih fun channel hchannel => h channel (List.mem_append_left _ hchannel)
    have huvs := h uvs (List.mem_append_right _ List.mem_cons_self)
    unfold setUVChannels at ih ⊢
    rw [List.zipIdx_append, List.foldl_append, ih]
    exact (congrArg (setUVChannel channels · uvs) (Nat.zero_add _)).trans (setUVChannel_concat channels huvs)

variable {n : ℕ} {meshes : List (SceneMeshNode U R × SupermeshingData U R)}

theorem MappedMesh.Assembles.vertices_pos {mapped : MappedMesh U M R} {hasNormals : Bool}
    (h : mapped.Assembles hasNormals n meshes) :
    meshes ≠ [] ↔ mapped.vertices ≠ [] := by
  have hlen := h.holds.length_eq
  have htiles := h.vertRanges
  constructor
  · intro hne hnil
    rw [hnil, List.length_nil] at htiles
    cases hm : mapped.meshMapping with
    | nil => exact hne (List.length_eq_zero_iff.1 (by rw [hlen, hm, List.length_nil]))
    | cons mapping rest =>
      have hbounds := htiles.mem_bounds (List.mem_map_of_mem (hm ▸ List.mem_cons_self : mapping ∈ mapped.meshMapping))
      omega
  · intro hne hnil
    have hm : mapped.meshMapping = [] := List.length_eq_zero_iff.1 (by rw [← hlen, hnil, List.length_nil])
    rw [hm] at htiles
    exact hne (List.length_eq_zero_iff.1 (Eq.symm htiles))

/-! ### Loading a document -/

variable {document : MeshDocument U R}

section Load

variable {hasNormals : Bool} {n : ℕ}

private theorem wellFormed_loadSupermeshingData (h : document.data.WellFormed hasNormals n)
    (ignoreUVs : Bool) : (document.loadSupermeshingData ignoreUVs).WellFormed hasNormals (if ignoreUVs then 0 else n) := by
  cases ignoreUVs with
  | false => exact h
  | true => exact ⟨h.vertices, h.faces, ⟨h.format.normals, rfl, fun _ hchannel => absurd hchannel List.not_mem_nil⟩, h.inRange⟩

variable [ExactReal R]

/-- The data with the vertices moved and the normals turned. -/
def SupermeshingData.baked (data : SupermeshingData U R) (transform worldMat : RepoMatrix R) : SupermeshingData U R :=
  { data with
    vertices := data.vertices.map transform.image
    normals := data.normals.map fun n => (worldMat.image n).normalized }

/-- The process ends because of the transform of the vertices, or that of the normals. -/
theorem bakeMeshes_eq {data : SupermeshingData U R} (hvertices : data.vertices ≠ []) (transform worldMat : RepoMatrix R) :
    data.bakeMeshes transform worldMat =
      if transform.Exits ∨ (worldMat.Exits ∧ data.normals ≠ []) then .error .exit
      else .ok (data.baked transform worldMat) := by
  unfold SupermeshingData.bakeMeshes
  by_cases htransform : transform.Exits
  · obtain ⟨v, vertices, hcons⟩ := List.exists_cons_of_ne_nil hvertices
    rw [if_pos (.inl htransform), hcons, List.mapM_cons, RepoMatrix.mulVector, if_pos htransform]
    rfl
  have hmap : (data.vertices.mapM fun v => orFail Failure.exit (transform.mulVector v)) =
      .ok (data.vertices.map transform.image) := orFail_mapM fun v => if_neg htransform
  by_cases hworld : worldMat.Exits ∧ data.normals ≠ []
  · rw [if_pos (.inr hworld), hmap, transformNormalsBy_exits hworld.1 hworld.2]
    rfl
  · rw [if_neg (not_or.2 ⟨htransform, hworld⟩), hmap,
      transformNormalsBy_ok ((not_and_or.1 hworld).imp id not_not.1)]
    rfl

private theorem wellFormed_baked {data : SupermeshingData U R} (hdata : data.WellFormed hasNormals n)
    (transform worldMat : RepoMatrix R) : (data.baked transform worldMat).WellFormed hasNormals n := by
  have hvertices : (data.baked transform worldMat).vertices.length = data.vertices.length := List.length_map _
  refine ⟨fun hnil => hdata.vertices (List.map_eq_nil_iff.1 hnil), hdata.faces, ⟨?_, hdata.format.channels, ?_⟩, ?_⟩
  · refine (List.length_map _).trans (hdata.format.normals.trans ?_)
    change (if hasNormals then data.vertices.length else 0) =
      if hasNormals then (data.baked transform worldMat).vertices.length else 0
    rw [hvertices]
  · exact fun channel hchannel => (hdata.format.channel channel hchannel).trans hvertices.symm
  · intro face hface idx hidx
    rw [hvertices]
    exact hdata.inRange face hface idx hidx

/-- The number of UV channels that are loaded, of `n`. -/
def ClusterContext.channelCount [DecidableEq U] [Inhabited U] (context : ClusterContext U M R) (n : ℕ) : ℕ :=
  if decide (context.texId = default) then 0 else n

/-- The mesh is that of the document, with what its transform makes of the vertices and normals.  The UVs are those of the
document if the cluster has a texture. -/
structure ClusterContext.Bakes [DecidableEq U] [Inhabited U] (context : ClusterContext U M R) (cluster : List ℕ)
    (document : MeshDocument U R) (mesh : SceneMeshNode U R × SupermeshingData U R) : Prop where
  node : mesh.1 ∈ context.nodes cluster
  sharedId : mesh.1.sharedId = document.sharedId
  baked : ∃ transform, context.transformMap mesh.1.parent = some transform ∧
    mesh.2.vertices = document.data.vertices.map transform.image ∧
    mesh.2.normals = document.data.normals.map fun n => ((context.worldMat transform).image n).normalized
  uniqueId : mesh.2.uniqueId = document.data.uniqueId
  faces : mesh.2.faces = document.data.faces
  channels : mesh.2.channels = if context.texId = default then [] else document.data.channels

section Context

variable [DecidableEq U] [Inhabited U] {context : ClusterContext U M R} {cluster : List ℕ} {document : MeshDocument U R}
  {mesh : SceneMeshNode U R × SupermeshingData U R}

/-- A document of the cluster is baked, unless the process ends. -/
theorem ClusterContext.load_cases (hvertices : document.data.vertices ≠ [])
    (hnode : document.sharedId ∈ (context.nodes cluster).map SceneMeshNode.sharedId)
    (htransform : ∀ node ∈ context.nodes cluster, (context.transformMap node.parent).isSome) :
    ∃ node ∈ context.nodes cluster, node.sharedId = document.sharedId ∧
      ∃ transform, context.transformMap node.parent = some transform ∧
        context.load cluster document =
          if transform.Exits ∨ ((context.worldMat transform).Exits ∧ document.data.normals ≠ []) then .error .exit
          else .ok (node, (document.loadSupermeshingData (decide (context.texId = default))).baked transform
            (context.worldMat transform)) := by
  obtain ⟨node, hnode, hshared⟩ := List.mem_map.1 hnode
  have hsome : (context.nodeOf cluster document.sharedId).isSome :=
    List.find?_isSome.2 ⟨node, hnode, decide_eq_true hshared⟩
  obtain ⟨sNode, hfind⟩ : ∃ sNode, context.nodeOf cluster document.sharedId = some sNode :=
    Option.isSome_iff_exists.1 hsome
  have hmem : sNode ∈ context.nodes cluster := List.mem_of_find?_eq_some hfind
  have hid : sNode.sharedId = document.sharedId := of_decide_eq_true (List.find?_some hfind :)
  obtain ⟨transform, htransform⟩ := Option.isSome_iff_exists.1 (htransform sNode hmem)
  refine ⟨sNode, hmem, hid, transform, htransform, ?_⟩
  have hdata : (document.loadSupermeshingData (decide (context.texId = default))).vertices ≠ [] := hvertices
  have hbake := bakeMeshes_eq hdata transform (context.worldMat transform)
  have hnormals : (document.loadSupermeshingData (decide (context.texId = default))).normals = document.data.normals := rfl
  unfold ClusterContext.load
  simp only [hfind, orFail, bind, Except.bind, htransform, hbake, hnormals]
  by_cases hexits : transform.Exits ∨ ((context.worldMat transform).Exits ∧ document.data.normals ≠ [])
  · rw [if_pos hexits, if_pos hexits]
  · rw [if_neg hexits, if_neg hexits]
    rfl

theorem ClusterContext.bakes_of_load (h : context.load cluster document = .ok mesh)
    (hvertices : document.data.vertices ≠ [])
    (hnode : document.sharedId ∈ (context.nodes cluster).map SceneMeshNode.sharedId)
    (htransform : ∀ node ∈ context.nodes cluster, (context.transformMap node.parent).isSome) :
    context.Bakes cluster document mesh := by
  obtain ⟨node, hnode, hid, transform, htransform, hload⟩ := context.load_cases hvertices hnode htransform
  rw [h] at hload
  split at hload
  · exact nomatch hload
  · cases hload
    refine ⟨hnode, hid, ⟨transform, htransform, rfl, rfl⟩, rfl, rfl, ?_⟩
    by_cases hdefault : context.texId = default <;> simp [hdefault, SupermeshingData.baked, MeshDocument.loadSupermeshingData]

theorem ClusterContext.load_ok (hdata : document.data.WellFormed hasNormals n)
    (hnode : document.sharedId ∈ (context.nodes cluster).map SceneMeshNode.sharedId)
    (htransform : ∀ node ∈ context.nodes cluster, (context.transformMap node.parent).isSome)
    (hexit : context.load cluster document ≠ .error .exit) :
    ∃ mesh, context.load cluster document = .ok mesh ∧ mesh.1 ∈ context.nodes cluster ∧
      mesh.1.sharedId = document.sharedId ∧ mesh.2.WellFormed hasNormals (context.channelCount n) := by
  obtain ⟨node, hmem, hid, transform, -, hload⟩ := context.load_cases hdata.vertices hnode htransform
  rw [hload] at hexit ⊢
  split at hexit
  · exact absurd rfl hexit
  · next hexits =>
    rw [if_neg hexits]
    exact ⟨_, rfl, hmem, hid, wellFormed_baked (wellFormed_loadSupermeshingData hdata _) _ _⟩

end Context

end Load

/-! ### The loop over the meshes of a cluster -/

section Loop

/-- Every mesh that has been placed is in the current supermesh, in one that was exported, or was split. -/
structure Progress.Accounts [LinearOrder R] (progress : Progress U M R) (hasNormals : Bool) (n : ℕ)
    (placed : List (SceneMeshNode U R × SupermeshingData U R))
    (current : List (SceneMeshNode U R × SupermeshingData U R))
    (groups : List (List (SceneMeshNode U R × SupermeshingData U R))) : Prop where
  assembles : progress.currentSupermesh.Assembles hasNormals n current
  bounded : progress.currentSupermesh.vertices.length ≤ maxVertexCount
  exported : List.Forall₂ SupermeshNode.Assembles progress.exported groups
  perm : (groups.flatten ++ current ++ progress.split).Perm placed
  split : ∀ p ∈ progress.split, maxVertexCount < p.2.vertices.length

variable {progress : Progress U M R} {hasNormals : Bool} {n : ℕ} {mesh : SceneMeshNode U R × SupermeshingData U R}
  {placed current : List (SceneMeshNode U R × SupermeshingData U R)}
  {groups : List (List (SceneMeshNode U R × SupermeshingData U R))}

private theorem Progress.Accounts.append [LinearOrder R] [DecidableEq U] [Inhabited U] {matPropMap : U → Option (MaterialNode U M)}
    (h : progress.Accounts hasNormals n placed current groups)
    (hdata : mesh.2.WellFormed hasNormals n) (hmat : (matPropMap mesh.1.sharedId).isSome)
    (hroom : progress.currentSupermesh.vertices.length + mesh.2.vertices.length ≤ maxVertexCount) (texId : U) :
    ∃ mapped, appendMesh mesh.1 mesh.2 matPropMap progress.currentSupermesh texId = .ok mapped ∧
      Progress.Accounts { progress with currentSupermesh := mapped } hasNormals n (placed ++ [mesh]) (current ++ [mesh])
        groups := by
  obtain ⟨mapped, meshMap, hok, happended⟩ := appendMesh_ok hmat hdata h.assembles.format texId
  refine ⟨mapped, hok, happended.assembles hdata h.assembles, ?_, h.exported, ?_, h.split⟩
  · rw [happended.vertices_eq, List.length_append]
    exact hroom
  · have hperm := h.perm.append_right [mesh]
    refine List.Perm.trans ?_ hperm
    rw [← List.append_assoc, List.append_assoc _ [mesh], List.append_assoc _ progress.split]
    exact List.perm_append_comm.append_left _

private theorem Progress.Accounts.exists_mapping [LinearOrder R] (h : progress.Accounts hasNormals n placed [] groups)
    (hmesh : mesh ∈ placed) (hsmall : mesh.2.vertices.length ≤ maxVertexCount) :
    ∃ supermesh ∈ progress.exported, ∃ mapping ∈ supermesh.meshMapping,
      Holds supermesh.buffers supermesh.faces mesh mapping := by
  have hall := h.perm.mem_iff.2 hmesh
  rw [List.append_nil] at hall
  rcases List.mem_append.1 hall with hgroup | hsplit
  · obtain ⟨group, hgroup, hmem⟩ := List.mem_flatten.1 hgroup
    obtain ⟨supermesh, hsupermesh, hassembles⟩ := exists_left_of_forall₂ h.exported hgroup
    obtain ⟨mapping, hmapping, hholds⟩ := exists_right_of_forall₂ hassembles.holds hmem
    exact ⟨supermesh, hsupermesh, mapping, hmapping, hholds⟩
  · exact absurd hsmall (not_le.2 (h.split mesh hsplit))

variable {mapping : RepoMeshMapping U M R}

/-- A mapping of an exported supermesh is that of a mesh. -/
theorem Progress.Accounts.exists_mesh [LinearOrder R] (h : progress.Accounts hasNormals n placed [] groups)
    {supermesh : SupermeshNode U M R} (hsupermesh : supermesh ∈ progress.exported)
    (hmapping : mapping ∈ supermesh.meshMapping) :
    ∃ mesh ∈ placed, ∃ meshes, supermesh.Assembles meshes ∧ Holds supermesh.buffers supermesh.faces mesh mapping := by
  obtain ⟨group, hgroup, hassembles⟩ := exists_right_of_forall₂ h.exported hsupermesh
  obtain ⟨mesh, hmesh, hholds⟩ := exists_left_of_forall₂ hassembles.holds hmapping
  refine ⟨mesh, h.perm.mem_iff.1 ?_, group, hassembles, hholds⟩
  rw [List.append_nil]
  exact List.mem_append_left _ (List.mem_flatten.2 ⟨group, hgroup, hmesh⟩)

section Exact

variable [ExactReal R]

/-- The loop of `createSupermeshNode` over the mappings that follow the first one. -/
private abbrev encapsulateAll (bbox : RepoBounds R) (mappings : List (RepoMeshMapping U M R)) : RepoBounds R :=
  mappings.foldl (fun bbox mapping => (bbox.encapsulate mapping.min).encapsulate mapping.max) bbox

private theorem contains_foldl {bbox : RepoBounds R} {p : RepoVector3D R} (h : bbox.Contains p)
    (mappings : List (RepoMeshMapping U M R)) : (encapsulateAll bbox mappings).Contains p := by
  induction mappings generalizing bbox with
  | nil => exact h
  | cons mapping mappings ih => exact ih h.encapsulate.encapsulate

private theorem contains_foldl_of_mem {bbox : RepoBounds R}
    {mappings : List (RepoMeshMapping U M R)} (hm : mapping ∈ mappings) :
    (encapsulateAll bbox mappings).Contains mapping.min ∧ (encapsulateAll bbox mappings).Contains mapping.max := by
  induction mappings generalizing bbox with
  | nil => exact absurd hm List.not_mem_nil
  | cons head mappings ih =>
    rcases List.mem_cons.1 hm with rfl | hm
    · exact ⟨contains_foldl RepoBounds.contains_encapsulate.encapsulate mappings,
        contains_foldl RepoBounds.contains_encapsulate mappings⟩
    · exact ih hm

theorem MappedMesh.Assembles.createSupermeshNode {mapped : MappedMesh U M R} {hasNormals : Bool}
    (h : mapped.Assembles hasNormals n meshes)
    (hne : meshes ≠ []) (hbounded : mapped.vertices.length ≤ maxVertexCount) (tag : String) :
    ∃ node, createSupermeshNode mapped tag = some node ∧ node.Assembles meshes := by
  have hvertices := h.vertices_pos.1 hne
  have hlen : mapped.uvChannels.length = n := h.channels hne
  have hbuffers : (mapped.buffers n).channels = mapped.uvChannels := by
    unfold MappedMesh.buffers
    dsimp only
    split
    · next hnil => rw [← hlen, hnil]; rfl
    · rfl
  have huv : setUVChannels mapped.uvChannels = mapped.uvChannels := by
    refine setUVChannels_eq fun channel hchannel hnil => hvertices ?_
    have := h.format.channel channel (hbuffers ▸ hchannel)
    rw [hnil] at this
    exact List.length_eq_zero_iff.1 this.symm
  unfold MultipartOptimizer.createSupermeshNode
  split
  · next hnil => exact absurd (List.length_eq_zero_iff.1 (by rw [h.holds.length_eq, hnil]; rfl)) hne
  · next first rest hcons =>
    refine ⟨_, rfl, hne, h.faceCount, hbounded, h.vertRanges, h.triRanges, ?_, ?_⟩
    · intro mapping hm
      rcases List.mem_cons.1 (hcons ▸ hm : mapping ∈ first :: rest) with rfl | hm
      · exact ⟨contains_foldl RepoBounds.contains_ofMinMax_left rest, contains_foldl RepoBounds.contains_ofMinMax_right rest⟩
      · exact contains_foldl_of_mem hm
    have hnode : mapped.buffers n = ⟨mapped.vertices, mapped.normals, setUVChannels mapped.uvChannels⟩ := by
      rw [huv, ← hbuffers]
      rfl
    have hholds := h.holds
    rw [hnode] at hholds
    exact hholds

theorem Progress.Accounts.flush (h : progress.Accounts hasNormals n placed current groups) (hne : current ≠ [])
    (tag : String) :
    ∃ progress', progress.flush tag = .ok progress' ∧ progress'.currentSupermesh = .empty ∧
      progress'.Accounts hasNormals n placed [] (groups ++ [current]) := by
  obtain ⟨node, hnode, hassembles⟩ := h.assembles.createSupermeshNode hne h.bounded tag
  refine ⟨⟨.empty, progress.exported ++ [node], progress.split⟩, ?_, rfl, ?_⟩
  · unfold Progress.flush
    rw [hnode]
    rfl
  · refine ⟨MappedMesh.assembles_empty hasNormals n, Nat.zero_le _, List.rel_append h.exported (.cons hassembles .nil), ?_,
      h.split⟩
    have hperm := h.perm
    simpa using hperm

variable [DecidableEq U] [Inhabited U] {context : ClusterContext U M R}

theorem Progress.Accounts.place (h : progress.Accounts hasNormals n placed current groups)
    (hdata : mesh.2.WellFormed hasNormals n) (hmat : (context.matPropMap mesh.1.sharedId).isSome) :
    ∃ progress' current' groups', context.place progress mesh = .ok progress' ∧
      progress'.Accounts hasNormals n (placed ++ [mesh]) current' groups' := by
  unfold ClusterContext.place
  by_cases hroom : progress.currentSupermesh.vertices.length + mesh.2.vertices.length ≤ maxVertexCount
  · obtain ⟨mapped, hok, haccounts⟩ := h.append hdata hmat hroom context.texId
    refine ⟨_, _, groups, ?_, haccounts⟩
    rw [if_pos hroom, hok]
    rfl
  rw [if_neg hroom]
  by_cases hbig : mesh.2.vertices.length > maxVertexCount
  · refine ⟨_, current, groups, if_pos hbig, h.assembles, h.bounded, h.exported, ?_, ?_⟩
    · rw [← List.append_assoc]
      exact h.perm.append_right [mesh]
    · intro p hp
      rcases List.mem_append.1 hp with hp | hp
      · exact h.split p hp
      · rw [List.mem_singleton.1 hp]
        exact hbig
  · -- the current supermesh is not empty: it would have had room for the mesh
    have hne : current ≠ [] := by
      refine h.assembles.vertices_pos.2 fun hnil => hroom ?_
      rw [hnil, List.length_nil]
      omega
    obtain ⟨flushed, hflush, hempty, haccounts⟩ := h.flush hne context.namedGrouping
    obtain ⟨mapped, hok, haccounts⟩ := haccounts.append hdata hmat (by rw [hempty]; exact Nat.zero_add _ ▸ not_lt.1 hbig)
      context.texId
    refine ⟨_, _, _, ?_, haccounts⟩
    rw [if_neg hbig, hflush]
    simp only [bind, Except.bind, hok]
    rfl

variable {cluster : List ℕ} {binNodes : List (MeshDocument U R)}

/-- The loop over the documents, from any progress on. -/
theorem Progress.Accounts.foldlM
    (h : progress.Accounts hasNormals (context.channelCount n) placed current groups)
    (hmat : ∀ node ∈ context.nodes cluster, (context.matPropMap node.sharedId).isSome)
    (hload : ∀ document ∈ binNodes, ∃ mesh, context.load cluster document = .ok mesh ∧
      mesh.1 ∈ context.nodes cluster ∧ mesh.1.sharedId = document.sharedId ∧
      mesh.2.WellFormed hasNormals (context.channelCount n)) :
    ∃ loaded progress' current' groups', binNodes.mapM (context.load cluster) = .ok loaded ∧
      loaded.map (fun mesh => mesh.1.sharedId) = binNodes.map MeshDocument.sharedId ∧
      (∀ mesh ∈ loaded, mesh.1 ∈ context.nodes cluster) ∧
      binNodes.foldlM (fun progress document => do context.place progress (← context.load cluster document)) progress =
        .ok progress' ∧
      progress'.Accounts hasNormals (context.channelCount n) (placed ++ loaded) current' groups' := by
  induction binNodes generalizing progress placed current groups with
  | nil => exact ⟨[], progress, current, groups, rfl, rfl, fun _ hm => absurd hm List.not_mem_nil, rfl, by simpa using h⟩
  | cons document binNodes ih =>
    obtain ⟨mesh, hok, hnode, hshared, hdata⟩ := hload document List.mem_cons_self
    obtain ⟨placedProgress, _, _, hplace, haccounts⟩ := h.place hdata (hmat mesh.1 hnode)
    obtain ⟨loaded, progress', current', groups', hmapM, hids, hnodes, hfold, haccounts⟩ :=
      ih haccounts fun document hd => hload document (List.mem_cons_of_mem _ hd)
    refine ⟨mesh :: loaded, progress', current', groups', ?_, ?_, ?_, ?_, ?_⟩
    · rw [List.mapM_cons, hok, hmapM]
      rfl
    · rw [List.map_cons, List.map_cons, hshared, hids]
    · intro mesh' hm
      rcases List.mem_cons.1 hm with rfl | hm
      · exact hnode
      · exact hnodes mesh' hm
    · rw [List.foldlM_cons, hok]
      change (context.place progress mesh).bind _ = _
      rw [hplace]
      exact hfold
    · rw [List.append_cons]
      exact haccounts

private theorem perm_of_map_perm {α β : Type} {f : α → β} {l l' : List α} (h : (l.map f).Perm (l'.map f))
    (hnodup : (l'.map f).Nodup) (hmem : ∀ x ∈ l, x ∈ l') : l.Perm l' := by
  have hl : l.Nodup := (h.nodup_iff.2 hnodup).of_map f
  refine (List.perm_ext_iff_of_nodup hl (hnodup.of_map f)).2 fun x => ⟨hmem x, fun hx => ?_⟩
  obtain ⟨y, hy, hyx⟩ := List.mem_map.1 (h.mem_iff.2 (List.mem_map_of_mem hx))
  rwa [← List.inj_on_of_nodup_map hnodup (hmem y hy) hx hyx]

/-- A run that returns has loaded every document. -/
theorem ClusterContext.load_of_createSuperMeshes
    (h : context.createSuperMeshes cluster binNodes = .ok progress)
    (hdocument : document ∈ binNodes) : context.load cluster document ≠ .error .exit := by
  have hfold : ∀ (binNodes : List (MeshDocument U R)) (start : Progress U M R), document ∈ binNodes →
      context.load cluster document = .error .exit → ∃ failure, binNodes.foldlM (fun progress document => do
        context.place progress (← context.load cluster document)) start = .error failure := by
    intro binNodes
    induction binNodes with
    | nil => exact fun _ hd => absurd hd List.not_mem_nil
    | cons head binNodes ih =>
      intro start hd hexit
      rw [List.foldlM_cons]
      cases hstep : (do context.place start (← context.load cluster head) : Except Failure (Progress U M R)) with
      | error failure => exact ⟨failure, rfl⟩
      | ok next =>
        rcases List.mem_cons.1 hd with rfl | hd
        · rw [hexit] at hstep
          exact nomatch hstep
        · exact ih next hd hexit
  intro hexit
  obtain ⟨failure, hfailure⟩ := hfold binNodes _ hdocument hexit
  unfold ClusterContext.createSuperMeshes at h
  rw [hfailure] at h
  exact nomatch h

omit [ExactReal R] in
/-- The documents are those of the meshes of the cluster, in some order, and all of one format. -/
structure ClusterContext.Delivers (context : ClusterContext U M R) (cluster : List ℕ)
    (binNodes : List (MeshDocument U R)) (hasNormals : Bool) (n : ℕ) : Prop where
  wellFormed : ∀ document ∈ binNodes, document.data.WellFormed hasNormals n
  nodup : ((context.nodes cluster).map SceneMeshNode.sharedId).Nodup
  delivered : (binNodes.map MeshDocument.sharedId).Perm ((context.nodes cluster).map SceneMeshNode.sharedId)
  transforms : ∀ node ∈ context.nodes cluster, (context.transformMap node.parent).isSome
  materials : ∀ node ∈ context.nodes cluster, (context.matPropMap node.sharedId).isSome

theorem ClusterContext.Delivers.bakes
    (h : context.Delivers cluster binNodes hasNormals n) (hdocument : document ∈ binNodes)
    (hload : context.load cluster document = .ok mesh) : context.Bakes cluster document mesh :=
  context.bakes_of_load hload (h.wellFormed document hdocument).vertices
    (h.delivered.mem_iff.1 (List.mem_map_of_mem hdocument)) h.transforms

/-- The mesh that was loaded for a shared id is that of the node and the document with it. -/
theorem ClusterContext.Delivers.load_eq
    (h : context.Delivers cluster binNodes hasNormals n)
    {loaded : List (SceneMeshNode U R × SupermeshingData U R)}
    (hload : binNodes.mapM (context.load cluster) = .ok loaded) (hmesh : mesh ∈ loaded)
    {node : SceneMeshNode U R} (hnode : node ∈ context.nodes cluster) (hnodeId : node.sharedId = mesh.1.sharedId)
    (hdocument : document ∈ binNodes)
    (hdocumentId : document.sharedId = mesh.1.sharedId) :
    mesh.1 = node ∧ context.Bakes cluster document mesh := by
  obtain ⟨document', hdocument', hok⟩ := exists_left_of_forall₂ (Library.Fallible.forall₂_of_mapM hload) hmesh
  have hbakes := h.bakes hdocument' hok
  have hnodup := h.delivered.nodup_iff.2 h.nodup
  obtain rfl : document = document' :=
    List.inj_on_of_nodup_map hnodup hdocument hdocument' (hdocumentId.trans hbakes.sharedId)
  exact ⟨List.inj_on_of_nodup_map h.nodup hbakes.node hnode hnodeId.symm, hbakes⟩

/-- No transform of a mesh ends the process, when it is applied to the vertices or, as far as there are any, to the
normals. -/
def ClusterContext.Continues (context : ClusterContext U M R) (cluster : List ℕ) (hasNormals : Bool) : Prop :=
  ∀ node ∈ context.nodes cluster, ∀ transform, context.transformMap node.parent = some transform →
    ¬ transform.Exits ∧ (hasNormals = true → ¬ (context.worldMat transform).Exits)

theorem ClusterContext.Delivers.load_ne_exit
    (h : context.Delivers cluster binNodes hasNormals n) (hcontinues : context.Continues cluster hasNormals)
    (hdocument : document ∈ binNodes) : context.load cluster document ≠ .error .exit := by
  have hdata := h.wellFormed document hdocument
  obtain ⟨node, hnode, -, transform, htransform, hload⟩ := context.load_cases hdata.vertices
    (h.delivered.mem_iff.1 (List.mem_map_of_mem hdocument)) h.transforms
  obtain ⟨hvertex, hnormal⟩ := hcontinues node hnode transform htransform
  rw [hload, if_neg]
  · exact nofun
  · rintro (hexits | ⟨hexits, hnormals⟩)
    · exact hvertex hexits
    · cases hasNormals with
      | false => exact hnormals (List.length_eq_zero_iff.1 hdata.format.normals)
      | true => exact hnormal rfl hexits

theorem ClusterContext.Delivers.createSuperMeshes
    (h : context.Delivers cluster binNodes hasNormals n)
    (hexit : ∀ document ∈ binNodes, context.load cluster document ≠ .error .exit) :
    ∃ loaded progress groups, binNodes.mapM (context.load cluster) = .ok loaded ∧
      (loaded.map Prod.fst).Perm (context.nodes cluster) ∧
      context.createSuperMeshes cluster binNodes = .ok progress ∧
      progress.Accounts hasNormals (context.channelCount n) loaded [] groups := by
  have hload : ∀ document ∈ binNodes, ∃ mesh, context.load cluster document = .ok mesh ∧
      mesh.1 ∈ context.nodes cluster ∧ mesh.1.sharedId = document.sharedId ∧
      mesh.2.WellFormed hasNormals (context.channelCount n) := fun document hd =>
    context.load_ok (h.wellFormed document hd) (h.delivered.mem_iff.1 (List.mem_map_of_mem hd)) h.transforms
      (hexit document hd)
  have hinit : Progress.Accounts (⟨.empty, [], []⟩ : Progress U M R) hasNormals (context.channelCount n) [] [] [] :=
    ⟨MappedMesh.assembles_empty _ _, Nat.zero_le _, .nil, .refl _, fun _ hm => absurd hm List.not_mem_nil⟩
  obtain ⟨loaded, progress, current, groups, hmapM, hids, hnodes, hfold, haccounts⟩ := hinit.foldlM h.materials hload
  rw [List.nil_append] at haccounts
  have hperm : (loaded.map Prod.fst).Perm (context.nodes cluster) := by
    refine perm_of_map_perm (f := SceneMeshNode.sharedId) ?_ h.nodup fun node hn => ?_
    · rw [List.map_map]
      exact hids ▸ h.delivered
    · obtain ⟨mesh, hmesh, rfl⟩ := List.mem_map.1 hn
      exact hnodes mesh hmesh
  unfold ClusterContext.createSuperMeshes
  rw [hfold]
  change ∃ loaded' progress' groups', _ ∧ _ ∧ (if progress.currentSupermesh.vertices ≠ [] then
    progress.flush context.namedGrouping else .ok progress) = .ok progress' ∧ _
  by_cases hne : current = []
  · have hvertices : ¬ progress.currentSupermesh.vertices ≠ [] := fun hv =>
      haccounts.assembles.vertices_pos.2 hv hne
    exact ⟨loaded, progress, groups, hmapM, hperm, if_neg hvertices, hne ▸ haccounts⟩
  · obtain ⟨progress', hflush, -, haccounts'⟩ := haccounts.flush hne context.namedGrouping
    refine ⟨loaded, progress', groups ++ [current], hmapM, hperm, ?_, haccounts'⟩
    rw [if_pos (haccounts.assembles.vertices_pos.1 hne), hflush]

/-- A mesh that is alone in its cluster, and not too big, has a mapping. -/
theorem ClusterContext.Delivers.exists_mapping
    (h : context.Delivers cluster [document] hasNormals n) (hload : context.load cluster document = .ok mesh)
    (hsmall : mesh.2.vertices.length ≤ maxVertexCount) :
    ∃ progress, context.createSuperMeshes cluster [document] = .ok progress ∧ ∃ supermesh ∈ progress.exported,
      ∃ mapping ∈ supermesh.meshMapping, Holds supermesh.buffers supermesh.faces mesh mapping := by
  obtain ⟨loaded, progress, groups, hmapM, -, hrun, haccounts⟩ := h.createSuperMeshes fun document hd => by
    rw [List.mem_singleton.1 hd, hload]
    exact nofun
  rw [List.mapM_cons, hload] at hmapM
  exact ⟨progress, hrun, haccounts.exists_mapping (Except.ok.inj hmapM ▸ List.mem_cons_self) hsmall⟩

omit [DecidableEq U] [Inhabited U] in
private theorem SupermeshNode.Assembles.fits {node : SupermeshNode U M R}
    (h : node.Assembles meshes)
    (hfaces : (meshes.map fun mesh => mesh.2.faces.length).sum < 2 ^ 31)
    (hmapping : mapping ∈ node.meshMapping) : mapping.Fits := by
  obtain ⟨-, hvert, hvertTo⟩ := h.vertRanges.mem_bounds (List.mem_map_of_mem hmapping)
  obtain ⟨-, htri, htriTo⟩ := h.triRanges.mem_bounds (List.mem_map_of_mem hmapping)
  have hmax : maxVertexCount < 2 ^ 31 := by decide
  rw [← h.faceCount] at hfaces
  exact RepoMeshMapping.fits_of_lt hvert.le ((hvertTo.trans h.bounded).trans_lt hmax) htri.le (htriTo.trans_lt hfaces)

/-- Whatever the order in which the meshes of a cluster are delivered, each is baked, and assembled into one supermesh or,
if it alone is too big, split. -/
theorem createSuperMeshes_assembles (context : ClusterContext U M R) (cluster : List ℕ)
    (binNodes : List (MeshDocument U R)) (hasNormals : Bool) (n : ℕ)
    (hdelivers : context.Delivers cluster binNodes hasNormals n) (hcontinues : context.Continues cluster hasNormals)
    (hfaces : (binNodes.map fun document => document.data.faces.length).sum < 2 ^ 31) :
    ∃ loaded progress groups, List.Forall₂ (context.Bakes cluster) binNodes loaded ∧
      (loaded.map Prod.fst).Perm (context.nodes cluster) ∧
      context.createSuperMeshes cluster binNodes = .ok progress ∧
      (groups.flatten ++ progress.split).Perm loaded ∧
      List.Forall₂ SupermeshNode.Assembles progress.exported groups ∧
      (∀ supermesh ∈ progress.exported, ∀ mapping ∈ supermesh.meshMapping, mapping.Fits) ∧
      ∀ mesh ∈ progress.split, maxVertexCount < mesh.2.vertices.length := by
  obtain ⟨loaded, progress, groups, hload, hperm, hrun, haccounts⟩ :=
    hdelivers.createSuperMeshes fun document hd => hdelivers.load_ne_exit hcontinues hd
  have hall := haccounts.perm
  rw [List.append_nil] at hall
  have hbakes : List.Forall₂ (context.Bakes cluster) binNodes loaded := by
    obtain ⟨hlength, hloaded⟩ := List.forall₂_iff_zip.1 (Library.Fallible.forall₂_of_mapM hload)
    exact List.forall₂_iff_zip.2 ⟨hlength, fun hm => hdelivers.bakes (List.of_mem_zip hm).1 (hloaded hm)⟩
  have hsame : (loaded.map fun mesh => mesh.2.faces.length) = binNodes.map fun document => document.data.faces.length := by
    rw [← List.forall₂_eq_eq_eq, List.forall₂_map_left_iff, List.forall₂_map_right_iff]
    exact (hbakes.imp fun _ _ h => congrArg List.length h.faces).flip
  refine ⟨loaded, progress, groups, hbakes, hperm, hrun, hall, haccounts.exported, ?_, haccounts.split⟩
  intro supermesh hsupermesh mapping hmapping
  obtain ⟨group, hgroup, hassembles⟩ := exists_right_of_forall₂ haccounts.exported hsupermesh
  refine hassembles.fits (lt_of_le_of_lt ?_ (hsame ▸ hfaces)) hmapping
  have hsublist := (List.sublist_flatten_of_mem hgroup).trans (List.sublist_append_left _ progress.split)
  calc (group.map fun mesh => mesh.2.faces.length).sum
      ≤ ((groups.flatten ++ progress.split).map fun mesh => mesh.2.faces.length).sum :=
        (hsublist.map _).sum_le_sum fun _ _ => Nat.zero_le _
    _ = (loaded.map fun mesh => mesh.2.faces.length).sum := (hall.map _).sum_eq

/-- Two meshes of one triangle, delivered in the other order. -/
theorem createSuperMeshes_assembles_pair :
    let triangle : SupermeshingData ℕ ℝ :=
      ⟨0, [⟨0, 0, 0⟩, ⟨1, 0, 0⟩, ⟨0, 1, 0⟩], [RepoFace.triangle 0 1 2], [⟨0, 0, 1⟩, ⟨0, 0, 1⟩, ⟨0, 0, 1⟩], []⟩
    let node : ℕ → SceneMeshNode ℕ ℝ := fun sharedId => ⟨⟨3, ⟨⟨0, 0, 0⟩, ⟨1, 1, 0⟩⟩⟩, sharedId, 7⟩
    let context : ClusterContext ℕ Unit ℝ :=
      ⟨fun _ => some 1, fun _ => some ⟨9, ()⟩, [node 4, node 5], 0, "Ground", RepoMatrix.worldMat⟩
    ∃ loaded progress groups, List.Forall₂ (context.Bakes [0, 1]) [⟨5, triangle⟩, ⟨4, triangle⟩] loaded ∧
      (loaded.map Prod.fst).Perm (context.nodes [0, 1]) ∧
      context.createSuperMeshes [0, 1] [⟨5, triangle⟩, ⟨4, triangle⟩] = .ok progress ∧
      (groups.flatten ++ progress.split).Perm loaded ∧
      List.Forall₂ SupermeshNode.Assembles progress.exported groups ∧
      (∀ supermesh ∈ progress.exported, ∀ mapping ∈ supermesh.meshMapping, mapping.Fits) ∧
      ∀ mesh ∈ progress.split, maxVertexCount < mesh.2.vertices.length := by
  intro triangle node context
  have htriangle : triangle.WellFormed true 0 :=
    ⟨List.cons_ne_nil _ _, List.cons_ne_nil _ _, ⟨rfl, rfl, fun _ h => absurd h List.not_mem_nil⟩, by decide⟩
  refine createSuperMeshes_assembles context [0, 1] [⟨5, triangle⟩, ⟨4, triangle⟩] true 0
    ⟨?_, by decide, List.Perm.swap _ _ _, fun _ _ => rfl, fun _ _ => rfl⟩ ?_ (by decide)
  · intro document hd
    rcases List.mem_pair.1 hd with rfl | rfl <;> exact htriangle
  · intro _ _ transform h
    obtain rfl : 1 = transform := Option.some.inj h
    have hdet : RepoMatrix.determinant (1 : RepoMatrix ℝ) ≠ 0 := by simp [RepoMatrix.determinant]
    exact ⟨RepoMatrix.affine_one.not_exits, fun _ => (RepoMatrix.affine_one.worldMat hdet).not_exits⟩

/-! ### Meshes that are not assembled as they are -/

/-- A triangle with a UV channel, this often. -/
def uvTriangles (n : ℕ) : MeshDocument ℕ ℝ :=
  ⟨4, ⟨0, [⟨0, 0, 0⟩, ⟨1, 0, 0⟩, ⟨0, 1, 0⟩], List.replicate n (RepoFace.triangle 0 1 2), [],
    [[⟨0, 0⟩, ⟨1, 0⟩, ⟨0, 1⟩]]⟩⟩

/-- A cluster of this mesh, without a texture. -/
noncomputable def untextured (transform : RepoMatrix ℝ) : ClusterContext ℕ Unit ℝ :=
  ⟨fun _ => some transform, fun _ => some ⟨9, ()⟩, [⟨⟨3, ⟨⟨0, 0, 0⟩, ⟨1, 1, 0⟩⟩⟩, 4, 7⟩], 0, "", RepoMatrix.worldMat⟩

/-- A homogeneous scaling, which is not affine. -/
def halving : RepoMatrix ℝ := Matrix.of ![![1, 0, 0, 0], ![0, 1, 0, 0], ![0, 0, 1, 0], ![0, 0, 0, 2]]

private theorem delivers_untextured (transform : RepoMatrix ℝ) (hn : n ≠ 0) :
    (untextured transform).Delivers [0] [uvTriangles n] false 1 where
  wellFormed := by
    intro document hd
    obtain rfl := List.mem_singleton.1 hd
    refine ⟨List.cons_ne_nil _ _, fun hnil => hn ((List.replicate_eq_nil_iff _).1 hnil), ⟨rfl, rfl, ?_⟩, ?_⟩
    · exact fun channel hchannel => List.mem_singleton.1 hchannel ▸ rfl
    · intro face hface
      rw [List.eq_of_mem_replicate hface]
      exact (by decide : ∀ idx ∈ (RepoFace.triangle 0 1 2).indices, idx < 3)
  nodup := List.nodup_singleton _
  delivered := .refl _
  transforms := fun _ _ => rfl
  materials := fun _ _ => rfl

private theorem load_untextured (transform : RepoMatrix ℝ) (n : ℕ) :
    ∃ node, (untextured transform).load [0] (uvTriangles n) = if transform.Exits then .error .exit
      else .ok (node, { (uvTriangles n).data with
        vertices := (uvTriangles n).data.vertices.map transform.image, channels := [] }) := by
  refine ⟨⟨⟨3, ⟨⟨0, 0, 0⟩, ⟨1, 1, 0⟩⟩⟩, 4, 7⟩, ?_⟩
  change (((uvTriangles n).loadSupermeshingData true).bakeMeshes transform transform.worldMat).bind _ = _
  rw [bakeMeshes_eq (List.cons_ne_nil _ _)]
  by_cases hexits : transform.Exits
  · rw [if_pos (.inl hexits), if_pos hexits]
    rfl
  · rw [if_neg (not_or.2 ⟨hexits, fun h => h.2 rfl⟩), if_neg hexits]
    rfl

private theorem exists_mapping_untextured (hn : n ≠ 0) :
    ∃ progress, (untextured 1).createSuperMeshes [0] [uvTriangles n] = .ok progress ∧ ∃ supermesh ∈ progress.exported,
      ∃ mapping ∈ supermesh.meshMapping, mapping.triTo = mapping.triFrom + n ∧
        (supermesh.buffers.corner mapping.vertFrom).2.2 = [] := by
  obtain ⟨node, hload⟩ := load_untextured 1 n
  rw [if_neg RepoMatrix.affine_one.not_exits] at hload
  obtain ⟨progress, hrun, supermesh, hsupermesh, mapping, hmapping, hholds⟩ :=
    (delivers_untextured 1 hn).exists_mapping hload (by decide : 3 ≤ maxVertexCount)
  refine ⟨progress, hrun, supermesh, hsupermesh, mapping, hmapping, ?_, ?_⟩
  · exact hholds.triTo.trans (congrArg _ List.length_replicate)
  · exact congrArg (fun corner => corner.2.2) (hholds.vertex 0 (Nat.zero_lt_succ 2))

/-- A transform that is not affine ends the process; without a texture there are no UVs; and too many faces do not fit
into the ranges. -/
theorem not_createSuperMeshes_assembles :
    (∀ transform n, n ≠ 0 → (untextured transform).Delivers [0] [uvTriangles n] false 1) ∧
      (untextured halving).createSuperMeshes [0] [uvTriangles 1] = .error .exit ∧
      (∃ progress, (untextured 1).createSuperMeshes [0] [uvTriangles 1] = .ok progress ∧
        ∃ supermesh ∈ progress.exported, ∃ mapping ∈ supermesh.meshMapping,
          (supermesh.buffers.corner mapping.vertFrom).2.2 = [] ∧
            ((uvTriangles 1).data.buffers.corner 0).2.2 = [some ⟨0, 0⟩]) ∧
      ∃ progress, (untextured 1).createSuperMeshes [0] [uvTriangles (2 ^ 31)] = .ok progress ∧
        ∃ supermesh ∈ progress.exported, ∃ mapping ∈ supermesh.meshMapping, ¬ mapping.Fits := by
  refine ⟨fun transform n hn => delivers_untextured transform hn, ?_, ?_, ?_⟩
  · have hexits : halving.Exits := by
      refine .inr (.inr (.inr ?_))
      change |(2 : ℝ) - 1| > RepoMatrix.sig
      norm_num [RepoMatrix.sig]
    obtain ⟨node, hload⟩ := load_untextured halving 1
    rw [if_pos hexits] at hload
    unfold ClusterContext.createSuperMeshes
    rw [List.foldlM_cons, hload]
    rfl
  · obtain ⟨progress, hrun, supermesh, hsupermesh, mapping, hmapping, -, huvs⟩ := exists_mapping_untextured one_ne_zero
    exact ⟨progress, hrun, supermesh, hsupermesh, mapping, hmapping, huvs, rfl⟩
  · obtain ⟨progress, hrun, supermesh, hsupermesh, mapping, hmapping, htriTo, -⟩ :=
      exists_mapping_untextured (n := 2 ^ 31) (by decide)
    refine ⟨progress, hrun, supermesh, hsupermesh, mapping, hmapping, fun hfits => ?_⟩
    have hlt := int32_eq_iff.1 hfits.triTo
    omega

end Exact

end Loop

end Bouncer.MultipartOptimizer
