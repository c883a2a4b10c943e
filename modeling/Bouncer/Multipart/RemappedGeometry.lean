import Bouncer.Multipart.SplitBounds

/-!
# The geometry after the remapping

A new submesh has the vertices of its parts one after the other, and the indices of its faces count from the first of
them.  So a corner denotes the vertex that it denoted before (`forall₂_indicesOf`), and the faces of the groups are
those of the supermesh in their order (`flatMap_faces_plan`).  No group is beyond the limits (`IsGroup.within`), which
leaves the indices whole in the sixteen bits of a serialised face.

So the remapped mesh has the geometry of the supermesh, as long as the first vertices of the new submeshes fit into their
ranges (`keepsGeometry_members`).  A pile of triangles that are split one by one goes beyond (`not_keepsGeometry_piled`).
-/

namespace Bouncer.MeshMapReorganiser

open Library
open MultipartOptimizer (SupermeshNode)
open Reorganiser (numVertices numFaces)

variable {U M R : Type}

/-- The face is in the range of the submesh. -/
def SubMesh.HasFace (subMesh : SubMesh U M R) (i : ℕ) : Prop := subMesh.mapping.triFrom ≤ i ∧ i < subMesh.mapping.triTo

/-- The index, counted from the first vertex of the submesh as it is stored, denotes a vertex like the old one. -/
def SubMesh.Denotes (subMesh : SubMesh U M R) (mesh : SupermeshNode U M R) (s : State U M R) (newIdx indexValue : ℕ) : Prop :=
  ∃ v : ℕ, (v : ℤ) = newIdx + int32 subMesh.mapping.vertFrom ∧ s.buffers.corner v = mesh.buffers.corner indexValue

/-- The faces are the old ones in their order, and serialised as they are.  Each is in one new submesh, and its corners,
which count from the first vertex of that, have the positions, normals and UVs that they had.  The ranges of the faces are
stored as they are. -/
structure KeepsGeometry (mesh : SupermeshNode U M R) (s : State U M R) : Prop where
  length : s.newFaces.length = mesh.faces.length
  triRange : ∀ subMesh ∈ s.subMeshes,
    int32 subMesh.mapping.triFrom = subMesh.mapping.triFrom ∧ int32 subMesh.mapping.triTo = subMesh.mapping.triTo
  face : ∀ (i : ℕ) (face newFace : RepoFace), mesh.faces[i]? = some face → s.newFaces[i]? = some newFace →
    ∃ (k : ℕ) (subMesh : SubMesh U M R), s.subMeshes[k]? = some subMesh ∧ subMesh.HasFace i ∧
      (∀ (k' : ℕ) (subMesh' : SubMesh U M R), s.subMeshes[k']? = some subMesh' → subMesh'.HasFace i → k' = k) ∧
      List.Forall₂ (subMesh.Denotes mesh s) newFace.indices face.indices
  serialised : s.serialisedFaces = s.newFaces.flatMap RepoFace.indices

namespace Reorganiser

variable [Zero R] [LinearOrder R] [DecidableEq U] [Inhabited U] [Inhabited M]

/-- The members when the mission failed. -/
def cleared : State U M R :=
  { buffers := ⟨[], [], []⟩, newFaces := [], serialisedFaces := [], subMeshes := [], splitMap := fun _ => none,
    subMeshVertexCount := 0, subMeshFaceCount := 0, totalVertexCount := 0, totalFaceCount := 0, idMapIdx := 0,
    orgFaceIdx := 0, finishedSubMesh := true, bbox := none }

/-- The members after the constructor. -/
def members (reorganiser : Reorganiser U M R) : State U M R := reorganiser.remap.getD cleared

end Reorganiser

/-! ### The corners of a submesh -/

/-- The faces of the part have only its vertices. -/
def Part.HasCorners (part : Part U M R) : Prop := ∀ face ∈ part.faces, ∀ i ∈ face.indices, i ∈ part.verts

private theorem forall₂_indices {part : Part U M R} (h : part.HasCorners) (before : List ℕ) :
    List.Forall₂ (List.Forall₂ fun newIdx i => (before ++ part.verts)[newIdx]? = some i) (part.indices before.length)
      (part.faces.map RepoFace.indices) := by
  unfold Part.indices
  rw [List.forall₂_map_left_iff, List.forall₂_map_right_iff, List.forall₂_same]
  intro face hface
  rw [List.forall₂_map_left_iff, List.forall₂_same]
  intro i hi
  rw [List.getElem?_append_right (Nat.le_add_right _ _), Nat.add_sub_cancel_left]
  exact List.getElem?_idxOf (h face hface i hi)

private theorem vertsOf_append (parts parts' : List (Part U M R)) :
    vertsOf (parts ++ parts') = vertsOf parts ++ vertsOf parts' := List.flatMap_append

variable {parts : List (Part U M R)}

private theorem forall₂_indicesOf (h : ∀ part ∈ parts, part.HasCorners) :
    List.Forall₂ (List.Forall₂ fun newIdx i => (vertsOf parts)[newIdx]? = some i) (indicesOf parts)
      ((parts.flatMap Part.faces).map RepoFace.indices) := by
  induction parts using List.reverseRecOn with
  | nil => exact .nil
  | append_singleton parts part ih =>
    have hverts : vertsOf (parts ++ [part]) = vertsOf parts ++ part.verts := by
      rw [vertsOf_append]
      exact congrArg _ (List.flatMap_singleton ..)
    have hold := ih fun part' hpart' => h part' (List.mem_append_left _ hpart')
    have hnew := forall₂_indices (h part (List.mem_append_right _ (List.mem_singleton_self part))) (vertsOf parts)
    rw [length_vertsOf] at hnew
    rw [indicesOf_concat, List.flatMap_append, List.flatMap_singleton, List.map_append, hverts]
    refine List.rel_append (hold.imp fun newIdxs is hface => hface.imp fun newIdx i hi => ?_) hnew
    rw [List.getElem?_append_left (List.getElem?_eq_some_iff.1 hi).1, hi]

theorem length_indicesOf (parts : List (Part U M R)) : (indicesOf parts).length = faceCount parts := by
  induction parts using List.reverseRecOn with
  | nil => rfl
  | append_singleton parts part ih =>
    rw [indicesOf_concat, List.length_append, ih, faceCount_append, faceCount_singleton, Part.indices, List.length_map]

/-- What the new buffers have at a vertex. -/
theorem corner_buffersAt [Zero R] {reorganiser : Reorganiser U M R} (hmesh : WellFormed reorganiser.mesh)
    {n i : ℕ} (hn : (vertsOf parts)[n]? = some i)
    (hi : i < reorganiser.mesh.vertices.length) :
    (reorganiser.buffersAt parts reorganiser.mesh.vertices.length).corner n = reorganiser.mesh.buffers.corner i := by
  have hgather : ∀ {α : Type} (old : List α) (default : α), old.length = reorganiser.mesh.vertices.length →
      (gather old default parts ++ old.drop reorganiser.mesh.vertices.length)[n]? = old[i]? := by
    intro α old default hold
    rw [← hold] at hi
    rw [← hold, List.drop_length, List.append_nil, gather, List.getElem?_map, hn, Option.map_some,
      List.getD_eq_getElem?_getD, List.getElem?_eq_getElem hi, Option.getD_some]
  have hnormals : (reorganiser.buffersAt parts reorganiser.mesh.vertices.length).normals[n]? =
      reorganiser.mesh.normals[i]? := by
    rcases hmesh.normals with hempty | hlength
    · rw [Reorganiser.buffersAt, if_pos (List.isEmpty_iff.2 hempty), hempty, List.getElem?_nil, List.getElem?_nil]
    · have hne : ¬ reorganiser.mesh.normals.isEmpty = true := by
        rw [List.isEmpty_iff]
        apply List.ne_nil_of_length_pos
        omega
      rw [Reorganiser.buffersAt, if_neg hne]
      exact hgather _ _ hlength
  have hchannels : (reorganiser.buffersAt parts reorganiser.mesh.vertices.length).channels.map
      (fun channel => channel[n]?) = reorganiser.mesh.channels.map fun channel => channel[i]? := by
    rw [Reorganiser.buffersAt, List.map_map]
    exact List.map_congr_left fun channel hchannel => hgather _ _ (hmesh.channel channel hchannel)
  exact Prod.ext (hgather _ _ rfl) (Prod.ext hnormals hchannels)

/-! ### The submeshes -/

section Submeshes

variable [LinearOrder R] [Zero R] [Inhabited U] [Inhabited M]

theorem getElem?_layOut (before after : List (List (Part U M R))) (group : List (Part U M R)) :
    (layOut (before ++ group :: after))[before.length]? =
      some (doneSubMesh (vertCount before.flatten) (faceCount before.flatten) group) := by
  have hlength : (placed vertCount faceCount 0 0 before).length = before.length := length_placed before
  rw [layOut, placed_append, List.getElem?_map, List.getElem?_append_right (Nat.le_of_eq hlength), hlength,
    Nat.sub_self, sum_vertCount, sum_faceCount, Nat.zero_add, Nat.zero_add]
  rfl

theorem map_vertRange_layOut (groups : List (List (Part U M R))) :
    (layOut groups).map (fun subMesh => subMesh.mapping.vertRange) = spans 0 (groups.map vertCount) := by
  rw [layOut, List.map_map, ← map_placed_fst]
  exact List.map_congr_left fun p _ => doneSubMesh_vertRange p.1 p.2.1 p.2.2

theorem map_triRange_layOut (groups : List (List (Part U M R))) :
    (layOut groups).map (fun subMesh => subMesh.mapping.triRange) = spans 0 (groups.map faceCount) := by
  rw [layOut, List.map_map, ← map_placed_snd]
  exact List.map_congr_left fun p _ => doneSubMesh_triRange p.1 p.2.1 p.2.2

theorem doneSubMesh_vertFrom (v f : ℕ) (parts : List (Part U M R)) : (doneSubMesh v f parts).mapping.vertFrom = v :=
  congrArg Prod.fst (doneSubMesh_vertRange v f parts)

theorem hasFace_doneSubMesh {v f i : ℕ} :
    (doneSubMesh v f parts).HasFace i ↔ f ≤ i ∧ i < f + faceCount parts := by
  have hfrom : (doneSubMesh v f parts).mapping.triFrom = f := congrArg Prod.fst (doneSubMesh_triRange v f parts)
  have hto : (doneSubMesh v f parts).mapping.triTo = f + faceCount parts :=
    congrArg Prod.snd (doneSubMesh_triRange v f parts)
  rw [SubMesh.HasFace, hfrom, hto]

private theorem HasFace.unique {groups : List (List (Part U M R))} {i k k' : ℕ} {subMesh subMesh' : SubMesh U M R}
    (hk : (layOut groups)[k]? = some subMesh) (hk' : (layOut groups)[k']? = some subMesh') (h : subMesh.HasFace i)
    (h' : subMesh'.HasFace i) : k = k' := by
  have hspan : ∀ {k : ℕ} {subMesh : SubMesh U M R}, (layOut groups)[k]? = some subMesh →
      (spans 0 (groups.map faceCount))[k]? = some subMesh.mapping.triRange := by
    intro k subMesh hk
    rw [← map_triRange_layOut, List.getElem?_map, hk, Option.map_some]
  exact getElem?_unique_of_pairwise (pairwise_spans _ _) (hspan hk) (hspan hk') h h'

end Submeshes

namespace Reorganiser

variable {reorganiser : Reorganiser U M R}

/-! ### The faces of a plan -/

variable {group : List (Part U M R)}

section Faces

variable [Zero R]

private theorem hasCorners_of_mem (hmesh : WellFormed reorganiser.mesh) :
    ∀ part ∈ reorganiser.plan.parts, part.HasCorners := by
  intro part hpart
  rw [parts_plan] at hpart
  obtain ⟨p, hp, hpart⟩ := List.mem_flatMap.1 hpart
  unfold partsOf at hpart
  split_ifs at hpart
  · obtain ⟨run, -, rfl⟩ := List.mem_map.1 hpart
    intro face hface i hi
    exact mem_table.2 ⟨face, hface, hi⟩
  · obtain rfl := List.mem_singleton.1 hpart
    intro face hface i hi
    have hmem : p.1 ∈ reorganiser.mesh.meshMapping := List.mem_of_getElem? (List.mem_zipIdx_iff_getElem?.1 hp)
    obtain ⟨n, hfrom, hto, hn⟩ := exists_of_mem_facesOf hface
    have hrange := hmesh.inRange p.1 hmem n face hfrom hto hn i hi
    rw [whole, List.mem_range'_1, numVertices]
    omega

private theorem hasCorners_of_mem_group (hmesh : WellFormed reorganiser.mesh)
    (hgroup : group ∈ reorganiser.plan.groups) : ∀ part ∈ group, part.HasCorners := by
  intro part hpart
  apply hasCorners_of_mem hmesh
  rw [← Plan.flatten_groups]
  exact List.mem_flatten_of_mem hgroup hpart

omit [Zero R] in
private theorem lt_of_mem_faces (hmesh : WellFormed reorganiser.mesh) {face : RepoFace} (hface : face ∈ reorganiser.mesh.faces)
    {i : ℕ} (hi : i ∈ face.indices) : i < reorganiser.mesh.vertices.length := by
  obtain ⟨n, hn⟩ := List.mem_iff_getElem?.1 hface
  have hlt : n < reorganiser.mesh.faces.length := (List.getElem?_eq_some_iff.1 hn).1
  obtain ⟨r, hr, hfrom, hto⟩ := hmesh.triRanges.exists_mem (Nat.zero_le n) hlt
  obtain ⟨mapping, hmem, rfl⟩ := List.mem_map.1 hr
  have hbounds := hmesh.vertRanges.mem_bounds (List.mem_map_of_mem hmem)
  exact ((hmesh.inRange mapping hmem n face hfrom hto hn i hi).2).trans_le hbounds.2.2

end Faces

/-! ### The limits -/

private theorem run_within (hverts : 3 ≤ reorganiser.maxVertices) (hfaces : 1 ≤ reorganiser.maxFaces)
    {mapping : RepoMeshMapping U M R} {run : List RepoFace} (h : run ∈ reorganiser.runs mapping) :
    (table run).length ≤ reorganiser.maxVertices ∧ run.length ≤ reorganiser.maxFaces := by
  have hgrows : ∀ (run : List RepoFace) (face : RepoFace),
      (table (run ++ [face])).length ≤ (table run).length + face.sides := by
    intro run face
    rw [table_concat]
    exact length_fst_internAll_le face.indices
  refine forall_greedyCut
    (P := fun run => (table run).length ≤ reorganiser.maxVertices ∧ run.length ≤ reorganiser.maxFaces) ?_ ?_
    ⟨Nat.zero_le _, Nat.zero_le _⟩ run h
  · intro face
    have hsides : face.sides ≤ 3 := face.sides_le
    have hone := hgrows [] face
    rw [table_nil, List.length_nil, List.nil_append] at hone
    exact ⟨by omega, hfaces⟩
  · intro run face _ hroom
    rw [full, decide_eq_false_iff_not, not_or] at hroom
    have hmore := hgrows run face
    rw [List.length_append, List.length_singleton]
    omega

theorem IsGroup.within [Zero R] (h : reorganiser.IsGroup group)
    (hverts : 3 ≤ reorganiser.maxVertices) (hfaces : 1 ≤ reorganiser.maxFaces) :
    vertCount group ≤ reorganiser.maxVertices ∧ faceCount group ≤ reorganiser.maxFaces := by
  rcases h with hsmall | ⟨mapping, -, run, hrun, k, -, rfl⟩
  · exact ⟨hsmall.vertCount_le, hsmall.faceCount_le⟩
  · rw [vertCount_singleton, faceCount_singleton]
    exact run_within hverts hfaces hrun

/-! ### The whole mesh -/

private theorem indices_ofIndices_of_lt {newIdxs : List ℕ} (hlength : newIdxs.length ≤ 3)
    (hlt : ∀ newIdx ∈ newIdxs, newIdx < 2 ^ 16) : (RepoFace.ofIndices newIdxs).indices = newIdxs := by
  have hmod : ∀ newIdx ∈ newIdxs, newIdx % 2 ^ 32 = newIdx := by
    intro newIdx hnewIdx
    have := hlt newIdx hnewIdx
    exact Nat.mod_eq_of_lt (by omega)
  rw [RepoFace.indices_ofIndices hlength, List.map_congr_left hmod, List.map_id']

section Whole

variable [Zero R]

private theorem indicesOf_lt (hmesh : WellFormed reorganiser.mesh) (hverts : 3 ≤ reorganiser.maxVertices)
    (hle : reorganiser.maxVertices ≤ 65536) (hfaces : 1 ≤ reorganiser.maxFaces)
    (hgroup : group ∈ reorganiser.plan.groups) {newIdxs : List ℕ} (h : newIdxs ∈ indicesOf group) :
    newIdxs.length ≤ 3 ∧ ∀ newIdx ∈ newIdxs, newIdx < 2 ^ 16 := by
  have hwithin := (isGroup_of_mem hmesh group hgroup).within hverts hfaces
  obtain ⟨is, his, hcorners⟩ := exists_right_of_forall₂ (forall₂_indicesOf (hasCorners_of_mem_group hmesh hgroup)) h
  obtain ⟨face, -, rfl⟩ := List.mem_map.1 his
  refine ⟨hcorners.length_eq ▸ face.sides_le, ?_⟩
  intro newIdx hnewIdx
  obtain ⟨i, -, hi⟩ := exists_right_of_forall₂ hcorners hnewIdx
  have hlt := (List.getElem?_eq_some_iff.1 hi).1
  rw [length_vertsOf] at hlt
  omega

variable [LinearOrder R] [Inhabited U] [Inhabited M]

/-- A vertex of a group, counted from the first of them, is the one that it was. -/
theorem Renders.corner_eq {groups before after : List (List (Part U M R))} {group : List (Part U M R)}
    {splitMap : U → Option (List ℕ)} {s : State U M R} (hs : reorganiser.Renders groups splitMap s)
    (hmesh : WellFormed reorganiser.mesh) (hgroups : groups = before ++ group :: after) {newIdx i : ℕ}
    (hnewIdx : (vertsOf group)[newIdx]? = some i) (hi : i < reorganiser.mesh.vertices.length) :
    s.buffers.corner (newIdx + vertCount before.flatten) = reorganiser.mesh.buffers.corner i := by
  have hbefore : (vertsOf before.flatten).length = vertCount before.flatten := length_vertsOf _
  rw [hs.buffers]
  refine corner_buffersAt hmesh ?_ hi
  rw [hgroups, List.flatten_append, List.flatten_cons, vertsOf_append, vertsOf_append,
    List.getElem?_append_right (by omega), hbefore, Nat.add_sub_cancel,
    List.getElem?_append_left (List.getElem?_eq_some_iff.1 hnewIdx).1, hnewIdx]

theorem Renders.keepsGeometry (hmesh : WellFormed reorganiser.mesh) (hverts : 3 ≤ reorganiser.maxVertices)
    (hle : reorganiser.maxVertices ≤ 65536) (hfaces : 1 ≤ reorganiser.maxFaces) {splitMap : U → Option (List ℕ)}
    {s : State U M R} (hs : reorganiser.Renders reorganiser.plan.groups splitMap s)
    (hstart : ∀ subMesh ∈ s.subMeshes, subMesh.mapping.vertFrom < 2 ^ 31) : KeepsGeometry reorganiser.mesh s := by
  have hlt : ∀ newIdxs ∈ reorganiser.plan.groups.flatMap indicesOf,
      newIdxs.length ≤ 3 ∧ ∀ newIdx ∈ newIdxs, newIdx < 2 ^ 16 := by
    intro newIdxs h
    obtain ⟨group, hgroup, h⟩ := List.mem_flatMap.1 h
    exact indicesOf_lt hmesh hverts hle hfaces hgroup h
  have hold : reorganiser.mesh.faces = reorganiser.plan.groups.flatMap fun group => group.flatMap Part.faces := by
    rw [← flatMap_faces_plan hmesh, ← Plan.flatten_groups, ← List.flatMap_id, List.flatMap_assoc]
    rfl
  have hcount : reorganiser.mesh.faces.length = (reorganiser.plan.groups.map faceCount).sum := by
    rw [hold, List.length_flatMap]
    exact congrArg List.sum (List.map_congr_left fun group _ => length_flatMap_faces group)
  refine ⟨?_, ?_, ?_, ?_⟩
  · rw [hs.newFaces, List.length_map, List.length_flatMap, hcount]
    exact congrArg List.sum (List.map_congr_left fun group _ => length_indicesOf group)
  · intro subMesh hsubMesh
    obtain ⟨hle, hlt⟩ := hs.triRange hmesh hsubMesh
    exact ⟨int32_eq_iff.2 (hle.trans_lt hlt), int32_eq_iff.2 hlt⟩
  · intro i face newFace hface hnewFace
    have hi : i < (reorganiser.plan.groups.map faceCount).sum := hcount ▸ (List.getElem?_eq_some_iff.1 hface).1
    obtain ⟨before, group, after, r, hgroups, rfl, hr⟩ := exists_split_of_lt_sum hi
    have hgroup : group ∈ reorganiser.plan.groups := by
      rw [hgroups]
      exact List.mem_append_right _ List.mem_cons_self
    have hsubMesh : s.subMeshes[before.length]? =
        some (doneSubMesh (vertCount before.flatten) (faceCount before.flatten) group) := by
      rw [hs.subMeshes, hgroups, getElem?_layOut]
    have hhas : (doneSubMesh (vertCount before.flatten) (faceCount before.flatten) group).HasFace
        ((before.map faceCount).sum + r) := by
      rw [hasFace_doneSubMesh, sum_faceCount]
      omega
    refine ⟨before.length, _, hsubMesh, hhas, ?_, ?_⟩
    · intro k' subMesh' hk' hhas'
      rw [hs.subMeshes] at hsubMesh hk'
      exact (HasFace.unique hsubMesh hk' hhas hhas').symm
    · rw [hold, hgroups, getElem?_flatMap_split length_flatMap_faces before after hr] at hface
      rw [hs.newFaces, hgroups, List.getElem?_map, getElem?_flatMap_split length_indicesOf before after hr] at hnewFace
      obtain ⟨newIdxs, hnewIdxs, rfl⟩ := Option.map_eq_some_iff.1 hnewFace
      obtain ⟨hlength, hsmall⟩ := indicesOf_lt hmesh hverts hle hfaces hgroup (List.mem_of_getElem? hnewIdxs)
      have hindices : ((group.flatMap Part.faces).map RepoFace.indices)[r]? = some face.indices := by
        rw [List.getElem?_map, hface, Option.map_some]
      have hcorners := rel_of_getElem? (forall₂_indicesOf (hasCorners_of_mem_group hmesh hgroup)) hnewIdxs hindices
      have hmem : face ∈ reorganiser.mesh.faces := by
        rw [hold, hgroups]
        exact List.mem_flatMap.2 ⟨group, List.mem_append_right _ List.mem_cons_self, List.mem_of_getElem? hface⟩
      have hinRange : List.Forall₂ (fun _ i => i < reorganiser.mesh.vertices.length) newIdxs face.indices :=
        List.forall₂_of_length_eq_of_get hcorners.length_eq fun j _ hj =>
          lt_of_mem_faces hmesh hmem (List.get_mem face.indices ⟨j, hj⟩)
      have hfirst := hstart _ (List.mem_of_getElem? hsubMesh)
      rw [indices_ofIndices_of_lt hlength hsmall]
      refine List.Forall₂.mp ?_ hcorners hinRange
      intro newIdx i hnewIdx hi
      refine ⟨_, ?_, hs.corner_eq hmesh hgroups hnewIdx hi⟩
      rw [int32_eq_iff.2 hfirst, doneSubMesh_vertFrom, Nat.cast_add]
  · have hwhole : ∀ newIdxs ∈ reorganiser.plan.groups.flatMap indicesOf,
        (RepoFace.ofIndices newIdxs).indices = newIdxs := by
      intro newIdxs h
      obtain ⟨hlength, hsmall⟩ := hlt newIdxs h
      exact indices_ofIndices_of_lt hlength hsmall
    have hmod : ∀ newIdx ∈ (reorganiser.plan.groups.flatMap indicesOf).flatten, newIdx % 2 ^ 16 = newIdx := by
      intro newIdx hnewIdx
      obtain ⟨newIdxs, hnewIdxs, hmem⟩ := List.mem_flatten.1 hnewIdx
      exact Nat.mod_eq_of_lt ((hlt newIdxs hnewIdxs).2 newIdx hmem)
    rw [hs.serialisedFaces, hs.newFaces, List.map_congr_left hmod, List.map_id', List.flatMap_map,
      List.flatMap_congr hwhole]
    exact (List.flatMap_id ..).symm

variable [DecidableEq U]

private theorem fits_members (hmesh : WellFormed reorganiser.mesh) (hcount : reorganiser.newVertexCount < 2 ^ 31) :
    reorganiser.members.Fits := by
  cases hmapping : reorganiser.mesh.meshMapping with
  | nil =>
    have hremap : reorganiser.remap = none := by rw [remap, hmapping]; rfl
    rw [members, hremap]
    exact fun _ h => absurd h List.not_mem_nil
  | cons mapping mappings =>
    obtain ⟨s, hs, hrenders⟩ := performSplitting_renders hmesh
    have hmem : mapping ∈ reorganiser.mesh.meshMapping := hmapping ▸ List.mem_cons_self
    rw [members, remap_eq_performSplitting hmem, hs]
    exact (hrenders.fits_iff hmesh).2 hcount

/-- Where the new submeshes start within the first `2 ^ 31` vertices, the remapped mesh has the geometry of the supermesh. -/
theorem keepsGeometry_members (hmesh : WellFormed reorganiser.mesh) (hverts : 3 ≤ reorganiser.maxVertices)
    (hle : reorganiser.maxVertices ≤ 65536) (hfaces : 1 ≤ reorganiser.maxFaces)
    (hstart : ∀ subMesh ∈ reorganiser.members.subMeshes, subMesh.mapping.vertFrom < 2 ^ 31) :
    KeepsGeometry reorganiser.mesh reorganiser.members := by
  cases hmapping : reorganiser.mesh.meshMapping with
  | nil =>
    -- without a mapping there is nothing to remap
    have hempty : reorganiser.mesh.faces = [] := by
      have htri := hmesh.triRanges
      rw [hmapping] at htri
      exact List.length_eq_zero_iff.1 htri.symm
    have hremap : reorganiser.remap = none := by rw [remap, hmapping]; rfl
    rw [members, hremap]
    refine ⟨by rw [hempty]; rfl, fun _ h => absurd h List.not_mem_nil, ?_, rfl⟩
    intro i face newFace hface
    rw [hempty, List.getElem?_nil] at hface
    exact absurd hface (Option.some_ne_none face).symm
  | cons mapping mappings =>
    obtain ⟨s, hs, hrenders⟩ := performSplitting_renders hmesh
    have hmem : mapping ∈ reorganiser.mesh.meshMapping := hmapping ▸ List.mem_cons_self
    rw [members, remap_eq_performSplitting hmem, hs] at hstart ⊢
    exact hrenders.keepsGeometry hmesh hverts hle hfaces hstart

end Whole

theorem keepsGeometry_members_apart : KeepsGeometry apartReorganiser.mesh apartReorganiser.members :=
  keepsGeometry_members wellFormed_apart (by decide) (by decide) (by decide) fun subMesh h =>
    int32_eq_iff.1 (fits_members wellFormed_apart (by decide) subMesh h).1.vertFrom

/-! ### A pile of triangles -/

/-- A mesh of as many triangles between three vertices. -/
def piledMapping (n : ℕ) : RepoMeshMapping ℕ ℕ ℤ :=
  { min := ⟨0, 0, 0⟩, max := ⟨1, 1, 0⟩, meshId := 1, sharedId := 2, materialId := 3, material := 0, textureId := 0,
    vertFrom := 0, vertTo := 3, triFrom := 0, triTo := n }

/-- Each triangle becomes a submesh, with its own vertices. -/
def piledReorganiser (n : ℕ) : Reorganiser ℕ ℕ ℤ :=
  { mesh :=
      { vertices := [⟨0, 0, 0⟩, ⟨1, 0, 0⟩, ⟨0, 1, 0⟩]
        normals := []
        faces := List.replicate n (.triangle 0 1 2)
        boundingBox := ⟨⟨0, 0, 0⟩, ⟨1, 1, 0⟩⟩
        channels := []
        meshMapping := [piledMapping n]
        grouping := "" }
    maxVertices := 3
    maxFaces := 1 }

variable {n : ℕ}

theorem wellFormed_piled (hn : 0 < n) (hlt : n < 2 ^ 31) : WellFormed (piledReorganiser n).mesh where
  vertRanges := ⟨rfl, Nat.succ_pos 2, rfl⟩
  triRanges := ⟨rfl, hn, List.length_replicate.symm⟩
  inRange := by
    intro mapping hmem i face _ _ hface
    obtain rfl := List.mem_singleton.1 hmem
    obtain rfl := List.eq_of_mem_replicate (List.mem_of_getElem? hface)
    exact fun indexValue hindex => ⟨Nat.zero_le _, (by decide : ∀ i ∈ (RepoFace.triangle 0 1 2).indices, i < 3) _ hindex⟩
  normals := Or.inl rfl
  channel := fun _ h => absurd h List.not_mem_nil
  fits := by
    intro mapping hmem
    obtain rfl := List.mem_singleton.1 hmem
    exact RepoMeshMapping.fits_of_lt (Nat.zero_le _) (show 3 < 2 ^ 31 by norm_num) (Nat.zero_le _) hlt

private theorem length_verts_piled (hn : 1 < n) {part : Part ℕ ℕ ℤ} (h : part ∈ (piledReorganiser n).plan.parts) :
    part.verts.length = 3 * part.faces.length := by
  rw [parts_plan] at h
  obtain ⟨p, hp, hpart⟩ := List.mem_flatMap.1 h
  obtain rfl := List.mem_singleton.1 hp
  have hoversized : (piledReorganiser n).Oversized (piledMapping n) := Or.inr hn
  rw [partsOf, if_pos hoversized] at hpart
  obtain ⟨run, hrun, rfl⟩ := List.mem_map.1 hpart
  have hone := (run_within le_rfl le_rfl hrun).2
  rcases run with _ | ⟨face, _ | ⟨_, _⟩⟩
  · rfl
  · have hface : face ∈ (piledReorganiser n).facesOf (piledMapping n) := by
      rw [← (piledReorganiser n).flatten_runs]
      exact List.mem_flatten_of_mem hrun (List.mem_singleton_self face)
    obtain ⟨i, -, -, hi⟩ := exists_of_mem_facesOf hface
    rw [List.eq_of_mem_replicate (List.mem_of_getElem? hi)]
    rfl
  · exact absurd (Nat.le_of_succ_le_succ hone) (Nat.not_succ_le_zero _)

theorem vertCount_piled (hn : 1 < n) {parts : List (Part ℕ ℕ ℤ)}
    (h : ∀ part ∈ parts, part ∈ (piledReorganiser n).plan.parts) : vertCount parts = 3 * faceCount parts := by
  rw [vertCount, faceCount, ← List.sum_map_mul_left]
  exact congrArg List.sum (List.map_congr_left fun part hpart => length_verts_piled hn (h part hpart))

private theorem vertFrom_piled (hn : 1 < n) (hlt : n < 2 ^ 31) {splitMap : ℕ → Option (List ℕ)} {s : State ℕ ℕ ℤ}
    (hs : (piledReorganiser n).Renders (piledReorganiser n).plan.groups splitMap s) {subMesh : SubMesh ℕ ℕ ℤ}
    (hsubMesh : subMesh ∈ s.subMeshes) {i : ℕ} (hi : subMesh.HasFace i) : subMesh.mapping.vertFrom = 3 * i := by
  rw [hs.subMeshes] at hsubMesh
  obtain ⟨⟨v, f, group⟩, hp, rfl⟩ := mem_layOut.1 hsubMesh
  obtain ⟨before, after, hgroups, hv, hf⟩ := mem_placed hp
  have hwithin := (isGroup_of_mem (wellFormed_piled (by omega) hlt) group (mem_of_mem_placed hp)).within le_rfl le_rfl
  have hbefore : vertCount before.flatten = 3 * faceCount before.flatten := by
    refine vertCount_piled hn fun part hpart => ?_
    rw [← Plan.flatten_groups, hgroups, List.flatten_append]
    exact List.mem_append_left _ hpart
  have hmax : faceCount group ≤ 1 := hwithin.2
  rw [sum_vertCount, Nat.zero_add] at hv
  rw [sum_faceCount, Nat.zero_add] at hf
  obtain ⟨hle, hltFace⟩ := hasFace_doneSubMesh.1 hi
  dsimp only at hv hf hle hltFace
  rw [doneSubMesh_vertFrom]
  omega

private theorem not_denotes_of_le {subMesh : SubMesh U M R} {mesh : SupermeshNode U M R} {s : State U M R} {newIdx i : ℕ}
    (hle : 2 ^ 31 ≤ subMesh.mapping.vertFrom) (hlt : newIdx + subMesh.mapping.vertFrom < 2 ^ 32) :
    ¬ subMesh.Denotes mesh s newIdx i := by
  rintro ⟨v, hv, -⟩
  have hstored : int32 subMesh.mapping.vertFrom = subMesh.mapping.vertFrom - 2 ^ 32 := by
    unfold int32
    rw [Int.bmod_def]
    omega
  omega

private theorem not_keepsGeometry_of_le (hle : 2 ^ 31 ≤ 3 * n) (hlt : 2 ^ 16 + 3 * n ≤ 2 ^ 32) :
    ¬ KeepsGeometry (piledReorganiser (n + 1)).mesh (piledReorganiser (n + 1)).members := by
  intro h
  have hmesh : WellFormed (piledReorganiser (n + 1)).mesh := wellFormed_piled (by omega) (by omega)
  obtain ⟨s, hs, hrenders⟩ := performSplitting_renders hmesh
  rw [members, remap_eq_performSplitting (List.mem_singleton_self _), hs, Option.getD_some] at h
  have hlength : s.newFaces.length = n + 1 := h.length.trans List.length_replicate
  have hface : (piledReorganiser (n + 1)).mesh.faces[n]? = some (.triangle 0 1 2) := by
    rw [piledReorganiser, List.getElem?_replicate, if_pos (Nat.lt_succ_self n)]
  have hnewFace := List.getElem?_eq_getElem (show n < s.newFaces.length by omega)
  generalize s.newFaces[n] = newFace at hnewFace
  obtain ⟨k, subMesh, hk, hhas, -, hcorners⟩ := h.face _ _ _ hface hnewFace
  have hfrom := vertFrom_piled (by omega) (by omega) hrenders (List.mem_of_getElem? hk) hhas
  rw [hrenders.newFaces, List.getElem?_map] at hnewFace
  obtain ⟨newIdxs, hnewIdxs, rfl⟩ := Option.map_eq_some_iff.1 hnewFace
  obtain ⟨group, hgroup, hmem⟩ := List.mem_flatMap.1 (List.mem_of_getElem? hnewIdxs)
  obtain ⟨hthree, hsmall⟩ := indicesOf_lt hmesh le_rfl (show 3 ≤ 65536 by norm_num) le_rfl hgroup hmem
  rw [indices_ofIndices_of_lt hthree hsmall] at hcorners
  obtain ⟨newIdx, hnewIdx, hdenotes⟩ := exists_left_of_forall₂ hcorners
    (show 0 ∈ (RepoFace.triangle 0 1 2).indices by decide)
  have hlast := hsmall newIdx hnewIdx
  exact not_denotes_of_le (by omega) (by omega) hdenotes

/-- The last of the triangles starts behind `2 ^ 31` vertices. -/
theorem not_keepsGeometry_piled : WellFormed (piledReorganiser 715827884).mesh ∧
    ¬ KeepsGeometry (piledReorganiser 715827884).mesh (piledReorganiser 715827884).members :=
  ⟨wellFormed_piled (by norm_num) (by norm_num), not_keepsGeometry_of_le (by norm_num) (by norm_num)⟩

end Reorganiser

end Bouncer.MeshMapReorganiser
