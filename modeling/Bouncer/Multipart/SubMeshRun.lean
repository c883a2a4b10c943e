import Bouncer.Multipart.SubMeshPlan

/-!
# The reorganiser follows its plan

Each turn of the loop over the mappings takes the state of the plan to that of the extended plan (`addMesh_stateAt`),
for the mesh that is added to the current submesh as for the one that is split, over a loop of its own.  So for a
supermesh whose mappings tile its buffers the run does not fail, and its members are what the plan says
(`performSplitting_renders`).
-/

namespace Bouncer.MeshMapReorganiser

open Library
open MultipartOptimizer (SupermeshNode)
open Reorganiser (numVertices numFaces)

variable {U M R : Type}

/-- The mappings lie one after the other over the vertices and faces of the supermesh, none of them without a vertex or
a face, and the faces of a mapping have its vertices.  A normal there is for each vertex or for none.  The ranges are
`int32_t`. -/
structure WellFormed (mesh : SupermeshNode U M R) : Prop where
  vertRanges : Tiles 0 (mesh.meshMapping.map RepoMeshMapping.vertRange) mesh.vertices.length
  triRanges : Tiles 0 (mesh.meshMapping.map RepoMeshMapping.triRange) mesh.faces.length
  inRange : ∀ mapping ∈ mesh.meshMapping, ∀ i face, mapping.triFrom ≤ i → i < mapping.triTo →
    mesh.faces[i]? = some face → ∀ indexValue ∈ face.indices, mapping.vertFrom ≤ indexValue ∧ indexValue < mapping.vertTo
  normals : mesh.normals = [] ∨ mesh.normals.length = mesh.vertices.length
  channel : ∀ channel ∈ mesh.channels, channel.length = mesh.vertices.length
  fits : ∀ mapping ∈ mesh.meshMapping, mapping.Fits

/-- Like their ranges, the faces are fewer than `2 ^ 31`. -/
theorem WellFormed.length_faces_lt {mesh : SupermeshNode U M R} (h : WellFormed mesh) : mesh.faces.length < 2 ^ 31 := by
  by_contra hlarge
  obtain ⟨r, hr, hlt, hlast⟩ := h.triRanges.exists_mem (Nat.zero_le (mesh.faces.length - 1)) (by omega)
  obtain ⟨mapping, hmapping, rfl⟩ := List.mem_map.1 hr
  have hto : mapping.triTo < 2 ^ 31 := int32_eq_iff.1 (h.fits mapping hmapping).triTo
  change mesh.faces.length - 1 < mapping.triTo at hlast
  omega

/-! ### Indices -/

private theorem idxOf_range' {v n i : ℕ} (hv : v ≤ i) (hi : i < v + n) : (List.range' v n).idxOf i = i - v := by
  have hlt : i - v < (List.range' v n).length := by
    rw [List.length_range']
    omega
  have hget : (List.range' v n)[i - v] = i := by
    rw [List.getElem_range']
    omega
  have hidx := List.Nodup.idxOf_getElem List.nodup_range' (i - v) hlt
  rwa [hget] at hidx

private theorem ofIndices_map_mod {newIdxs : List ℕ} (h : newIdxs.length ≤ 3) :
    RepoFace.ofIndices (newIdxs.map (· % 2 ^ 32)) = RepoFace.ofIndices newIdxs := by
  have hindices : (RepoFace.ofIndices (newIdxs.map (· % 2 ^ 32))).indices = (RepoFace.ofIndices newIdxs).indices := by
    rw [RepoFace.indices_ofIndices h, RepoFace.indices_ofIndices (by rwa [List.length_map]), List.map_map]
    exact List.map_congr_left fun i _ => Nat.mod_mod _ _
  cases hface : RepoFace.ofIndices newIdxs
  cases hface' : RepoFace.ofIndices (newIdxs.map (· % 2 ^ 32))
  rw [hface, hface'] at hindices
  cases hindices
  rfl

private theorem map_ofIndices_congr {faces faces' : List (List ℕ)} (hlength : ∀ newIdxs ∈ faces, newIdxs.length ≤ 3)
    (hlength' : ∀ newIdxs ∈ faces', newIdxs.length ≤ 3)
    (h : faces.map (List.map (· % 2 ^ 32)) = faces'.map (List.map (· % 2 ^ 32))) :
    faces.map RepoFace.ofIndices = faces'.map RepoFace.ofIndices := by
  have hmod : ∀ {l : List (List ℕ)}, (∀ newIdxs ∈ l, newIdxs.length ≤ 3) →
      l.map RepoFace.ofIndices = (l.map (List.map (· % 2 ^ 32))).map RepoFace.ofIndices := by
    intro l hl
    rw [List.map_map]
    exact List.map_congr_left fun newIdxs hmem => (ofIndices_map_mod (hl newIdxs hmem)).symm
  rw [hmod hlength, hmod hlength', h]

private theorem length_le_of_mem_indices {part : Part U M R} {base : ℕ} {newIdxs : List ℕ} (h : newIdxs ∈ part.indices base) :
    newIdxs.length ≤ 3 := by
  obtain ⟨face, -, rfl⟩ := List.mem_map.1 h
  rw [List.length_map]
  exact face.sides_le

private theorem size_t_sub_mod {i v c k : ℕ} (hv : v ≤ i) (hk : k ∣ 2 ^ 64) :
    (i + (c + 2 ^ 64) - v) % 2 ^ 64 % k = (c + (i - v)) % k := by
  have hsub : i + (c + 2 ^ 64) - v = c + (i - v) + 2 ^ 64 := by omega
  rw [hsub, Nat.add_mod_right, Nat.mod_mod_of_dvd _ hk]

/-! ### Buffers -/

variable {α : Type}

private theorem map_getD_range' (old : List α) (default : α) {v n : ℕ} (h : v + n ≤ old.length) :
    (List.range' v n).map (fun i => old.getD i default) = (old.drop v).take n := by
  apply List.ext_getElem
  · simp
    omega
  · intro i hi hi'
    simp only [List.length_map, List.length_range'] at hi
    simp [List.getD_eq_getElem?_getD, List.getElem?_eq_getElem (show v + i < old.length by omega)]

theorem gather_append (old : List α) (default : α) (parts parts' : List (Part U M R)) :
    gather old default (parts ++ parts') = gather old default parts ++ gather old default parts' := by
  simp [gather, vertsOf]

variable {mapping : RepoMeshMapping U M R}

private theorem gather_whole {reorganiser : Reorganiser U M R} (old : List α)
    (default : α) (parts : List (Part U M R)) (idMapIdx : ℕ) (hle : mapping.vertFrom ≤ mapping.vertTo)
    (hlength : mapping.vertTo ≤ old.length) :
    gather old default (parts ++ [reorganiser.whole idMapIdx mapping]) ++ old.drop mapping.vertTo =
      gather old default parts ++ old.drop mapping.vertFrom := by
  have hverts : gather old default [reorganiser.whole idMapIdx mapping] =
      (old.drop mapping.vertFrom).take (numVertices mapping) := by
    unfold gather vertsOf Reorganiser.whole
    rw [List.flatMap_singleton]
    apply map_getD_range'
    unfold numVertices
    omega
  have hdrop : old.drop mapping.vertTo = (old.drop mapping.vertFrom).drop (numVertices mapping) := by
    rw [List.drop_drop]
    congr 1
    unfold numVertices
    omega
  rw [gather_append, hverts, hdrop, List.append_assoc, List.take_append_drop]

/-- Of the two ways to make room, each leaves what is before the mesh and what is behind it. -/
theorem patchBuffer_append (extra : α) (before rest reMapped : List α) (numVertices : ℕ) :
    patchBuffer extra (before ++ rest) numVertices reMapped.length before.length (before.length + reMapped.length) reMapped =
      before ++ reMapped ++ rest.drop numVertices := by
  have hcopy : ∀ middle : List α, middle.drop reMapped.length = rest.drop numVertices →
      (before ++ middle).take before.length ++ reMapped ++ (before ++ middle).drop (before.length + reMapped.length) =
        before ++ reMapped ++ rest.drop numVertices := by
    intro middle h
    rw [List.take_left, List.drop_length_add_append, h]
  unfold patchBuffer
  rcases lt_trichotomy reMapped.length numVertices with h | h | h
  · -- the leftovers are erased behind the parts
    have hsum : before.length + reMapped.length + (numVertices - reMapped.length) = before.length + numVertices := by omega
    rw [if_pos h, hsum, List.take_length_add_append, List.drop_length_add_append, List.append_assoc before]
    apply hcopy
    by_cases hrest : rest.length ≤ reMapped.length
    · rw [List.take_of_length_le hrest, List.drop_eq_nil_of_le (show rest.length ≤ numVertices by omega), List.append_nil,
        List.drop_eq_nil_of_le hrest]
    · rw [List.drop_left' (by rw [List.length_take]; omega)]
  · rw [if_neg (by omega), if_neg (by omega)]
    apply hcopy
    rw [h]
  · -- there are more vertices than before
    rw [if_neg (by omega), if_pos h, List.take_left, List.drop_left, List.append_assoc before]
    apply hcopy
    rw [List.drop_append, List.drop_eq_nil_of_le (by rw [List.length_replicate]; omega), List.nil_append,
      List.length_replicate]
    congr 1
    omega

/-! ### A mesh that is not split -/

private theorem foldl_addFace (currentMeshVFrom : ℕ) (faces : List RepoFace) (s : State U M R) :
    faces.foldl (Reorganiser.addFace currentMeshVFrom) s =
      let newIdxs := faces.map fun face => face.indices.map fun indexValue =>
        (indexValue + (s.subMeshVertexCount + 2 ^ 64) - currentMeshVFrom) % 2 ^ 64
      { s with
        newFaces := s.newFaces ++ newIdxs.map RepoFace.ofIndices
        serialisedFaces := s.serialisedFaces ++ newIdxs.flatten.map (· % 2 ^ 16)
        orgFaceIdx := s.orgFaceIdx + faces.length
        subMeshFaceCount := s.subMeshFaceCount + faces.length
        totalFaceCount := s.totalFaceCount + faces.length } := by
  induction faces generalizing s with
  | nil => simp
  | cons face faces ih =>
    rw [List.foldl_cons, ih]
    simp [Reorganiser.addFace, State.pushFace, Nat.add_assoc, Nat.add_comm 1]

private theorem finishSubMesh_snd (mapping : RepoMeshMapping U M R) (bbox : Box R) (nVertices nFaces : ℕ) :
    (finishSubMesh mapping bbox nVertices nFaces).2 = none := by
  cases bbox <;> rfl

section Run

variable {reorganiser : Reorganiser U M R}

namespace Reorganiser

/-- The mapping is the next one after those of the plan. -/
structure IsNext (reorganiser : Reorganiser U M R) (plan : Plan U M R) (mapping : RepoMeshMapping U M R) : Prop where
  vertFrom : plan.vertFrom = mapping.vertFrom
  triFrom : faceCount plan.parts = mapping.triFrom
  vert_lt : mapping.vertFrom < mapping.vertTo
  vert_le : mapping.vertTo ≤ reorganiser.mesh.vertices.length
  tri_lt : mapping.triFrom < mapping.triTo
  tri_le : mapping.triTo ≤ reorganiser.mesh.faces.length
  inRange : ∀ face ∈ reorganiser.facesOf mapping, ∀ i ∈ face.indices, mapping.vertFrom ≤ i ∧ i < mapping.vertTo

variable {plan : Plan U M R}

theorem IsNext.facesOf_ne_nil (h : reorganiser.IsNext plan mapping) :
    reorganiser.facesOf mapping ≠ [] := by
  have hlt := h.tri_lt
  have hle := h.tri_le
  apply List.ne_nil_of_length_pos
  rw [facesOf, readFaces, List.length_take, List.length_drop, numFaces]
  omega

theorem IsNext.prepare (h : reorganiser.IsNext plan mapping) :
    reorganiser.IsNext (reorganiser.prepare plan mapping) mapping := by
  have hvertFrom : (reorganiser.prepare plan mapping).vertFrom = plan.vertFrom := by
    unfold Reorganiser.prepare
    split_ifs <;> rfl
  exact { h with
    vertFrom := by rw [hvertFrom, h.vertFrom]
    triFrom := by rw [prepare_parts, h.triFrom] }

private theorem buffersAt_whole [Zero R] (hmesh : WellFormed reorganiser.mesh)
    (hnext : reorganiser.IsNext plan mapping) (idMapIdx : ℕ) (parts : List (Part U M R)) :
    reorganiser.buffersAt (parts ++ [reorganiser.whole idMapIdx mapping]) mapping.vertTo =
      reorganiser.buffersAt parts mapping.vertFrom := by
  have hle := hnext.vert_lt.le
  simp only [buffersAt, VertexBuffers.mk.injEq]
  refine ⟨gather_whole _ _ _ _ hle hnext.vert_le, ?_, ?_⟩
  · by_cases hnormals : reorganiser.mesh.normals = []
    · simp [hnormals]
    · have hlength := (hmesh.normals.resolve_left hnormals).symm ▸ hnext.vert_le
      rw [gather_whole _ _ _ _ hle hlength]
  · refine List.map_congr_left fun channel hchannel => ?_
    have hlength := (hmesh.channel channel hchannel).symm ▸ hnext.vert_le
    exact gather_whole _ _ _ _ hle hlength

private theorem indices_whole (hnext : reorganiser.IsNext plan mapping)
    (idMapIdx base k : ℕ) (hk : k ∣ 2 ^ 64) :
    ((reorganiser.facesOf mapping).map fun face => face.indices.map fun i =>
      (i + (base + 2 ^ 64) - mapping.vertFrom) % 2 ^ 64).map (List.map (· % k)) =
      ((reorganiser.whole idMapIdx mapping).indices base).map (List.map (· % k)) := by
  unfold Part.indices whole
  rw [List.map_map, List.map_map]
  refine List.map_congr_left fun face hface => ?_
  rw [Function.comp_apply, Function.comp_apply, List.map_map, List.map_map]
  refine List.map_congr_left fun i hi => ?_
  obtain ⟨hv, hlt⟩ := hnext.inRange face hface i hi
  have hidx : (List.range' mapping.vertFrom (numVertices mapping)).idxOf i = i - mapping.vertFrom := by
    apply idxOf_range' hv
    unfold numVertices
    omega
  rw [Function.comp_apply, Function.comp_apply, size_t_sub_mod hv hk, hidx]

variable {run : List RepoFace}

section Indices

variable [LinearOrder R] [Zero R]

/-! ### The indices of a face -/

/-- The box of some old vertices. -/
def vertBox (reorganiser : Reorganiser U M R) (verts : List ℕ) : Box R :=
  verts.foldl (fun bbox i => updateBoundingBoxes bbox (reorganiser.oldVertex i) (reorganiser.oldVertex i)) none

theorem boxOf_piece (idMapIdx : ℕ) (mapping : RepoMeshMapping U M R) (run : List RepoFace) :
    boxOf [reorganiser.piece idMapIdx mapping run] = vertBox reorganiser (table run) := by
  simp [boxOf, piece, vertBox, List.foldl_map]

/-- The vertices of the part that is being filled. -/
def withTable (reorganiser : Reorganiser U M R) (split : Split U M R) (before verts : List ℕ) : Split U M R :=
  { split with reIndexMap := verts, reMapped := before ++ verts, splitBbox := vertBox reorganiser verts }

private theorem addIndex_withTable [DecidableEq U] (split : Split U M R) (before verts newIdxs : List ℕ) (i : ℕ) :
    reorganiser.addIndex (withTable reorganiser split before verts, newIdxs) i =
      some (withTable reorganiser split before (intern verts i).1, newIdxs ++ [(intern verts i).2 % 2 ^ 32]) := by
  have hvertex : (if i ∈ (withTable reorganiser split before verts).reIndexMap then withTable reorganiser split before verts
      else reorganiser.addVertex (withTable reorganiser split before verts) i) =
        withTable reorganiser split before (intern verts i).1 := by
    unfold intern
    by_cases hi : i ∈ verts
    · rw [if_pos hi]
      exact if_pos hi
    · rw [if_neg hi, if_neg (show ¬ i ∈ (withTable reorganiser split before verts).reIndexMap from hi)]
      simp [addVertex, withTable, vertBox]
  have hlt : (intern verts i).2 % 2 ^ 32 ≤ (intern verts i).1.length := by
    rw [snd_intern]
    exact (Nat.mod_le _ _).trans List.idxOf_le_length
  simp only [addIndex, hvertex]
  rw [show (withTable reorganiser split before (intern verts i).1).reIndexMap = (intern verts i).1 from rfl, ← snd_intern]
  exact if_neg (not_lt.2 hlt)

private theorem foldlM_addIndex [DecidableEq U] (split : Split U M R) (before verts newIdxs is : List ℕ) :
    is.foldlM reorganiser.addIndex (withTable reorganiser split before verts, newIdxs) =
      some (withTable reorganiser split before (internAll verts is).1,
        newIdxs ++ (internAll verts is).2.map (· % 2 ^ 32)) := by
  induction is generalizing verts newIdxs with
  | nil => simp
  | cons i is ih =>
    rw [List.foldlM_cons, addIndex_withTable, Option.bind_eq_bind, Option.bind_some, ih, internAll_cons, List.map_cons,
      List.append_assoc, List.singleton_append]

theorem table_concat (run : List RepoFace) (face : RepoFace) :
    table (run ++ [face]) = (internAll (table run) face.indices).1 := by
  unfold table
  rw [List.flatMap_append, List.flatMap_singleton, internAll_append]

theorem mem_table {i : ℕ} : i ∈ table run ↔ ∃ face ∈ run, i ∈ face.indices := by
  simp [table, mem_internAll]

omit [LinearOrder R] in
private theorem indicesOf_piece_concat (idMapIdx : ℕ) (mapping : RepoMeshMapping U M R) (run : List RepoFace)
    (face : RepoFace) : indicesOf [reorganiser.piece idMapIdx mapping (run ++ [face])] =
      indicesOf [reorganiser.piece idMapIdx mapping run] ++
        [face.indices.map fun i => (table (run ++ [face])).idxOf i] := by
  have hgrown : table run <+: table (run ++ [face]) := table_concat run face ▸ prefix_internAll face.indices
  simp only [indicesOf_singleton, Part.indices, piece_verts, piece_faces, List.map_append, List.map_singleton, Nat.zero_add]
  congr 1
  refine List.map_congr_left fun face' hface => List.map_congr_left fun i hi => ?_
  exact idxOf_grown hgrown (mem_table.2 ⟨face', hface, hi⟩)

end Indices

section Steps

variable [LinearOrder R] [Inhabited U] [Inhabited M] [Zero R]

private theorem nextSubMesh_stateAt (plan : Plan U M R) (splitMap : U → Option (List ℕ)) :
    nextSubMesh (reorganiser.stateAt plan splitMap) = reorganiser.stateAt plan.next splitMap := by
  have hopen : ∀ v f, openSubMesh v f ([] : List (Part U M R)) = SubMesh.startSubMesh v f := fun _ _ => rfl
  unfold nextSubMesh stateAt
  cases hcurrent : plan.current with
  | none =>
    simp [Plan.next, Plan.groups, Plan.parts, Plan.openParts, hcurrent, hopen, boxOf]
  | some parts =>
    simp [Plan.next, Plan.groups, Plan.parts, Plan.openParts, hcurrent, hopen, boxOf, closeSubMesh,
      List.modifyLast_concat, layOut_concat, doneSubMesh]

omit [LinearOrder R] in
private theorem completeLastMatMapEntry_openSubMesh (v f : ℕ) (parts : List (Part U M R)) (part : Part U M R) :
    (((openSubMesh v f parts).newMatMapEntry part.source (v + vertCount parts) (f + faceCount parts)).updateIDMapArray
      part.verts.length part.idMapIdx).completeLastMatMapEntry (v + vertCount parts + part.verts.length)
        (f + faceCount parts + part.faces.length) none = openSubMesh v f (parts ++ [part]) := by
  simp [SubMesh.newMatMapEntry, SubMesh.updateIDMapArray, SubMesh.completeLastMatMapEntry, openSubMesh,
    List.modifyLast_concat, SubMesh.completeEntry, entries_concat, Part.entry, idsOf]

private theorem addSmallMesh_stateAt [DecidableEq U] (hmesh : WellFormed reorganiser.mesh)
    {parts : List (Part U M R)} (hcurrent : plan.current = some parts)
    (hnext : reorganiser.IsNext plan mapping) (splitMap : U → Option (List ℕ)) :
    reorganiser.addSmallMesh (newEntry (reorganiser.stateAt plan splitMap) mapping) mapping =
      reorganiser.stateAt
        { closed := plan.closed
          current := some (parts ++ [reorganiser.whole plan.idMapIdx mapping])
          idMapIdx := plan.idMapIdx + 1
          vertFrom := mapping.vertTo } (pushSplit splitMap mapping.meshId plan.closed.length) := by
  have hread : reorganiser.readFaces (faceCount plan.closed.flatten + faceCount parts) (numFaces mapping) =
      reorganiser.facesOf mapping := by
    have htri := hnext.triFrom
    rw [Plan.parts, Plan.openParts, hcurrent, Option.getD_some, faceCount_append] at htri
    rw [facesOf, htri]
  have hverts : (reorganiser.whole plan.idMapIdx mapping).verts.length = numVertices mapping := List.length_range'
  have hcount : (reorganiser.whole plan.idMapIdx mapping).faces.length = (reorganiser.facesOf mapping).length := rfl
  have hgroups : (plan.closed ++ [parts ++ [reorganiser.whole plan.idMapIdx mapping]]).flatMap indicesOf =
      (plan.closed ++ [parts]).flatMap indicesOf ++
        (reorganiser.whole plan.idMapIdx mapping).indices (vertCount parts) := by
    simp only [List.flatMap_append, List.flatMap_singleton, indicesOf_concat, List.append_assoc]
  unfold addSmallMesh
  simp only [newEntry, stateAt, hcurrent, Option.toList_some, List.map_singleton, List.modifyLast_concat, hread, foldl_addFace,
    State.mk.injEq, Plan.parts, Plan.openParts, Plan.groups, Option.getD_some, ← List.append_assoc, vertCount_append,
    faceCount_append, vertCount_singleton, faceCount_singleton, hverts, hcount, hgroups]
  refine ⟨?_, ?_, ?_, ?_, ?_, trivial, trivial, trivial, trivial, trivial, trivial, rfl, ?_⟩
  · rw [buffersAt_whole hmesh hnext, hnext.vertFrom]
  · rw [List.map_append]
    congr 1
    apply map_ofIndices_congr
    · intro newIdxs hmem
      obtain ⟨face, -, rfl⟩ := List.mem_map.1 hmem
      rw [List.length_map]
      exact face.sides_le
    · exact fun newIdxs hmem => length_le_of_mem_indices hmem
    · exact indices_whole hnext _ _ _ (Nat.pow_dvd_pow 2 (by omega))
  · rw [List.flatten_append, List.map_append]
    congr 1
    rw [List.map_flatten, List.map_flatten]
    congr 1
    exact indices_whole hnext _ _ _ (Nat.pow_dvd_pow 2 (by omega))
  · have hentry := completeLastMatMapEntry_openSubMesh (vertCount plan.closed.flatten) (faceCount plan.closed.flatten) parts
      (reorganiser.whole plan.idMapIdx mapping)
    rw [hverts, hcount] at hentry
    rw [← hentry]
    rfl
  · rw [List.length_append, length_layOut, List.length_singleton, Nat.add_sub_cancel]
  · rw [boxOf_concat]
    rfl

/-! ### A mesh that is split -/

/-- The state of the loop over the faces of a mesh that is split, when there is a run that is not done. -/
def splitAt [DecidableEq U] (reorganiser : Reorganiser U M R) (plan : Plan U M R) (mapping : RepoMeshMapping U M R)
    (splitMap : U → Option (List ℕ)) (done : List (List RepoFace)) (run : List RepoFace) : Split U M R :=
  let closed := reorganiser.withRuns plan mapping done
  let groups := closed ++ [[reorganiser.piece plan.idMapIdx mapping run]]
  let v := vertCount closed.flatten
  let f := faceCount closed.flatten
  { buffers := reorganiser.buffersAt plan.parts plan.vertFrom
    newFaces := (groups.flatMap indicesOf).map RepoFace.ofIndices
    serialisedFaces := (groups.flatMap indicesOf).flatten.map (· % 2 ^ 16)
    subMeshes := layOut closed ++ [(SubMesh.startSubMesh v f).newMatMapEntry mapping v f]
    splitMap := Function.update splitMap mapping.meshId (some (splitIndices plan.closed.length done))
    subMeshVertexCount := 0
    subMeshFaceCount := 0
    totalVertexCount := v
    totalFaceCount := f
    idMapIdx := plan.idMapIdx
    orgFaceIdx := f + run.length
    finishedSubMesh := false
    bbox := none
    reIndexMap := table run
    reMapped := (done ++ [run]).flatMap table
    splitMeshFaceCount := run.length
    splitBbox := boxOf [reorganiser.piece plan.idMapIdx mapping run]
    totalLargeMeshVertexCount := (done.map fun run => (table run).length).sum }

private theorem completePart_piece (v f idMapIdx : ℕ) (mapping : RepoMeshMapping U M R) (run : List RepoFace) :
    ((SubMesh.startSubMesh v f).newMatMapEntry mapping v f).completePart (boxOf [reorganiser.piece idMapIdx mapping run])
      (table run).length run.length idMapIdx = doneSubMesh v f [reorganiser.piece idMapIdx mapping run] := by
  have hentries := entries_concat v f [] (reorganiser.piece idMapIdx mapping run)
  rw [List.nil_append] at hentries
  simp only [SubMesh.completePart, finishSubMesh_snd, doneSubMesh, openSubMesh, hentries, vertCount_singleton,
    faceCount_singleton]
  simp [SubMesh.newMatMapEntry, SubMesh.startSubMesh, SubMesh.updateIDMapArray, SubMesh.completeEntry, Part.entry, idsOf,
    entries, placedParts, placed, piece]
  exact List.modifyLast_concat _ _ []

private theorem splitIndices_concat (n : ℕ) (runs : List (List RepoFace)) (run : List RepoFace) : splitIndices n (runs ++ [run]) =
    splitIndices n runs ++ if run.isEmpty then [] else [n + runs.length] := by
  unfold splitIndices
  rw [List.zipIdx_append, List.filter_append, List.map_append]
  cases run with
  | nil => simp
  | cons face run => simp

omit [LinearOrder R] [Inhabited U] [Inhabited M] [Zero R] in
private theorem pushSplit_update [DecidableEq U] (splitMap : U → Option (List ℕ)) (id : U) (subMeshes : List ℕ) (subMesh : ℕ) :
    pushSplit (Function.update splitMap id (some subMeshes)) id subMesh =
      Function.update splitMap id (some (subMeshes ++ [subMesh])) := by
  simp [pushSplit]

variable {fIdx : ℕ}

private theorem nextPart_splitAt [DecidableEq U] (plan : Plan U M R) (mapping : RepoMeshMapping U M R)
    (splitMap : U → Option (List ℕ)) (done : List (List RepoFace))
    (hfIdx : fIdx = 0 ↔ run = []) :
    nextPart (splitAt reorganiser plan mapping splitMap done run) mapping fIdx =
      splitAt reorganiser plan mapping splitMap (done ++ [run]) [] := by
  have hsplit : (if fIdx ≠ 0 then
        pushSplit (Function.update splitMap mapping.meshId (some (splitIndices plan.closed.length done))) mapping.meshId
          (plan.closed.length + done.length)
      else Function.update splitMap mapping.meshId (some (splitIndices plan.closed.length done))) =
      Function.update splitMap mapping.meshId (some (splitIndices plan.closed.length (done ++ [run]))) := by
    rw [splitIndices_concat, pushSplit_update]
    by_cases hrun : run = []
    · simp [hrun, hfIdx.2 hrun]
    · simp [hrun, mt hfIdx.1 hrun]
  unfold nextPart splitAt
  simp only [Split.splitMeshVertexCount, List.modifyLast_concat, completePart_piece, withRuns_concat, layOut_concat,
    List.flatten_append, List.flatten_singleton, vertCount_append, faceCount_append, vertCount_singleton,
    faceCount_singleton, piece_verts, piece_faces, List.length_append, length_layOut, length_withRuns,
    List.length_singleton, Nat.add_sub_cancel, hsplit]
  simp

private theorem pushIndices_splitAt [DecidableEq U] (plan : Plan U M R) (mapping : RepoMeshMapping U M R)
    (splitMap : U → Option (List ℕ)) (done : List (List RepoFace)) (run : List RepoFace) (face : RepoFace) :
    (face.indices.foldlM reorganiser.addIndex (splitAt reorganiser plan mapping splitMap done run, [])).map
      (fun r => r.1.countFace r.2) =
      some (splitAt reorganiser plan mapping splitMap done (run ++ [face])) := by
  have hstart : splitAt reorganiser plan mapping splitMap done run =
      withTable reorganiser (splitAt reorganiser plan mapping splitMap done run) (done.flatMap table) (table run) := by
    simp [withTable, splitAt, boxOf_piece]
  have hnewIdxs : (internAll (table run) face.indices).2 = face.indices.map fun i => (table (run ++ [face])).idxOf i := by
    rw [snd_internAll, table_concat]
  have hface : RepoFace.ofIndices ((face.indices.map fun i => (table (run ++ [face])).idxOf i).map (· % 2 ^ 32)) =
      RepoFace.ofIndices (face.indices.map fun i => (table (run ++ [face])).idxOf i) := by
    apply ofIndices_map_mod
    rw [List.length_map]
    exact face.sides_le
  have hserialised : ((face.indices.map fun i => (table (run ++ [face])).idxOf i).map (· % 2 ^ 32)).map (· % 2 ^ 16) =
      (face.indices.map fun i => (table (run ++ [face])).idxOf i).map (· % 2 ^ 16) := by
    rw [List.map_map]
    exact List.map_congr_left fun i _ => Nat.mod_mod_of_dvd i (Nat.pow_dvd_pow 2 (by omega))
  rw [hstart, foldlM_addIndex, Option.map_some]
  simp only [withTable, splitAt, Split.countFace, State.pushFace, boxOf_piece, hnewIdxs, List.nil_append, hface,
    hserialised, ← table_concat, List.flatMap_append, List.flatMap_singleton, indicesOf_piece_concat, List.flatten_append, List.flatten_singleton,
    List.map_append, List.map_singleton, List.append_assoc, List.length_append, List.length_singleton, Nat.add_assoc]

private theorem splitFace_splitAt [DecidableEq U] (plan : Plan U M R) (mapping : RepoMeshMapping U M R)
    (splitMap : U → Option (List ℕ)) (done : List (List RepoFace)) (face : RepoFace)
    (hfIdx : fIdx = 0 ↔ run = []) :
    reorganiser.splitFace mapping (splitAt reorganiser plan mapping splitMap done run) (face, fIdx) =
      some (if reorganiser.full run face then splitAt reorganiser plan mapping splitMap (done ++ [run]) [face]
        else splitAt reorganiser plan mapping splitMap done (run ++ [face])) := by
  have hfull : (if reorganiser.maxVertices <
        (splitAt reorganiser plan mapping splitMap done run).splitMeshVertexCount + face.sides ∨
        reorganiser.maxFaces ≤ (splitAt reorganiser plan mapping splitMap done run).splitMeshFaceCount then
      nextPart (splitAt reorganiser plan mapping splitMap done run) mapping fIdx
      else splitAt reorganiser plan mapping splitMap done run) =
        if reorganiser.full run face then splitAt reorganiser plan mapping splitMap (done ++ [run]) []
        else splitAt reorganiser plan mapping splitMap done run := by
    rw [nextPart_splitAt plan mapping splitMap done hfIdx, full]
    exact if_congr decide_eq_true_iff.symm rfl rfl
  unfold splitFace
  simp only [hfull]
  cases reorganiser.full run face with
  | true => exact pushIndices_splitAt plan mapping splitMap (done ++ [run]) [] face
  | false => exact pushIndices_splitAt plan mapping splitMap done run face

private theorem foldlM_splitFace [DecidableEq U] (plan : Plan U M R) (mapping : RepoMeshMapping U M R)
    (splitMap : U → Option (List ℕ)) (faces : List RepoFace) (done : List (List RepoFace)) (run : List RepoFace)
    (hfIdx : fIdx = 0 ↔ run = []) :
    ∃ done' run', done' ++ [run'] = done ++ greedyCut reorganiser.full run faces ∧ (run ++ faces ≠ [] → run' ≠ []) ∧
      (faces.zipIdx fIdx).foldlM (reorganiser.splitFace mapping) (splitAt reorganiser plan mapping splitMap done run) =
        some (splitAt reorganiser plan mapping splitMap done' run') := by
  induction faces generalizing done run fIdx with
  | nil => exact ⟨done, run, rfl, fun h => by rwa [List.append_nil] at h, rfl⟩
  | cons face faces ih =>
    have hnext : ∀ run' : List RepoFace, run' ≠ [] → (fIdx + 1 = 0 ↔ run' = []) := fun run' h =>
      ⟨fun h' => absurd h' (Nat.succ_ne_zero _), fun h' => absurd h' h⟩
    rw [List.zipIdx_cons, List.foldlM_cons, splitFace_splitAt plan mapping splitMap done face hfIdx]
    cases hfull : reorganiser.full run face with
    | true =>
      obtain ⟨done', run', heq, hne, hrun⟩ := ih (done ++ [run]) [face] (hnext [face] (List.cons_ne_nil _ _))
      refine ⟨done', run', ?_, fun _ => hne (List.cons_ne_nil _ _), hrun⟩
      rw [greedyCut_of_full hfull, heq, List.append_assoc, List.singleton_append]
    | false =>
      obtain ⟨done', run', heq, hne, hrun⟩ := ih done (run ++ [face]) (hnext (run ++ [face]) (by simp))
      refine ⟨done', run', ?_, fun _ => hne (by simp), hrun⟩
      rw [greedyCut_of_not_full hfull, heq]

/-! ### The end of a split -/

omit [LinearOrder R] [Inhabited U] [Inhabited M] in
private theorem vertsOf_withRuns (plan : Plan U M R) (mapping : RepoMeshMapping U M R) (runs : List (List RepoFace)) :
    vertsOf (reorganiser.withRuns plan mapping runs).flatten = vertsOf plan.closed.flatten ++ runs.flatMap table := by
  induction runs using List.reverseRecOn with
  | nil => simp [withRuns]
  | append_singleton runs run ih =>
    rw [withRuns_concat, List.flatten_append, List.flatten_singleton, vertsOf, List.flatMap_append]
    rw [vertsOf] at ih
    rw [ih]
    simp

omit [LinearOrder R] [Inhabited U] [Inhabited M] in
private theorem vertCount_withRuns (plan : Plan U M R) (mapping : RepoMeshMapping U M R) (runs : List (List RepoFace)) :
    vertCount (reorganiser.withRuns plan mapping runs).flatten =
      vertCount plan.closed.flatten + (runs.flatMap table).length := by
  rw [← length_vertsOf, vertsOf_withRuns, List.length_append, length_vertsOf]

omit [LinearOrder R] [Inhabited U] [Inhabited M] in
private theorem patchBuffers_buffersAt (plan : Plan U M R) (mapping : RepoMeshMapping U M R) (runs : List (List RepoFace))
    (hnext : reorganiser.IsNext plan mapping) (hcurrent : plan.openParts = []) :
    reorganiser.patchBuffers (reorganiser.buffersAt plan.parts plan.vertFrom) (numVertices mapping)
      (runs.flatMap table).length (vertCount plan.closed.flatten)
      (vertCount plan.closed.flatten + (runs.flatMap table).length) (runs.flatMap table) =
        reorganiser.buffersAt (reorganiser.withRuns plan mapping runs).flatten mapping.vertTo := by
  have hpatch : ∀ {α : Type} (old : List α) (extra : α), patchBuffer extra
      (gather old extra plan.parts ++ old.drop plan.vertFrom) (numVertices mapping) (runs.flatMap table).length
      (vertCount plan.closed.flatten) (vertCount plan.closed.flatten + (runs.flatMap table).length)
      ((runs.flatMap table).map fun i => old.getD i extra) =
        gather old extra (reorganiser.withRuns plan mapping runs).flatten ++ old.drop mapping.vertTo := by
    intro α old extra
    have hparts : plan.parts = plan.closed.flatten := by rw [Plan.parts, hcurrent, List.append_nil]
    have hbefore : (gather old extra plan.closed.flatten).length = vertCount plan.closed.flatten := by
      rw [gather, List.length_map, length_vertsOf]
    have happend := patchBuffer_append extra (gather old extra plan.closed.flatten) (old.drop plan.vertFrom)
      ((runs.flatMap table).map fun i => old.getD i extra) (numVertices mapping)
    have hdrop : plan.vertFrom + numVertices mapping = mapping.vertTo := by
      have hv := hnext.vertFrom
      have hlt := hnext.vert_lt
      unfold numVertices
      omega
    rw [hbefore, List.length_map, List.drop_drop, hdrop] at happend
    rw [hparts, happend, gather, gather, vertsOf_withRuns, List.map_append]
  simp only [patchBuffers, buffersAt, VertexBuffers.mk.injEq]
  refine ⟨hpatch _ _, ?_, ?_⟩
  · by_cases hnormals : reorganiser.mesh.normals.isEmpty
    · rw [if_pos hnormals, if_pos hnormals, if_pos hnormals]
    · rw [if_neg hnormals, if_neg hnormals, if_neg hnormals]
      exact hpatch _ _
  · rw [List.zipWith_map_left, List.zipWith_self]
    exact List.map_congr_left fun channel _ => hpatch _ _

private theorem finishSplit_splitAt [DecidableEq U]
    (hnext : reorganiser.IsNext plan mapping) (hopen : plan.openParts = []) (splitMap : U → Option (List ℕ))
    (done : List (List RepoFace)) (hrun : run ≠ []) :
    reorganiser.finishSplit (splitAt reorganiser plan mapping splitMap done run) mapping (vertCount plan.closed.flatten) =
      { reorganiser.stateAt
          { closed := reorganiser.withRuns plan mapping (done ++ [run])
            current := none
            idMapIdx := plan.idMapIdx
            vertFrom := mapping.vertTo }
          (Function.update splitMap mapping.meshId (some (splitIndices plan.closed.length (done ++ [run])))) with
        finishedSubMesh := false } := by
  have hcount : (done.map fun run => (table run).length).sum + (table run).length =
      ((done ++ [run]).flatMap table).length := by
    simp [List.length_flatMap]
  have hback : (splitAt reorganiser plan mapping splitMap done run).backVertFrom + (table run).length =
      vertCount plan.closed.flatten + ((done ++ [run]).flatMap table).length := by
    have hlast : (splitAt reorganiser plan mapping splitMap done run).backVertFrom =
        vertCount (reorganiser.withRuns plan mapping done).flatten := by
      simp [State.backVertFrom, splitAt, SubMesh.newMatMapEntry, SubMesh.startSubMesh]
    rw [hlast, vertCount_withRuns, List.flatMap_append, List.flatMap_singleton, List.length_append, Nat.add_assoc]
  have hsplit : splitIndices plan.closed.length (done ++ [run]) =
      splitIndices plan.closed.length done ++ [plan.closed.length + done.length] := by
    rw [splitIndices_concat]
    simp [hrun]
  have hbuffers : reorganiser.patchBuffers (splitAt reorganiser plan mapping splitMap done run).buffers (numVertices mapping)
      ((splitAt reorganiser plan mapping splitMap done run).totalLargeMeshVertexCount + (table run).length)
      (vertCount plan.closed.flatten)
      ((splitAt reorganiser plan mapping splitMap done run).backVertFrom + (table run).length)
      (splitAt reorganiser plan mapping splitMap done run).reMapped =
        reorganiser.buffersAt (reorganiser.withRuns plan mapping (done ++ [run])).flatten mapping.vertTo := by
    rw [← patchBuffers_buffersAt plan mapping (done ++ [run]) hnext hopen, hback, ← hcount]
    rfl
  have hcounted : (splitAt reorganiser plan mapping splitMap done run).splitMeshVertexCount = (table run).length := rfl
  unfold finishSplit
  simp only [hcounted, hbuffers]
  simp [splitAt, stateAt, List.modifyLast_concat, completePart_piece, withRuns_concat, layOut_concat, Plan.parts,
    Plan.openParts, Plan.groups, hsplit, pushSplit_update, length_layOut, length_withRuns]

private theorem makeRoom_stateAt (plan : Plan U M R) (mapping : RepoMeshMapping U M R) (splitMap : U → Option (List ℕ)) :
    reorganiser.makeRoom (reorganiser.stateAt plan splitMap) mapping =
      reorganiser.stateAt (reorganiser.prepare plan mapping) splitMap := by
  rw [makeRoom, nextSubMesh_stateAt, prepare, apply_ite (fun plan => reorganiser.stateAt plan splitMap)]
  rfl

private theorem splitLargeMesh_stateAt [DecidableEq U]
    (hnext : reorganiser.IsNext plan mapping) (hcurrent : plan.current = some []) (splitMap : U → Option (List ℕ)) :
    reorganiser.splitLargeMesh
      (newEntry (reorganiser.stateAt plan (Function.update splitMap mapping.meshId (some []))) mapping) mapping =
      some { reorganiser.stateAt
          { closed := reorganiser.withRuns plan mapping (reorganiser.runs mapping)
            current := none
            idMapIdx := plan.idMapIdx
            vertFrom := mapping.vertTo }
          (Function.update splitMap mapping.meshId
            (some (splitIndices plan.closed.length (reorganiser.runs mapping)))) with
        finishedSubMesh := false } := by
  have hopen : plan.openParts = [] := by rw [Plan.openParts, hcurrent, Option.getD_some]
  have hparts : plan.parts = plan.closed.flatten := by rw [Plan.parts, hopen, List.append_nil]
  have hgroups : plan.groups = plan.closed ++ [[]] := by rw [Plan.groups, hcurrent, Option.toList_some]
  have hopenSubMesh : ∀ v f, openSubMesh v f ([] : List (Part U M R)) = SubMesh.startSubMesh v f := fun _ _ => rfl
  have hstart : ({ newEntry (reorganiser.stateAt plan (Function.update splitMap mapping.meshId (some []))) mapping with
      reIndexMap := [], reMapped := [], splitMeshFaceCount := 0, splitBbox := none,
      totalLargeMeshVertexCount := 0 } : Split U M R) = splitAt reorganiser plan mapping splitMap [] [] := by
    simp [newEntry, stateAt, splitAt, withRuns, hcurrent, hopen, hparts, hgroups, hopenSubMesh, List.modifyLast_concat]
    rfl
  have hback : (newEntry (reorganiser.stateAt plan (Function.update splitMap mapping.meshId (some []))) mapping).backVertFrom =
      vertCount plan.closed.flatten := by
    simp [State.backVertFrom, newEntry, stateAt, hcurrent, List.modifyLast_concat, SubMesh.newMatMapEntry, openSubMesh]
  have hread : reorganiser.readFaces (faceCount plan.parts) (numFaces mapping) = reorganiser.facesOf mapping := by
    rw [facesOf, hnext.triFrom]
  obtain ⟨done, run, hruns, hne, hfold⟩ := foldlM_splitFace plan mapping splitMap (reorganiser.facesOf mapping) [] []
    (show 0 = 0 ↔ ([] : List RepoFace) = [] by simp)
  replace hruns : done ++ [run] = reorganiser.runs mapping := hruns
  have hrun : run ≠ [] := hne hnext.facesOf_ne_nil
  unfold splitLargeMesh
  rw [hstart, hback]
  simp only [newEntry, stateAt]
  rw [hread, hfold, Option.bind_eq_bind, Option.bind_some, finishSplit_splitAt hnext hopen splitMap done hrun, hruns]
  rfl

private theorem addMesh_stateAt [DecidableEq U] (hmesh : WellFormed reorganiser.mesh)
    (hnext : reorganiser.IsNext plan mapping) (splitMap : U → Option (List ℕ)) :
    reorganiser.addMesh (reorganiser.stateAt plan splitMap) mapping =
      some (reorganiser.stateAt (reorganiser.extend plan mapping)
        (Function.update splitMap mapping.meshId (some (reorganiser.splits plan mapping)))) := by
  obtain ⟨parts, hcurrent, hparts⟩ := reorganiser.prepare_current plan mapping
  have hidx : (reorganiser.prepare plan mapping).idMapIdx = plan.idMapIdx := by
    unfold prepare
    split_ifs <;> rfl
  have hroom : reorganiser.makeRoom { reorganiser.stateAt plan splitMap with
      splitMap := Function.update (reorganiser.stateAt plan splitMap).splitMap mapping.meshId (some []) } mapping =
        reorganiser.stateAt (reorganiser.prepare plan mapping) (Function.update splitMap mapping.meshId (some [])) :=
    makeRoom_stateAt plan mapping (Function.update splitMap mapping.meshId (some []))
  unfold addMesh
  simp only [hroom]
  by_cases hoversized : reorganiser.Oversized mapping
  · obtain rfl := hparts hoversized
    rw [if_pos hoversized, splitLargeMesh_stateAt hnext.prepare hcurrent splitMap, extend, if_pos hoversized, splits,
      if_pos hoversized, Option.map_some]
    simp only [stateAt, hidx]
    rfl
  · rw [if_neg hoversized, addSmallMesh_stateAt hmesh hcurrent hnext.prepare, pushSplit_update, List.nil_append, hidx,
      extend, if_neg hoversized, splits, if_neg hoversized, Plan.openParts, hcurrent, Option.getD_some]

end Steps

/-! ### The run -/

section Plan

variable {plan : Plan U M R} {mapping : RepoMeshMapping U M R}

theorem IsNext.length_facesOf (h : reorganiser.IsNext plan mapping) :
    (reorganiser.facesOf mapping).length = numFaces mapping := by
  have hlt := h.tri_lt
  have hle := h.tri_le
  rw [facesOf, readFaces, List.length_take, List.length_drop, numFaces]
  omega

theorem flatten_runs (mapping : RepoMeshMapping U M R) : (reorganiser.runs mapping).flatten = reorganiser.facesOf mapping :=
  flatten_greedyCut reorganiser.full [] (reorganiser.facesOf mapping)

theorem exists_of_mem_facesOf {face : RepoFace} (h : face ∈ reorganiser.facesOf mapping) :
    ∃ i, mapping.triFrom ≤ i ∧ i < mapping.triTo ∧ reorganiser.mesh.faces[i]? = some face := by
  obtain ⟨i, hi, rfl⟩ := List.mem_iff_getElem.1 h
  rw [facesOf, readFaces, List.length_take, List.length_drop, numFaces] at hi
  refine ⟨mapping.triFrom + i, Nat.le_add_right _ _, by omega, ?_⟩
  simp only [facesOf, readFaces, List.getElem_take, List.getElem_drop]
  rw [List.getElem?_eq_getElem]

private theorem isNext_of_wellFormed (hmesh : WellFormed reorganiser.mesh) (hmem : mapping ∈ reorganiser.mesh.meshMapping)
    (hvert : plan.vertFrom = mapping.vertFrom) (htri : faceCount plan.parts = mapping.triFrom) :
    reorganiser.IsNext plan mapping := by
  obtain ⟨-, hvlt, hvle⟩ := hmesh.vertRanges.mem_bounds (List.mem_map_of_mem hmem)
  obtain ⟨-, htlt, htle⟩ := hmesh.triRanges.mem_bounds (List.mem_map_of_mem hmem)
  refine ⟨hvert, htri, hvlt, hvle, htlt, htle, ?_⟩
  intro face hface
  obtain ⟨i, hfrom, hto, hi⟩ := exists_of_mem_facesOf hface
  exact hmesh.inRange mapping hmem i face hfrom hto hi

variable [Zero R]

private theorem faceCount_withRuns (plan : Plan U M R) (mapping : RepoMeshMapping U M R) (runs : List (List RepoFace)) :
    faceCount (reorganiser.withRuns plan mapping runs).flatten = faceCount plan.closed.flatten + runs.flatten.length := by
  induction runs using List.reverseRecOn with
  | nil => simp [withRuns]
  | append_singleton runs run ih =>
    rw [withRuns_concat, List.flatten_append, List.flatten_singleton, faceCount_append, ih]
    simp [Nat.add_assoc]

theorem IsNext.faceCount_extend (h : reorganiser.IsNext plan mapping) :
    faceCount (reorganiser.extend plan mapping).parts = mapping.triTo := by
  obtain ⟨parts, hcurrent, hparts⟩ := reorganiser.prepare_current plan mapping
  have hcount := h.prepare.triFrom
  have hnum := h.length_facesOf
  have hlt := h.tri_lt
  rw [Plan.parts, Plan.openParts, hcurrent, Option.getD_some, faceCount_append] at hcount
  rw [numFaces] at hnum
  by_cases hoversized : reorganiser.Oversized mapping
  · obtain rfl := hparts hoversized
    rw [extend, if_pos hoversized, Plan.parts, Plan.openParts, Option.getD_none, List.append_nil, faceCount_withRuns,
      flatten_runs]
    rw [faceCount_nil] at hcount
    omega
  · rw [extend, if_neg hoversized]
    simp only [Plan.parts, Plan.openParts, hcurrent, Option.getD_some, faceCount_append, faceCount_singleton, whole_faces]
    omega

private theorem vertFrom_extend (plan : Plan U M R) (mapping : RepoMeshMapping U M R) :
    (reorganiser.extend plan mapping).vertFrom = mapping.vertTo := by
  unfold extend
  split_ifs <;> rfl

theorem IsNext.vertCount_current (h : reorganiser.IsNext plan mapping) {parts : List (Part U M R)}
    (hcurrent : (reorganiser.extend plan mapping).current = some parts) : 0 < vertCount parts := by
  have hlt := h.vert_lt
  by_cases hoversized : reorganiser.Oversized mapping
  · rw [extend, if_pos hoversized] at hcurrent
    exact absurd hcurrent (Option.some_ne_none _).symm
  · rw [extend, if_neg hoversized, Option.some.injEq] at hcurrent
    rw [← hcurrent, vertCount_append, vertCount_singleton, length_verts_whole, numVertices]
    omega

/-- Each of the mappings is the next one when it comes. -/
def AllNext (reorganiser : Reorganiser U M R) : Plan U M R → List (RepoMeshMapping U M R) → Prop
  | _, [] => True
  | plan, mapping :: mappings =>
    reorganiser.IsNext plan mapping ∧ AllNext reorganiser (reorganiser.extend plan mapping) mappings

variable {mappings : List (RepoMeshMapping U M R)}

private theorem allNext_of_tiles (hmesh : WellFormed reorganiser.mesh)
    (hmem : ∀ mapping ∈ mappings, mapping ∈ reorganiser.mesh.meshMapping) {v f : ℕ}
    (hvert : Tiles plan.vertFrom (mappings.map RepoMeshMapping.vertRange) v)
    (htri : Tiles (faceCount plan.parts) (mappings.map RepoMeshMapping.triRange) f) :
    reorganiser.AllNext plan mappings := by
  induction mappings generalizing plan with
  | nil => trivial
  | cons mapping mappings ih =>
    obtain ⟨hvertFrom, -, hvert⟩ := hvert
    obtain ⟨htriFrom, -, htri⟩ := htri
    have hnext := isNext_of_wellFormed hmesh (hmem mapping List.mem_cons_self) hvertFrom.symm htriFrom.symm
    refine ⟨hnext, ih (fun m hm => hmem m (List.mem_cons_of_mem _ hm)) ?_ ?_⟩
    · rwa [vertFrom_extend]
    · rwa [hnext.faceCount_extend]

theorem allNext_of_wellFormed (hmesh : WellFormed reorganiser.mesh) :
    reorganiser.AllNext Plan.empty reorganiser.mesh.meshMapping :=
  allNext_of_tiles hmesh (fun _ h => h) hmesh.vertRanges hmesh.triRanges

/-- What holds of the empty plan and is kept by each next mapping holds of the whole plan. -/
theorem AllNext.induction {P : Plan U M R → Prop}
    (hall : reorganiser.AllNext plan mappings) (h : P plan)
    (hstep : ∀ plan mapping, mapping ∈ mappings → reorganiser.IsNext plan mapping → P plan →
      P (reorganiser.extend plan mapping)) : P (mappings.foldl reorganiser.extend plan) := by
  induction mappings generalizing plan with
  | nil => exact h
  | cons mapping mappings ih =>
    obtain ⟨hnext, hall⟩ := hall
    exact ih hall (hstep plan mapping List.mem_cons_self hnext h) fun plan m hm =>
      hstep plan m (List.mem_cons_of_mem _ hm)

private theorem vertFrom_foldl_extend {v : ℕ}
    (h : Tiles plan.vertFrom (mappings.map RepoMeshMapping.vertRange) v) :
    (mappings.foldl reorganiser.extend plan).vertFrom = v := by
  induction mappings generalizing plan with
  | nil => exact h
  | cons mapping mappings ih =>
    obtain ⟨-, -, h⟩ := h
    apply ih
    rwa [vertFrom_extend]

private theorem vertFrom_plan (hmesh : WellFormed reorganiser.mesh) : reorganiser.plan.vertFrom = reorganiser.mesh.vertices.length :=
  vertFrom_foldl_extend hmesh.vertRanges

variable [LinearOrder R] [DecidableEq U] [Inhabited U] [Inhabited M]

private theorem foldlM_addMesh (hmesh : WellFormed reorganiser.mesh)
    (hall : reorganiser.AllNext plan mappings) (splitMap : U → Option (List ℕ)) :
    mappings.foldlM reorganiser.addMesh (reorganiser.stateAt plan splitMap) =
      some (reorganiser.stateAt (mappings.foldl reorganiser.extend plan)
        (reorganiser.splitMapFrom plan mappings splitMap)) := by
  induction mappings generalizing plan splitMap with
  | nil => rfl
  | cons mapping mappings ih =>
    obtain ⟨hnext, hall⟩ := hall
    rw [List.foldlM_cons, addMesh_stateAt hmesh hnext splitMap, Option.bind_eq_bind, Option.bind_some, ih hall,
      List.foldl_cons, splitMapFrom]

omit [DecidableEq U] in
private theorem initial_eq_stateAt : reorganiser.initial = reorganiser.stateAt Plan.empty fun _ => none := by
  have hbuffers : reorganiser.mesh.buffers = reorganiser.buffersAt ([] : List (Part U M R)) 0 := by
    simp [SupermeshNode.buffers, buffersAt, gather, vertsOf]
  unfold initial
  rw [hbuffers]
  rfl

omit [DecidableEq U] in
private theorem renders_close (splitMap : U → Option (List ℕ))
    (hvert : plan.vertFrom = reorganiser.mesh.vertices.length)
    (hcurrent : ∀ parts, plan.current = some parts → 0 < vertCount parts) :
    reorganiser.Renders plan.groups splitMap
      (if (reorganiser.stateAt plan splitMap).subMeshVertexCount ≠ 0 then closeSubMesh (reorganiser.stateAt plan splitMap)
        else reorganiser.stateAt plan splitMap) := by
  have hbuffers : reorganiser.buffersAt plan.parts plan.vertFrom =
      reorganiser.buffersAt plan.groups.flatten reorganiser.mesh.vertices.length := by
    rw [plan.flatten_groups, hvert]
  cases hopen : plan.current with
  | none =>
    have hcount : (reorganiser.stateAt plan splitMap).subMeshVertexCount = 0 := by simp [stateAt, Plan.openParts, hopen]
    rw [hcount, if_neg (not_not.2 rfl)]
    exact ⟨hbuffers, rfl, rfl, by simp [stateAt, Plan.groups, hopen], rfl⟩
  | some parts =>
    have hcount : (reorganiser.stateAt plan splitMap).subMeshVertexCount ≠ 0 := by
      have hpos := hcurrent parts hopen
      simp [stateAt, Plan.openParts, hopen]
      omega
    rw [if_pos hcount]
    refine ⟨hbuffers, rfl, rfl, ?_, rfl⟩
    simp [closeSubMesh, stateAt, Plan.groups, Plan.openParts, hopen, List.modifyLast_concat, layOut_concat, doneSubMesh]

/-- The members of the reorganiser are what its plan says. -/
theorem performSplitting_renders (hmesh : WellFormed reorganiser.mesh) : ∃ s, reorganiser.performSplitting = some s ∧
    reorganiser.Renders reorganiser.plan.groups
      (reorganiser.splitMapFrom Plan.empty reorganiser.mesh.meshMapping fun _ => none) s := by
  have hall := allNext_of_wellFormed hmesh
  have hcurrent : ∀ parts, reorganiser.plan.current = some parts → 0 < vertCount parts :=
    hall.induction (P := fun plan => ∀ parts, plan.current = some parts → 0 < vertCount parts)
      (fun parts h => absurd h (Option.some_ne_none parts).symm)
      fun plan mapping _ hnext _ parts h => hnext.vertCount_current h
  refine ⟨_, ?_, renders_close _ (vertFrom_plan hmesh) hcurrent⟩
  rw [performSplitting, initial_eq_stateAt, foldlM_addMesh hmesh hall]
  rfl

end Plan

end Reorganiser

end Run

end Bouncer.MeshMapReorganiser
