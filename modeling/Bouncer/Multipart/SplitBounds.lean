import Bouncer.Multipart.SubMeshGroups

/-!
# The bounds of the parts of a split mesh

`finishSubMesh` clears the box that `completeLastMatMapEntry` is called with afterwards.  So the mapping of a part of a
split mesh gets the bounding box of its vertices, while its entry of the material map keeps the one that the whole mesh
came with.  Both are exact if and only if each run of faces has the bounding box of the mesh, as long as their vertices
can be counted (`boundsTight_iff`).
-/

namespace Bouncer.MeshMapReorganiser

open Library
open MultipartOptimizer (SupermeshNode)

variable {U M R : Type} [LinearOrder R]

/-! ### Bounding boxes -/

/-- The two corners are the least and the greatest coordinates of the points. -/
structure IsBoundingBox (points : Set (RepoVector3D R)) (min max : RepoVector3D R) : Prop where
  x : IsLeast (RepoVector3D.x '' points) min.x ∧ IsGreatest (RepoVector3D.x '' points) max.x
  y : IsLeast (RepoVector3D.y '' points) min.y ∧ IsGreatest (RepoVector3D.y '' points) max.y
  z : IsLeast (RepoVector3D.z '' points) min.z ∧ IsGreatest (RepoVector3D.z '' points) max.z

theorem isBoundingBox_singleton (p : RepoVector3D R) : IsBoundingBox {p} p p := by
  refine ⟨?_, ?_, ?_⟩ <;> rw [Set.image_singleton] <;> exact ⟨isLeast_singleton, isGreatest_singleton⟩

theorem IsBoundingBox.insert {points : Set (RepoVector3D R)} {min max : RepoVector3D R} (h : IsBoundingBox points min max)
    (p : RepoVector3D R) : IsBoundingBox (insert p points) (min.min p) (max.max p) := by
  have hcoordinate : ∀ (f : RepoVector3D R → R) {a b : R}, IsLeast (f '' points) a ∧ IsGreatest (f '' points) b →
      IsLeast (f '' Set.insert p points) (Min.min a (f p)) ∧ IsGreatest (f '' Set.insert p points) (Max.max b (f p)) := by
    intro f a b hf
    have himage : f '' Set.insert p points = Set.insert (f p) (f '' points) := Set.image_insert_eq
    rw [himage, min_comm, max_comm]
    exact ⟨hf.1.insert (f p), hf.2.insert (f p)⟩
  exact ⟨hcoordinate RepoVector3D.x h.x, hcoordinate RepoVector3D.y h.y, hcoordinate RepoVector3D.z h.z⟩

private theorem isBoundingBox_foldl {α : Type} (f : α → RepoVector3D R) (is : List α) {points : Set (RepoVector3D R)}
    {min max : RepoVector3D R} (h : IsBoundingBox points min max) :
    ∃ min' max', is.foldl (fun bbox i => updateBoundingBoxes bbox (f i) (f i)) (some (min, max)) = some (min', max') ∧
      IsBoundingBox (points ∪ {p | ∃ i ∈ is, f i = p}) min' max' := by
  induction is generalizing points min max with
  | nil => exact ⟨min, max, rfl, by simpa using h⟩
  | cons i is ih =>
    obtain ⟨min', max', hfold, hbox⟩ := ih (h.insert (f i))
    refine ⟨min', max', hfold, ?_⟩
    have hpoints : points ∪ {p | ∃ j ∈ i :: is, f j = p} = insert (f i) points ∪ {p | ∃ j ∈ is, f j = p} := by
      ext p
      simp [eq_comm, or_left_comm, or_assoc]
    rwa [hpoints]

/-! ### The bounds of the parts -/

namespace Reorganiser

variable {reorganiser : Reorganiser U M R}

/-- The vertices in the range of a mapping. -/
def ownVertices (s : State U M R) (mapping : RepoMeshMapping U M R) : Set (RepoVector3D R) :=
  {p | p ∈ (s.buffers.vertices.drop mapping.vertFrom).take (mapping.vertTo - mapping.vertFrom)}

/-- The mapping has the exact bounding box of its vertices, if it has any. -/
def Tight (s : State U M R) (mapping : RepoMeshMapping U M R) : Prop :=
  (ownVertices s mapping).Nonempty → IsBoundingBox (ownVertices s mapping) mapping.min mapping.max

/-- The new mapping and the entry of the material map are tight wherever a mesh that is split has an entry. -/
def BoundsTight (reorganiser : Reorganiser U M R) (s : State U M R) : Prop :=
  ∀ mapping ∈ reorganiser.mesh.meshMapping, reorganiser.Oversized mapping → ∀ subMesh ∈ s.subMeshes,
    ∀ entry ∈ subMesh.matMap, entry.meshId = mapping.meshId → Tight s subMesh.mapping ∧ Tight s entry

variable [Zero R]

/-- The vertices of some faces. -/
def corners (reorganiser : Reorganiser U M R) (faces : List RepoFace) : Set (RepoVector3D R) :=
  {p | ∃ face ∈ faces, ∃ i ∈ face.indices, reorganiser.oldVertex i = p}

omit [LinearOrder R] in
private theorem corners_eq (run : List RepoFace) :
    corners reorganiser run = {p | ∃ i ∈ table run, reorganiser.oldVertex i = p} := by
  ext p
  constructor
  · intro h
    obtain ⟨face, hface, i, hi, rfl⟩ := h
    exact ⟨i, mem_table.2 ⟨face, hface, hi⟩, rfl⟩
  · intro h
    obtain ⟨i, hi, rfl⟩ := h
    obtain ⟨face, hface, hi⟩ := mem_table.1 hi
    exact ⟨face, hface, i, hi, rfl⟩

private theorem exists_vertBox {run : List RepoFace} (h : (corners reorganiser run).Nonempty) : ∃ min max,
    vertBox reorganiser (table run) = some (min, max) ∧ IsBoundingBox (corners reorganiser run) min max := by
  rw [corners_eq] at h ⊢
  cases htable : table run with
  | nil =>
    rw [htable] at h
    obtain ⟨p, i, hi, -⟩ := h
    exact absurd hi List.not_mem_nil
  | cons i is =>
    obtain ⟨min, max, hfold, hbox⟩ :=
      isBoundingBox_foldl reorganiser.oldVertex is (isBoundingBox_singleton (reorganiser.oldVertex i))
    refine ⟨min, max, hfold, ?_⟩
    have hpoints : {p | ∃ j ∈ i :: is, reorganiser.oldVertex j = p} =
        {reorganiser.oldVertex i} ∪ {p | ∃ j ∈ is, reorganiser.oldVertex j = p} := by
      ext p
      simp [eq_comm]
    rwa [hpoints]

variable [Inhabited U] [Inhabited M]

private theorem ownVertices_piece {groups : List (List (Part U M R))} {splitMap : U → Option (List ℕ)} {s : State U M R}
    (hs : reorganiser.Renders groups splitMap s) {v f idMapIdx : ℕ} {mapping : RepoMeshMapping U M R}
    {run : List RepoFace} (hp : (v, f, [reorganiser.piece idMapIdx mapping run]) ∈ placed vertCount faceCount 0 0 groups)
    {own : RepoMeshMapping U M R} (hfrom : own.vertFrom = v) (hto : own.vertTo = v + (table run).length) :
    ownVertices s own = corners reorganiser run := by
  have hrange := take_drop_gather reorganiser.mesh.vertices ⟨0, 0, 0⟩
    (reorganiser.mesh.vertices.drop reorganiser.mesh.vertices.length) hp
  rw [vertCount_singleton, piece_verts] at hrange
  rw [ownVertices, hs.buffers, buffersAt, hfrom, hto, Nat.add_sub_cancel_left, hrange, corners_eq]
  ext p
  simp [gather, vertsOf, oldVertex]

private theorem tight_mapping_piece {groups : List (List (Part U M R))} {splitMap : U → Option (List ℕ)} {s : State U M R}
    (hs : reorganiser.Renders groups splitMap s) {v f idMapIdx : ℕ} {mapping : RepoMeshMapping U M R}
    {run : List RepoFace} (hp : (v, f, [reorganiser.piece idMapIdx mapping run]) ∈ placed vertCount faceCount 0 0 groups) :
    Tight s (doneSubMesh v f [reorganiser.piece idMapIdx mapping run]).mapping := by
  have hrange := doneSubMesh_vertRange v f [reorganiser.piece idMapIdx mapping run]
  rw [vertCount_singleton, piece_verts] at hrange
  have hown := ownVertices_piece hs hp (congrArg Prod.fst hrange) (congrArg Prod.snd hrange)
  intro hne
  rw [hown] at hne ⊢
  obtain ⟨min, max, hbox, hexact⟩ := exists_vertBox hne
  have hmin : (doneSubMesh v f [reorganiser.piece idMapIdx mapping run]).mapping.min = min := by
    rw [doneSubMesh, boxOf_piece, hbox]
    rfl
  have hmax : (doneSubMesh v f [reorganiser.piece idMapIdx mapping run]).mapping.max = max := by
    rw [doneSubMesh, boxOf_piece, hbox]
    rfl
  rwa [hmin, hmax]

private theorem tight_entry_piece_iff {groups : List (List (Part U M R))} {splitMap : U → Option (List ℕ)} {s : State U M R}
    (hs : reorganiser.Renders groups splitMap s) {v f idMapIdx : ℕ} {mapping : RepoMeshMapping U M R}
    {run : List RepoFace} (hp : (v, f, [reorganiser.piece idMapIdx mapping run]) ∈ placed vertCount faceCount 0 0 groups) :
    Tight s ((reorganiser.piece idMapIdx mapping run).entry v f) ↔
      ((corners reorganiser run).Nonempty → IsBoundingBox (corners reorganiser run) mapping.min mapping.max) := by
  rw [Tight, ownVertices_piece hs hp rfl rfl]
  rfl

theorem remap_eq_performSplitting [DecidableEq U] {mapping : RepoMeshMapping U M R}
    (hmem : mapping ∈ reorganiser.mesh.meshMapping) : reorganiser.remap = reorganiser.performSplitting := by
  rw [remap, if_neg]
  rw [List.isEmpty_iff]
  exact List.ne_nil_of_mem hmem

private theorem BoundsTight.isBoundingBox (hmesh : WellFormed reorganiser.mesh) {splitMap : U → Option (List ℕ)} {s : State U M R}
    (hs : reorganiser.Renders reorganiser.plan.groups splitMap s) (h : BoundsTight reorganiser s)
    {mapping : RepoMeshMapping U M R} (hmem : mapping ∈ reorganiser.mesh.meshMapping)
    (hoversized : reorganiser.Oversized mapping) {run : List RepoFace} (hrun : run ∈ reorganiser.runs mapping)
    (hne : (corners reorganiser run).Nonempty) : IsBoundingBox (corners reorganiser run) mapping.min mapping.max := by
  obtain ⟨v, f, k, hp⟩ := exists_placed_piece hmesh hmem hoversized hrun
  have hsubMesh : doneSubMesh v f [reorganiser.piece k mapping run] ∈ s.subMeshes := by
    rw [hs.subMeshes]
    exact mem_layOut.2 ⟨_, hp, rfl⟩
  have hentry : (reorganiser.piece k mapping run).entry v f ∈
      (doneSubMesh v f [reorganiser.piece k mapping run]).matMap := List.mem_singleton_self _
  have htight := (h mapping hmem hoversized _ hsubMesh _ hentry rfl).2
  exact (tight_entry_piece_iff hs hp).1 htight hne

/-- The ranges are stored as they are, and the bounds of all parts exact, if and only if the new vertices can be counted and
each run has the bounding box of its mesh. -/
theorem boundsTight_iff [DecidableEq U] (hmesh : WellFormed reorganiser.mesh)
    (hids : (reorganiser.mesh.meshMapping.map RepoMeshMapping.meshId).Nodup)
    (hsplit : ∃ mapping ∈ reorganiser.mesh.meshMapping, reorganiser.Oversized mapping) :
    (∃ s, reorganiser.remap = some s ∧ s.Fits ∧ BoundsTight reorganiser s) ↔ reorganiser.newVertexCount < 2 ^ 31 ∧
      ∀ mapping ∈ reorganiser.mesh.meshMapping, reorganiser.Oversized mapping → ∀ run ∈ reorganiser.runs mapping,
        (corners reorganiser run).Nonempty → IsBoundingBox (corners reorganiser run) mapping.min mapping.max := by
  obtain ⟨first, hfirst, -⟩ := hsplit
  obtain ⟨s, hs, hrenders⟩ := performSplitting_renders hmesh
  rw [remap_eq_performSplitting hfirst, hs]
  constructor
  · rintro ⟨s', hs', hfits, htight⟩
    obtain rfl := Option.some.inj hs'
    refine ⟨(hrenders.fits_iff hmesh).1 hfits, ?_⟩
    intro mapping hmem hoversized run hrun hne
    exact htight.isBoundingBox hmesh hrenders hmem hoversized hrun hne
  · rintro ⟨hcount, h⟩
    refine ⟨s, rfl, (hrenders.fits_iff hmesh).2 hcount, ?_⟩
    intro mapping hmem hoversized subMesh hsubMesh entry hentry hid
    rw [hrenders.subMeshes] at hsubMesh
    obtain ⟨⟨v, f, group⟩, hp, rfl⟩ := mem_layOut.1 hsubMesh
    have hgroup : group ∈ reorganiser.plan.groups := by
      obtain ⟨before, after, hgroups, -, -⟩ := mem_placed hp
      rw [hgroups]
      simp
    have hsame : ∀ mapping' ∈ reorganiser.mesh.meshMapping, mapping'.meshId = mapping.meshId → mapping' = mapping :=
      fun mapping' hmem' heq => List.inj_on_of_nodup_map hids hmem' hmem heq
    obtain ⟨part, hpart, v', f', rfl⟩ := exists_of_mem_entries hentry
    rcases isGroup_of_mem hmesh group hgroup with hsmall | ⟨mapping', hmem', run, hrun, k, -, rfl⟩
    · -- a mesh within the limits has another identifier
      obtain ⟨mapping', hmem', k, hsmall, rfl⟩ := hsmall.whole part hpart
      rw [hsame mapping' hmem' hid] at hsmall
      exact absurd hoversized hsmall
    · obtain rfl := List.mem_singleton.1 hpart
      obtain rfl := hsame mapping' hmem' hid
      rw [List.mem_singleton.1 hentry]
      exact ⟨tight_mapping_piece hrenders hp, (tight_entry_piece_iff hrenders hp).2 (h mapping' hmem hoversized run hrun)⟩

/-! ### Two triangles, each a part -/

/-- A mesh of two triangles that have no vertex in common. -/
def apartMapping : RepoMeshMapping ℕ ℕ ℤ :=
  { min := ⟨0, 0, 0⟩, max := ⟨5, 5, 4⟩, meshId := 1, sharedId := 2, materialId := 3, material := 0, textureId := 0,
    vertFrom := 0, vertTo := 6, triFrom := 0, triTo := 2 }

/-- A limit of three vertices splits the mesh. -/
def apartReorganiser : Reorganiser ℕ ℕ ℤ :=
  { mesh :=
      { vertices := [⟨0, 0, 0⟩, ⟨1, 0, 0⟩, ⟨0, 1, 0⟩, ⟨4, 4, 4⟩, ⟨5, 4, 4⟩, ⟨4, 5, 4⟩]
        normals := []
        faces := [.triangle 0 1 2, .triangle 3 4 5]
        boundingBox := ⟨⟨0, 0, 0⟩, ⟨5, 5, 4⟩⟩
        channels := []
        meshMapping := [apartMapping]
        grouping := "" }
    maxVertices := 3
    maxFaces := 2 }

theorem wellFormed_apart : WellFormed apartReorganiser.mesh where
  vertRanges := ⟨rfl, by decide, rfl⟩
  triRanges := ⟨rfl, by decide, rfl⟩
  inRange := by
    intro mapping hmem i face _ _ hface
    obtain rfl := List.mem_singleton.1 hmem
    have hall : ∀ face ∈ apartReorganiser.mesh.faces, ∀ indexValue ∈ face.indices, 0 ≤ indexValue ∧ indexValue < 6 := by decide
    exact hall face (List.mem_of_getElem? hface)
  normals := Or.inl rfl
  channel := fun _ h => absurd h List.not_mem_nil
  fits := by
    intro mapping hmem
    obtain rfl := List.mem_singleton.1 hmem
    exact RepoMeshMapping.fits_of_lt (by decide) (by decide) (by decide) (by decide)

theorem boundsTight_iff_apart : (∃ s, apartReorganiser.remap = some s ∧ s.Fits ∧ BoundsTight apartReorganiser s) ↔
    apartReorganiser.newVertexCount < 2 ^ 31 ∧ ∀ mapping ∈ apartReorganiser.mesh.meshMapping, apartReorganiser.Oversized mapping →
      ∀ run ∈ apartReorganiser.runs mapping, (corners apartReorganiser run).Nonempty →
        IsBoundingBox (corners apartReorganiser run) mapping.min mapping.max :=
  boundsTight_iff wellFormed_apart (by decide) ⟨apartMapping, List.mem_singleton_self _, by decide⟩

/-- The entry of the second triangle starts at the origin, as the mesh does. -/
theorem not_boundsTight_apart : WellFormed apartReorganiser.mesh ∧
    (apartReorganiser.mesh.meshMapping.map RepoMeshMapping.meshId).Nodup ∧ apartReorganiser.Oversized apartMapping ∧
      ¬ ∃ s, apartReorganiser.remap = some s ∧ BoundsTight apartReorganiser s := by
  refine ⟨wellFormed_apart, by decide, by decide, ?_⟩
  intro h
  obtain ⟨s, hs, htight⟩ := h
  obtain ⟨s', hs', hrenders⟩ := performSplitting_renders wellFormed_apart
  obtain rfl : s' = s := Option.some.inj (hs'.symm.trans hs)
  have hbox := htight.isBoundingBox wellFormed_apart hrenders (List.mem_singleton_self _) (by decide)
    (show [RepoFace.triangle 3 4 5] ∈ apartReorganiser.runs apartMapping by decide)
    ⟨_, _, List.mem_singleton_self _, 3, by decide, rfl⟩
  obtain ⟨⟨p, hp, hx⟩, -⟩ := hbox.x.1
  obtain ⟨face, hface, i, hi, rfl⟩ := hp
  rw [List.mem_singleton.1 hface] at hi
  have hnot : ∀ i ∈ (RepoFace.triangle 3 4 5).indices, (apartReorganiser.oldVertex i).x ≠ 0 := by decide
  exact hnot i hi hx

end Reorganiser

end Bouncer.MeshMapReorganiser
