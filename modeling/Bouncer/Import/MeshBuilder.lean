import Bouncer.Core.MeshGeometry
import Bouncer.Library.KeyedFold
import Bouncer.Multipart.Supermesh

/-!
# Building meshes from faces

`RepoMeshBuilder` collects faces: lines, and triangles with or without UVs.  It has a mesh for each format, and the format
is a number into which the size of the face, and whether it has normals and UVs, are packed.

But a conditional operator binds less tightly than a shift, so that the last two end up in a bit that is always set
(`getFormat_eq`), and triangles with and without UVs go into one mesh.  What is extracted is right exactly if there are
not both of these (`keepsApart_iff`).
-/

namespace Bouncer

/-- `RepoMeshBuilder::face`: its first `numVertices` vertices and `numUvs` UVs. -/
structure RepoMeshBuilder.Face (R : Type) where
  vertices : List (RepoVector3D R)
  norm : RepoVector3D R
  uvs : List (RepoVector2D R)
  vertices_le : vertices.length ≤ 3

structure VertexMap (R : Type) where
  vertices : List (RepoVector3D R)
  normals : List (RepoVector3D R)
  uvs : List (RepoVector2D R)

/-- `insert`, with a normal or without, and with a UV or without. -/
def VertexMap.insert {R : Type} (map : VertexMap R) (position : RepoVector3D R) (normal : Option (RepoVector3D R))
    (uv : Option (RepoVector2D R)) : VertexMap R × ℕ :=
  (⟨map.vertices ++ [position], map.normals ++ normal.toList, map.uvs ++ uv.toList⟩, map.vertices.length)

namespace RepoMeshBuilder

open Library (valuesAt upsert collect)

variable {R : Type}

def getMeshFormat (hasUvs hasNormals : Bool) (faceSize : ℕ) : BitVec 32 :=
  let vBit : BitVec 32 := 1
  let fBit : BitVec 32 := BitVec.ofNat 32 faceSize <<< 8
  let nBit : BitVec 32 := if hasNormals then 1 else (0 : BitVec 32) <<< 16
  let uBit : BitVec 32 := if hasUvs then 1 else (0 : BitVec 32) <<< 17
  vBit ||| fBit ||| nBit ||| uBit

namespace Face

variable (bf : Face R)

def hasNormals : Bool := decide (bf.vertices.length = 3)

def hasUvs : Bool := decide (bf.uvs.length > 0)

def getSize : ℕ := bf.vertices.length

def getFormat : BitVec 32 := getMeshFormat bf.hasUvs bf.hasNormals bf.getSize

/-- Two vertices without UVs, or three with no UVs or three. -/
def Valid : Prop := (bf.getSize = 2 ∧ bf.uvs = []) ∨ (bf.getSize = 3 ∧ (bf.uvs = [] ∨ bf.uvs.length = 3))

end Face

/-- What is thrown, or undefined. -/
inductive Failure where
  | geometryProcessing
  | transform (failure : MultipartOptimizer.Failure)
  | overflow

/-- `mesh_data_t`, without its bounds.  Its format is its key. -/
structure MeshData (R : Type) where
  faces : List RepoFace
  vertexMap : VertexMap R

def MeshData.empty : MeshData R := ⟨[], ⟨[], [], []⟩⟩

section Add

variable [ExactReal R] (offset : RepoVector3D R)

/-- Insert the vertices with these numbers. -/
def insertVertices (bf : Face R) : VertexMap R → List ℕ → VertexMap R × List ℕ
  | map, [] => (map, [])
  | map, i :: is =>
    let v := bf.vertices.getD i 0 + offset
    let inserted := map.insert v (if bf.hasNormals then some bf.norm else none)
      (if bf.hasUvs then some (bf.uvs.getD i ⟨0, 0⟩) else none)
    let rest := insertVertices bf inserted.1 is
    (rest.1, inserted.2 :: rest.2)

private theorem length_insertVertices (bf : Face R) (map : VertexMap R) (is : List ℕ) :
    (insertVertices offset bf map is).2.length = is.length := by
  induction is generalizing map with
  | nil => rfl
  | cons i is ih => exact congrArg Nat.succ (ih _)

def MeshData.addFace (meshData : MeshData R) (bf : Face R) : MeshData R :=
  let inserted := insertVertices offset bf meshData.vertexMap (List.range bf.getSize)
  { faces := meshData.faces ++ [⟨inserted.2, by
      rw [length_insertVertices, List.length_range]
      exact bf.vertices_le⟩]
    vertexMap := inserted.1 }

/-- The meshes, by their formats. -/
abbrev Meshes (R : Type) := AList fun _ : BitVec 32 => MeshData R

/-- `addFace`, with `startOrContinueMeshByFormat`. -/
def addFace (meshes : Meshes R) (bf : Face R) : Except Failure (Meshes R) :=
  if bf.getSize = 0 then .error .geometryProcessing
  else if bf.hasUvs ∧ ¬ bf.hasNormals then .error .geometryProcessing
  else .ok (upsert MeshData.empty (MeshData.addFace offset) meshes (bf.getFormat, bf))

end Add

section Extract

variable [ExactReal R]

/-- What is not exact: the casts to `float`, and the matrix that `transformNormals` makes of the inverse, which nearly
singular matrices may not have as it ought to be. -/
structure Rounding (R : Type) where
  toFloat : R → R
  worldMat : RepoMatrix R → RepoMatrix R

/-- The casts of the components to `float`. -/
def narrow (rounding : Rounding R) (v : RepoVector3D R) : RepoVector3D R :=
  ⟨rounding.toFloat v.x, rounding.toFloat v.y, rounding.toFloat v.z⟩

/-- One turn of `extractMeshes`.  The vertices are counted with an `int`. -/
def MeshData.extract (rounding : Rounding R) (m : RepoMatrix R) (meshData : MeshData R) : Except Failure (MeshGeometry R) :=
  let map := meshData.vertexMap
  let uvChannels := if map.uvs.length ≠ 0 then [map.uvs] else []
  if map.uvs.length ≠ 0 ∧ map.uvs.length ≠ map.vertices.length then .error .geometryProcessing
  else if map.normals.length ≠ 0 ∧ map.normals.length ≠ map.vertices.length then .error .geometryProcessing
  else do
    let normals32 ← (MultipartOptimizer.transformNormalsBy (rounding.worldMat m)
      (map.normals.map (narrow rounding))).mapError .transform
    if map.vertices.length < 2 ^ 31 then do
      let vertices32 ← (map.vertices.mapM fun v =>
        (MultipartOptimizer.orFail .exit (m.mulVector v)).map (narrow rounding)).mapError .transform
      return ⟨⟨vertices32, normals32, setUVChannels (uvChannels.zipIdx.map Prod.swap)⟩, meshData.faces⟩
    else .error .overflow

/-- `extractMeshes`, with the meshes in the order in which they are iterated. -/
def extractMeshes (rounding : Rounding R) (m : RepoMatrix R) (meshes : List (MeshData R)) :
    Except Failure (List (MeshGeometry R)) :=
  (meshes.filter fun meshData => decide (meshData.vertexMap.vertices ≠ [])).mapM (MeshData.extract rounding m)

end Extract

/-! ### What is to be extracted -/

/-- How a face is drawn: its size, the primitive of its mesh, whether that has normals and UVs, and the corners. -/
structure Appearance (R : Type) where
  size : ℕ
  primitive : ℕ
  hasNormals : Bool
  hasUvs : Bool
  corners : List (Option (RepoVector3D R) × Option (RepoVector3D R) × List (Option (RepoVector2D R)))

/-- The primitive is set by `setFaces`. -/
def appearance (node : MeshGeometry R) (face : RepoFace) : Appearance R where
  size := face.sides
  primitive := (node.faces.head?.map RepoFace.sides).getD 3
  hasNormals := !node.normals.isEmpty
  hasUvs := !node.channels.isEmpty
  corners := face.indices.map node.corner

section Expected

variable [ExactReal R] (rounding : Rounding R) (offset : RepoVector3D R) (m : RepoMatrix R)

def transformPosition (v : RepoVector3D R) : RepoVector3D R := narrow rounding (m.image (v + offset))

def transformNormal (n : RepoVector3D R) : RepoVector3D R :=
  ((rounding.worldMat m).image (narrow rounding n)).normalized

/-- How an added face is to be drawn. -/
def Face.appearance (bf : Face R) : Appearance R where
  size := bf.getSize
  primitive := bf.getSize
  hasNormals := bf.hasNormals
  hasUvs := bf.hasUvs
  corners := (List.range bf.getSize).map fun i =>
    (bf.vertices[i]?.map (transformPosition rounding offset m),
      if bf.hasNormals then some (transformNormal rounding m bf.norm) else none,
      if bf.hasUvs then [bf.uvs[i]?] else [])

/-- There are normals and UVs for all vertices, or for none. -/
def Parallel (node : MeshGeometry R) : Prop :=
  (node.normals.length = 0 ∨ node.normals.length = node.vertices.length) ∧
    (node.channels = [] ∨ ∃ uvs, node.channels = [uvs] ∧ uvs.length = node.vertices.length)

/-- The faces can be added, and after that each of them is in one mesh, drawn as it is to be, whatever the order of the
meshes is. -/
def KeepsApart (faces : List (Face R)) : Prop :=
  ∃ meshes, faces.foldlM (addFace offset) ∅ = .ok meshes ∧
    ∀ order, order.Perm (meshes.entries.map Sigma.snd) → ∃ nodes, extractMeshes rounding m order = .ok nodes ∧
      (nodes.flatMap fun node => node.faces.map (RepoMeshBuilder.appearance node)).Perm
        (faces.map (Face.appearance rounding offset m)) ∧
      ∀ node ∈ nodes, Parallel node

end Expected

/-! ### Formats -/

/-- Only the size of the face is in the format. -/
theorem getFormat_eq (bf : Face R) : bf.getFormat = (1 : BitVec 32) ||| BitVec.ofNat 32 bf.getSize <<< 8 := by
  unfold Face.getFormat getMeshFormat
  generalize BitVec.ofNat 32 bf.getSize <<< 8 = fBit
  have hbit : 1 ||| fBit ||| 1 = 1 ||| fBit := by
    rw [BitVec.or_comm 1 fBit, BitVec.or_assoc, BitVec.or_self]
  have hzero : ∀ n : ℕ, (0 : BitVec 32) <<< n = 0 := fun n => BitVec.zero_shiftLeft n
  have hnone : ∀ x : BitVec 32, x ||| (0 : BitVec 32) = x := fun _ => BitVec.or_zero
  -- what is shifted is the zero of the other case
  cases bf.hasNormals <;> cases bf.hasUvs <;>
    simp only [hzero, if_true, Bool.false_eq_true, if_false, hnone, hbit]

variable {bf : Face R}

theorem Face.Valid.getSize (h : bf.Valid) : bf.getSize = 2 ∨ bf.getSize = 3 := h.imp And.left And.left

private theorem getFormat_inj {bf bf' : Face R} (h : bf.Valid) (h' : bf'.Valid) :
    bf.getFormat = bf'.getFormat ↔ bf.getSize = bf'.getSize := by
  rw [getFormat_eq, getFormat_eq]
  constructor
  · intro heq
    rcases h.getSize with hs | hs <;> rcases h'.getSize with hs' | hs'
    · rw [hs, hs']
    · rw [hs, hs'] at heq
      exact absurd heq (by decide)
    · rw [hs, hs'] at heq
      exact absurd heq (by decide)
    · rw [hs, hs']
  · intro heq
    rw [heq]

theorem Face.hasUvs_eq_false_iff : bf.hasUvs = false ↔ bf.uvs = [] := by
  unfold Face.hasUvs
  rw [decide_eq_false_iff_not, not_lt, Nat.le_zero, List.length_eq_zero_iff]

theorem Face.Valid.length_uvs (h : bf.Valid) (huvs : bf.hasUvs = true) : bf.uvs.length = bf.getSize := by
  have hne : bf.uvs ≠ [] := fun he => by simp [Face.hasUvs_eq_false_iff.2 he] at huvs
  rcases h with ⟨-, hnone⟩ | ⟨hsize, hnone | hthree⟩
  · exact absurd hnone hne
  · exact absurd hnone hne
  · rw [hthree, hsize]

/-- There is a UV for each vertex, or none. -/
def Face.Complete (bf : Face R) : Prop := bf.hasUvs = true → bf.uvs.length = bf.getSize

theorem Face.Valid.complete (h : bf.Valid) : bf.Complete := h.length_uvs

theorem Face.Valid.hasNormals_of_hasUvs (h : bf.Valid) (huvs : bf.hasUvs = true) : bf.hasNormals = true := by
  have hne : bf.uvs ≠ [] := fun he => by simp [Face.hasUvs_eq_false_iff.2 he] at huvs
  rcases h with ⟨-, hnone⟩ | ⟨hsize, -⟩
  · exact absurd hnone hne
  · exact decide_eq_true hsize

/-! ### The buffers of one mesh -/

variable {meshData : MeshData R}

section Buffers

variable [ExactReal R] {offset : RepoVector3D R}

/-- The buffers that a face adds. -/
def faceBuffers (offset : RepoVector3D R) (bf : Face R) : VertexBuffers R where
  vertices := bf.vertices.map fun v => v + offset
  normals := if bf.hasNormals then List.replicate bf.getSize bf.norm else []
  channels := if bf.hasUvs then [bf.uvs] else []

/-- The buffers of a mesh, with a UV channel or without. -/
def MeshData.buffers (hasUvs : Bool) (meshData : MeshData R) : VertexBuffers R where
  vertices := meshData.vertexMap.vertices
  normals := meshData.vertexMap.normals
  channels := if hasUvs then [meshData.vertexMap.uvs] else []

private theorem insertVertices_eq (bf : Face R) (map : VertexMap R) (is : List ℕ) : insertVertices offset bf map is =
    (⟨map.vertices ++ is.map fun i => bf.vertices.getD i 0 + offset,
      map.normals ++ if bf.hasNormals then List.replicate is.length bf.norm else [],
      map.uvs ++ if bf.hasUvs then is.map fun i => bf.uvs.getD i ⟨0, 0⟩ else []⟩,
      List.range' map.vertices.length is.length) := by
  induction is generalizing map with
  | nil => cases map; simp [insertVertices]
  | cons i is ih =>
    rw [insertVertices, ih]
    refine Prod.ext ?_ ?_
    · cases bf.hasNormals <;> cases bf.hasUvs <;> simp [VertexMap.insert, List.replicate_succ]
    · simp [VertexMap.insert, List.range'_succ]

private theorem map_getD_range {α : Type} (l : List α) (d : α) : (List.range l.length).map (fun i => l.getD i d) = l := by
  apply List.ext_getElem
  · rw [List.length_map, List.length_range]
  · intro i hi hi'
    rw [List.getElem_map, List.getElem_range, List.getD_eq_getElem _ _ hi']

variable (offset) in
/-- Adding a valid face appends its buffers, and a face of the new indices. -/
theorem addFace_eq (h : bf.Complete) (meshData : MeshData R) :
    (meshData.addFace offset bf).vertexMap =
      ⟨meshData.vertexMap.vertices ++ (faceBuffers offset bf).vertices,
        meshData.vertexMap.normals ++ (faceBuffers offset bf).normals,
        meshData.vertexMap.uvs ++ if bf.hasUvs then bf.uvs else []⟩ ∧
    ∃ face : RepoFace, face.indices = List.range' meshData.vertexMap.vertices.length bf.getSize ∧
      (meshData.addFace offset bf).faces = meshData.faces ++ [face] := by
  have hvertices : (List.range bf.getSize).map (fun i => bf.vertices.getD i 0 + offset) =
      bf.vertices.map fun v => v + offset := by
    conv_rhs => rw [← map_getD_range bf.vertices 0, List.map_map]
    rfl
  have huvs : (if bf.hasUvs = true then (List.range bf.getSize).map fun i => bf.uvs.getD i ⟨0, 0⟩ else []) =
      if bf.hasUvs = true then bf.uvs else [] := by
    by_cases hu : bf.hasUvs = true
    · rw [if_pos hu, if_pos hu, ← h hu, map_getD_range]
    · rw [if_neg hu, if_neg hu]
  constructor
  · unfold MeshData.addFace
    dsimp only
    rw [insertVertices_eq, hvertices, huvs, List.length_range]
    rfl
  · refine ⟨⟨(insertVertices offset bf meshData.vertexMap (List.range bf.getSize)).2, ?_⟩, ?_, rfl⟩
    · rw [length_insertVertices, List.length_range]
      exact bf.vertices_le
    · dsimp only
      rw [insertVertices_eq, List.length_range]

variable (offset) in
private theorem buffers_addFace (h : bf.Complete) (meshData : MeshData R) :
    (meshData.addFace offset bf).buffers bf.hasUvs = (meshData.buffers bf.hasUvs).append (faceBuffers offset bf) := by
  unfold MeshData.buffers VertexBuffers.append
  rw [(addFace_eq offset h meshData).1]
  unfold faceBuffers
  cases bf.hasUvs <;> rfl

/-- The number of UV channels. -/
def channelCount (hasUvs : Bool) : ℕ := if hasUvs then 1 else 0

variable (offset) in
private theorem format_faceBuffers (h : bf.Complete) :
    (faceBuffers offset bf).Format bf.hasNormals (channelCount bf.hasUvs) where
  normals := by
    unfold faceBuffers
    cases bf.hasNormals
    · rfl
    · simp [Face.getSize]
  channels := by
    unfold faceBuffers channelCount
    cases bf.hasUvs <;> rfl
  channel := by
    intro channel hchannel
    unfold faceBuffers at hchannel ⊢
    by_cases hu : bf.hasUvs = true
    · simp only [hu, if_true, List.mem_singleton] at hchannel
      rw [hchannel, List.length_map]
      exact h hu
    · simp [hu] at hchannel

/-- What a mesh is after faces of one size, with UVs or without, were added to it. -/
structure Collected (offset : RepoVector3D R) (size : ℕ) (hasUvs : Bool) (faces : List (Face R)) (meshData : MeshData R) :
    Prop where
  format : (meshData.buffers hasUvs).Format (decide (size = 3)) (channelCount hasUvs)
  length : meshData.vertexMap.vertices.length = size * faces.length
  noUvs : hasUvs = false → meshData.vertexMap.uvs = []
  sides : ∀ face ∈ meshData.faces, face.sides = size
  inRange : ∀ face ∈ meshData.faces, ∀ i ∈ face.indices, i < meshData.vertexMap.vertices.length
  corners : meshData.faces.map (fun face => face.indices.map (meshData.buffers hasUvs).corner) =
    faces.map fun bf => (List.range size).map (faceBuffers offset bf).corner

theorem collected_empty (size : ℕ) (hasUvs : Bool) : Collected offset size hasUvs [] MeshData.empty where
  format := by
    constructor
    · cases decide (size = 3) <;> rfl
    · cases hasUvs <;> rfl
    · intro channel hchannel
      cases hasUvs with
      | false => exact absurd hchannel List.not_mem_nil
      | true =>
        rw [List.mem_singleton.1 hchannel]
        rfl
  length := rfl
  noUvs := fun _ => rfl
  sides := fun _ h => absurd h List.not_mem_nil
  inRange := fun _ h => absurd h List.not_mem_nil
  corners := rfl

theorem Collected.addFace {size : ℕ} {hasUvs : Bool} {faces : List (Face R)}
    (h : Collected offset size hasUvs faces meshData) (hcomplete : bf.Complete) (hsize : bf.getSize = size)
    (huvs : bf.hasUvs = hasUvs) : Collected offset size hasUvs (faces ++ [bf]) (meshData.addFace offset bf) := by
  subst hsize huvs
  have hbuffers := buffers_addFace offset hcomplete meshData
  have hformat := format_faceBuffers offset hcomplete
  obtain ⟨hmap, face, hindices, hfaces⟩ := addFace_eq offset hcomplete meshData
  have hlength : (meshData.addFace offset bf).vertexMap.vertices.length =
      meshData.vertexMap.vertices.length + bf.getSize := by
    rw [hmap]
    simp [faceBuffers, Face.getSize]
  constructor
  · rw [hbuffers]
    exact h.format.append hformat
  · rw [hlength, h.length, List.length_append, List.length_singleton, Nat.mul_succ]
  · intro hnone
    rw [hmap, hnone]
    simpa using h.noUvs hnone
  · intro face' hface'
    rw [hfaces, List.mem_append, List.mem_singleton] at hface'
    rcases hface' with hold | rfl
    · exact h.sides face' hold
    · rw [RepoFace.sides, hindices, List.length_range']
  · intro face' hface' i hi
    rw [hlength]
    rw [hfaces, List.mem_append, List.mem_singleton] at hface'
    rcases hface' with hold | rfl
    · exact Nat.lt_add_right _ (h.inRange face' hold i hi)
    · rw [hindices, List.mem_range'_1] at hi
      exact hi.2
  · have hold : meshData.faces.map (fun f => f.indices.map
        ((meshData.addFace offset bf).buffers bf.hasUvs).corner) =
        meshData.faces.map fun f => f.indices.map (meshData.buffers bf.hasUvs).corner := by
      apply List.map_congr_left
      intro f hf
      apply List.map_congr_left
      intro i hi
      rw [hbuffers]
      exact VertexBuffers.corner_append_left h.format hformat (h.inRange f hf i hi)
    have hnew : face.indices.map ((meshData.addFace offset bf).buffers bf.hasUvs).corner =
        (List.range bf.getSize).map (faceBuffers offset bf).corner := by
      rw [hindices, List.range'_eq_map_range, List.map_map]
      apply List.map_congr_left
      intro i _
      rw [hbuffers]
      exact VertexBuffers.corner_append_right h.format hformat i
    rw [hfaces, List.map_append, List.map_append, hold, h.corners, List.map_singleton, List.map_singleton, hnew]

private theorem collected_foldl {size : ℕ} {hasUvs : Bool} {faces : List (Face R)} (hvalid : ∀ bf ∈ faces, bf.Valid)
    (hsize : ∀ bf ∈ faces, bf.getSize = size) (huvs : ∀ bf ∈ faces, bf.hasUvs = hasUvs) :
    Collected offset size hasUvs faces (faces.foldl (MeshData.addFace offset) MeshData.empty) := by
  refine Library.Loop.foldl_done (fun done meshData => Collected offset size hasUvs done meshData)
    (collected_empty size hasUvs) ?_
  intro done bf rest meshData hl h
  have hmem : bf ∈ faces := by
    rw [hl]
    exact List.mem_append_right _ List.mem_cons_self
  exact h.addFace (hvalid bf hmem).complete (hsize bf hmem) (huvs bf hmem)

variable (offset) in
/-- There is a vertex for every corner, and a UV or normal for every corner of the faces that have them. -/
theorem lengths_foldl (faces : List (Face R)) (hvalid : ∀ bf ∈ faces, bf.Valid) :
    (faces.foldl (MeshData.addFace offset) MeshData.empty).vertexMap.vertices.length = (faces.map Face.getSize).sum ∧
    (faces.foldl (MeshData.addFace offset) MeshData.empty).vertexMap.uvs.length =
      ((faces.filter Face.hasUvs).map Face.getSize).sum ∧
    (faces.foldl (MeshData.addFace offset) MeshData.empty).vertexMap.normals.length =
      ((faces.filter Face.hasNormals).map Face.getSize).sum := by
  refine Library.Loop.foldl_done (fun done (meshData : MeshData R) =>
    meshData.vertexMap.vertices.length = (done.map Face.getSize).sum ∧
      meshData.vertexMap.uvs.length = ((done.filter Face.hasUvs).map Face.getSize).sum ∧
      meshData.vertexMap.normals.length = ((done.filter Face.hasNormals).map Face.getSize).sum) ⟨rfl, rfl, rfl⟩ ?_
  intro done bf rest meshData hl h
  have hmem : bf ∈ faces := by
    rw [hl]
    exact List.mem_append_right _ List.mem_cons_self
  obtain ⟨hvertices, huvs, hnormals⟩ := h
  rw [(addFace_eq offset (hvalid bf hmem).complete meshData).1]
  refine ⟨?_, ?_, ?_⟩
  · simp [faceBuffers, hvertices, Face.getSize]
  · rw [List.length_append, huvs, List.filter_append, List.map_append, List.sum_append]
    by_cases hu : bf.hasUvs = true
    · rw [if_pos hu, (hvalid bf hmem).length_uvs hu]
      simp [hu]
    · rw [if_neg hu]
      simp [hu]
  · rw [List.length_append, hnormals, List.filter_append, List.map_append, List.sum_append]
    cases hn : bf.hasNormals <;> simp [faceBuffers, hn]

end Buffers

/-! ### Extracting one mesh -/

section Extraction

variable [ExactReal R] {rounding : Rounding R} {offset : RepoVector3D R} {m : RepoMatrix R}

/-- `operator*` does not exit for this matrix, and not for that of the normals. -/
structure Usable (rounding : Rounding R) (m : RepoMatrix R) : Prop where
  vertices : ¬ m.Exits
  normals : ¬ (rounding.worldMat m).Exits

private theorem transformNormals_eq {normals : List (RepoVector3D R)} (hn : ¬ (rounding.worldMat m).Exits ∨ normals = []) :
    MultipartOptimizer.transformNormalsBy (rounding.worldMat m) (normals.map (narrow rounding)) =
      .ok (normals.map (transformNormal rounding m)) := by
  rw [MultipartOptimizer.transformNormalsBy_ok (hn.imp id fun h => by rw [h]; rfl), List.map_map]
  rfl

private theorem mapM_position (hm : ¬ m.Exits) (vertices : List (RepoVector3D R)) :
    (vertices.mapM fun v => (MultipartOptimizer.orFail MultipartOptimizer.Failure.exit (m.mulVector v)).map
      (narrow rounding)) = .ok (vertices.map fun v => narrow rounding (m.image v)) := by
  have hpure : (fun v : RepoVector3D R => (MultipartOptimizer.orFail MultipartOptimizer.Failure.exit
      (m.mulVector v)).map (narrow rounding)) = fun v => pure (narrow rounding (m.image v)) := by
    funext v
    rw [RepoMatrix.mulVector, if_neg hm]
    rfl
  rw [hpure, List.mapM_pure]
  rfl

/-- A mesh is extracted only if it has UVs for all vertices or for none, its vertices can be counted, and its normals do
not end the process. -/
theorem extract_ok {node : MeshGeometry R} (h : meshData.extract rounding m = .ok node) :
    (meshData.vertexMap.uvs.length = 0 ∨
      meshData.vertexMap.uvs.length = meshData.vertexMap.vertices.length) ∧
    meshData.vertexMap.vertices.length < 2 ^ 31 ∧
    (¬ (rounding.worldMat m).Exits ∨ meshData.vertexMap.normals = []) := by
  unfold MeshData.extract at h
  dsimp only at h
  by_cases huvs : meshData.vertexMap.uvs.length ≠ 0 ∧
      meshData.vertexMap.uvs.length ≠ meshData.vertexMap.vertices.length
  · rw [if_pos huvs] at h
    exact nomatch h
  · rw [if_neg huvs] at h
    have hnormals : ¬ (rounding.worldMat m).Exits ∨ meshData.vertexMap.normals = [] := by
      by_contra hnot
      obtain ⟨hexits, hne⟩ := not_or.1 hnot
      rw [MultipartOptimizer.transformNormalsBy_exits (not_not.1 hexits) fun hnil => hne (List.map_eq_nil_iff.1 hnil)] at h
      split at h <;> exact nomatch h
    refine ⟨by omega, ?_, hnormals⟩
    by_contra hcount
    rw [transformNormals_eq hnormals] at h
    simp only [Except.mapError, bind, Except.bind, if_neg hcount] at h
    split at h <;> exact nomatch h

/-- The mesh that is extracted, if all is well. -/
def extracted (rounding : Rounding R) (m : RepoMatrix R) (meshData : MeshData R) : MeshGeometry R where
  vertices := meshData.vertexMap.vertices.map fun v => narrow rounding (m.image v)
  normals := meshData.vertexMap.normals.map (transformNormal rounding m)
  channels := if meshData.vertexMap.uvs = [] then [] else [meshData.vertexMap.uvs]
  faces := meshData.faces

omit [ExactReal R] in
private theorem setUVChannels_single (uvs : List (RepoVector2D R)) :
    setUVChannels ((if uvs.length ≠ 0 then [uvs] else []).zipIdx.map Prod.swap) = if uvs = [] then [] else [uvs] := by
  by_cases h : uvs = []
  · simp [h, setUVChannels]
  · have hlength : uvs.length ≠ 0 := fun he => h (List.length_eq_zero_iff.1 he)
    rw [if_pos hlength, if_neg h]
    simp [setUVChannels, setUVChannel, resizeChannels, h]

private theorem extract_eq (hm : ¬ m.Exits)
    (hn : ¬ (rounding.worldMat m).Exits ∨ meshData.vertexMap.normals = [])
    (huvs : meshData.vertexMap.uvs.length = 0 ∨
      meshData.vertexMap.uvs.length = meshData.vertexMap.vertices.length)
    (hnormals : meshData.vertexMap.normals.length = 0 ∨
      meshData.vertexMap.normals.length = meshData.vertexMap.vertices.length)
    (hcount : meshData.vertexMap.vertices.length < 2 ^ 31) :
    meshData.extract rounding m = .ok (extracted rounding m meshData) := by
  have huvs' : ¬ (meshData.vertexMap.uvs.length ≠ 0 ∧
      meshData.vertexMap.uvs.length ≠ meshData.vertexMap.vertices.length) := by omega
  have hnormals' : ¬ (meshData.vertexMap.normals.length ≠ 0 ∧
      meshData.vertexMap.normals.length ≠ meshData.vertexMap.vertices.length) := by omega
  unfold MeshData.extract
  dsimp only
  rw [if_neg huvs', if_neg hnormals', transformNormals_eq hn, mapM_position hm, setUVChannels_single]
  simp only [Except.mapError, bind, Except.bind, if_pos hcount]
  rfl

variable {size : ℕ} {hasUvs : Bool} {faces : List (Face R)} {meshData : MeshData R}

section CollectedData

variable (h : Collected offset size hasUvs faces meshData)
include h

theorem Collected.length_normals : meshData.vertexMap.normals.length =
    if size = 3 then meshData.vertexMap.vertices.length else 0 := by
  have hformat := h.format.normals
  simpa [MeshData.buffers] using hformat

theorem Collected.length_uvs : meshData.vertexMap.uvs.length =
    if hasUvs then meshData.vertexMap.vertices.length else 0 := by
  cases hasUvs with
  | false => rw [h.noUvs rfl]; rfl
  | true => exact h.format.channel meshData.vertexMap.uvs (List.mem_singleton.2 rfl)

theorem Collected.extract (hm : ¬ m.Exits)
    (hn : ¬ (rounding.worldMat m).Exits ∨ size ≠ 3)
    (hcount : size * faces.length < 2 ^ 31) : meshData.extract rounding m = .ok (extracted rounding m meshData) := by
  apply extract_eq hm
  · refine hn.imp id fun hsize => List.length_eq_zero_iff.1 ?_
    rw [h.length_normals]
    exact if_neg hsize
  · rw [h.length_uvs]
    split
    · exact .inr rfl
    · exact .inl rfl
  · rw [h.length_normals]
    split
    · exact .inr rfl
    · exact .inl rfl
  · rwa [h.length]

theorem Collected.parallel : Parallel (extracted rounding m meshData) := by
  have hnormals := h.length_normals
  have huvs := h.length_uvs
  unfold Parallel extracted
  dsimp only
  rw [List.length_map, List.length_map, hnormals]
  constructor
  · split
    · exact .inr rfl
    · exact .inl rfl
  · by_cases hnone : meshData.vertexMap.uvs = []
    · exact .inl (if_pos hnone)
    · refine .inr ⟨_, if_neg hnone, ?_⟩
      cases hasUvs with
      | false => exact absurd (h.noUvs rfl) hnone
      | true => exact huvs

private theorem corner_extracted (hne : 0 < meshData.vertexMap.vertices.length)
    (i : ℕ) : (extracted rounding m meshData).corner i =
      (((meshData.buffers hasUvs).corner i).1.map fun v => narrow rounding (m.image v),
        ((meshData.buffers hasUvs).corner i).2.1.map (transformNormal rounding m),
        ((meshData.buffers hasUvs).corner i).2.2) := by
  have hchannels : (if meshData.vertexMap.uvs = [] then [] else [meshData.vertexMap.uvs]) =
      (meshData.buffers hasUvs).channels := by
    cases hu : hasUvs with
    | false =>
      rw [if_pos (h.noUvs hu)]
      rfl
    | true =>
      have hlength := h.length_uvs
      rw [hu, if_pos rfl] at hlength
      rw [if_neg (List.length_pos_iff.1 (hlength ▸ hne))]
      rfl
  unfold VertexBuffers.corner extracted
  dsimp only
  rw [hchannels, List.getElem?_map, List.getElem?_map]
  rfl

/-- In the mesh that is extracted the faces are drawn as they are to be. -/
theorem Collected.appearance
    (hsize : ∀ bf ∈ faces, bf.getSize = size) (huvs : ∀ bf ∈ faces, bf.hasUvs = hasUvs) (hne : faces ≠ [])
    (hpos : 0 < size) :
    (extracted rounding m meshData).faces.map (RepoMeshBuilder.appearance (extracted rounding m meshData)) =
      faces.map (Face.appearance rounding offset m) := by
  have hvertices : 0 < meshData.vertexMap.vertices.length := by
    rw [h.length]
    exact Nat.mul_pos hpos (List.length_pos_iff.2 hne)
  have hlength : meshData.faces.length = faces.length := by
    have hcorners := congrArg List.length h.corners
    rwa [List.length_map, List.length_map] at hcorners
  have hnormals : (!(extracted rounding m meshData).normals.isEmpty) = decide (size = 3) := by
    have hl := h.length_normals
    have hmap : (extracted rounding m meshData).normals.length = meshData.vertexMap.normals.length := List.length_map _
    rw [← hmap] at hl
    by_cases hthree : size = 3
    · rw [if_pos hthree] at hl
      rw [decide_eq_true hthree, List.isEmpty_eq_false_iff.2 (List.length_pos_iff.1 (hl ▸ hvertices))]
      rfl
    · rw [if_neg hthree] at hl
      rw [decide_eq_false hthree, List.isEmpty_iff.2 (List.length_eq_zero_iff.1 hl)]
      rfl
  have hchannels : (!(extracted rounding m meshData).channels.isEmpty) = hasUvs := by
    have hl := h.length_uvs
    have hsame : (extracted rounding m meshData).channels =
        if meshData.vertexMap.uvs = [] then [] else [meshData.vertexMap.uvs] := rfl
    cases hu : hasUvs with
    | false => rw [hsame, if_pos (h.noUvs hu)]; rfl
    | true =>
      rw [hu, if_pos rfl] at hl
      rw [hsame, if_neg (List.length_pos_iff.1 (hl ▸ hvertices))]
      rfl
  have hprimitive : ((extracted rounding m meshData).faces.head?.map RepoFace.sides).getD 3 = size := by
    have hfaces : (extracted rounding m meshData).faces = meshData.faces := rfl
    have hsides := h.sides
    rw [hfaces]
    cases hcases : meshData.faces with
    | nil =>
      rw [hcases, List.length_nil] at hlength
      exact absurd (List.length_eq_zero_iff.1 hlength.symm) hne
    | cons face rest => exact hsides face (hcases ▸ List.mem_cons_self)
  have hcorners : ∀ j (hj : j < meshData.faces.length) (hj' : j < faces.length),
      (meshData.faces[j]).indices.map (extracted rounding m meshData).corner =
        (faces[j].appearance rounding offset m).corners := by
    intro j hj hj'
    have hmem : faces[j] ∈ faces := List.getElem_mem hj'
    have hat : (meshData.faces[j]).indices.map (meshData.buffers hasUvs).corner =
        (List.range size).map (faceBuffers offset faces[j]).corner := by
      have hget := congrArg (fun l => l[j]?) h.corners
      simp only [List.getElem?_map, List.getElem?_eq_getElem hj, List.getElem?_eq_getElem hj', Option.map_some] at hget
      exact Option.some.inj hget
    let transformed : Option (RepoVector3D R) × Option (RepoVector3D R) × List (Option (RepoVector2D R)) →
        Option (RepoVector3D R) × Option (RepoVector3D R) × List (Option (RepoVector2D R)) := fun corner =>
      (corner.1.map fun v => narrow rounding (m.image v), corner.2.1.map (transformNormal rounding m), corner.2.2)
    have hmap := congrArg (List.map transformed) hat
    rw [List.map_map, List.map_map] at hmap
    have hleft : (meshData.faces[j]).indices.map (extracted rounding m meshData).corner =
        (meshData.faces[j]).indices.map (transformed ∘ (meshData.buffers hasUvs).corner) := by
      apply List.map_congr_left
      intro i _
      exact corner_extracted h hvertices i
    rw [hleft, hmap]
    unfold Face.appearance
    dsimp only
    rw [hsize _ hmem]
    apply List.map_congr_left
    intro i hi
    have hi : i < faces[j].getSize := (hsize _ hmem).symm ▸ List.mem_range.1 hi
    simp only [Function.comp_apply, transformed, VertexBuffers.corner, faceBuffers]
    refine Prod.ext ?_ (Prod.ext ?_ ?_)
    · rw [List.getElem?_map, Option.map_map]
      rfl
    · by_cases hn : faces[j].hasNormals = true
      · rw [if_pos hn, if_pos hn, List.getElem?_replicate, if_pos hi]
        rfl
      · rw [if_neg hn, if_neg hn]
        rfl
    · by_cases hu : faces[j].hasUvs = true
      · rw [if_pos hu, if_pos hu]
        rfl
      · rw [if_neg hu, if_neg hu]
        rfl
  have happearance : ∀ face, RepoMeshBuilder.appearance (extracted rounding m meshData) face =
      ⟨face.sides, size, decide (size = 3), hasUvs, face.indices.map (extracted rounding m meshData).corner⟩ := by
    intro face
    unfold RepoMeshBuilder.appearance
    rw [hprimitive, hnormals, hchannels]
  apply List.ext_getElem
  · rw [List.length_map, List.length_map]
    exact hlength
  · intro j hj hj'
    rw [List.length_map] at hj hj'
    have hmem : faces[j] ∈ faces := List.getElem_mem hj'
    have hface : (meshData.faces[j]).sides = size := h.sides _ (List.getElem_mem hj)
    have hdrawn : RepoMeshBuilder.appearance (extracted rounding m meshData) meshData.faces[j] =
        Face.appearance rounding offset m faces[j] := by
      rw [happearance, hcorners j hj hj', hface]
      unfold Face.appearance Face.hasNormals
      rw [huvs _ hmem]
      have hsize := hsize _ hmem
      unfold Face.getSize at hsize ⊢
      rw [hsize]
    rw [List.getElem_map, List.getElem_map]
    exact hdrawn

end CollectedData

end Extraction

/-! ### All meshes -/

section All

variable [ExactReal R] {rounding : Rounding R} {offset : RepoVector3D R} {m : RepoMatrix R} {faces : List (Face R)}

/-- The meshes after the faces were added. -/
def meshesOf (offset : RepoVector3D R) (faces : List (Face R)) : Meshes R :=
  collect MeshData.empty (MeshData.addFace offset) (faces.map fun bf => (bf.getFormat, bf))

variable (offset) in
theorem addFace_ok (h : bf.Valid) (meshes : Meshes R) : addFace offset meshes bf =
    .ok (upsert MeshData.empty (MeshData.addFace offset) meshes (bf.getFormat, bf)) := by
  have hsize : bf.getSize ≠ 0 := by
    rcases h.getSize with h | h <;> omega
  have huvs : ¬ (bf.hasUvs ∧ ¬ bf.hasNormals) := fun hu => hu.2 (h.hasNormals_of_hasUvs hu.1)
  rw [addFace, if_neg hsize, if_neg huvs]

theorem foldlM_addFace (hvalid : ∀ bf ∈ faces, bf.Valid) :
    faces.foldlM (addFace offset) ∅ = .ok (meshesOf offset faces) := by
  have hstart : ∀ (faces : List (Face R)) (meshes : Meshes R), (∀ bf ∈ faces, bf.Valid) →
      faces.foldlM (addFace offset) meshes = .ok ((faces.map fun bf => (bf.getFormat, bf)).foldl
        (upsert MeshData.empty (MeshData.addFace offset)) meshes) := by
    intro faces
    induction faces with
    | nil => exact fun _ _ => rfl
    | cons bf faces ih =>
      intro meshes hvalid
      rw [List.foldlM_cons, addFace_ok offset (hvalid bf List.mem_cons_self)]
      exact ih _ fun bf' hbf' => hvalid bf' (List.mem_cons_of_mem _ hbf')
  exact hstart faces ∅ hvalid

omit [ExactReal R] in
private theorem valuesAt_format (format : BitVec 32) (faces : List (Face R)) :
    valuesAt format (faces.map fun bf => (bf.getFormat, bf)) = faces.filter fun bf => decide (bf.getFormat = format) := by
  rw [valuesAt, List.filter_map, List.map_map]
  exact List.map_id _

private theorem entry_meshesOf {entry : Sigma fun _ : BitVec 32 => MeshData R} (h : entry ∈ (meshesOf offset faces).entries) :
    (faces.filter fun bf => decide (bf.getFormat = entry.1)) ≠ [] ∧
      entry.2 = (faces.filter fun bf => decide (bf.getFormat = entry.1)).foldl (MeshData.addFace offset) MeshData.empty := by
  have hentry := Library.entry_collect h
  rwa [valuesAt_format] at hentry

variable (offset) in
private theorem exists_entry (h : bf ∈ faces) :
    ∃ entry ∈ (meshesOf offset faces).entries, entry.1 = bf.getFormat := by
  have hkey : bf.getFormat ∈ (meshesOf offset faces).keys :=
    Library.mem_keys_collect.2 ⟨bf, List.mem_map_of_mem h⟩
  obtain ⟨entry, hentry, hformat⟩ := List.mem_map.1 hkey
  exact ⟨entry, hentry, hformat⟩

/-- There are triangles with UVs, and triangles without. -/
def Mixed (faces : List (Face R)) : Prop :=
  (∃ bf ∈ faces, bf.getSize = 3 ∧ bf.uvs ≠ []) ∧ ∃ bf ∈ faces, bf.getSize = 3 ∧ bf.uvs = []

/-- The vertices of the faces of one size can be counted. -/
def Countable (faces : List (Face R)) : Prop :=
  ∀ bf ∈ faces, bf.getSize * (faces.filter fun bf' => decide (bf'.getSize = bf.getSize)).length < 2 ^ 31

omit [ExactReal R] in
private theorem filter_format (hvalid : ∀ bf ∈ faces, bf.Valid) (h : bf ∈ faces) :
    (faces.filter fun bf' => decide (bf'.getFormat = bf.getFormat)) =
      faces.filter fun bf' => decide (bf'.getSize = bf.getSize) := by
  apply List.filter_congr
  intro bf' hbf'
  exact decide_eq_decide.2 (getFormat_inj (hvalid bf' hbf') (hvalid bf h))

/-- Without mixed triangles, the faces of a format are all like one of them. -/
theorem collected_entry (hvalid : ∀ bf ∈ faces, bf.Valid) (hmixed : ¬ Mixed faces)
    {entry : Sigma fun _ : BitVec 32 => MeshData R} (h : entry ∈ (meshesOf offset faces).entries) :
    ∃ bf ∈ faces, bf.getFormat = entry.1 ∧
      (∀ bf' ∈ faces.filter fun bf' => decide (bf'.getFormat = entry.1),
        bf'.getSize = bf.getSize ∧ bf'.hasUvs = bf.hasUvs) ∧
      Collected offset bf.getSize bf.hasUvs (faces.filter fun bf' => decide (bf'.getFormat = entry.1)) entry.2 := by
  obtain ⟨hne, hfold⟩ := entry_meshesOf h
  obtain ⟨bf, hbf⟩ := List.exists_mem_of_ne_nil _ hne
  obtain ⟨hmem, hformat⟩ := List.mem_filter.1 hbf
  have hformat := of_decide_eq_true hformat
  have hlike : ∀ bf' ∈ faces.filter fun bf' => decide (bf'.getFormat = entry.1),
      bf'.getSize = bf.getSize ∧ bf'.hasUvs = bf.hasUvs := by
    intro bf' hbf'
    obtain ⟨hmem', hformat'⟩ := List.mem_filter.1 hbf'
    have hsize : bf'.getSize = bf.getSize :=
      (getFormat_inj (hvalid bf' hmem') (hvalid bf hmem)).1 ((of_decide_eq_true hformat').trans hformat.symm)
    refine ⟨hsize, ?_⟩
    rcases hvalid bf hmem with ⟨htwo, hnone⟩ | ⟨hthree, -⟩
    · rcases hvalid bf' hmem' with ⟨-, hnone'⟩ | ⟨hthree', -⟩
      · rw [Face.hasUvs_eq_false_iff.2 hnone, Face.hasUvs_eq_false_iff.2 hnone']
      · omega
    · by_contra hdiffer
      apply hmixed
      have hthree' : bf'.getSize = 3 := hsize.trans hthree
      cases hu : bf.hasUvs with
      | false =>
        have hu' : bf'.hasUvs ≠ false := by rwa [hu] at hdiffer
        exact ⟨⟨bf', hmem', hthree', fun hn => hu' (Face.hasUvs_eq_false_iff.2 hn)⟩,
          ⟨bf, hmem, hthree, Face.hasUvs_eq_false_iff.1 hu⟩⟩
      | true =>
        have hu' : bf'.hasUvs = false := by
          rw [hu] at hdiffer
          exact Bool.eq_false_iff.2 hdiffer
        have hne' : bf.uvs ≠ [] := fun hn => Bool.false_ne_true ((Face.hasUvs_eq_false_iff.2 hn).symm.trans hu)
        exact ⟨⟨bf, hmem, hthree, hne'⟩, ⟨bf', hmem', hthree', Face.hasUvs_eq_false_iff.1 hu'⟩⟩
  refine ⟨bf, hmem, hformat, hlike, ?_⟩
  rw [hfold]
  exact collected_foldl (fun bf' hbf' => hvalid bf' (List.mem_filter.1 hbf').1) (fun bf' hbf' => (hlike bf' hbf').1)
    fun bf' hbf' => (hlike bf' hbf').2

/-- The normals, if there are any, can be multiplied without ending the process. -/
def TurnsNormals (rounding : Rounding R) (m : RepoMatrix R) (faces : List (Face R)) : Prop :=
  ¬ (rounding.worldMat m).Exits ∨ ∀ bf ∈ faces, bf.getSize ≠ 3

theorem keepsApart_of_not_mixed (hvalid : ∀ bf ∈ faces, bf.Valid) (hm : ¬ m.Exits) (hturns : TurnsNormals rounding m faces)
    (hmixed : ¬ Mixed faces) (hcount : Countable faces) : KeepsApart rounding offset m faces := by
  refine ⟨meshesOf offset faces, foldlM_addFace hvalid, ?_⟩
  intro order horder
  have hentry : ∀ meshData ∈ order, ∃ entry ∈ (meshesOf offset faces).entries, entry.2 = meshData := by
    intro meshData hmem
    exact List.mem_map.1 (horder.mem_iff.1 hmem)
  have hextract : ∀ meshData ∈ order, meshData.vertexMap.vertices ≠ [] ∧
      meshData.extract rounding m = .ok (extracted rounding m meshData) ∧ Parallel (extracted rounding m meshData) := by
    intro meshData hmem
    obtain ⟨entry, hentry, rfl⟩ := hentry meshData hmem
    obtain ⟨bf, hbf, hformat, -, hcollected⟩ := collected_entry hvalid hmixed hentry
    have hfilter : (faces.filter fun bf' => decide (bf'.getFormat = entry.1)) =
        faces.filter fun bf' => decide (bf'.getSize = bf.getSize) := hformat ▸ filter_format hvalid hbf
    refine ⟨?_, hcollected.extract hm (hturns.imp id fun h => h bf hbf) (hfilter ▸ hcount bf hbf), hcollected.parallel⟩
    have hpos : 0 < bf.getSize := by
      rcases (hvalid bf hbf).getSize with h | h <;> omega
    apply List.length_pos_iff.1
    rw [hcollected.length]
    exact Nat.mul_pos hpos (List.length_pos_iff.2 (entry_meshesOf hentry).1)
  refine ⟨order.map (extracted rounding m), ?_, ?_, ?_⟩
  · have hall : (order.filter fun meshData => decide (meshData.vertexMap.vertices ≠ [])) = order :=
      List.filter_eq_self.2 fun meshData hmem => decide_eq_true (hextract meshData hmem).1
    unfold extractMeshes
    rw [hall, mapM_ok_iff, List.forall₂_map_right_iff]
    exact List.forall₂_same.2 fun meshData hmem => (hextract meshData hmem).2.1
  · let drawn : MeshData R → List (Appearance R) := fun meshData =>
      (extracted rounding m meshData).faces.map (appearance (extracted rounding m meshData))
    have hdrawn : ∀ entry ∈ (meshesOf offset faces).entries, drawn entry.2 =
        (faces.filter fun bf => decide (bf.getFormat = entry.1)).map (Face.appearance rounding offset m) := by
      intro entry hmem
      obtain ⟨bf, hbf, -, hlike, hcollected⟩ := collected_entry hvalid hmixed hmem
      have hpos : 0 < bf.getSize := by
        rcases (hvalid bf hbf).getSize with h | h <;> omega
      exact hcollected.appearance (fun bf' hbf' => (hlike bf' hbf').1) (fun bf' hbf' => (hlike bf' hbf').2)
        (entry_meshesOf hmem).1 hpos
    have hkeys : ((meshesOf offset faces).keys.flatMap fun format =>
        faces.filter fun bf => decide (bf.getFormat = format)).Perm faces := by
      apply Library.perm_flatMap_filter _ (AList.keys_nodup _)
      intro bf hbf
      exact Library.mem_keys_collect.2 ⟨bf, List.mem_map_of_mem hbf⟩
    have hentries : ((meshesOf offset faces).entries.map Sigma.snd).flatMap drawn =
        ((meshesOf offset faces).keys.flatMap fun format =>
          faces.filter fun bf => decide (bf.getFormat = format)).map (Face.appearance rounding offset m) := by
      have hlist : (meshesOf offset faces).keys = (meshesOf offset faces).entries.map Sigma.fst := rfl
      rw [hlist, List.flatMap_map, List.flatMap_map, List.map_flatMap]
      exact List.flatMap_congr hdrawn
    rw [List.flatMap_map]
    exact (horder.flatMap_right drawn).trans (hentries ▸ hkeys.map _)
  · intro node hnode
    obtain ⟨meshData, hmem, rfl⟩ := List.mem_map.1 hnode
    exact (hextract meshData hmem).2.2

variable {order : List (MeshData R)} {nodes : List (MeshGeometry R)}

/-- Every mesh that there is is extracted. -/
theorem extract_of_extractMeshes
    (horder : order.Perm ((meshesOf offset faces).entries.map Sigma.snd))
    (hnodes : extractMeshes rounding m order = .ok nodes) (hvalid : ∀ bf ∈ faces, bf.Valid) {bf : Face R}
    (hbf : bf ∈ faces) : ∃ node, ((faces.filter fun bf' => decide (bf'.getSize = bf.getSize)).foldl
      (MeshData.addFace offset) MeshData.empty).extract rounding m = .ok node := by
  obtain ⟨entry, hentry, hformat⟩ := exists_entry offset hbf
  have hfold : entry.2 = (faces.filter fun bf' => decide (bf'.getSize = bf.getSize)).foldl (MeshData.addFace offset)
      MeshData.empty := by
    rw [(entry_meshesOf hentry).2, hformat, filter_format hvalid hbf]
  have hvertices : entry.2.vertexMap.vertices ≠ [] := by
    have hlength := (lengths_foldl offset (faces.filter fun bf' => decide (bf'.getSize = bf.getSize))
      fun bf' hbf' => hvalid bf' (List.mem_filter.1 hbf').1).1
    have hself : bf.getSize ∈ (faces.filter fun bf' => decide (bf'.getSize = bf.getSize)).map Face.getSize :=
      List.mem_map_of_mem (List.mem_filter.2 ⟨hbf, decide_eq_true rfl⟩)
    have hle := List.single_le_sum (fun _ _ => Nat.zero_le _) _ hself
    apply List.length_pos_iff.1
    rw [hfold, hlength]
    rcases (hvalid bf hbf).getSize with h | h <;> omega
  unfold extractMeshes at hnodes
  rw [mapM_ok_iff] at hnodes
  have hmem : entry.2 ∈ order.filter fun meshData => decide (meshData.vertexMap.vertices ≠ []) :=
    List.mem_filter.2 ⟨horder.mem_iff.2 (List.mem_map_of_mem hentry), decide_eq_true hvertices⟩
  obtain ⟨i, hi, hget⟩ := List.mem_iff_getElem.1 hmem
  have hi' : i < nodes.length := hnodes.length_eq ▸ hi
  have hextract := hnodes.get hi hi'
  rw [List.get_eq_getElem, hget, hfold] at hextract
  exact ⟨_, hextract⟩

omit [ExactReal R] in
private theorem getSize_le_sum {l : List (Face R)} (h : bf ∈ l) : bf.getSize ≤ (l.map Face.getSize).sum :=
  List.single_le_sum (fun _ _ => Nat.zero_le _) _ (List.mem_map_of_mem h)

theorem not_mixed_of_extractMeshes
    (horder : order.Perm ((meshesOf offset faces).entries.map Sigma.snd))
    (hnodes : extractMeshes rounding m order = .ok nodes) (hvalid : ∀ bf ∈ faces, bf.Valid) : ¬ Mixed faces := by
  rintro ⟨⟨bf, hbf, hthree, huvs⟩, bf', hbf', hthree', hnone⟩
  obtain ⟨node, hnode⟩ := extract_of_extractMeshes horder hnodes hvalid hbf
  obtain ⟨hlengths, -⟩ := extract_ok hnode
  obtain ⟨hvertices, huvs', -⟩ := lengths_foldl offset
    (faces.filter fun bf' => decide (bf'.getSize = bf.getSize)) fun bf' hbf' =>
      hvalid bf' (List.mem_filter.1 hbf').1
  rw [hvertices, huvs'] at hlengths
  generalize hsame : (faces.filter fun bf' => decide (bf'.getSize = bf.getSize)) = same at hlengths
  have hmem : bf ∈ same := hsame ▸ List.mem_filter.2 ⟨hbf, decide_eq_true rfl⟩
  have hmem' : bf' ∈ same := hsame ▸ List.mem_filter.2 ⟨hbf', decide_eq_true (hthree'.trans hthree.symm)⟩
  have hu : bf.hasUvs = true := by
    by_contra hfalse
    exact huvs (Face.hasUvs_eq_false_iff.1 (Bool.eq_false_iff.2 hfalse))
  have hu' : (!bf'.hasUvs) = true := by
    rw [Face.hasUvs_eq_false_iff.2 hnone]
    rfl
  -- some of the vertices have UVs, and some have not
  have hsplit : (same.map Face.getSize).sum = ((same.filter Face.hasUvs).map Face.getSize).sum +
      ((same.filter fun bf => !bf.hasUvs).map Face.getSize).sum := by
    rw [← List.sum_append, ← List.map_append]
    exact ((List.filter_append_perm Face.hasUvs same).map Face.getSize).sum_eq.symm
  have hwith : bf.getSize ≤ ((same.filter Face.hasUvs).map Face.getSize).sum :=
    getSize_le_sum (List.mem_filter.2 ⟨hmem, hu⟩)
  have hwithout : bf'.getSize ≤ ((same.filter fun bf => !bf.hasUvs).map Face.getSize).sum :=
    getSize_le_sum (List.mem_filter.2 ⟨hmem', hu'⟩)
  omega

theorem countable_of_extractMeshes
    (horder : order.Perm ((meshesOf offset faces).entries.map Sigma.snd))
    (hnodes : extractMeshes rounding m order = .ok nodes) (hvalid : ∀ bf ∈ faces, bf.Valid) : Countable faces := by
  intro bf hbf
  obtain ⟨node, hnode⟩ := extract_of_extractMeshes horder hnodes hvalid hbf
  obtain ⟨-, hcount, -⟩ := extract_ok hnode
  rw [(lengths_foldl offset _ fun bf' hbf' => hvalid bf' (List.mem_filter.1 hbf').1).1] at hcount
  have hsame : ∀ size ∈ (faces.filter fun bf' => decide (bf'.getSize = bf.getSize)).map Face.getSize,
      size = bf.getSize := by
    intro size hsize
    obtain ⟨bf', hbf', rfl⟩ := List.mem_map.1 hsize
    exact of_decide_eq_true (List.mem_filter.1 hbf').2
  rwa [List.eq_replicate_of_mem hsame, List.sum_replicate, List.length_map, smul_eq_mul, Nat.mul_comm] at hcount

private theorem turnsNormals_of_extractMeshes
    (horder : order.Perm ((meshesOf offset faces).entries.map Sigma.snd))
    (hnodes : extractMeshes rounding m order = .ok nodes) (hvalid : ∀ bf ∈ faces, bf.Valid) :
    TurnsNormals rounding m faces := by
  by_contra hnot
  obtain ⟨hexits, hall⟩ := not_or.1 hnot
  push Not at hexits hall
  obtain ⟨bf, hbf, hthree⟩ := hall
  obtain ⟨node, hnode⟩ := extract_of_extractMeshes horder hnodes hvalid hbf
  obtain ⟨-, -, hcontinues | hnone⟩ := extract_ok hnode
  · exact hcontinues hexits
  have hlength := (lengths_foldl offset (faces.filter fun bf' => decide (bf'.getSize = bf.getSize))
    fun bf' hbf' => hvalid bf' (List.mem_filter.1 hbf').1).2.2
  rw [hnone] at hlength
  have hsame : bf ∈ faces.filter fun bf' => decide (bf'.getSize = bf.getSize) :=
    List.mem_filter.2 ⟨hbf, decide_eq_true rfl⟩
  have hle := getSize_le_sum ((List.mem_filter (p := Face.hasNormals)).2 ⟨hsame, decide_eq_true hthree⟩)
  rw [← hlength, List.length_nil] at hle
  omega

theorem KeepsApart.extracts (h : KeepsApart rounding offset m faces) (hvalid : ∀ bf ∈ faces, bf.Valid) :
    ∃ nodes, extractMeshes rounding m ((meshesOf offset faces).entries.map Sigma.snd) = .ok nodes := by
  obtain ⟨meshes, hmeshes, hall⟩ := h
  rw [foldlM_addFace hvalid] at hmeshes
  cases hmeshes
  obtain ⟨nodes, hnodes, -⟩ := hall _ (List.Perm.refl _)
  exact ⟨nodes, hnodes⟩

theorem KeepsApart.not_mixed (h : KeepsApart rounding offset m faces) (hvalid : ∀ bf ∈ faces, bf.Valid) : ¬ Mixed faces := by
  obtain ⟨nodes, hnodes⟩ := h.extracts hvalid
  exact not_mixed_of_extractMeshes (List.Perm.refl _) hnodes hvalid

theorem KeepsApart.countable (h : KeepsApart rounding offset m faces) (hvalid : ∀ bf ∈ faces, bf.Valid) :
    Countable faces := by
  obtain ⟨nodes, hnodes⟩ := h.extracts hvalid
  exact countable_of_extractMeshes (List.Perm.refl _) hnodes hvalid

/-- For valid faces, what is extracted is right exactly if there are not both triangles with UVs and triangles without,
the vertices of the lines and those of the triangles can be counted, and the matrix of the normals does not end the
process. -/
theorem keepsApart_iff (rounding : Rounding R) (offset : RepoVector3D R) (hvalid : ∀ bf ∈ faces, bf.Valid)
    (hm : m.Affine) : KeepsApart rounding offset m faces ↔
      ¬ Mixed faces ∧ Countable faces ∧ TurnsNormals rounding m faces := by
  constructor
  · intro h
    obtain ⟨nodes, hnodes⟩ := h.extracts hvalid
    exact ⟨h.not_mixed hvalid, h.countable hvalid, turnsNormals_of_extractMeshes (List.Perm.refl _) hnodes hvalid⟩
  · exact fun ⟨hmixed, hcount, hturns⟩ => keepsApart_of_not_mixed hvalid hm.not_exits hturns hmixed hcount

/-- Nothing is rounded. -/
def Rounding.exact : Rounding R := ⟨id, RepoMatrix.worldMat⟩

theorem usable_of_affine (hm : m.Affine) (hdet : m.determinant ≠ 0) : Usable .exact m :=
  ⟨hm.not_exits, (hm.worldMat hdet).not_exits⟩

private theorem turnsNormals_exact (hm : m.Affine) (hdet : m.determinant ≠ 0) (faces : List (Face R)) :
    TurnsNormals .exact m faces := .inl (usable_of_affine hm hdet).normals

end All

section Examples

/-- A triangle, with these UVs. -/
noncomputable def triangleFace (uvs : List (RepoVector2D ℝ)) : Face ℝ :=
  ⟨[⟨0, 0, 0⟩, ⟨1, 0, 0⟩, ⟨0, 1, 0⟩], ⟨0, 0, 1⟩, uvs, by simp⟩

noncomputable def lineFace : Face ℝ := ⟨[⟨0, 0, 0⟩, ⟨1, 0, 0⟩], ⟨0, 0, 0⟩, [], Nat.le_succ 2⟩

noncomputable def unitUvs : List (RepoVector2D ℝ) := [⟨0, 0⟩, ⟨1, 0⟩, ⟨0, 1⟩]

theorem affine_scale (s : ℝ) : (RepoMatrix.scale s).Affine := ⟨rfl, rfl, rfl, rfl⟩

theorem determinant_scale_one : (RepoMatrix.scale (1 : ℝ)).determinant ≠ 0 := by
  rw [(affine_scale 1).determinant]
  change (1 : ℝ) * (1 * 1 - 0 * 0) - 0 * (0 * 1 - 0 * 0) + 0 * (0 * 0 - 1 * 0) ≠ 0
  norm_num

/-- Lines and triangles are kept apart. -/
theorem keepsApart_line_triangle : KeepsApart .exact 0 (RepoMatrix.scale 1) [lineFace, triangleFace unitUvs] ↔
    ¬ Mixed [lineFace, triangleFace unitUvs] ∧ Countable [lineFace, triangleFace unitUvs] ∧
      TurnsNormals .exact (RepoMatrix.scale 1) [lineFace, triangleFace unitUvs] := by
  refine keepsApart_iff .exact 0 ?_ (affine_scale 1)
  intro bf hbf
  rcases List.mem_cons.1 hbf with rfl | hbf
  · exact .inl ⟨rfl, rfl⟩
  · rw [List.mem_singleton.1 hbf]
    exact .inr ⟨rfl, .inr rfl⟩

/-- Triangles with and without UVs are not. -/
theorem not_keepsApart_mixed : (∀ bf ∈ [triangleFace [], triangleFace unitUvs], bf.Valid) ∧
    (RepoMatrix.scale (1 : ℝ)).Affine ∧
    TurnsNormals .exact (RepoMatrix.scale 1) [triangleFace [], triangleFace unitUvs] ∧
    ¬ KeepsApart .exact 0 (RepoMatrix.scale 1) [triangleFace [], triangleFace unitUvs] := by
  have hvalid : ∀ bf ∈ [triangleFace [], triangleFace unitUvs], bf.Valid := by
    intro bf hbf
    rcases List.mem_cons.1 hbf with rfl | hbf
    · exact .inr ⟨rfl, .inl rfl⟩
    · rw [List.mem_singleton.1 hbf]
      exact .inr ⟨rfl, .inr rfl⟩
  refine ⟨hvalid, affine_scale 1, turnsNormals_exact (affine_scale 1) determinant_scale_one _,
    fun h => h.not_mixed hvalid ⟨?_, ?_⟩⟩
  · exact ⟨_, List.mem_cons_of_mem _ (List.mem_singleton.2 rfl), rfl, List.cons_ne_nil _ _⟩
  · exact ⟨_, List.mem_cons_self, rfl, rfl⟩

end Examples

end RepoMeshBuilder

end Bouncer
