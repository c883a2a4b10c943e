import Bouncer.Clash.Pipelines
import Bouncer.Core.StreamingMeshNode
import Bouncer.Datastructure.Matrix

/-!
# Loading the geometry of a mesh

`PipelineUtils::loadGeometry` loads the buffers of a mesh document, decodes the mesh, and appends a triangle for every
face.  It reads three corners of each face, whatever the size of the face is.  A line has no third index, and the slot
for it holds its own position, 2.  So a line is loaded as a triangle with the vertex 2, and if there is no such vertex
the read is outside of the array (`loadFace_line`).

What is loaded are the triangles of the mesh exactly if it has no lines (and its faces and UV channels can be decoded,
and the transform is affine): `loadsTriangles_iff`.
-/

namespace Bouncer.Clash

open Library (Packing Value)
open Library.Fallible (bind_eq_ok exists_mapM_iff forall₂_of_mapM)

/-- How `loadGeometry` fails. -/
inductive LoadFailure where
  | bson (e : RepoBSONError)
  | mesh (e : DeserialiseFailure)
  /-- A vertex is read that is not there. -/
  | readOutside
  /-- The product with the matrix ends the process. -/
  | exit

section Load

variable {U F R : Type}

/-- What is inserted for a document: its buffers go into a file. -/
def insertedDocument (bson : RepoBSON (RepoVariant U F)) (fileRef : Value (RepoVariant U F)) :
    RepoBSON (RepoVariant U F) :=
  if bson.getBinariesAsBuffer.2 ≠ [] then bson.replaceBinaryWithReference fileRef bson.getBinariesAsBuffer.1
  else .ofFields bson.fields

/-- `loadBinaryBuffers`, with what is in the file. -/
def loadBinaryBuffers (bson : RepoBSON (RepoVariant U F)) (buffer : List Byte) :
    Except RepoBSONError (RepoBSON (RepoVariant U F)) :=
  if bson.hasFileReference then bson.initBinaryBuffer buffer else .ok bson

variable [Field R] [LinearOrder R] (widen : F → R) (matrix : RepoMatrix R)

/-- `RepoVector3D64(v)`. -/
def toDouble (v : RepoVector3D F) : RepoVector3D R := ⟨widen v.x, widen v.y, widen v.z⟩

/-- `node.matrix * RepoVector3D64(vertices[i])`. -/
def loadCorner (vertices : List (RepoVector3D F)) (i : ℕ) : Except LoadFailure (RepoVector3D R) :=
  match vertices[i]? with
  | none => .error .readOutside
  | some v =>
    match matrix.mulVector (toDouble widen v) with
    | none => .error .exit
    | some p => .ok p

/-- One turn of the loop over the faces. -/
def loadFace (vertices : List (RepoVector3D F)) (face : RepoFace) : Except LoadFailure (RepoTriangle R) := do
  let a ← loadCorner widen matrix vertices (face.get 0)
  let b ← loadCorner widen matrix vertices (face.get 1)
  let c ← loadCorner widen matrix vertices (face.get 2)
  return ⟨a, b, c⟩

/-- `PipelineUtils::loadGeometry`: the triangles that are appended, with at most `n` turns of the loop that decodes the
faces. -/
def PipelineUtils.loadGeometry (P : Packing F Byte) (bson : RepoBSON (RepoVariant U F)) (buffer : List Byte) (n : ℕ) :
    Except LoadFailure (List (RepoTriangle R)) := do
  let bson ← (loadBinaryBuffers bson buffer).mapError .bson
  let mesh ← (MeshNode.deserialise P bson n).mapError .mesh
  mesh.faces.mapM (loadFace widen matrix mesh.vertices)

end Load

section Spec

variable {U F R : Type} [Field R] [LinearOrder R] [DecidableEq U] [Inhabited U] [DecidableEq F] [One F]

/-- A triangle has the corners of a face, multiplied by the matrix. -/
def IsImage (widen : F → R) (matrix : RepoMatrix R) (vertices : List (RepoVector3D F)) (face : RepoFace)
    (triangle : RepoTriangle R) : Prop :=
  ∃ a b c, vertices[face.get 0]? = some a ∧ vertices[face.get 1]? = some b ∧ vertices[face.get 2]? = some c ∧
    triangle = ⟨matrix.image (toDouble widen a), matrix.image (toDouble widen b), matrix.image (toDouble widen c)⟩

/-- The triangles that are loaded of an inserted mesh are those of its faces that are triangles, in order. -/
def LoadsTriangles (P : Packing F Byte) (widen : F → R) (matrix : RepoMatrix R) (node : MeshNode U F)
    (fileRef : Value (RepoVariant U F)) : Prop :=
  ∃ n triangles, PipelineUtils.loadGeometry widen matrix P (insertedDocument (node.bson P) fileRef)
      (node.bson P).getBinariesAsBuffer.2 n = .ok triangles ∧
    List.Forall₂ (IsImage widen matrix node.vertices) (node.faces.filter fun face => decide (face.sides = 3)) triangles

end Spec

/-! ### The document -/

variable {faces : List RepoFace}

section Document

variable {U F : Type} [DecidableEq U] [Inhabited U] [DecidableEq F] [One F] {P : Packing F Byte} {node : MeshNode U F}

omit [DecidableEq U] [Inhabited U] [DecidableEq F] [One F] in
private theorem arrays_eq_nil (h : (node.arrays P).size = 0) : node.arrays P = [] := by
  have hP := P.width_pos
  rw [MeshNode.size_arrays] at h
  have hzero : ∀ {w n : ℕ}, 0 < w → w * n = 0 → n = 0 := fun hw hn => (Nat.mul_eq_zero.1 hn).resolve_left hw.ne'
  have hvertices : node.vertices.length = 0 := hzero (w := P.width + (P.width + P.width)) (by omega) (by omega)
  have hwords : (MeshNode.facesLevel1 node.faces).length = 0 := by omega
  have hnormals : node.normals.length = 0 := hzero (w := P.width + (P.width + P.width)) (by omega) (by omega)
  have huvs : node.uvChannelsSerialised.length = 0 := hzero (w := P.width + P.width) (by omega) (by omega)
  have hfaces : node.faces = [] := by
    cases hfaces : node.faces with
    | nil => rfl
    | cons face faces =>
      rw [hfaces, MeshNode.facesLevel1, List.flatMap_cons, List.length_append, List.length_cons] at hwords
      omega
  unfold MeshNode.arrays
  rw [List.length_eq_zero_iff.1 hvertices, hfaces, List.length_eq_zero_iff.1 hnormals, List.length_eq_zero_iff.1 huvs]
  rfl

/-- The mesh that is decoded is that of the document before it was inserted. -/
theorem exists_loadBinaryBuffers (hmemory : node.InMemory P) (fileRef : Value (RepoVariant U F)) :
    ∃ restored, loadBinaryBuffers (insertedDocument (node.bson P) fileRef) (node.bson P).getBinariesAsBuffer.2 =
        .ok restored ∧
      ∀ n, MeshNode.deserialise P restored n = MeshNode.deserialise P (node.bson P) n := by
  let loaded : LoadedBSON (RepoVariant U F) := ⟨node.bson P, hmemory.size_lt⟩
  unfold insertedDocument
  by_cases hbuffer : (node.bson P).getBinariesAsBuffer.2 ≠ []
  · obtain ⟨restored, hrestored, hperm, hfields⟩ := RepoBSON.initBinaryBuffer_replaced loaded fileRef
    have hreference : ((node.bson P).replaceBinaryWithReference fileRef
        (node.bson P).getBinariesAsBuffer.1).hasFileReference = true := by
      unfold RepoBSON.hasFileReference RepoBSON.hasField
      rw [RepoBSON.lookup_replaced]
      rfl
    rw [if_pos hbuffer]
    refine ⟨restored, ?_, fun n => ?_⟩
    · unfold loadBinaryBuffers
      rw [if_pos hreference]
      exact hrestored
    · refine StreamingMeshNode.deserialise_congr (fun label => ?_) (fun label hlabel => ?_) n
      · exact (StreamingMeshNode.find_of_perm (node.nodup_arrays P) hperm.symm label).symm
      · rw [hfields]
        exact RepoBSON.lookup_replaced_of_ne _ _ _ hlabel
  · have hsize : (node.arrays P).size = 0 := by
      rw [not_not, RepoBSON.getBinariesAsBuffer_eq _ hmemory.size_lt] at hbuffer
      rw [← RepoBSON.length_flatten]
      exact List.length_eq_zero_iff.2 hbuffer
    have harrays : (node.bson P).bigFiles = [] := arrays_eq_nil hsize
    have hreference : (RepoBSON.ofFields (node.bson P).fields).hasFileReference = false := by
      have hblobRef : Library.lookup (node.bson P).fields "_blobRef" = none := node.fields_serialise.blobRef
      unfold RepoBSON.hasFileReference RepoBSON.hasField RepoBSON.ofFields
      rw [hblobRef]
      rfl
    rw [if_neg hbuffer]
    refine ⟨.ofFields (node.bson P).fields, ?_, fun n => ?_⟩
    · unfold loadBinaryBuffers
      rw [hreference]
      rfl
    · have hfiles : ∀ label, (RepoBSON.ofFields (node.bson P).fields).bigFiles.find label =
          (node.bson P).bigFiles.find label := by
        intro label
        rw [harrays]
        rfl
      exact StreamingMeshNode.deserialise_congr hfiles (fun _ _ => rfl) n

/-- Whatever faces are decoded, they are those of the mesh, and all positions among their words were `int`s. -/
theorem deserialiseFaces_ok (hmemory : node.InMemory P) {n : ℕ}
    (h : MeshNode.deserialiseFaces (node.bson P) n = .ok faces) :
    faces = node.faces ∧ (MeshNode.facesLevel1 node.faces).length < 2 ^ 31 := by
  by_cases hfaces : node.faces = []
  · rw [MeshNode.deserialiseFaces_bson, if_pos hfaces] at h
    rw [hfaces]
    exact ⟨(Except.ok.inj h).symm, by positivity⟩
  · have hlength : (MeshNode.serializedFaces node.faces).length < 2 ^ 61 := by
      have hsize := hmemory.size_lt
      rw [MeshNode.size_arrays] at hsize
      rw [MeshNode.length_serializedFaces]
      omega
    rw [MeshNode.deserialiseFaces_bson, if_neg hfaces, dif_pos hlength] at h
    obtain ⟨faces', hrun, rfl⟩ := MeshNode.decodedFaces_eq_ok_iff.1 h
    have hcount : ¬ MeshNode.int32 node.faces.length < 0 := by
      intro hneg
      unfold FaceDecoding.MeshNode.deserialise FaceDecoding.deserialise at hrun
      rw [if_pos hneg] at hrun
      exact nomatch hrun
    unfold FaceDecoding.MeshNode.deserialise FaceDecoding.deserialise at hrun
    rw [if_neg hcount] at hrun
    have hrun := Except.ok.inj hrun
    have hframed := (FaceDecoding.leaves_iff (FaceDecoding.inside_start _)).1 (Library.Loop.exists_run_iff.1 ⟨n, faces', hrun⟩)
    have hsize : (MeshNode.facesLevel1 node.faces).length < 2 ^ 31 := by
      rw [← MeshNode.length_serializedFaces]
      rcases hframed.size_lt with hlt | hend
      · exact hlt
      · have hzero : (MeshNode.serializedFaces node.faces).length = 0 := hend.symm
        omega
    -- the run that decodes the faces of the mesh ends with the same result
    obtain ⟨n', h'⟩ := (MeshNode.deserialiseFaces_iff hmemory).2 hsize
    rw [MeshNode.deserialiseFaces_bson, if_neg hfaces, dif_pos hlength] at h'
    obtain ⟨faces'', hrun', hsame⟩ := MeshNode.decodedFaces_eq_ok_iff.1 h'
    unfold FaceDecoding.MeshNode.deserialise FaceDecoding.deserialise at hrun'
    rw [if_neg hcount] at hrun'
    have hrun' := Library.Loop.run_mono (Nat.le_max_right n n') (Except.ok.inj hrun')
    rw [Library.Loop.run_mono (Nat.le_max_left n n') hrun] at hrun'
    obtain rfl : faces' = faces'' := Sum.inl.inj (Option.some.inj hrun')
    exact ⟨hsame, hsize⟩

private theorem exists_deserialiseChannels_iff : (∃ channels, MeshNode.deserialiseChannels P (node.bson P) = .ok channels) ↔
    (node.uvChannelsSerialised ≠ [] → node.channels.length % 2 ^ 32 ≠ 0) := by
  rw [MeshNode.deserialiseChannels_bson]
  by_cases huvs : node.uvChannelsSerialised = []
  · rw [if_pos huvs]
    exact iff_of_true ⟨_, rfl⟩ fun hne => absurd huvs hne
  · have hcount : (MeshNode.int32 node.channels.length % 2 ^ 32).toNat = node.channels.length % 2 ^ 32 := bmod_emod _
    rw [if_neg huvs]
    constructor
    · rintro ⟨channels, h⟩ _ hzero
      have hsplit : splitChannels node.uvChannelsSerialised (MeshNode.int32 node.channels.length) =
          .error .divisionByZero := by
        unfold splitChannels
        dsimp only
        rw [hcount, if_pos hzero]
      rw [hsplit] at h
      exact nomatch h
    · intro hne
      have hne := hne huvs
      rw [← hcount] at hne
      obtain ⟨channels, h⟩ := exists_splitChannels node.uvChannelsSerialised hne
      rw [h]
      exact ⟨channels, rfl⟩

private theorem deserialise_ok_iff (hmemory : node.InMemory P) : (∃ n mesh, MeshNode.deserialise P (node.bson P) n = .ok mesh) ↔
    (MeshNode.facesLevel1 node.faces).length < 2 ^ 31 ∧
      (node.uvChannelsSerialised ≠ [] → node.channels.length % 2 ^ 32 ≠ 0) := by
  have hvertices := MeshNode.deserialiseVectors_eq "vertices" node.vertices (node.find_vertices P)
  have hnormals := MeshNode.deserialiseVectors_eq "normals" node.normals (node.find_normals P)
  rw [← exists_deserialiseChannels_iff (P := P)]
  constructor
  · rintro ⟨n, mesh, h⟩
    unfold MeshNode.deserialise at h
    obtain ⟨faces, hfaces, h⟩ := bind_eq_ok.1 h
    obtain ⟨_, _, h⟩ := bind_eq_ok.1 h
    obtain ⟨_, _, h⟩ := bind_eq_ok.1 h
    obtain ⟨channels, hchannels, -⟩ := bind_eq_ok.1 h
    exact ⟨(deserialiseFaces_ok hmemory hfaces).2, channels, hchannels⟩
  · rintro ⟨hwords, channels, hchannels⟩
    obtain ⟨n, hfaces⟩ := (MeshNode.deserialiseFaces_iff hmemory).2 hwords
    refine ⟨n, ⟨⟨node.vertices, node.normals, channels⟩, node.faces⟩, ?_⟩
    unfold MeshNode.deserialise
    rw [hfaces, hvertices, hnormals, hchannels]
    rfl

private theorem faces_vertices_of_deserialise (hmemory : node.InMemory P) {n : ℕ} {mesh : MeshGeometry F}
    (h : MeshNode.deserialise P (node.bson P) n = .ok mesh) : mesh.faces = node.faces ∧ mesh.vertices = node.vertices := by
  have hread := MeshNode.deserialiseVectors_eq "vertices" node.vertices (node.find_vertices P)
  unfold MeshNode.deserialise at h
  obtain ⟨faces, hfaces, h⟩ := bind_eq_ok.1 h
  obtain ⟨vertices, hvertices, h⟩ := bind_eq_ok.1 h
  obtain ⟨_, _, h⟩ := bind_eq_ok.1 h
  obtain ⟨_, _, h⟩ := bind_eq_ok.1 h
  obtain rfl := (Except.ok.inj h).symm
  rw [hread] at hvertices
  exact ⟨(deserialiseFaces_ok hmemory hfaces).1, (Except.ok.inj hvertices).symm⟩

end Document

/-! ### Faces -/

section Faces

variable {F R : Type} [Field R] [LinearOrder R] {widen : F → R} {matrix : RepoMatrix R} {vertices : List (RepoVector3D F)}
  {face : RepoFace}

private theorem loadCorner_ok_iff {i : ℕ} {p : RepoVector3D R} : loadCorner widen matrix vertices i = .ok p ↔
    ¬ matrix.Exits ∧ ∃ v, vertices[i]? = some v ∧ p = matrix.image (toDouble widen v) := by
  unfold loadCorner RepoMatrix.mulVector
  cases vertices[i]? with
  | none => simp
  | some v => by_cases h : matrix.Exits <;> simp [h, eq_comm]

private theorem loadFace_ok_iff {triangle : RepoTriangle R} : loadFace widen matrix vertices face = .ok triangle ↔
    ¬ matrix.Exits ∧ IsImage widen matrix vertices face triangle := by
  unfold loadFace IsImage
  simp only [bind_eq_ok, loadCorner_ok_iff]
  constructor
  · rintro ⟨_, ⟨hexits, a, ha, rfl⟩, _, ⟨-, b, hb, rfl⟩, _, ⟨-, c, hc, rfl⟩, h⟩
    cases h
    exact ⟨hexits, a, b, c, ha, hb, hc, rfl⟩
  · rintro ⟨hexits, a, b, c, ha, hb, hc, rfl⟩
    exact ⟨_, ⟨hexits, a, ha, rfl⟩, _, ⟨hexits, b, hb, rfl⟩, _, ⟨hexits, c, hc, rfl⟩, rfl⟩

/-- The third corner of a line is the vertex 2. -/
theorem loadFace_line {i j : ℕ} (hexits : ¬ matrix.Exits) (hi : i < vertices.length) (hj : j < vertices.length)
    (hface : face.indices = [i, j]) : loadFace widen matrix vertices face =
      if h : 2 < vertices.length then .ok ⟨matrix.image (toDouble widen vertices[i]),
        matrix.image (toDouble widen vertices[j]), matrix.image (toDouble widen vertices[2])⟩
      else .error .readOutside := by
  have h0 : face.get 0 = i := by simp [RepoFace.get, hface]
  have h1 : face.get 1 = j := by simp [RepoFace.get, hface]
  have h2 : face.get 2 = 2 := by simp [RepoFace.get, hface]
  split
  · next h =>
    refine loadFace_ok_iff.2 ⟨hexits, vertices[i], vertices[j], vertices[2], ?_, ?_, ?_, rfl⟩
    · rw [h0, List.getElem?_eq_getElem hi]
    · rw [h1, List.getElem?_eq_getElem hj]
    · rw [h2, List.getElem?_eq_getElem h]
  · next h =>
    have hthird : loadCorner widen matrix vertices 2 = .error .readOutside := by
      unfold loadCorner
      rw [List.getElem?_eq_none (not_lt.1 h)]
    have hfirst : ∀ {k : ℕ} (hk : k < vertices.length), loadCorner widen matrix vertices k =
        .ok (matrix.image (toDouble widen vertices[k])) := fun hk =>
      loadCorner_ok_iff.2 ⟨hexits, _, List.getElem?_eq_getElem hk, rfl⟩
    unfold loadFace
    rw [h0, h1, h2, hfirst hi, hfirst hj, hthird]
    rfl

omit [LinearOrder R] in
private theorem exists_isImage (hsides : face.sides = 3) (hindices : ∀ i ∈ face.indices, i < vertices.length) :
    ∃ triangle, IsImage widen matrix vertices face triangle := by
  have hget : ∀ k < 3, ∃ v, vertices[face.get k]? = some v := by
    intro k hk
    have hlt := hindices _ (face.get_mem (hsides ▸ hk))
    exact ⟨_, List.getElem?_eq_getElem hlt⟩
  obtain ⟨a, ha⟩ := hget 0 (by omega)
  obtain ⟨b, hb⟩ := hget 1 (by omega)
  obtain ⟨c, hc⟩ := hget 2 (by omega)
  exact ⟨_, a, b, c, ha, hb, hc, rfl⟩

private theorem sides_of_mapM {vertices : List (RepoVector3D F)} {triangles : List (RepoTriangle R)}
    (hload : faces.mapM (loadFace widen matrix vertices) = .ok triangles)
    (himages : List.Forall₂ (IsImage widen matrix vertices) (faces.filter fun face => decide (face.sides = 3)) triangles) :
    ∀ face ∈ faces, face.sides = 3 := by
  have hlength : (faces.filter fun face => decide (face.sides = 3)).length = faces.length := by
    rw [himages.length_eq, (forall₂_of_mapM hload).length_eq]
  intro face hface
  simpa using List.length_filter_eq_length_iff.1 hlength face hface

private theorem exists_mapM {vertices : List (RepoVector3D F)} (hsides : ∀ face ∈ faces, face.sides = 3)
    (hindices : ∀ face ∈ faces, ∀ i ∈ face.indices, i < vertices.length) (hexits : faces ≠ [] → ¬ matrix.Exits) :
    ∃ triangles, faces.mapM (loadFace widen matrix vertices) = .ok triangles ∧
      List.Forall₂ (IsImage widen matrix vertices) (faces.filter fun face => decide (face.sides = 3)) triangles := by
  have hturns : ∀ face ∈ faces, ∃ triangle, loadFace widen matrix vertices face = .ok triangle := by
    intro face hface
    obtain ⟨triangle, htriangle⟩ : ∃ triangle, IsImage widen matrix vertices face triangle :=
      exists_isImage (hsides face hface) (hindices face hface)
    exact ⟨triangle, loadFace_ok_iff.2 ⟨hexits (List.ne_nil_of_mem hface), htriangle⟩⟩
  obtain ⟨triangles, hload⟩ := exists_mapM_iff.2 hturns
  have hall : (faces.filter fun face => decide (face.sides = 3)) = faces :=
    List.filter_eq_self.2 fun face hface => decide_eq_true (hsides face hface)
  refine ⟨triangles, hload, ?_⟩
  rw [hall]
  exact (forall₂_of_mapM hload).imp fun _ _ h => (loadFace_ok_iff.1 h).2

end Faces

/-! ### What is loaded -/

section Loads

variable {U F R : Type} [Field R] [LinearOrder R] [DecidableEq U] [Inhabited U] [DecidableEq F] [One F]
  {P : Packing F Byte} {widen : F → R} {matrix : RepoMatrix R} {node : MeshNode U F} {fileRef : Value (RepoVariant U F)}

/-- A face is loaded for each face of the mesh. -/
theorem loadGeometry_ok_iff (hmemory : node.InMemory P) {triangles : List (RepoTriangle R)} :
    (∃ n, PipelineUtils.loadGeometry widen matrix P (insertedDocument (node.bson P) fileRef)
      (node.bson P).getBinariesAsBuffer.2 n = .ok triangles) ↔
    (MeshNode.facesLevel1 node.faces).length < 2 ^ 31 ∧
      (node.uvChannelsSerialised ≠ [] → node.channels.length % 2 ^ 32 ≠ 0) ∧
      node.faces.mapM (loadFace widen matrix node.vertices) = .ok triangles := by
  obtain ⟨restored, hload, hsame⟩ := exists_loadBinaryBuffers hmemory fileRef
  have hloaded (n : ℕ) : PipelineUtils.loadGeometry widen matrix P (insertedDocument (node.bson P) fileRef)
      (node.bson P).getBinariesAsBuffer.2 n =
        ((MeshNode.deserialise P (node.bson P) n).mapError LoadFailure.mesh).bind fun mesh =>
          mesh.faces.mapM (loadFace widen matrix mesh.vertices) := by
    unfold PipelineUtils.loadGeometry
    rw [hload]
    simp only [Except.mapError, bind, Except.bind, hsame n]
  simp only [hloaded]
  rw [← and_assoc, ← deserialise_ok_iff hmemory]
  constructor
  · rintro ⟨n, h⟩
    cases hmesh : MeshNode.deserialise P (node.bson P) n with
    | error e =>
      rw [hmesh] at h
      exact nomatch h
    | ok mesh =>
      obtain ⟨hfaces, hvertices⟩ := faces_vertices_of_deserialise hmemory hmesh
      rw [hmesh] at h
      rw [← hfaces, ← hvertices]
      exact ⟨⟨n, mesh, hmesh⟩, h⟩
  · rintro ⟨⟨n, mesh, hmesh⟩, h⟩
    obtain ⟨hfaces, hvertices⟩ := faces_vertices_of_deserialise hmemory hmesh
    refine ⟨n, ?_⟩
    rw [hmesh]
    show mesh.faces.mapM (loadFace widen matrix mesh.vertices) = .ok triangles
    rw [hfaces, hvertices]
    exact h

/-- The triangles of a mesh of lines and triangles are loaded, and nothing else, exactly if it has no lines, its faces and
UV channels can be decoded, and the matrix is one that can be multiplied with. -/
theorem loadsTriangles_iff (P : Packing F Byte) (widen : F → R) (matrix : RepoMatrix R) (node : MeshNode U F)
    (fileRef : Value (RepoVariant U F)) (hmemory : node.InMemory P)
    (hindices : ∀ face ∈ node.faces, ∀ i ∈ face.indices, i < node.vertices.length) :
    LoadsTriangles P widen matrix node fileRef ↔
      (∀ face ∈ node.faces, face.sides = 3) ∧ (node.faces ≠ [] → ¬ matrix.Exits) ∧
      (MeshNode.facesLevel1 node.faces).length < 2 ^ 31 ∧
      (node.uvChannelsSerialised ≠ [] → node.channels.length % 2 ^ 32 ≠ 0) := by
  constructor
  · rintro ⟨n, triangles, hload, himages⟩
    obtain ⟨hwords, hchannels, hmapM⟩ := (loadGeometry_ok_iff hmemory).1 ⟨n, hload⟩
    refine ⟨sides_of_mapM hmapM himages, ?_, hwords, hchannels⟩
    intro hfaces
    obtain ⟨face, hface⟩ := List.exists_mem_of_ne_nil _ hfaces
    obtain ⟨triangle, htriangle⟩ := exists_mapM_iff.1 ⟨triangles, hmapM⟩ face hface
    exact (loadFace_ok_iff.1 htriangle).1
  · rintro ⟨hsides, hexits, hwords, hchannels⟩
    obtain ⟨triangles, hmapM, himages⟩ := exists_mapM hsides hindices hexits
    obtain ⟨n, hload⟩ : ∃ n, PipelineUtils.loadGeometry widen matrix P (insertedDocument (node.bson P) fileRef)
        (node.bson P).getBinariesAsBuffer.2 n = .ok triangles :=
      (loadGeometry_ok_iff hmemory).2 ⟨hwords, hchannels, hmapM⟩
    exact ⟨n, triangles, hload, himages⟩

/-- What the pipelines take for the triangles of a node is what is loaded for it. -/
theorem loadGeometry_node {boost : Boost} (graphNode : Node boost R) (himage : graphNode.matrix = matrix.image)
    (hvertices : graphNode.vertices = node.vertices.map (toDouble widen)) (hfaces : graphNode.faces = node.faces)
    (hmemory : node.InMemory P) {n : ℕ} {triangles : List (RepoTriangle R)}
    (h : PipelineUtils.loadGeometry widen matrix P (insertedDocument (node.bson P) fileRef)
      (node.bson P).getBinariesAsBuffer.2 n = .ok triangles) : triangles = loadGeometry graphNode := by
  obtain ⟨-, -, hmapM⟩ := (loadGeometry_ok_iff hmemory).1 ⟨n, h⟩
  have hcorner : ∀ {i : ℕ} {v : RepoVector3D F}, node.vertices[i]? = some v →
      graphNode.matrix (graphNode.vertices.getD i 0) = matrix.image (toDouble widen v) := by
    intro i v hv
    rw [himage, hvertices, List.getD_eq_getElem?_getD, List.getElem?_map, hv]
    rfl
  have hturns := (forall₂_of_mapM hmapM).imp fun _ _ hface => (loadFace_ok_iff.1 hface).2
  unfold loadGeometry
  rw [hfaces]
  refine List.forall₂_eq_eq_eq ▸ ?_
  rw [List.forall₂_map_right_iff]
  refine hturns.flip.imp ?_
  rintro triangle face ⟨a, b, c, ha, hb, hc, rfl⟩
  dsimp only
  rw [hcorner ha, hcorner hb, hcorner hc]

end Loads

/-! ### A line -/

/-- The values of the `float`s 0 and 1. -/
def zeroOrOne (word : BitVec 32) : ℚ := if word = 0x3F800000#32 then 1 else 0

/-- Three vertices, and the face between the first two of them or all. -/
def meshWith (face : RepoFace) : MeshNode ℕ (BitVec 32) where
  uniqueId := 1
  sharedId := 2
  name := ""
  parentIds := []
  revId := 3
  boundingBox := ⟨⟨0, 0, 0⟩, ⟨0x3F800000, 0x3F800000, 0⟩⟩
  vertices := [⟨0, 0, 0⟩, ⟨0x3F800000, 0, 0⟩, ⟨0, 0x3F800000, 0⟩]
  faces := [face]
  normals := []
  channels := []
  opacity := 0x3F800000
  textureId := 0
  grouping := ""

private theorem inMemory_meshWith {face : RepoFace} (h : ∀ i ∈ face.indices, i < 3) : (meshWith face).InMemory Packing.word where
  index_lt := by
    intro face' hface' i hi
    have hfaces : (meshWith face).faces = [face] := rfl
    rw [hfaces, List.mem_singleton] at hface'
    subst hface'
    have := h i hi
    omega
  size_lt := by
    have hvertices : (meshWith face).vertices.length = 3 := rfl
    have hfaces : (MeshNode.facesLevel1 (meshWith face).faces).length = face.indices.length + 1 := by
      simp [meshWith, MeshNode.facesLevel1]
    have hnormals : (meshWith face).normals.length = 0 := rfl
    have huvs : (meshWith face).uvChannelsSerialised.length = 0 := rfl
    have hsides := face.sides_le
    rw [MeshNode.size_arrays, hvertices, hfaces, hnormals, huvs, Packing.width_word]
    omega

theorem loadsTriangles_triangle : LoadsTriangles Packing.word zeroOrOne 1 (meshWith (.triangle 0 1 2))
      (.scalar (.string "ref")) ↔
    (∀ face ∈ (meshWith (.triangle 0 1 2)).faces, face.sides = 3) ∧
      ((meshWith (.triangle 0 1 2)).faces ≠ [] → ¬ (1 : RepoMatrix ℚ).Exits) ∧
      (MeshNode.facesLevel1 (meshWith (.triangle 0 1 2)).faces).length < 2 ^ 31 ∧
      ((meshWith (.triangle 0 1 2)).uvChannelsSerialised ≠ [] → (meshWith (.triangle 0 1 2)).channels.length % 2 ^ 32 ≠ 0) :=
  loadsTriangles_iff Packing.word zeroOrOne 1 (meshWith (.triangle 0 1 2)) (.scalar (.string "ref"))
    (inMemory_meshWith (by decide)) (by decide)

/-- A line between two of three vertices is loaded as a triangle. -/
theorem not_loadsTriangles_line : (meshWith ⟨[0, 1], by decide⟩).InMemory Packing.word ∧
    (∀ face ∈ (meshWith ⟨[0, 1], by decide⟩).faces, ∀ i ∈ face.indices, i < (meshWith ⟨[0, 1], by decide⟩).vertices.length) ∧
    (∃ n, PipelineUtils.loadGeometry zeroOrOne 1 Packing.word
      (insertedDocument ((meshWith ⟨[0, 1], by decide⟩).bson Packing.word) (.scalar (.string "ref")))
      ((meshWith ⟨[0, 1], by decide⟩).bson Packing.word).getBinariesAsBuffer.2 n =
        .ok [⟨⟨0, 0, 0⟩, ⟨1, 0, 0⟩, ⟨0, 1, 0⟩⟩]) ∧
    ¬ LoadsTriangles Packing.word zeroOrOne 1 (meshWith ⟨[0, 1], by decide⟩) (.scalar (.string "ref")) := by
  have hmemory : (meshWith ⟨[0, 1], by decide⟩).InMemory Packing.word := inMemory_meshWith (by decide)
  refine ⟨hmemory, by decide, ?_, ?_⟩
  · refine (loadGeometry_ok_iff hmemory).2 ⟨by decide, by decide, ?_⟩
    have hline : loadFace zeroOrOne 1 (meshWith ⟨[0, 1], by decide⟩).vertices ⟨[0, 1], by decide⟩ =
        .ok ⟨⟨0, 0, 0⟩, ⟨1, 0, 0⟩, ⟨0, 1, 0⟩⟩ := by
      rw [loadFace_line RepoMatrix.affine_one.not_exits (by decide) (by decide) rfl, dif_pos (by decide)]
      simp only [RepoMatrix.image_one]
      rfl
    have hfaces : (meshWith ⟨[0, 1], by decide⟩).faces = [⟨[0, 1], by decide⟩] := rfl
    rw [hfaces, List.mapM_cons, hline]
    rfl
  · rintro ⟨n, triangles, hload, himages⟩
    obtain ⟨-, -, hmapM⟩ := (loadGeometry_ok_iff hmemory).1 ⟨n, hload⟩
    have hsides := sides_of_mapM hmapM himages ⟨[0, 1], by decide⟩ (List.mem_singleton.2 rfl)
    exact absurd hsides (by decide)

end Bouncer.Clash
