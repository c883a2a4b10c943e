import Bouncer.Core.FaceEncoding
import Bouncer.Core.RepoBSON
import Bouncer.Core.UVChannels
import Bouncer.Datastructure.Buffers

/-!
# The geometry of a mesh in a document

`MeshNode::serialise` puts the arrays of a mesh aside: the words of the faces, the vertices, the normals, and the UV channels
one after the other.  `MeshNode::deserialise` reads them.

Vertices and normals always come back.  The faces do if all positions among their words are `int`s, and the UV channels if
none of them is empty, and they are cut out where they were (`roundTrips_iff`).
-/

namespace Bouncer

open Library (Packing lookup lookup_nil lookup_cons)

/-- Faces, and the buffers that they index. -/
structure MeshGeometry (R : Type) extends VertexBuffers R where
  faces : List RepoFace

/-- How `MeshNode::deserialise` fails.  With too few turns of the loop over the faces it is not at its end. -/
inductive DeserialiseFailure where
  | unfinished
  | bson (e : RepoBSONError)
  | length_error
  | undefined

namespace MeshNode

variable {U R : Type}

def packedVector3D (P : Packing R Byte) : Packing (RepoVector3D R) Byte :=
  (P.prod (P.prod P)).congr
    { toFun := fun v => (v.x, v.y, v.z)
      invFun := fun p => ⟨p.1, p.2.1, p.2.2⟩
      left_inv := fun _ => rfl
      right_inv := fun _ => rfl }

def packedVector2D (P : Packing R Byte) : Packing (RepoVector2D R) Byte :=
  (P.prod P).congr
    { toFun := fun v => (v.x, v.y)
      invFun := fun p => ⟨p.1, p.2⟩
      left_inv := fun _ => rfl
      right_inv := fun _ => rfl }

/-- The vector `facesLevel1`. -/
def serializedFaces (faces : List RepoFace) : List (BitVec 32) := (facesLevel1 faces).map (BitVec.ofNat 32)

/-- The arrays that `serialise` puts aside, with scalars stored by `P`. -/
def arrays (P : Packing R Byte) (node : MeshNode U R) : BinMapping :=
  (if node.vertices ≠ [] then [("vertices", (packedVector3D P).pack node.vertices)] else []) ++
  (if node.faces ≠ [] then [("faces", Packing.word.pack (serializedFaces node.faces))] else []) ++
  (if node.normals ≠ [] then [("normals", (packedVector3D P).pack node.normals)] else []) ++
  (if node.uvChannelsSerialised ≠ [] then [("uv_channels", (packedVector2D P).pack node.uvChannelsSerialised)] else [])

theorem nodup_arrays (P : Packing R Byte) (node : MeshNode U R) : (node.arrays P).names.Nodup := by
  unfold arrays BinMapping.names
  split_ifs <;> simp

section Document

variable [DecidableEq U] [Inhabited U] [DecidableEq R] [One R]

/-- The document of a mesh, with its arrays. -/
def bson (P : Packing R Byte) (node : MeshNode U R) : RepoBSON (RepoVariant U R) :=
  ⟨(node.serialise .empty).fields, node.arrays P, node.nodup_arrays P⟩

end Document

/-- What the loop over the faces has done. -/
def decodedFaces : Except FaceDecoding.Exception (Option (List FaceDecoding.Face ⊕ FaceDecoding.Fault)) →
    Except DeserialiseFailure (List RepoFace)
  | .error _ => .error .length_error
  | .ok none => .error .unfinished
  | .ok (some (.inr _)) => .error .undefined
  | .ok (some (.inl faces)) => .ok (faces.map FaceDecoding.Face.toRepoFace)

def deserialiseFaces (bson : RepoBSON (RepoVariant U R)) (n : ℕ) : Except DeserialiseFailure (List RepoFace) :=
  if bson.hasBinField "faces" ∧ bson.hasField "faces_count" then do
    let facesCount ← (bson.getIntField "faces_count").mapError .bson
    let serializedFaces ← (bson.getBinaryFieldAsVector "faces" Packing.word).mapError .bson
    if h : serializedFaces.length < 2 ^ 61 then
      decodedFaces (FaceDecoding.MeshNode.deserialise facesCount ⟨serializedFaces, h⟩ n)
    else .error .length_error
  else .ok []

/-- An array of vectors, if there is one of this name. -/
def deserialiseVectors (P : Packing R Byte) (bson : RepoBSON (RepoVariant U R)) (label : String) :
    Except DeserialiseFailure (List (RepoVector3D R)) :=
  if bson.hasBinField label then (bson.getBinaryFieldAsVector label (packedVector3D P)).mapError .bson else .ok []

def deserialiseChannels (P : Packing R Byte) (bson : RepoBSON (RepoVariant U R)) :
    Except DeserialiseFailure (List (List (RepoVector2D R))) :=
  if bson.hasField "uv_channels_count" ∧ bson.hasBinField "uv_channels" then do
    let serialisedChannels ← (bson.getBinaryFieldAsVector "uv_channels" (packedVector2D P)).mapError .bson
    if serialisedChannels.length ≠ 0 then do
      let count ← (bson.getIntField "uv_channels_count").mapError .bson
      (splitChannels serialisedChannels count).mapError fun _ => .undefined
    else return []
  else .ok []

/-- `MeshNode::deserialise`, for the geometry, with at most `n` turns of the loop over the faces. -/
def deserialise (P : Packing R Byte) (bson : RepoBSON (RepoVariant U R)) (n : ℕ) :
    Except DeserialiseFailure (MeshGeometry R) := do
  let faces ← deserialiseFaces bson n
  let vertices ← deserialiseVectors P bson "vertices"
  let normals ← deserialiseVectors P bson "normals"
  let channels ← deserialiseChannels P bson
  return ⟨⟨vertices, normals, channels⟩, faces⟩

def geometry (node : MeshNode U R) : MeshGeometry R := ⟨⟨node.vertices, node.normals, node.channels⟩, node.faces⟩

/-- A mesh as it is in memory: the indices are `uint32_t`s, and the arrays can be there at the same time. -/
structure InMemory (P : Packing R Byte) (node : MeshNode U R) : Prop where
  index_lt : ∀ face ∈ node.faces, ∀ i ∈ face.indices, i < 2 ^ 32
  size_lt : (node.arrays P).size < 2 ^ 63

/-- What is written is read. -/
def RoundTrips [DecidableEq U] [Inhabited U] [DecidableEq R] [One R] (P : Packing R Byte) (node : MeshNode U R) : Prop :=
  ∃ n, deserialise P (node.bson P) n = .ok node.geometry

/-! ### The arrays -/

section Arrays

variable (P : Packing R Byte) (node : MeshNode U R)

theorem find_vertices : (node.arrays P).find "vertices" =
    if node.vertices = [] then none else some ((packedVector3D P).pack node.vertices) := by
  unfold arrays BinMapping.find
  split_ifs <;> simp_all

theorem find_faces : (node.arrays P).find "faces" =
    if node.faces = [] then none else some (Packing.word.pack (serializedFaces node.faces)) := by
  unfold arrays BinMapping.find
  split_ifs <;> simp_all

theorem find_normals : (node.arrays P).find "normals" =
    if node.normals = [] then none else some ((packedVector3D P).pack node.normals) := by
  unfold arrays BinMapping.find
  split_ifs <;> simp_all

theorem find_uvChannels : (node.arrays P).find "uv_channels" =
    if node.uvChannelsSerialised = [] then none else some ((packedVector2D P).pack node.uvChannelsSerialised) := by
  unfold arrays BinMapping.find
  split_ifs <;> simp_all

theorem width_packedVector3D : (packedVector3D P).width = P.width + (P.width + P.width) := rfl

theorem width_packedVector2D : (packedVector2D P).width = P.width + P.width := rfl

theorem length_serializedFaces (faces : List RepoFace) :
    (serializedFaces faces).length = (facesLevel1 faces).length := List.length_map _

theorem size_arrays : (node.arrays P).size = (P.width + (P.width + P.width)) * node.vertices.length +
    4 * (facesLevel1 node.faces).length + (P.width + (P.width + P.width)) * node.normals.length +
      (P.width + P.width) * node.uvChannelsSerialised.length := by
  unfold arrays BinMapping.size
  split_ifs <;> simp_all [width_packedVector3D, width_packedVector2D, length_serializedFaces, facesLevel1, Nat.add_assoc]

variable [DecidableEq U] [Inhabited U] [DecidableEq R] [One R]

end Arrays

/-! ### What is read -/

section Read

variable [DecidableEq U] [Inhabited U] [DecidableEq R] [One R] {P : Packing R Byte} {node : MeshNode U R}

private theorem serializedFaces_eq (faces : List RepoFace) : serializedFaces faces = faces.flatMap FaceDecoding.faceWords := by
  unfold serializedFaces facesLevel1
  rw [List.map_flatMap]
  rfl

theorem deserialiseVectors_eq (label : String) (vectors : List (RepoVector3D R))
    (hfind : (node.arrays P).find label = if vectors = [] then none else some ((packedVector3D P).pack vectors)) :
    deserialiseVectors P (node.bson P) label = .ok vectors := by
  have hfiles : (node.bson P).bigFiles = node.arrays P := rfl
  unfold deserialiseVectors RepoBSON.hasBinField RepoBSON.getBinaryFieldAsVector RepoBSON.getBinary
  rw [hfiles, hfind]
  by_cases hvectors : vectors = []
  · rw [if_pos hvectors, hvectors]
    rfl
  · rw [if_neg hvectors]
    simp only [Option.isSome_some, if_true, bind, Except.bind, pure, Except.pure, Except.mapError, Packing.unpack_pack]

theorem decodedFaces_eq_ok_iff {result : Except FaceDecoding.Exception (Option (List FaceDecoding.Face ⊕ FaceDecoding.Fault))}
    {faces : List RepoFace} : decodedFaces result = .ok faces ↔
      ∃ faces', result = .ok (some (.inl faces')) ∧ faces'.map FaceDecoding.Face.toRepoFace = faces := by
  constructor
  · intro h
    match result, h with
    | .ok (some (.inl faces')), h => exact ⟨faces', rfl, Except.ok.inj h⟩
  · rintro ⟨faces', rfl, rfl⟩
    rfl

private theorem getIntField_bson {label : String} {count : ℤ}
    (hcount : lookup (node.serialise .empty).fields label = some (.scalar (.int count))) :
    (node.bson P).getIntField label = .ok count := by
  have hfields : (node.bson P).fields = (node.serialise .empty).fields := rfl
  simp only [RepoBSON.getIntField, RepoBSON.getField, hfields, hcount, bind, Except.bind]

private theorem hasBinField_bson (label : String) :
    (node.bson P).hasBinField label = ((node.arrays P).find label).isSome := rfl

private theorem getBinaryFieldAsVector_bson {α : Type} {Q : Packing α Byte} {label : String} {xs : List α}
    (hfind : (node.arrays P).find label = some (Q.pack xs)) :
    (node.bson P).getBinaryFieldAsVector label Q = .ok xs := by
  have hfiles : (node.bson P).bigFiles = node.arrays P := rfl
  simp only [RepoBSON.getBinaryFieldAsVector, RepoBSON.getBinary, hfiles, hfind, bind, Except.bind, pure, Except.pure,
    Packing.unpack_pack]

/-- The faces of a mesh are decoded from their words. -/
theorem deserialiseFaces_bson (n : ℕ) : deserialiseFaces (node.bson P) n =
    if node.faces = [] then .ok []
    else if h : (serializedFaces node.faces).length < 2 ^ 61 then
      decodedFaces (FaceDecoding.MeshNode.deserialise (int32 node.faces.length) ⟨serializedFaces node.faces, h⟩ n)
    else .error .length_error := by
  have hlookup := node.lookup_facesCount
  have hfind := node.find_faces P
  unfold deserialiseFaces
  rw [hasBinField_bson]
  by_cases hfaces : node.faces = []
  · rw [if_pos hfaces] at hfind ⊢
    rw [hfind]
    rfl
  · rw [if_neg hfaces] at hfind hlookup ⊢
    have hcount : (node.bson P).hasField "faces_count" = true := congrArg Option.isSome hlookup
    rw [hfind, if_pos ⟨rfl, hcount⟩, getIntField_bson hlookup, getBinaryFieldAsVector_bson hfind]
    rfl

/-- The UV channels of a mesh are split by their number. -/
theorem deserialiseChannels_bson : deserialiseChannels P (node.bson P) =
    if node.uvChannelsSerialised = [] then .ok []
    else (splitChannels node.uvChannelsSerialised (int32 node.channels.length)).mapError fun _ => .undefined := by
  have hlookup := node.lookup_uvChannelsCount
  have hfind := node.find_uvChannels P
  unfold deserialiseChannels
  rw [hasBinField_bson]
  by_cases huvs : node.uvChannelsSerialised = []
  · rw [if_pos huvs] at hfind ⊢
    rw [hfind, if_neg fun hand => Bool.false_ne_true hand.2]
  · rw [if_neg huvs] at hfind hlookup ⊢
    have hcount : (node.bson P).hasField "uv_channels_count" = true := congrArg Option.isSome hlookup
    have hint : ((node.bson P).getIntField "uv_channels_count").mapError DeserialiseFailure.bson =
        .ok (int32 node.channels.length) := congrArg _ (getIntField_bson hlookup)
    have hread : ((node.bson P).getBinaryFieldAsVector "uv_channels" (packedVector2D P)).mapError
        DeserialiseFailure.bson = .ok node.uvChannelsSerialised := congrArg _ (getBinaryFieldAsVector_bson hfind)
    have hsome : node.uvChannelsSerialised.length ≠ 0 := fun hzero => huvs (List.length_eq_zero_iff.1 hzero)
    rw [hfind, if_pos ⟨hcount, rfl⟩, hread]
    simp only [bind, Except.bind, if_pos hsome, hint]

/-- The faces come back exactly if all positions are `int`s. -/
theorem deserialiseFaces_iff (hmemory : node.InMemory P) :
    (∃ n, deserialiseFaces (node.bson P) n = .ok node.faces) ↔ (facesLevel1 node.faces).length < 2 ^ 31 := by
  by_cases hfaces : node.faces = []
  · refine iff_of_true ⟨0, ?_⟩ ?_
    · rw [deserialiseFaces_bson, if_pos hfaces, hfaces]
    · rw [hfaces]
      positivity
  · have hlength : (serializedFaces node.faces).length < 2 ^ 61 := by
      have hsize := hmemory.size_lt
      rw [size_arrays] at hsize
      rw [length_serializedFaces]
      omega
    let words : FaceDecoding.Words := ⟨serializedFaces node.faces, hlength⟩
    have hsize : words.size = (facesLevel1 node.faces).length := length_serializedFaces node.faces
    rw [← hsize, ← FaceDecoding.deserialise_faceWords_iff hfaces hmemory.index_lt (serializedFaces_eq node.faces)]
    apply exists_congr
    intro n
    have hdeserialise : deserialiseFaces (node.bson P) n =
        decodedFaces (FaceDecoding.deserialise (int32 node.faces.length) words n) := by
      rw [deserialiseFaces_bson, if_neg hfaces, dif_pos hlength]
      rfl
    rw [hdeserialise, decodedFaces_eq_ok_iff]

private theorem deserialiseChannels_iff {calls : List (ℕ × List (RepoVector2D R))}
    (hcalls : ∀ call ∈ calls, call.2.length = node.vertices.length) (hchannels : node.channels = setUVChannels calls) :
    deserialiseChannels P (node.bson P) = .ok node.channels ↔
      Contiguous calls ∧ Splits node.vertices.length node.channels := by
  have hset : Channels calls node.channels := hchannels ▸ channels_setUVChannels calls
  rw [hset.contiguous_iff, deserialiseChannels_bson]
  by_cases hnone : node.uvChannelsSerialised = []
  · have hempty : node.channels = [] := hset.eq_nil_of_flatten hnone
    rw [if_pos hnone, hempty]
    exact iff_of_true rfl ⟨fun _ h => absurd h List.not_mem_nil, splits_nil _⟩
  · rw [if_neg hnone]
    have hsizes : ∀ uvs ∈ node.channels, uvs ≠ [] → uvs.length = node.vertices.length :=
      fun uvs hmem hne => hset.length_eq hcalls hmem hne
    have hflatten : node.uvChannelsSerialised = node.channels.flatten := rfl
    have hbmod : int32 node.channels.length = (node.channels.length : ℤ).bmod (2 ^ 32) := rfl
    rw [hflatten] at hnone
    rw [← splitChannels_eq_iff hsizes hnone, hflatten, hbmod]
    generalize splitChannels node.channels.flatten ((node.channels.length : ℤ).bmod (2 ^ 32)) = result
    cases result with
    | error e => exact iff_of_false nofun nofun
    | ok channels =>
      constructor
      · intro h
        rw [Except.ok.inj h]
      · intro h
        rw [Except.ok.inj h]
        rfl

private theorem deserialise_iff (n : ℕ) : deserialise P (node.bson P) n = .ok node.geometry ↔
    deserialiseFaces (node.bson P) n = .ok node.faces ∧ deserialiseChannels P (node.bson P) = .ok node.channels := by
  have hvertices := deserialiseVectors_eq "vertices" node.vertices (node.find_vertices P)
  have hnormals := deserialiseVectors_eq "normals" node.normals (node.find_normals P)
  unfold deserialise geometry
  rw [hvertices, hnormals]
  cases hfaces : deserialiseFaces (node.bson P) n with
  | error e => exact iff_of_false nofun fun h => nomatch h.1
  | ok faces =>
    cases hchannels : deserialiseChannels P (node.bson P) with
    | error e => exact iff_of_false nofun fun h => nomatch h.2
    | ok channels =>
      simp only [bind, Except.bind, pure, Except.pure, Except.ok.injEq, MeshGeometry.mk.injEq, VertexBuffers.mk.injEq,
        true_and]
      exact And.comm

end Read

/-- The geometry of a mesh of lines or triangles comes back exactly if the positions in the faces are `int`s, every channel
below one that was set was set, too, and the channels are cut out where they are. -/
theorem roundTrips_iff [DecidableEq U] [Inhabited U] [DecidableEq R] [One R] (P : Packing R Byte) (node : MeshNode U R)
    (hmemory : node.InMemory P) (calls : List (ℕ × List (RepoVector2D R)))
    (hcalls : ∀ call ∈ calls, call.2.length = node.vertices.length) (hchannels : node.channels = setUVChannels calls) :
    node.RoundTrips P ↔ (facesLevel1 node.faces).length < 2 ^ 31 ∧ Contiguous calls ∧
      Splits node.vertices.length node.channels := by
  rw [← deserialiseFaces_iff hmemory, ← deserialiseChannels_iff (P := P) hcalls hchannels]
  unfold RoundTrips
  simp only [deserialise_iff, exists_and_right]

/-- One triangle, with the UV channels that these calls set. -/
def triangleWith (calls : List (ℕ × List (RepoVector2D (BitVec 32)))) : MeshNode ℕ (BitVec 32) where
  uniqueId := 1
  sharedId := 2
  name := ""
  parentIds := []
  revId := 3
  boundingBox := ⟨⟨0, 0, 0⟩, ⟨1, 1, 0⟩⟩
  vertices := [⟨0, 0, 0⟩, ⟨1, 0, 0⟩, ⟨0, 1, 0⟩]
  faces := [.triangle 0 1 2]
  normals := []
  channels := setUVChannels calls
  opacity := 1
  textureId := 0
  grouping := ""

theorem inMemory_triangleWith {calls : List (ℕ × List (RepoVector2D (BitVec 32)))}
    (h : (setUVChannels calls).flatten.length ≤ 6) : (triangleWith calls).InMemory Packing.word where
  index_lt := by
    have hfaces : (triangleWith calls).faces = [.triangle 0 1 2] := rfl
    rw [hfaces]
    decide
  size_lt := by
    have hvertices : (triangleWith calls).vertices.length = 3 := rfl
    have hfaces : (facesLevel1 (triangleWith calls).faces).length = 4 := rfl
    have hnormals : (triangleWith calls).normals.length = 0 := rfl
    have huvs : (triangleWith calls).uvChannelsSerialised = (setUVChannels calls).flatten := rfl
    rw [size_arrays, hvertices, hfaces, hnormals, huvs, Packing.width_word]
    omega

/-- Two channels, the second one set first. -/
def bothChannels : List (ℕ × List (RepoVector2D (BitVec 32))) :=
  [(1, [⟨1, 0⟩, ⟨1, 1⟩, ⟨1, 2⟩]), (0, [⟨0, 0⟩, ⟨0, 1⟩, ⟨0, 2⟩])]

theorem roundTrips_bothChannels : (triangleWith bothChannels).RoundTrips Packing.word ↔
    (facesLevel1 (triangleWith bothChannels).faces).length < 2 ^ 31 ∧ Contiguous bothChannels ∧
      Splits (triangleWith bothChannels).vertices.length (triangleWith bothChannels).channels :=
  roundTrips_iff Packing.word (triangleWith bothChannels) (inMemory_triangleWith (by decide)) bothChannels
    (by decide) rfl

/-- The second channel alone. -/
def secondChannel : List (ℕ × List (RepoVector2D (BitVec 32))) := [(1, [⟨1, 0⟩, ⟨1, 1⟩, ⟨1, 2⟩])]

/-- It comes back as two channels, of one entry each. -/
theorem not_roundTrips_secondChannel : (triangleWith secondChannel).InMemory Packing.word ∧
    (∀ face ∈ (triangleWith secondChannel).faces, face.sides = 3) ∧
    (∀ call ∈ secondChannel, call.2.length = (triangleWith secondChannel).vertices.length) ∧
    (triangleWith secondChannel).channels = setUVChannels secondChannel ∧
    ¬ (triangleWith secondChannel).RoundTrips Packing.word := by
  have hcalls : ∀ call ∈ secondChannel, call.2.length = (triangleWith secondChannel).vertices.length := by decide
  refine ⟨inMemory_triangleWith (by decide), by decide, hcalls, rfl, ?_⟩
  rintro ⟨n, h⟩
  obtain ⟨hcontiguous, -⟩ := (deserialiseChannels_iff hcalls rfl).1 ((deserialise_iff n).1 h).2
  have hcall : (1, [⟨1, 0⟩, ⟨1, 1⟩, ⟨1, 2⟩]) ∈ secondChannel := List.mem_singleton.2 rfl
  obtain ⟨other, hother, hzero, -⟩ := hcontiguous _ hcall (List.cons_ne_nil _ _) 0 Nat.zero_lt_one
  rw [List.mem_singleton.1 hother] at hzero
  exact one_ne_zero hzero

end MeshNode

end Bouncer
