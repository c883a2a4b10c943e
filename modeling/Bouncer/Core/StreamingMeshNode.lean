import Bouncer.Core.MeshGeometry

/-!
# The two decoders of a mesh

`MeshNode::deserialise` reads the arrays of a mesh from the named buffers that `initBinaryBuffer` has copied.
`SupermeshingData::deserialise` reads them at their offsets in the shared buffer, which the list of elements in the document
says.  For a mesh that was written and put aside, both read the same, and fail in the same way.
-/

namespace Bouncer

open Library (Packing Value lookup)

namespace StreamingMeshNode

variable {U R : Type}

/-- `deserialiseVector`, with elements stored by `P`.  Bytes outside of the buffer, or behind the end of the vector, are
read and written without a check. -/
def deserialiseVector {α : Type} (P : Packing α Byte) (bson : RepoBSON (RepoVariant U R)) (buffer : List Byte) :
    Except DeserialiseFailure (List α) := do
  let start ← (bson.getLongField "start").mapError .bson
  let size ← (bson.getLongField "size").mapError .bson
  if sizeT start + sizeT size ≤ buffer.length ∧ P.width ∣ sizeT size then
    return P.unpack ((buffer.drop (sizeT start)).take (sizeT size))
  else throw .undefined

/-- An array that is one of the elements, if it is. -/
def deserialiseElement {α : Type} (P : Packing α Byte) (elementsBson : RepoBSON (RepoVariant U R)) (buffer : List Byte)
    (label : String) : Except DeserialiseFailure (List α) :=
  if elementsBson.hasField label then do
    let elementBson ← (elementsBson.getObjectField label).mapError .bson
    deserialiseVector P elementBson buffer
  else return []

def deserialiseFaces (bson elementsBson : RepoBSON (RepoVariant U R)) (buffer : List Byte) (n : ℕ) :
    Except DeserialiseFailure (List RepoFace) :=
  if elementsBson.hasField "faces" then do
    let faceCount ← (bson.getIntField "faces_count").mapError .bson
    let faceBson ← (elementsBson.getObjectField "faces").mapError .bson
    let serialisedFaces ← deserialiseVector Packing.word faceBson buffer
    if h : serialisedFaces.length < 2 ^ 61 then
      MeshNode.decodedFaces (FaceDecoding.SupermeshingData.deserialise faceCount ⟨serialisedFaces, h⟩ n)
    else throw .length_error
  else return []

def deserialiseChannels (P : Packing R Byte) (bson elementsBson : RepoBSON (RepoVariant U R)) (buffer : List Byte) :
    Except DeserialiseFailure (List (List (RepoVector2D R))) :=
  if elementsBson.hasField "uv_channels" then do
    let uvBson ← (elementsBson.getObjectField "uv_channels").mapError .bson
    let serialisedChannels ← deserialiseVector (MeshNode.packedVector2D P) uvBson buffer
    if serialisedChannels.length ≠ 0 then do
      let count ← (bson.getIntField "uv_channels_count").mapError .bson
      (splitChannels serialisedChannels count).mapError fun _ => .undefined
    else return []
  else return []

/-- `SupermeshingData::deserialise`, with at most `n` turns of the loop over the faces. -/
def SupermeshingData.deserialise (P : Packing R Byte) (bson : RepoBSON (RepoVariant U R)) (buffer : List Byte)
    (ignoreUVs : Bool) (n : ℕ) : Except DeserialiseFailure (MeshGeometry R) := do
  let blobRefBson ← (bson.getObjectField "_blobRef").mapError .bson
  let elementsBson ← (blobRefBson.getObjectField "elements").mapError .bson
  let vertices ← deserialiseElement (MeshNode.packedVector3D P) elementsBson buffer "vertices"
  let normals ← deserialiseElement (MeshNode.packedVector3D P) elementsBson buffer "normals"
  let faces ← deserialiseFaces bson elementsBson buffer n
  let channels ← if ignoreUVs then pure [] else deserialiseChannels P bson elementsBson buffer
  return ⟨⟨vertices, normals, channels⟩, faces⟩

/-! ### One element -/

section Element

variable {α : Type} {P : Packing α Byte} {elements : List (String × Value (RepoVariant U R))} {buffer : List Byte}
  {label : String}

variable {bytes : List Byte}

private theorem deserialiseVector_eq {start : ℕ} (hle : start + bytes.length ≤ buffer.length)
    (hslice : (buffer.drop start).take bytes.length = bytes) (hbuffer : buffer.length < 2 ^ 63)
    (hwidth : P.width ∣ bytes.length) : deserialiseVector P (RepoBSON.ofFields
      [("start", .scalar (.int start)), ("size", .scalar (.int bytes.length))] : RepoBSON (RepoVariant U R)) buffer =
      .ok (P.unpack bytes) := by
  have hstart : sizeT (start : ℤ) = start := sizeT_natCast (by omega)
  have hsize : sizeT (bytes.length : ℤ) = bytes.length := sizeT_natCast (by omega)
  have hlong : (RepoBSON.ofFields [("start", .scalar (.int start)), ("size", .scalar (.int bytes.length))] :
      RepoBSON (RepoVariant U R)).getLongField "start" = .ok (start : ℤ) ∧
      (RepoBSON.ofFields [("start", .scalar (.int start)), ("size", .scalar (.int bytes.length))] :
      RepoBSON (RepoVariant U R)).getLongField "size" = .ok (bytes.length : ℤ) := ⟨rfl, rfl⟩
  unfold deserialiseVector
  rw [hlong.1, hlong.2]
  simp only [Except.mapError, bind, Except.bind, hstart, hsize, if_pos (And.intro hle hwidth), hslice]
  rfl

private theorem getObjectField_of_points (h : RepoBSON.Points elements buffer label bytes) :
    ∃ start : ℕ, (RepoBSON.ofFields elements).getObjectField label = .ok (RepoBSON.ofFields
      [("start", .scalar (.int start)), ("size", .scalar (.int bytes.length))]) ∧
    start + bytes.length ≤ buffer.length ∧ (buffer.drop start).take bytes.length = bytes := by
  obtain ⟨start, hlookup, hle, hslice⟩ := h
  refine ⟨start, ?_, hle, hslice⟩
  have hfields : lookup (RepoBSON.ofFields elements).fields label = some (.object
      [("start", .scalar (.int start)), ("size", .scalar (.int bytes.length))]) := hlookup
  simp only [RepoBSON.getObjectField, RepoBSON.getField, hfields, bind, Except.bind]

private theorem hasField_of_points (h : RepoBSON.Points elements buffer label bytes) :
    (RepoBSON.ofFields elements).hasField label = true := by
  obtain ⟨start, hlookup, -, -⟩ := h
  exact (congrArg Option.isSome hlookup).trans rfl

end Element

/-! ### A mesh that was put aside -/

section Agree

variable {P : Packing R Byte} {node : MeshNode U R} {elements : List (String × Value (RepoVariant U R))}
  {buffer : List Byte} {arrays : BinMapping}

/-- The elements are where the arrays are in the buffer. -/
structure HasArrays (elements : List (String × Value (RepoVariant U R))) (buffer : List Byte) (arrays : BinMapping) :
    Prop where
  points : ∀ label bytes, arrays.find label = some bytes → RepoBSON.Points elements buffer label bytes
  missing : ∀ label, arrays.find label = none → (RepoBSON.ofFields elements).hasField label = false
  buffer_lt : buffer.length < 2 ^ 63

variable {label : String}

private theorem HasArrays.read (h : HasArrays elements buffer arrays) {α : Type} (Q : Packing α Byte)
    {xs : List α} (hfind : arrays.find label = some (Q.pack xs)) :
    (RepoBSON.ofFields elements).hasField label = true ∧
      ∃ element, (RepoBSON.ofFields elements).getObjectField label = .ok element ∧
        deserialiseVector Q element buffer = .ok xs := by
  have hpoints := h.points label _ hfind
  obtain ⟨start, hobject, hle, hslice⟩ := getObjectField_of_points hpoints
  have hwidth : Q.width ∣ (Q.pack xs).length := ⟨xs.length, Q.length_pack xs⟩
  refine ⟨hasField_of_points hpoints, _, hobject, ?_⟩
  rw [deserialiseVector_eq hle hslice h.buffer_lt hwidth, Packing.unpack_pack]

theorem HasArrays.deserialiseElement_eq (h : HasArrays elements buffer arrays) {α : Type} {Q : Packing α Byte}
    {xs : List α} (hfind : arrays.find label = if xs = [] then none else some (Q.pack xs)) :
    deserialiseElement Q (RepoBSON.ofFields elements) buffer label = .ok xs := by
  unfold deserialiseElement
  by_cases hxs : xs = []
  · rw [if_pos hxs] at hfind
    rw [h.missing label hfind, hxs]
    rfl
  · rw [if_neg hxs] at hfind
    obtain ⟨hfield, element, hobject, hread⟩ := h.read Q hfind
    rw [hfield, hobject]
    exact hread

/-- What `MeshNode::deserialise` reads are the arrays and two numbers. -/
theorem deserialise_congr {bson bson' : RepoBSON (RepoVariant U R)}
    (hfiles : ∀ label, bson.bigFiles.find label = bson'.bigFiles.find label)
    (hfields : ∀ label, label ≠ "_blobRef" → lookup bson.fields label = lookup bson'.fields label) (n : ℕ) :
    MeshNode.deserialise P bson n = MeshNode.deserialise P bson' n := by
  have hcounts (label : String) (hlabel : label ≠ "_blobRef") :
      bson.hasField label = bson'.hasField label ∧ bson.getIntField label = bson'.getIntField label := by
    unfold RepoBSON.hasField RepoBSON.getIntField RepoBSON.getField
    rw [hfields label hlabel]
    exact ⟨rfl, rfl⟩
  have hbin (label : String) : bson.hasBinField label = bson'.hasBinField label := congrArg Option.isSome (hfiles label)
  have hbytes {α : Type} (Q : Packing α Byte) (label : String) (hlabel : label ≠ "_blobRef") :
      bson.getBinaryFieldAsVector label Q = bson'.getBinaryFieldAsVector label Q := by
    unfold RepoBSON.getBinaryFieldAsVector RepoBSON.getBinary
    rw [hfiles, (hcounts label hlabel).1]
  unfold MeshNode.deserialise MeshNode.deserialiseFaces MeshNode.deserialiseVectors MeshNode.deserialiseChannels
  simp only [hbin, hbytes _ _ (show "faces" ≠ "_blobRef" by decide), hbytes _ _ (show "vertices" ≠ "_blobRef" by decide),
    hbytes _ _ (show "normals" ≠ "_blobRef" by decide), hbytes _ _ (show "uv_channels" ≠ "_blobRef" by decide),
    hcounts _ (show "faces_count" ≠ "_blobRef" by decide), hcounts _ (show "uv_channels_count" ≠ "_blobRef" by decide)]

variable [DecidableEq U] [Inhabited U] [DecidableEq R] [One R] {bson : RepoBSON (RepoVariant U R)}

private theorem getIntField_of_lookup (hfields : ∀ label, label ≠ "_blobRef" → lookup bson.fields label =
    lookup (node.serialise .empty).fields label) (hlabel : label ≠ "_blobRef") {count : ℤ}
    (hcount : lookup (node.serialise .empty).fields label = some (.scalar (.int count))) :
    bson.getIntField label = .ok count := by
  simp only [RepoBSON.getIntField, RepoBSON.getField, hfields label hlabel, hcount, bind, Except.bind]

private theorem deserialiseFaces_eq (h : HasArrays elements buffer (node.arrays P))
    (hfields : ∀ label, label ≠ "_blobRef" → lookup bson.fields label = lookup (node.serialise .empty).fields label)
    (n : ℕ) : deserialiseFaces bson (RepoBSON.ofFields elements) buffer n =
      MeshNode.deserialiseFaces (node.bson P) n := by
  have hlookup := node.lookup_facesCount
  have hfind := node.find_faces P
  rw [MeshNode.deserialiseFaces_bson]
  unfold deserialiseFaces
  by_cases hfaces : node.faces = []
  · rw [if_pos hfaces] at hfind ⊢
    rw [h.missing _ hfind]
    rfl
  · rw [if_neg hfaces] at hfind hlookup ⊢
    obtain ⟨hfield, element, hobject, hread⟩ := h.read Packing.word hfind
    rw [hfield, if_pos rfl, getIntField_of_lookup hfields (by decide) hlookup, hobject]
    simp only [Except.mapError, bind, Except.bind]
    rw [hread]
    rfl

private theorem deserialiseChannels_eq (h : HasArrays elements buffer (node.arrays P))
    (hfields : ∀ label, label ≠ "_blobRef" → lookup bson.fields label = lookup (node.serialise .empty).fields label) :
    deserialiseChannels P bson (RepoBSON.ofFields elements) buffer = MeshNode.deserialiseChannels P (node.bson P) := by
  have hlookup := node.lookup_uvChannelsCount
  have hfind := node.find_uvChannels P
  rw [MeshNode.deserialiseChannels_bson]
  unfold deserialiseChannels
  by_cases huvs : node.uvChannelsSerialised = []
  · rw [if_pos huvs] at hfind ⊢
    rw [h.missing _ hfind, if_neg Bool.false_ne_true]
    rfl
  · rw [if_neg huvs] at hfind hlookup ⊢
    obtain ⟨hfield, element, hobject, hread⟩ := h.read (MeshNode.packedVector2D P) hfind
    have hint : (bson.getIntField "uv_channels_count").mapError DeserialiseFailure.bson =
        .ok (MeshNode.int32 node.channels.length) := congrArg _ (getIntField_of_lookup hfields (by decide) hlookup)
    have hobject' : ((RepoBSON.ofFields elements).getObjectField "uv_channels").mapError DeserialiseFailure.bson =
        .ok element := congrArg _ hobject
    have hsome : node.uvChannelsSerialised.length ≠ 0 := fun hzero => huvs (List.length_eq_zero_iff.1 hzero)
    rw [hfield, if_pos rfl, hobject']
    simp only [bind, Except.bind, hread, if_pos hsome, hint]

private theorem supermeshingData_deserialise_eq (h : HasArrays elements buffer (node.arrays P))
    (hfields : ∀ label, label ≠ "_blobRef" → lookup bson.fields label = lookup (node.serialise .empty).fields label)
    (helements : ∃ blobRef, bson.getObjectField "_blobRef" = .ok blobRef ∧
      blobRef.getObjectField "elements" = .ok (RepoBSON.ofFields elements)) (n : ℕ) :
    SupermeshingData.deserialise P bson buffer false n = MeshNode.deserialise P (node.bson P) n := by
  obtain ⟨blobRef, hblobRef, helements⟩ := helements
  have hvertices := h.deserialiseElement_eq (node.find_vertices P)
  have hnormals := h.deserialiseElement_eq (node.find_normals P)
  have hvertices' := MeshNode.deserialiseVectors_eq "vertices" node.vertices (node.find_vertices P)
  have hnormals' := MeshNode.deserialiseVectors_eq "normals" node.normals (node.find_normals P)
  unfold SupermeshingData.deserialise MeshNode.deserialise
  rw [hblobRef]
  simp only [Except.mapError, bind, Except.bind]
  rw [helements]
  dsimp only
  rw [hvertices, hnormals, hvertices', hnormals', deserialiseFaces_eq h hfields, deserialiseChannels_eq h hfields]
  rfl

omit [DecidableEq U] [Inhabited U] [DecidableEq R] [One R] in
private theorem hasArrays_getBinariesAsBuffer (bson : LoadedBSON (RepoVariant U R)) :
    HasArrays bson.getBinariesAsBuffer.1 bson.getBinariesAsBuffer.2 bson.bigFiles := by
  rw [RepoBSON.getBinariesAsBuffer_eq _ bson.size_lt]
  constructor
  · intro label bytes hfind
    exact RepoBSON.points_elements bson.names_nodup (BinMapping.mem_of_find hfind) []
  · intro label hfind
    apply Bool.eq_false_iff.2
    intro hfield
    obtain ⟨size, hsize⟩ := (RepoBSONBuilder.isSome_lookup_elements 0 _ label).1 hfield
    obtain ⟨entry, hentry, heq⟩ := List.mem_map.1 hsize
    obtain rfl : entry.1 = label := congrArg Prod.fst heq
    rw [BinMapping.find_of_mem bson.names_nodup hentry] at hfind
    exact nomatch hfind
  · rw [RepoBSON.length_flatten]
    exact bson.size_lt

theorem find_of_perm {m m' : BinMapping} (hnodup : m.names.Nodup) (hperm : m.Perm m') (label : String) :
    m.find label = m'.find label := by
  have hnodup' : m'.names.Nodup := (hperm.map Prod.fst).nodup_iff.1 hnodup
  apply Option.ext
  intro bytes
  constructor
  · intro h
    exact BinMapping.find_of_mem hnodup' (hperm.mem_iff.1 (BinMapping.mem_of_find h))
  · intro h
    exact BinMapping.find_of_mem hnodup (hperm.mem_iff.2 (BinMapping.mem_of_find h))

private theorem deserialiseChannels_of_length {k : ℕ} (hlength : ∀ uvs ∈ node.channels, uvs.length = k)
    (hcount : node.channels.length * k < 2 ^ 32) : MeshNode.deserialiseChannels P (node.bson P) =
      .ok (if node.uvChannelsSerialised = [] then [] else node.channels) := by
  rw [MeshNode.deserialiseChannels_bson]
  by_cases huvs : node.uvChannelsSerialised = []
  · rw [if_pos huvs, if_pos huvs]
  · have hk : 0 < k := by
      apply Nat.pos_of_ne_zero
      rintro rfl
      exact huvs (List.flatten_eq_nil_iff.2 fun uvs hmem => List.length_eq_zero_iff.1 (hlength uvs hmem))
    have hne : ∀ uvs ∈ node.channels, uvs ≠ [] := by
      intro uvs hmem hnil
      have hzero := hlength uvs hmem
      rw [hnil] at hzero
      exact hk.ne hzero
    have hsplit : splitChannels node.uvChannelsSerialised (MeshNode.int32 node.channels.length) = .ok node.channels :=
      (splitChannels_eq_iff (fun uvs hmem _ => hlength uvs hmem) huvs).2 ⟨hne, splits_of_le hlength hk hcount⟩
    rw [if_neg huvs, if_neg huvs, hsplit]
    rfl

/-- For a mesh that was put aside in a buffer, the two decoders read the same or fail in the same way.  If the positions
among the words of its faces are `int`s and its UV entries can be counted, they read its geometry. -/
def DecodersAgree (P : Packing R Byte) (node : MeshNode U R) (fileRef : Value (RepoVariant U R)) : Prop :=
  ∃ restored,
    ((node.bson P).replaceBinaryWithReference fileRef (node.bson P).getBinariesAsBuffer.1).initBinaryBuffer
      (node.bson P).getBinariesAsBuffer.2 = .ok restored ∧
    (∀ n, SupermeshingData.deserialise P
        ((node.bson P).replaceBinaryWithReference fileRef (node.bson P).getBinariesAsBuffer.1)
        (node.bson P).getBinariesAsBuffer.2 false n = MeshNode.deserialise P restored n) ∧
    ((MeshNode.facesLevel1 node.faces).length < 2 ^ 31 → ∀ k, (∀ uvs ∈ node.channels, uvs.length = k) →
      node.channels.length * k < 2 ^ 32 → ∃ n, MeshNode.deserialise P restored n = .ok
        ⟨⟨node.vertices, node.normals, if node.uvChannelsSerialised = [] then [] else node.channels⟩, node.faces⟩)

theorem decoders_agree (P : Packing R Byte) (node : MeshNode U R) (hmemory : node.InMemory P)
    (fileRef : Value (RepoVariant U R)) : DecodersAgree P node fileRef := by
  let loaded : LoadedBSON (RepoVariant U R) := ⟨node.bson P, hmemory.size_lt⟩
  obtain ⟨restored, hrestored, hperm, hfields⟩ := RepoBSON.initBinaryBuffer_replaced loaded fileRef
  have hsame (n : ℕ) : MeshNode.deserialise P restored n = MeshNode.deserialise P (node.bson P) n := by
    refine deserialise_congr (fun label => ?_) (fun label hlabel => ?_) n
    · exact (find_of_perm (node.nodup_arrays P) hperm.symm label).symm
    · rw [hfields]
      exact RepoBSON.lookup_replaced_of_ne _ _ _ hlabel
  refine ⟨restored, hrestored, fun n => ?_, fun hwords k hlength hcount => ?_⟩
  · rw [hsame n]
    refine supermeshingData_deserialise_eq (hasArrays_getBinariesAsBuffer loaded)
      (fun label hlabel => RepoBSON.lookup_replaced_of_ne _ _ _ hlabel)
      ⟨RepoBSON.ofFields [("elements", .object loaded.getBinariesAsBuffer.1), ("buffer", fileRef)], ?_, rfl⟩ n
    simp only [RepoBSON.getObjectField, RepoBSON.getField, RepoBSON.lookup_replaced, bind, Except.bind]
    rfl
  · obtain ⟨n, hfaces⟩ := (MeshNode.deserialiseFaces_iff hmemory).2 hwords
    refine ⟨n, ?_⟩
    rw [hsame n]
    unfold MeshNode.deserialise
    rw [hfaces, MeshNode.deserialiseVectors_eq "vertices" node.vertices (node.find_vertices P),
      MeshNode.deserialiseVectors_eq "normals" node.normals (node.find_normals P), deserialiseChannels_of_length hlength hcount]
    rfl

end Agree

/-- A triangle with two UV channels. -/
theorem decoders_agree_triangle :
    DecodersAgree Packing.word (MeshNode.triangleWith MeshNode.bothChannels) (.scalar (.string "ref")) :=
  decoders_agree Packing.word (MeshNode.triangleWith MeshNode.bothChannels) (MeshNode.inMemory_triangleWith (by decide))
    (.scalar (.string "ref"))

end StreamingMeshNode

end Bouncer
