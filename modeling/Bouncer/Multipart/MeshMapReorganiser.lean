import Bouncer.Library.Intern
import Bouncer.Multipart.Assembly
import Mathlib.Data.List.ModifyLast

/-!
# Reorganising the mappings of a supermesh

`MeshMapReorganiser` packs the meshes of a supermesh into submeshes within two limits, and splits the meshes that are
beyond them.  Here are its functions, with the buffers that they fill.

A new mapping, its part of the material map and its buffer of ids are started together, so these three vectors are one
list of submeshes (`SubMesh`).  Of a box either both corners are there or none (`Box`).
-/

namespace Bouncer.MeshMapReorganiser

open MultipartOptimizer (SupermeshNode)

variable {U M R : Type}

/-- A `size_t` as a `float`: the nearest number that has 24 bits, and of two the one that ends in zero. -/
def toFloat (n : ℕ) : ℕ :=
  let ulp := 2 ^ (Nat.log2 n - 23)
  let rest := n % ulp
  if 2 * rest < ulp ∨ (2 * rest = ulp ∧ n / ulp % 2 = 0) then n - rest else n - rest + ulp

/-- `bboxMin` and `bboxMax`. -/
abbrev Box (R : Type) := Option (RepoVector3D R × RepoVector3D R)

/-- The entries of `newMappings`, `matMap` and `idMapBuf` at one position. -/
structure SubMesh (U M R : Type) where
  mapping : RepoMeshMapping U M R
  matMap : List (RepoMeshMapping U M R)
  idMapBuf : List ℕ

section Boxes

variable [LinearOrder R]

def updateBoundingBoxes (bbox : Box R) (smMin smMax : RepoVector3D R) : Box R :=
  match bbox with
  | some (min, max) => some (min.min smMin, max.max smMax)
  | none => some (smMin, smMax)

/-- The mapping, and what is left of the box. -/
def finishSubMesh (mapping : RepoMeshMapping U M R) (bbox : Box R) (nVertices nFaces : ℕ) :
    RepoMeshMapping U M R × Box R :=
  let mapping := { mapping with vertTo := mapping.vertFrom + nVertices, triTo := mapping.triFrom + nFaces }
  match bbox with
  | some (min, max) => ({ mapping with min := min, max := max }, none)
  | none => (mapping, none)

end Boxes

/-! ### The last submesh -/

namespace SubMesh

section Start

variable [Inhabited U] [Inhabited M] [Zero R]

/-- An element that `resize` adds. -/
def newMapping : RepoMeshMapping U M R :=
  { min := ⟨0, 0, 0⟩, max := ⟨0, 0, 0⟩, meshId := default, sharedId := default, materialId := default,
    material := default, textureId := default, vertFrom := 0, vertTo := 0, triFrom := 0, triTo := 0 }

def startSubMesh (sVertices sFaces : ℕ) : SubMesh U M R :=
  { mapping := { newMapping with vertFrom := sVertices, triFrom := sFaces }
    matMap := []
    idMapBuf := [] }

end Start

def newMatMapEntry (subMesh : SubMesh U M R) (mapping : RepoMeshMapping U M R) (sVertices sFaces : ℕ) : SubMesh U M R :=
  { subMesh with matMap := subMesh.matMap ++ [{ mapping with vertFrom := sVertices, triFrom := sFaces }] }

/-- What `completeLastMatMapEntry` does to the entry. -/
def completeEntry (entry : RepoMeshMapping U M R) (eVertices eFaces : ℕ) (bbox : Box R) : RepoMeshMapping U M R :=
  let entry := { entry with vertTo := eVertices, triTo := eFaces }
  match bbox with
  | some (min, max) => { entry with min := min, max := max }
  | none => entry

def completeLastMatMapEntry (subMesh : SubMesh U M R) (eVertices eFaces : ℕ) (bbox : Box R) : SubMesh U M R :=
  { subMesh with matMap := subMesh.matMap.modifyLast fun entry => completeEntry entry eVertices eFaces bbox }

def updateIDMapArray (subMesh : SubMesh U M R) (n value : ℕ) : SubMesh U M R :=
  { subMesh with idMapBuf := subMesh.idMapBuf ++ List.replicate n (toFloat value) }

/-- The end of a part of a split mesh.  The entry is completed with the box that `finishSubMesh` leaves. -/
def completePart [LinearOrder R] (subMesh : SubMesh U M R) (bbox : Box R) (nVertices nFaces idMapIdx : ℕ) :
    SubMesh U M R :=
  let subMesh := subMesh.updateIDMapArray nVertices idMapIdx
  let finished := finishSubMesh subMesh.mapping bbox nVertices nFaces
  let subMesh := { subMesh with mapping := finished.1 }
  { subMesh with matMap := subMesh.matMap.modifyLast fun entry =>
      completeEntry entry (entry.vertFrom + nVertices) (entry.triFrom + nFaces) finished.2 }

end SubMesh

/-! ### The loop over the mappings -/

/-- The members of the reorganiser, and the variables of `performSplitting`. -/
structure State (U M R : Type) where
  /-- `newVertices`, `newNormals` and `newUVs`. -/
  buffers : VertexBuffers R
  newFaces : List RepoFace
  serialisedFaces : List ℕ
  subMeshes : List (SubMesh U M R)
  splitMap : U → Option (List ℕ)
  subMeshVertexCount : ℕ
  subMeshFaceCount : ℕ
  totalVertexCount : ℕ
  totalFaceCount : ℕ
  idMapIdx : ℕ
  orgFaceIdx : ℕ
  finishedSubMesh : Bool
  bbox : Box R

/-- The limits, and the mesh of which the old buffers are. -/
structure Reorganiser (U M R : Type) where
  mesh : SupermeshNode U M R
  maxVertices : ℕ
  maxFaces : ℕ

/-- `splitMap[id].push_back(..)`. -/
def pushSplit [DecidableEq U] (splitMap : U → Option (List ℕ)) (id : U) (subMesh : ℕ) : U → Option (List ℕ) :=
  Function.update splitMap id (some ((splitMap id).getD [] ++ [subMesh]))

/-- `newFace` and `serialisedFaces` get the indices of a face. -/
def State.pushFace (s : State U M R) (newIdxs : List ℕ) : State U M R :=
  { s with
    newFaces := s.newFaces ++ [RepoFace.ofIndices newIdxs]
    serialisedFaces := s.serialisedFaces ++ newIdxs.map (· % 2 ^ 16) }

/-- `newMappings.back().vertFrom`.  From `2 ^ 31` on what is stored of it is negative, which is no position in a buffer. -/
def State.backVertFrom (s : State U M R) : ℕ := (s.subMeshes.getLast?.map fun subMesh => subMesh.mapping.vertFrom).getD 0

namespace Reorganiser

variable (reorganiser : Reorganiser U M R)

/-- `currentMeshNumVertices`. -/
def numVertices (currentSubMesh : RepoMeshMapping U M R) : ℕ := currentSubMesh.vertTo - currentSubMesh.vertFrom

/-- `currentMeshNumFaces`. -/
def numFaces (currentSubMesh : RepoMeshMapping U M R) : ℕ := currentSubMesh.triTo - currentSubMesh.triFrom

/-- The mesh alone is beyond the limits. -/
def Oversized (currentSubMesh : RepoMeshMapping U M R) : Prop :=
  reorganiser.maxVertices < numVertices currentSubMesh ∨ reorganiser.maxFaces < numFaces currentSubMesh

instance (currentSubMesh : RepoMeshMapping U M R) : Decidable (reorganiser.Oversized currentSubMesh) :=
  inferInstanceAs (Decidable (_ ∨ _))

/-- One turn of the loop over the faces of a mesh that is not split. -/
def addFace (currentMeshVFrom : ℕ) (s : State U M R) (currentFace : RepoFace) : State U M R :=
  -- the difference is one of `size_t`
  let s := s.pushFace (currentFace.indices.map fun indexValue =>
    (indexValue + (s.subMeshVertexCount + 2 ^ 64) - currentMeshVFrom) % 2 ^ 64)
  { s with
    orgFaceIdx := s.orgFaceIdx + 1
    subMeshFaceCount := s.subMeshFaceCount + 1
    totalFaceCount := s.totalFaceCount + 1 }

section Start

variable [LinearOrder R]

/-- The last submesh is finished with the counts and the box of the loop. -/
def closeSubMesh (s : State U M R) : State U M R :=
  { s with
    subMeshes := s.subMeshes.modifyLast fun subMesh =>
      { subMesh with mapping := (finishSubMesh subMesh.mapping s.bbox s.subMeshVertexCount s.subMeshFaceCount).1 }
    bbox := none }

variable [Inhabited U] [Inhabited M] [Zero R]

def nextSubMesh (s : State U M R) : State U M R :=
  let s := if s.finishedSubMesh then s else closeSubMesh s
  { s with
    subMeshVertexCount := 0
    subMeshFaceCount := 0
    finishedSubMesh := false
    subMeshes := s.subMeshes ++ [.startSubMesh s.totalVertexCount s.totalFaceCount] }

end Start

/-- The faces that are read when `orgFaceIdx` is counted up `n` times. -/
def readFaces (orgFaceIdx n : ℕ) : List RepoFace := (reorganiser.mesh.faces.drop orgFaceIdx).take n

/-- The branch of `performSplitting` for a mesh that is not split. -/
def addSmallMesh [LinearOrder R] [DecidableEq U] (s : State U M R) (currentSubMesh : RepoMeshMapping U M R) : State U M R :=
  let n := numVertices currentSubMesh
  let s := (reorganiser.readFaces s.orgFaceIdx (numFaces currentSubMesh)).foldl (addFace currentSubMesh.vertFrom) s
  let s := { s with
    idMapIdx := s.idMapIdx + 1
    bbox := updateBoundingBoxes s.bbox currentSubMesh.min currentSubMesh.max
    subMeshVertexCount := s.subMeshVertexCount + n
    totalVertexCount := s.totalVertexCount + n
    splitMap := pushSplit s.splitMap currentSubMesh.meshId (s.subMeshes.length - 1)
    subMeshes := s.subMeshes.modifyLast fun subMesh => subMesh.updateIDMapArray n s.idMapIdx }
  { s with
    subMeshes := s.subMeshes.modifyLast fun subMesh =>
      subMesh.completeLastMatMapEntry s.totalVertexCount s.totalFaceCount none }

end Reorganiser

/-! ### Splitting a mesh -/

/-- The state, with the variables of `splitLargeMesh`. -/
structure Split (U M R : Type) extends State U M R where
  /-- The keys of the map in the order in which they were inserted, which is that of their values. -/
  reIndexMap : List ℕ
  /-- The old indices of the vertices that `reMappedVertices`, `reMappedNormals` and `reMappedUVs` have. -/
  reMapped : List ℕ
  splitMeshFaceCount : ℕ
  splitBbox : Box R
  totalLargeMeshVertexCount : ℕ

/-- Each vertex that is counted is inserted into the map. -/
def Split.splitMeshVertexCount (split : Split U M R) : ℕ := split.reIndexMap.length

/-- The end of a turn of the loop over the faces. -/
def Split.countFace (split : Split U M R) (newIdxs : List ℕ) : Split U M R :=
  { split with
    toState := { split.toState.pushFace newIdxs with orgFaceIdx := split.orgFaceIdx + 1 }
    splitMeshFaceCount := split.splitMeshFaceCount + 1 }

/-- One of the buffers of vertices, after the leftovers of a mesh were erased or the extra vertices inserted, and the
remapped vertices copied. -/
def patchBuffer {α : Type} (extra : α) (buffer : List α) (numVertices totalLargeMeshVertexCount newVerticesVFrom startingPos : ℕ)
    (reMapped : List α) : List α :=
  let resized :=
    if totalLargeMeshVertexCount < numVertices then
      buffer.take startingPos ++ buffer.drop (startingPos + (numVertices - totalLargeMeshVertexCount))
    else if numVertices < totalLargeMeshVertexCount then
      buffer.take newVerticesVFrom ++ List.replicate (totalLargeMeshVertexCount - numVertices) extra ++
        buffer.drop newVerticesVFrom
    else buffer
  resized.take newVerticesVFrom ++ reMapped ++ resized.drop (newVerticesVFrom + reMapped.length)

namespace Reorganiser

variable (reorganiser : Reorganiser U M R) [DecidableEq U] [LinearOrder R] [Zero R]

/-- `oldVertices[indexValue]`. -/
def oldVertex (indexValue : ℕ) : RepoVector3D R := reorganiser.mesh.vertices.getD indexValue ⟨0, 0, 0⟩

/-- A vertex that the part has not had yet. -/
def addVertex (split : Split U M R) (indexValue : ℕ) : Split U M R :=
  let vertex := reorganiser.oldVertex indexValue
  { split with
    reIndexMap := split.reIndexMap ++ [indexValue]
    reMapped := split.reMapped ++ [indexValue]
    splitBbox := updateBoundingBoxes split.splitBbox vertex vertex }

/-- One turn of the loop over the indices of a face, which are collected for the new face.  Nothing is the
`return false`. -/
def addIndex (p : Split U M R × List ℕ) (indexValue : ℕ) : Option (Split U M R × List ℕ) :=
  let split := if indexValue ∈ p.1.reIndexMap then p.1 else reorganiser.addVertex p.1 indexValue
  let newIdx := split.reIndexMap.idxOf indexValue % 2 ^ 32
  if split.splitMeshVertexCount < newIdx then none else some (split, p.2 ++ [newIdx])

section Parts

variable [Inhabited U] [Inhabited M]

/-- The part is completed, and the next one started. -/
def nextPart (split : Split U M R) (currentSubMesh : RepoMeshMapping U M R) (fIdx : ℕ) : Split U M R :=
  let n := split.splitMeshVertexCount
  let split := { split with
    splitMap := if fIdx ≠ 0 then pushSplit split.splitMap currentSubMesh.meshId (split.subMeshes.length - 1)
      else split.splitMap
    subMeshes := split.subMeshes.modifyLast fun subMesh =>
      subMesh.completePart split.splitBbox n split.splitMeshFaceCount split.idMapIdx
    totalVertexCount := split.totalVertexCount + n
    totalFaceCount := split.totalFaceCount + split.splitMeshFaceCount
    totalLargeMeshVertexCount := split.totalLargeMeshVertexCount + n }
  { split with
    subMeshes := split.subMeshes ++ [(SubMesh.startSubMesh split.totalVertexCount split.totalFaceCount).newMatMapEntry
      currentSubMesh split.totalVertexCount split.totalFaceCount]
    splitMeshFaceCount := 0
    splitBbox := none
    reIndexMap := [] }

/-- One turn of the loop over the faces.  `startedLargeMeshSplit` is true all the time. -/
def splitFace (currentSubMesh : RepoMeshMapping U M R) (split : Split U M R) (p : RepoFace × ℕ) :
    Option (Split U M R) :=
  let split :=
    if reorganiser.maxVertices < split.splitMeshVertexCount + p.1.sides ∨
        reorganiser.maxFaces ≤ split.splitMeshFaceCount then
      nextPart split currentSubMesh p.2
    else split
  (p.1.indices.foldlM reorganiser.addIndex (split, [])).map fun r => r.1.countFace r.2

/-- The buffers with the vertices of all parts in the place of those that the mesh had. -/
def patchBuffers (buffers : VertexBuffers R) (numVertices totalLargeMeshVertexCount newVerticesVFrom startingPos : ℕ)
    (reMapped : List ℕ) : VertexBuffers R :=
  let mesh := reorganiser.mesh
  { vertices := patchBuffer ⟨0, 0, 0⟩ buffers.vertices numVertices totalLargeMeshVertexCount newVerticesVFrom startingPos
      (reMapped.map reorganiser.oldVertex)
    normals :=
      if mesh.normals.isEmpty then buffers.normals
      else patchBuffer ⟨0, 0, 0⟩ buffers.normals numVertices totalLargeMeshVertexCount newVerticesVFrom startingPos
        (reMapped.map fun indexValue => mesh.normals.getD indexValue ⟨0, 0, 0⟩)
    channels := List.zipWith (fun newUVs oldUVs =>
      patchBuffer ⟨0, 0⟩ newUVs numVertices totalLargeMeshVertexCount newVerticesVFrom startingPos
        (reMapped.map fun indexValue => oldUVs.getD indexValue ⟨0, 0⟩)) buffers.channels mesh.channels }

/-- The end of `splitLargeMesh`, after the loop over the faces. -/
def finishSplit (split : Split U M R) (currentSubMesh : RepoMeshMapping U M R) (newVerticesVFrom : ℕ) : State U M R :=
  let n := split.splitMeshVertexCount
  let total := split.totalLargeMeshVertexCount + n
  { split.toState with
    totalVertexCount := split.totalVertexCount + n
    totalFaceCount := split.totalFaceCount + split.splitMeshFaceCount
    buffers := reorganiser.patchBuffers split.buffers (numVertices currentSubMesh) total newVerticesVFrom
      (split.backVertFrom + n) split.reMapped
    splitMap := pushSplit split.splitMap currentSubMesh.meshId (split.subMeshes.length - 1)
    subMeshes := split.subMeshes.modifyLast fun subMesh =>
      subMesh.completePart split.splitBbox n split.splitMeshFaceCount split.idMapIdx }

def splitLargeMesh (s : State U M R) (currentSubMesh : RepoMeshMapping U M R) : Option (State U M R) := do
  let split ← (reorganiser.readFaces s.orgFaceIdx (numFaces currentSubMesh)).zipIdx.foldlM
    (reorganiser.splitFace currentSubMesh)
    { s with reIndexMap := [], reMapped := [], splitMeshFaceCount := 0, splitBbox := none, totalLargeMeshVertexCount := 0 }
  return reorganiser.finishSplit split currentSubMesh s.backVertFrom

/-! ### The whole -/

/-- A new submesh is started, if the current one is finished or would become too large. -/
def makeRoom (s : State U M R) (currentSubMesh : RepoMeshMapping U M R) : State U M R :=
  if reorganiser.maxVertices < s.subMeshVertexCount + numVertices currentSubMesh ∨
      reorganiser.maxFaces < s.subMeshFaceCount + numFaces currentSubMesh ∨ s.finishedSubMesh then
    nextSubMesh s
  else s

/-- The entry of the mesh in the last submesh. -/
def newEntry (s : State U M R) (currentSubMesh : RepoMeshMapping U M R) : State U M R :=
  { s with
    subMeshes := s.subMeshes.modifyLast fun subMesh =>
      subMesh.newMatMapEntry currentSubMesh s.totalVertexCount s.totalFaceCount }

/-- One turn of the loop over the mappings. -/
def addMesh (s : State U M R) (currentSubMesh : RepoMeshMapping U M R) : Option (State U M R) :=
  let s := { s with splitMap := Function.update s.splitMap currentSubMesh.meshId (some []) }
  let s := newEntry (reorganiser.makeRoom s currentSubMesh) currentSubMesh
  if reorganiser.Oversized currentSubMesh then
    (reorganiser.splitLargeMesh s currentSubMesh).map fun s =>
      { s with idMapIdx := s.idMapIdx + 1, finishedSubMesh := true }
  else some (reorganiser.addSmallMesh s currentSubMesh)

/-- The state before the first mapping. -/
def initial : State U M R :=
  { buffers := reorganiser.mesh.buffers, newFaces := [], serialisedFaces := [], subMeshes := [], splitMap := fun _ => none,
    subMeshVertexCount := 0, subMeshFaceCount := 0, totalVertexCount := 0, totalFaceCount := 0, idMapIdx := 0,
    orgFaceIdx := 0, finishedSubMesh := true, bbox := none }

def performSplitting : Option (State U M R) := do
  let s ← reorganiser.mesh.meshMapping.foldlM reorganiser.addMesh reorganiser.initial
  return if s.subMeshVertexCount ≠ 0 then closeSubMesh s else s

/-- What the constructor leaves in the members, if `reMapSuccess`. -/
def remap : Option (State U M R) :=
  if reorganiser.mesh.meshMapping.isEmpty then none else reorganiser.performSplitting

end Parts

end Reorganiser

end Bouncer.MeshMapReorganiser
