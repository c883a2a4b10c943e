import Bouncer.Datastructure.Matrix
import Bouncer.Datastructure.Structs
import Bouncer.Library.Tiling
import Bouncer.Multipart.BvhCut

/-!
# Assembling supermeshes

For each cluster `createSuperMeshes` loads the meshes as the database delivers them, transforms their vertices, and
appends them to a current supermesh while there is room.  A mesh that does not fit any more starts the next supermesh,
and one that is too big for any is split.
-/

namespace Bouncer.MultipartOptimizer

variable {U M R : Type}

/-- `MaterialNode`, as the optimizer uses it. -/
structure MaterialNode (U M : Type) where
  uniqueId : U
  material : M

/-- `StreamingMeshNode::SupermeshingData`: the geometry of a mesh. -/
structure SupermeshingData (U R : Type) where
  uniqueId : U
  vertices : List (RepoVector3D R)
  faces : List RepoFace
  normals : List (RepoVector3D R)
  channels : List (List (RepoVector2D R))

/-- A mesh document of the database, with its binary buffers. -/
structure MeshDocument (U R : Type) where
  sharedId : U
  data : SupermeshingData U R

/-- `StreamingMeshNode`, with what it takes to put it into a supermesh. -/
structure SceneMeshNode (U R : Type) extends StreamingMeshNode R where
  sharedId : U
  parent : U

/-- `mapped_mesh_t`. -/
structure MappedMesh (U M R : Type) where
  vertices : List (RepoVector3D R)
  normals : List (RepoVector3D R)
  faces : List RepoFace
  uvChannels : List (List (RepoVector2D R))
  meshMapping : List (RepoMeshMapping U M R)

/-- What `addSupermesh` of the exporter is called with. -/
structure SupermeshNode (U M R : Type) where
  vertices : List (RepoVector3D R)
  normals : List (RepoVector3D R)
  faces : List RepoFace
  boundingBox : RepoBounds R
  channels : List (List (RepoVector2D R))
  meshMapping : List (RepoMeshMapping U M R)
  grouping : String

/-- How the assembly can end without a result. -/
inductive Failure where
  /-- `at` throws: a transform, a material or a mesh is missing. -/
  | outOfRange
  /-- `exit(0)` because of the last row of a matrix. -/
  | exit
  | inconsistentUvChannelCount
  | verticesOrFacesNull
  /-- `createSupermeshNode` returns a null pointer. -/
  | nullSupermesh
  deriving DecidableEq

def orFail {α : Type} (failure : Failure) : Option α → Except Failure α
  | some x => .ok x
  | none => .error failure

def MappedMesh.empty : MappedMesh U M R := ⟨[], [], [], [], []⟩

section Transform

variable [ExactReal R]

def transformBounds (bounds : RepoBounds R) (transform : RepoMatrix R) : Except Failure (RepoBounds R) := do
  let newMinBound ← orFail .exit (transform.mulVector bounds.bmin)
  let newMaxBound ← orFail .exit (transform.mulVector bounds.bmax)
  return .ofMinMax newMinBound newMaxBound

/-- What `clusterAndSupermesh` does with a node that the cursor returns. -/
def prepareNode (transformMap : U → Option (RepoMatrix R)) (node : SceneMeshNode U R) :
    Except Failure (SceneMeshNode U R) := do
  let transform ← orFail .outOfRange (transformMap node.parent)
  let bounds ← transformBounds node.bounds transform
  return { node with bounds := bounds }

/-- The loop of `MeshNode::transformNormals`, with the matrix that was made of the inverse. -/
def transformNormalsBy (worldMat : RepoMatrix R) (normals : List (RepoVector3D R)) :
    Except Failure (List (RepoVector3D R)) :=
  normals.mapM fun n => (orFail .exit (worldMat.mulVector n)).map RepoVector3D.normalized

/-- `MeshNode::transformNormals`, if the inverse is exact. -/
def transformNormals (normals : List (RepoVector3D R)) (matrix : RepoMatrix R) : Except Failure (List (RepoVector3D R)) :=
  transformNormalsBy matrix.worldMat normals

omit [ExactReal R] in
theorem orFail_mapM {α β : Type} {f : α → Option β} {g : α → β} {l : List α} (h : ∀ x, f x = some (g x)) :
    (l.mapM fun x => orFail .exit (f x)) = .ok (l.map g) := by
  simp only [h, orFail]
  exact List.mapM_pure

theorem transformNormalsBy_ok {worldMat : RepoMatrix R} {normals : List (RepoVector3D R)}
    (h : ¬ worldMat.Exits ∨ normals = []) :
    transformNormalsBy worldMat normals = .ok (normals.map fun n => (worldMat.image n).normalized) := by
  rcases h with h | rfl
  · unfold transformNormalsBy
    simp only [RepoMatrix.mulVector, if_neg h, orFail, Except.map]
    exact List.mapM_pure
  · rfl

theorem transformNormalsBy_exits {worldMat : RepoMatrix R} (h : worldMat.Exits) {normals : List (RepoVector3D R)}
    (hnormals : normals ≠ []) : transformNormalsBy worldMat normals = .error .exit := by
  obtain ⟨n, rest, rfl⟩ := List.exists_cons_of_ne_nil hnormals
  unfold transformNormalsBy
  rw [List.mapM_cons, RepoMatrix.mulVector, if_pos h]
  rfl

theorem transformNormals_ok {m : RepoMatrix R} (haffine : m.Affine) (hdet : m.determinant ≠ 0)
    (normals : List (RepoVector3D R)) :
    transformNormals normals m = .ok (normals.map fun n => (m.worldMat.image n).normalized) :=
  transformNormalsBy_ok (.inl (haffine.worldMat hdet).not_exits)

/-- `SupermeshingData::bakeMeshes`, with the matrix that is made of the inverse for the normals. -/
def SupermeshingData.bakeMeshes (data : SupermeshingData U R) (transform worldMat : RepoMatrix R) :
    Except Failure (SupermeshingData U R) := do
  let vertices ← data.vertices.mapM fun v => orFail .exit (transform.mulVector v)
  let normals ← transformNormalsBy worldMat data.normals
  return { data with vertices := vertices, normals := normals }

end Transform

/-- `SupermeshingData::deserialise`: the UV channels are left out on request. -/
def MeshDocument.loadSupermeshingData (document : MeshDocument U R) (ignoreUVs : Bool) : SupermeshingData U R :=
  { document.data with channels := if ignoreUVs then [] else document.data.channels }

section Append

variable [DecidableEq U] [Inhabited U]

/-- `appendMesh`.  The default identifier is that of no texture. -/
def appendMesh (node : SceneMeshNode U R) (data : SupermeshingData U R) (matPropMap : U → Option (MaterialNode U M))
    (mapped : MappedMesh U M R) (texId : U) : Except Failure (MappedMesh U M R) := do
  let matNode ← orFail .outOfRange (matPropMap node.sharedId)
  if data.vertices ≠ [] ∧ data.faces ≠ [] then
    let vertFrom := mapped.vertices.length
    let meshMap : RepoMeshMapping U M R :=
      { min := node.bounds.bmin
        max := node.bounds.bmax
        meshId := data.uniqueId
        sharedId := node.sharedId
        materialId := matNode.uniqueId
        material := matNode.material
        textureId := texId
        vertFrom := vertFrom
        vertTo := vertFrom + data.vertices.length
        triFrom := mapped.faces.length
        triTo := mapped.faces.length + data.faces.length }
    let uvChannels := if mapped.uvChannels = [] then List.replicate data.channels.length [] else mapped.uvChannels
    if uvChannels.length = data.channels.length then
      return { vertices := mapped.vertices ++ data.vertices
               normals := mapped.normals ++ data.normals
               faces := mapped.faces ++ data.faces.map fun face => face.offset vertFrom
               uvChannels := List.zipWith (· ++ ·) uvChannels data.channels
               meshMapping := mapped.meshMapping ++ [meshMap] }
    else throw .inconsistentUvChannelCount
  else throw .verticesOrFacesNull

end Append

/-- `setUVChannel`: an empty channel is not set. -/
def setUVChannel (channels : List (List (RepoVector2D R))) (channel : ℕ) (uvs : List (RepoVector2D R)) :
    List (List (RepoVector2D R)) :=
  if uvs ≠ [] then
    (channels ++ List.replicate (channel + 1 - channels.length) []).set channel uvs
  else channels

/-- The loop of `makeSupermeshNode` over the channels. -/
def setUVChannels (uvChannels : List (List (RepoVector2D R))) : List (List (RepoVector2D R)) :=
  uvChannels.zipIdx.foldl (fun channels p => setUVChannel channels p.2 p.1) []

section Loop

variable [ExactReal R]

def createSupermeshNode (mapped : MappedMesh U M R) (tag : String) : Option (SupermeshNode U M R) :=
  match mapped.meshMapping with
  | [] => none
  | first :: rest =>
    some
      { vertices := mapped.vertices
        normals := mapped.normals
        faces := mapped.faces
        boundingBox := rest.foldl (fun bbox mapping => (bbox.encapsulate mapping.min).encapsulate mapping.max)
          (.ofMinMax first.min first.max)
        channels := setUVChannels mapped.uvChannels
        meshMapping := mapped.meshMapping
        grouping := tag }

/-- What has happened so far: the current supermesh, the calls of `addSupermesh`, and those of `splitMesh`. -/
structure Progress (U M R : Type) where
  currentSupermesh : MappedMesh U M R
  exported : List (SupermeshNode U M R)
  split : List (SceneMeshNode U R × SupermeshingData U R)

/-- `createSuperMesh`, for the current supermesh. -/
def Progress.flush (progress : Progress U M R) (tag : String) : Except Failure (Progress U M R) := do
  let supermesh ← orFail .nullSupermesh (createSupermeshNode progress.currentSupermesh tag)
  return { progress with currentSupermesh := .empty, exported := progress.exported ++ [supermesh] }

variable [DecidableEq U] [Inhabited U]

/-- What a cluster is processed with. -/
structure ClusterContext (U M R : Type) where
  transformMap : U → Option (RepoMatrix R)
  matPropMap : U → Option (MaterialNode U M)
  meshNodes : List (SceneMeshNode U R)
  texId : U
  namedGrouping : String
  /-- What `transformNormals` makes of the inverse of a transform, as that is computed. -/
  worldMat : RepoMatrix R → RepoMatrix R

/-- The nodes of the cluster, as `clusterMap` and `sharedIdsInCluster` are filled from them. -/
def ClusterContext.nodes (context : ClusterContext U M R) (cluster : List ℕ) : List (SceneMeshNode U R) :=
  cluster.filterMap fun index => context.meshNodes[index]?

/-- `clusterMap.at`: of two nodes with one shared id the first was inserted. -/
def ClusterContext.nodeOf (context : ClusterContext U M R) (cluster : List ℕ) (sharedId : U) :
    Option (SceneMeshNode U R) :=
  (context.nodes cluster).find? fun node => decide (node.sharedId = sharedId)

/-- The loading and baking of one document. -/
def ClusterContext.load (context : ClusterContext U M R) (cluster : List ℕ) (document : MeshDocument U R) :
    Except Failure (SceneMeshNode U R × SupermeshingData U R) := do
  let sNode ← orFail .outOfRange (context.nodeOf cluster document.sharedId)
  let transform ← orFail .outOfRange (context.transformMap sNode.parent)
  let data ← (document.loadSupermeshingData (decide (context.texId = default))).bakeMeshes transform
    (context.worldMat transform)
  return (sNode, data)

/-- What is done with a mesh that has been loaded. -/
def ClusterContext.place (context : ClusterContext U M R) (progress : Progress U M R)
    (p : SceneMeshNode U R × SupermeshingData U R) : Except Failure (Progress U M R) := do
  if progress.currentSupermesh.vertices.length + p.2.vertices.length ≤ maxVertexCount then
    let mapped ← appendMesh p.1 p.2 context.matPropMap progress.currentSupermesh context.texId
    return { progress with currentSupermesh := mapped }
  else if p.2.vertices.length > maxVertexCount then
    return { progress with split := progress.split ++ [p] }
  else
    let progress ← progress.flush context.namedGrouping
    let mapped ← appendMesh p.1 p.2 context.matPropMap progress.currentSupermesh context.texId
    return { progress with currentSupermesh := mapped }

/-- One cluster of `createSuperMeshes`, whose documents are delivered in the order of the list. -/
def ClusterContext.createSuperMeshes (context : ClusterContext U M R) (cluster : List ℕ)
    (binNodes : List (MeshDocument U R)) : Except Failure (Progress U M R) := do
  let progress ← binNodes.foldlM (fun progress document => do context.place progress (← context.load cluster document))
    ⟨.empty, [], []⟩
  if progress.currentSupermesh.vertices ≠ [] then progress.flush context.namedGrouping else return progress

end Loop

end Bouncer.MultipartOptimizer
