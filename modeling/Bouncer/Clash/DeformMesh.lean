import Bouncer.Clash.Pipelines

/-!
# Deformable meshes

`RepoDeformDepth::Mesh` is an indexed mesh with working vertices `_vertices`, and a hierarchy for each of its groups of
faces.  The hard pipeline makes one of all mesh nodes of a composite object, with a group for each node (`ofNodes`).
-/

namespace Bouncer.Clash

variable {boost : Boost} {R : Type*}

/-- A range of faces, as `addFaceRange` records it. -/
structure FaceRange where
  start : ℕ
  length : ℕ
  closed : Bool
  orderedIndices : List ℕ

structure Faces (R : Type*) extends FaceRange where
  bvh : Bvh R

structure DeformMesh (R : Type*) extends RepoIndexedMesh R where
  _vertices : List (RepoVector3D R)
  faceGroups : List (Faces R)

/-- The constructor of `Faces`, but for the hierarchy. -/
def FaceRange.new (geometry : Geometry R) (mesh : RepoIndexedMesh R) (start length : ℕ) : FaceRange :=
  let faces := (mesh.faces.drop start).take length
  { start := start
    length := length
    closed := isClosedAndManifold faces
    orderedIndices := geometry.orderVertices mesh.vertices
      ((faces.flatMap fun face => [face.get 0, face.get 1, face.get 2]).dedup.mergeSort fun i j => decide (i ≤ j)) }

def Faces.getBounds [Field R] [LinearOrder R] (group : Faces R) : RepoBounds R :=
  let a := group.bvh.nodes 0
  .ofMinMax ⟨a.bounds 0, a.bounds 2, a.bounds 4⟩ ⟨a.bounds 1, a.bounds 3, a.bounds 5⟩

namespace DeformMesh

section Field

variable [Field R]

def getTriangle (mesh : DeformMesh R) (index : ℕ) : RepoTriangle R :=
  (⟨mesh._vertices, mesh.faces⟩ : RepoIndexedMesh R).getTriangle index

/-- `Faces::getTriangle`. -/
def groupTriangle (mesh : DeformMesh R) (group : Faces R) (primitive : ℕ) : RepoTriangle R :=
  mesh.getTriangle (group.start + primitive)

/-- The group, as a `MeshView`. -/
def view (mesh : DeformMesh R) (group : Faces R) : MeshView R := ⟨group.bvh, mesh.groupTriangle group⟩

variable [LinearOrder R]

def bounds (mesh : DeformMesh R) : RepoBounds R :=
  mesh.faceGroups.foldl (fun b group => b.encapsulateBounds group.getBounds) .empty

/-- `initialise`: the working vertices are the vertices, and the groups get their hierarchies. -/
def initialise (builder : SweepSahBuilder R) (mesh : RepoIndexedMesh R) (ranges : List FaceRange) : DeformMesh R where
  toRepoIndexedMesh := mesh
  _vertices := mesh.vertices
  faceGroups := ranges.map fun range =>
    ⟨range, build builder mesh.vertices ((mesh.faces.drop range.start).take range.length)⟩

/-- The loop of `CacheEntry::initialise`: one node after the other is appended and recorded as a range. -/
def loadNodes (geometry : Geometry R) (nodes : List (Node boost R)) : RepoIndexedMesh R × List FaceRange :=
  nodes.foldl (fun s node =>
    let mesh := (loadGeometry node).foldl RepoIndexedMesh.append s.1
    (mesh, s.2 ++ [.new geometry mesh s.1.faces.length (mesh.faces.length - s.1.faces.length)])) (.empty, [])

def ofNodes (geometry : Geometry R) (builder : SweepSahBuilder R) (nodes : List (Node boost R)) : DeformMesh R :=
  let loaded := loadNodes geometry nodes
  initialise builder loaded.1 loaded.2

end Field

/-- The faces index the vertices, and the groups hold ranges of faces under well-formed hierarchies. -/
structure Valid (mesh : DeformMesh R) : Prop where
  indexed : (⟨mesh._vertices, mesh.faces⟩ : RepoIndexedMesh R).Indexed
  range : ∀ group ∈ mesh.faceGroups, group.start + group.length ≤ mesh.faces.length
  wellFormed : ∀ group ∈ mesh.faceGroups, group.bvh.WellFormed group.length
  orderedIndices : ∀ group ∈ mesh.faceGroups, ∀ i ∈ group.orderedIndices, i < mesh._vertices.length

end DeformMesh

end Bouncer.Clash
