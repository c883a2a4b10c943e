import Bouncer.Library.GreedyCut
import Bouncer.Multipart.MeshMapReorganiser

/-!
# The plan of the reorganiser

What the reorganiser makes of a supermesh is determined by a *plan*: the new submeshes as groups of parts, each with the
old vertices and faces of a mesh that it has.  A mesh within the limits is one part, and one beyond them is cut
greedily into runs of faces, each alone in its group.

The loop over the mappings follows the plan (`addMesh_stateAt`): the state before each mapping is that of the plan so
far (`stateAt`).  So the members are in the end what the groups say (`performSplitting_renders`).
-/

namespace Bouncer.MeshMapReorganiser

open Library
open Reorganiser (numVertices numFaces)

variable {U M R : Type}

/-! ### Parts -/

/-- What a new submesh has of one mesh. -/
structure Part (U M R : Type) where
  idMapIdx : ℕ
  source : RepoMeshMapping U M R
  /-- The old indices of the vertices. -/
  verts : List ℕ
  faces : List RepoFace
  /-- What the box of the submesh is extended by. -/
  boxes : List (RepoVector3D R × RepoVector3D R)

def vertCount (parts : List (Part U M R)) : ℕ := (parts.map fun part => part.verts.length).sum

def faceCount (parts : List (Part U M R)) : ℕ := (parts.map fun part => part.faces.length).sum

@[simp] theorem vertCount_nil : vertCount ([] : List (Part U M R)) = 0 := rfl
@[simp] theorem faceCount_nil : faceCount ([] : List (Part U M R)) = 0 := rfl

@[simp] theorem vertCount_append (parts parts' : List (Part U M R)) :
    vertCount (parts ++ parts') = vertCount parts + vertCount parts' := by
  simp [vertCount]

@[simp] theorem faceCount_append (parts parts' : List (Part U M R)) :
    faceCount (parts ++ parts') = faceCount parts + faceCount parts' := by
  simp [faceCount]

@[simp] theorem vertCount_singleton (part : Part U M R) : vertCount [part] = part.verts.length := by simp [vertCount]

@[simp] theorem faceCount_singleton (part : Part U M R) : faceCount [part] = part.faces.length := by simp [faceCount]

theorem sum_vertCount (groups : List (List (Part U M R))) : (groups.map vertCount).sum = vertCount groups.flatten := by
  induction groups with
  | nil => rfl
  | cons group groups ih => simp [ih]

theorem sum_faceCount (groups : List (List (Part U M R))) : (groups.map faceCount).sum = faceCount groups.flatten := by
  induction groups with
  | nil => rfl
  | cons group groups ih => simp [ih]

/-- The vertices of the parts. -/
def vertsOf (parts : List (Part U M R)) : List ℕ := parts.flatMap Part.verts

theorem length_vertsOf (parts : List (Part U M R)) : (vertsOf parts).length = vertCount parts := List.length_flatMap ..

/-- The entry of the material map for a part, when it starts at a vertex and a face. -/
def Part.entry (part : Part U M R) (v f : ℕ) : RepoMeshMapping U M R :=
  { part.source with vertFrom := v, vertTo := v + part.verts.length, triFrom := f, triTo := f + part.faces.length }

def placedParts (v f : ℕ) (parts : List (Part U M R)) : List (ℕ × ℕ × Part U M R) :=
  placed (fun part => part.verts.length) (fun part => part.faces.length) v f parts

private theorem placedParts_concat (v f : ℕ) (parts : List (Part U M R)) (part : Part U M R) :
    placedParts v f (parts ++ [part]) = placedParts v f parts ++ [(v + vertCount parts, f + faceCount parts, part)] :=
  placed_concat parts part

def entries (v f : ℕ) (parts : List (Part U M R)) : List (RepoMeshMapping U M R) :=
  (placedParts v f parts).map fun p => p.2.2.entry p.1 p.2.1

theorem entries_concat (v f : ℕ) (parts : List (Part U M R)) (part : Part U M R) :
    entries v f (parts ++ [part]) = entries v f parts ++ [part.entry (v + vertCount parts) (f + faceCount parts)] := by
  unfold entries
  rw [placedParts_concat, List.map_append, List.map_singleton]

def idsOf (parts : List (Part U M R)) : List ℕ :=
  parts.flatMap fun part => List.replicate part.verts.length (toFloat part.idMapIdx)

/-- The indices of the faces of a part whose first vertex is the given one of its submesh. -/
def Part.indices (part : Part U M R) (base : ℕ) : List (List ℕ) :=
  part.faces.map fun face => face.indices.map fun indexValue => base + part.verts.idxOf indexValue

/-- The indices of the faces of a submesh. -/
def indicesOf (parts : List (Part U M R)) : List (List ℕ) :=
  (placedParts 0 0 parts).flatMap fun p => p.2.2.indices p.1

@[simp] theorem indicesOf_nil : indicesOf ([] : List (Part U M R)) = [] := rfl

theorem indicesOf_concat (parts : List (Part U M R)) (part : Part U M R) :
    indicesOf (parts ++ [part]) = indicesOf parts ++ part.indices (vertCount parts) := by
  unfold indicesOf
  rw [placedParts_concat, List.flatMap_append, List.flatMap_singleton, Nat.zero_add]

theorem indicesOf_singleton (part : Part U M R) : indicesOf [part] = part.indices 0 := indicesOf_concat [] part

/-- The values of the attribute at the vertices of the parts. -/
def gather {α : Type} (old : List α) (default : α) (parts : List (Part U M R)) : List α :=
  (vertsOf parts).map fun i => old.getD i default

section Layout

variable [LinearOrder R]

/-- The box after the parts. -/
def boxOf (parts : List (Part U M R)) : Box R :=
  (parts.flatMap Part.boxes).foldl (fun bbox p => updateBoundingBoxes bbox p.1 p.2) none

@[simp] theorem boxOf_nil : boxOf ([] : List (Part U M R)) = none := rfl

theorem boxOf_concat (parts : List (Part U M R)) (part : Part U M R) : boxOf (parts ++ [part]) =
    part.boxes.foldl (fun bbox p => updateBoundingBoxes bbox p.1 p.2) (boxOf parts) := by
  unfold boxOf
  rw [List.flatMap_append, List.flatMap_singleton, List.foldl_append]

variable [Inhabited U] [Inhabited M] [Zero R]

/-- The submesh while its parts are added. -/
def openSubMesh (v f : ℕ) (parts : List (Part U M R)) : SubMesh U M R :=
  { mapping := { SubMesh.newMapping with vertFrom := v, triFrom := f }
    matMap := entries v f parts
    idMapBuf := idsOf parts }

def doneSubMesh (v f : ℕ) (parts : List (Part U M R)) : SubMesh U M R :=
  { openSubMesh v f parts with
    mapping := (finishSubMesh (openSubMesh v f parts).mapping (boxOf parts) (vertCount parts) (faceCount parts)).1 }

/-- The submeshes of the groups. -/
def layOut (groups : List (List (Part U M R))) : List (SubMesh U M R) :=
  (placed vertCount faceCount 0 0 groups).map fun p => doneSubMesh p.1 p.2.1 p.2.2

theorem layOut_concat (groups : List (List (Part U M R))) (group : List (Part U M R)) :
    layOut (groups ++ [group]) =
      layOut groups ++ [doneSubMesh (vertCount groups.flatten) (faceCount groups.flatten) group] := by
  unfold layOut
  rw [placed_concat, List.map_append, List.map_singleton, sum_vertCount, sum_faceCount, Nat.zero_add, Nat.zero_add]

theorem length_layOut (groups : List (List (Part U M R))) : (layOut groups).length = groups.length := by
  rw [layOut, List.length_map, length_placed]

end Layout

/-! ### Plans -/

/-- The groups so far.  The current one may still grow. -/
structure Plan (U M R : Type) where
  closed : List (List (Part U M R))
  current : Option (List (Part U M R))
  /-- The number of the next mapping, and its first vertex. -/
  idMapIdx : ℕ
  vertFrom : ℕ

namespace Plan

def groups (plan : Plan U M R) : List (List (Part U M R)) := plan.closed ++ plan.current.toList

def openParts (plan : Plan U M R) : List (Part U M R) := plan.current.getD []

def parts (plan : Plan U M R) : List (Part U M R) := plan.closed.flatten ++ plan.openParts

def empty : Plan U M R := ⟨[], none, 0, 0⟩

/-- The current group is closed and another one started. -/
def next (plan : Plan U M R) : Plan U M R := { plan with closed := plan.groups, current := some [] }

theorem flatten_groups (plan : Plan U M R) : plan.groups.flatten = plan.parts := by
  unfold groups parts openParts
  cases plan.current with
  | none => simp
  | some parts => simp

end Plan

/-- The different vertices of some faces, in the order in which they come. -/
def table (faces : List RepoFace) : List ℕ := (internAll [] (faces.flatMap RepoFace.indices)).1

@[simp] theorem table_nil : table [] = [] := rfl

/-- The positions, from `n` on, of the runs that have a face. -/
def splitIndices (n : ℕ) (runs : List (List RepoFace)) : List ℕ :=
  ((runs.zipIdx n).filter fun p => !p.1.isEmpty).map Prod.snd

namespace Reorganiser

variable (reorganiser : Reorganiser U M R)

/-- The faces of a mesh. -/
def facesOf (mapping : RepoMeshMapping U M R) : List RepoFace := reorganiser.readFaces mapping.triFrom (numFaces mapping)

/-- There is no room for the face in the submesh of the run. -/
def full (run : List RepoFace) (face : RepoFace) : Bool :=
  decide (reorganiser.maxVertices < (table run).length + face.sides ∨ reorganiser.maxFaces ≤ run.length)

/-- The faces of a mesh that is split, cut into runs. -/
def runs (mapping : RepoMeshMapping U M R) : List (List RepoFace) :=
  greedyCut reorganiser.full [] (reorganiser.facesOf mapping)

/-- A mesh as one part. -/
def whole (idMapIdx : ℕ) (mapping : RepoMeshMapping U M R) : Part U M R :=
  { idMapIdx := idMapIdx
    source := mapping
    verts := List.range' mapping.vertFrom (numVertices mapping)
    faces := reorganiser.facesOf mapping
    boxes := [(mapping.min, mapping.max)] }

/-- A run as a part. -/
def piece [Zero R] (idMapIdx : ℕ) (mapping : RepoMeshMapping U M R) (run : List RepoFace) : Part U M R :=
  { idMapIdx := idMapIdx
    source := mapping
    verts := table run
    faces := run
    boxes := (table run).map fun i => (reorganiser.oldVertex i, reorganiser.oldVertex i) }

@[simp] theorem whole_source (idMapIdx : ℕ) (mapping : RepoMeshMapping U M R) :
    (reorganiser.whole idMapIdx mapping).source = mapping := rfl

@[simp] theorem length_verts_whole (idMapIdx : ℕ) (mapping : RepoMeshMapping U M R) :
    (reorganiser.whole idMapIdx mapping).verts.length = numVertices mapping := List.length_range'

@[simp] theorem whole_faces (idMapIdx : ℕ) (mapping : RepoMeshMapping U M R) :
    (reorganiser.whole idMapIdx mapping).faces = reorganiser.facesOf mapping := rfl

@[simp] theorem piece_source [Zero R] (idMapIdx : ℕ) (mapping : RepoMeshMapping U M R) (run : List RepoFace) :
    (reorganiser.piece idMapIdx mapping run).source = mapping := rfl

@[simp] theorem piece_verts [Zero R] (idMapIdx : ℕ) (mapping : RepoMeshMapping U M R) (run : List RepoFace) :
    (reorganiser.piece idMapIdx mapping run).verts = table run := rfl

@[simp] theorem piece_faces [Zero R] (idMapIdx : ℕ) (mapping : RepoMeshMapping U M R) (run : List RepoFace) :
    (reorganiser.piece idMapIdx mapping run).faces = run := rfl

/-- The groups of a plan and those of some runs of a mesh. -/
def withRuns [Zero R] (plan : Plan U M R) (mapping : RepoMeshMapping U M R) (runs : List (List RepoFace)) :
    List (List (Part U M R)) :=
  plan.closed ++ runs.map fun run => [reorganiser.piece plan.idMapIdx mapping run]

theorem withRuns_concat [Zero R] (plan : Plan U M R) (mapping : RepoMeshMapping U M R) (runs : List (List RepoFace))
    (run : List RepoFace) : reorganiser.withRuns plan mapping (runs ++ [run]) =
      reorganiser.withRuns plan mapping runs ++ [[reorganiser.piece plan.idMapIdx mapping run]] := by
  simp [withRuns]

theorem length_withRuns [Zero R] (plan : Plan U M R) (mapping : RepoMeshMapping U M R) (runs : List (List RepoFace)) :
    (reorganiser.withRuns plan mapping runs).length = plan.closed.length + runs.length := by
  simp [withRuns]

/-- The plan with a group in which there is room for the mapping, or which is for it alone. -/
def prepare (plan : Plan U M R) (mapping : RepoMeshMapping U M R) : Plan U M R :=
  if reorganiser.maxVertices < vertCount plan.openParts + numVertices mapping ∨
      reorganiser.maxFaces < faceCount plan.openParts + numFaces mapping ∨ plan.current.isNone then
    plan.next
  else plan

theorem prepare_current (plan : Plan U M R) (mapping : RepoMeshMapping U M R) :
    ∃ parts, (reorganiser.prepare plan mapping).current = some parts ∧
      (reorganiser.Oversized mapping → parts = []) := by
  unfold prepare
  by_cases hcond : reorganiser.maxVertices < vertCount plan.openParts + numVertices mapping ∨
      reorganiser.maxFaces < faceCount plan.openParts + numFaces mapping ∨ plan.current.isNone
  · rw [if_pos hcond]
    exact ⟨[], rfl, fun _ => rfl⟩
  · rw [if_neg hcond]
    rw [not_or, not_or, Option.isNone_iff_eq_none] at hcond
    obtain ⟨parts, hparts⟩ := Option.ne_none_iff_exists'.1 hcond.2.2
    refine ⟨parts, hparts, ?_⟩
    rintro (hverts | hfaces)
    · exact absurd (hverts.trans_le (Nat.le_add_left _ _)) hcond.1
    · exact absurd (hfaces.trans_le (Nat.le_add_left _ _)) hcond.2.1

theorem prepare_parts (plan : Plan U M R) (mapping : RepoMeshMapping U M R) :
    (reorganiser.prepare plan mapping).parts = plan.parts := by
  unfold prepare
  split_ifs
  · simp [Plan.next, Plan.parts, Plan.openParts, plan.flatten_groups]
  · rfl

/-- The plan after one more mapping. -/
def extend [Zero R] (plan : Plan U M R) (mapping : RepoMeshMapping U M R) : Plan U M R :=
  let prepared := reorganiser.prepare plan mapping
  if reorganiser.Oversized mapping then
    { closed := reorganiser.withRuns prepared mapping (reorganiser.runs mapping)
      current := none
      idMapIdx := plan.idMapIdx + 1
      vertFrom := mapping.vertTo }
  else
    { closed := prepared.closed
      current := some (prepared.openParts ++ [reorganiser.whole plan.idMapIdx mapping])
      idMapIdx := plan.idMapIdx + 1
      vertFrom := mapping.vertTo }

/-- The new submeshes that are listed for the mapping. -/
def splits (plan : Plan U M R) (mapping : RepoMeshMapping U M R) : List ℕ :=
  if reorganiser.Oversized mapping then
    splitIndices (reorganiser.prepare plan mapping).closed.length (reorganiser.runs mapping)
  else [(reorganiser.prepare plan mapping).closed.length]

/-- The plan for the whole supermesh. -/
def plan [Zero R] : Plan U M R := reorganiser.mesh.meshMapping.foldl reorganiser.extend Plan.empty

/-- The map after some more mappings. -/
def splitMapFrom [Zero R] [DecidableEq U] :
    Plan U M R → List (RepoMeshMapping U M R) → (U → Option (List ℕ)) → U → Option (List ℕ)
  | _, [], splitMap => splitMap
  | plan, mapping :: mappings, splitMap =>
    splitMapFrom (reorganiser.extend plan mapping) mappings
      (Function.update splitMap mapping.meshId (some (reorganiser.splits plan mapping)))

@[simp] theorem indicesOf_piece_nil [Zero R] (idMapIdx : ℕ) (mapping : RepoMeshMapping U M R) :
    indicesOf [reorganiser.piece idMapIdx mapping []] = [] := rfl

@[simp] theorem boxOf_piece_nil [Zero R] [LinearOrder R] (idMapIdx : ℕ) (mapping : RepoMeshMapping U M R) :
    boxOf [reorganiser.piece idMapIdx mapping []] = none := rfl

section State

variable [LinearOrder R] [Inhabited U] [Inhabited M] [Zero R]

/-- The buffers after the parts, with the vertices of the other meshes from the given one on. -/
def buffersAt (parts : List (Part U M R)) (vertFrom : ℕ) : VertexBuffers R :=
  let mesh := reorganiser.mesh
  { vertices := gather mesh.vertices ⟨0, 0, 0⟩ parts ++ mesh.vertices.drop vertFrom
    normals := if mesh.normals.isEmpty then [] else gather mesh.normals ⟨0, 0, 0⟩ parts ++ mesh.normals.drop vertFrom
    channels := mesh.channels.map fun channel => gather channel ⟨0, 0⟩ parts ++ channel.drop vertFrom }

/-- The state of the loop that the plan stands for. -/
def stateAt (plan : Plan U M R) (splitMap : U → Option (List ℕ)) : State U M R :=
  { buffers := reorganiser.buffersAt plan.parts plan.vertFrom
    newFaces := (plan.groups.flatMap indicesOf).map RepoFace.ofIndices
    serialisedFaces := (plan.groups.flatMap indicesOf).flatten.map (· % 2 ^ 16)
    subMeshes := layOut plan.closed ++
      plan.current.toList.map fun parts => openSubMesh (vertCount plan.closed.flatten) (faceCount plan.closed.flatten) parts
    splitMap := splitMap
    subMeshVertexCount := vertCount plan.openParts
    subMeshFaceCount := faceCount plan.openParts
    totalVertexCount := vertCount plan.parts
    totalFaceCount := faceCount plan.parts
    idMapIdx := plan.idMapIdx
    orgFaceIdx := faceCount plan.parts
    finishedSubMesh := plan.current.isNone
    bbox := boxOf plan.openParts }

/-- The members after a run of the loop say what the groups say. -/
structure Renders (groups : List (List (Part U M R))) (splitMap : U → Option (List ℕ)) (s : State U M R) : Prop where
  buffers : s.buffers = reorganiser.buffersAt groups.flatten reorganiser.mesh.vertices.length
  newFaces : s.newFaces = (groups.flatMap indicesOf).map RepoFace.ofIndices
  serialisedFaces : s.serialisedFaces = (groups.flatMap indicesOf).flatten.map (· % 2 ^ 16)
  subMeshes : s.subMeshes = layOut groups
  splitMap : s.splitMap = splitMap

end State

end Reorganiser

end Bouncer.MeshMapReorganiser
