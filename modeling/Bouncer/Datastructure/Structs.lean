import Bouncer.Datastructure.Geometry

/-!
# Faces and mesh mappings

`repo_face_t` is a face with room for three vertex indices, of which `sides` are set.  `repo_mesh_mapping_t` says
which vertices and faces of a supermesh, or of a submesh, are those of one mesh.  Its four ranges are `int32_t`, so that
what is assigned to them wraps (`int32`), and is kept exactly below `2 ^ 31` (`RepoMeshMapping.Fits`).
-/

namespace Bouncer

structure RepoFace where
  /-- The indices that are set. -/
  indices : List ℕ
  sides_le : indices.length ≤ 3
  deriving DecidableEq

namespace RepoFace

def sides (face : RepoFace) : ℕ := face.indices.length

/-- `operator[]`.  An index that was never set is its own position. -/
def get (face : RepoFace) (i : ℕ) : ℕ := face.indices.getD i i

/-- `repo_face_t({i, j, k})`. -/
def triangle (i j k : ℕ) : RepoFace := ⟨[i, j, k], Nat.le_refl 3⟩

@[simp] theorem sides_triangle (i j k : ℕ) : (triangle i j k).sides = 3 := rfl
@[simp] theorem get_triangle_zero (i j k : ℕ) : (triangle i j k).get 0 = i := rfl
@[simp] theorem get_triangle_one (i j k : ℕ) : (triangle i j k).get 1 = j := rfl
@[simp] theorem get_triangle_two (i j k : ℕ) : (triangle i j k).get 2 = k := rfl

/-- `push_back` of `repo_face_t`.  There is no room for a fourth index. -/
def pushBack (face : RepoFace) (i : ℕ) : RepoFace :=
  ⟨(face.indices ++ [i % 2 ^ 32]).take 3, List.length_take_le _ _⟩

/-- `repo_face_t()`. -/
def empty : RepoFace := ⟨[], Nat.zero_le 3⟩

/-- A face that is filled with `push_back`. -/
def ofIndices (indices : List ℕ) : RepoFace := indices.foldl pushBack empty

private theorem indices_pushBack {face : RepoFace} (h : face.sides < 3) (i : ℕ) :
    (face.pushBack i).indices = face.indices ++ [i % 2 ^ 32] := by
  apply List.take_of_length_le
  rw [List.length_append]
  exact h

theorem indices_ofIndices {indices : List ℕ} (h : indices.length ≤ 3) :
    (ofIndices indices).indices = indices.map (· % 2 ^ 32) := by
  induction indices using List.reverseRecOn with
  | nil => rfl
  | append_singleton indices i ih =>
    rw [List.length_append, List.length_singleton] at h
    have ih := ih (by omega)
    have hsides : (ofIndices indices).sides < 3 := by
      rw [sides, ih, List.length_map]
      omega
    have hstep : ofIndices (indices ++ [i]) = (ofIndices indices).pushBack i := List.foldl_concat ..
    rw [hstep, indices_pushBack hsides, ih, List.map_append, List.map_singleton]

/-- The face with its indices moved, as `offsetFace` is filled. -/
def offset (face : RepoFace) (vertFrom : ℕ) : RepoFace :=
  ⟨face.indices.map fun idx => vertFrom + idx, by rw [List.length_map]; exact face.sides_le⟩

@[simp] theorem sides_offset (face : RepoFace) (vertFrom : ℕ) : (face.offset vertFrom).sides = face.sides :=
  List.length_map _

/-- The face with its indices looked up in a table. -/
def reindex (face : RepoFace) (f : ℕ → ℕ) : RepoFace :=
  ⟨face.indices.map f, by rw [List.length_map]; exact face.sides_le⟩

@[simp] theorem sides_reindex (face : RepoFace) (f : ℕ → ℕ) : (face.reindex f).sides = face.sides := List.length_map _

private theorem get_eq_getElem (face : RepoFace) {j : ℕ} (hj : j < face.indices.length) : face.get j = face.indices[j] := by
  unfold get
  rw [List.getD_eq_getElem?_getD, List.getElem?_eq_getElem hj, Option.getD_some]

theorem get_mem (face : RepoFace) {j : ℕ} (hj : j < face.sides) : face.get j ∈ face.indices := by
  rw [get_eq_getElem face hj]
  exact List.getElem_mem hj

theorem get_offset (face : RepoFace) (vertFrom : ℕ) {j : ℕ} (hj : j < face.sides) :
    (face.offset vertFrom).get j = vertFrom + face.get j := by
  have hj' : j < (face.offset vertFrom).indices.length := by rwa [← sides, sides_offset]
  rw [get_eq_getElem _ hj', get_eq_getElem _ hj]
  exact List.getElem_map _

theorem get_reindex (face : RepoFace) (f : ℕ → ℕ) {j : ℕ} (hj : j < face.sides) :
    (face.reindex f).get j = f (face.get j) := by
  have hj' : j < (face.reindex f).indices.length := by rwa [← sides, sides_reindex]
  rw [get_eq_getElem _ hj', get_eq_getElem _ hj]
  exact List.getElem_map _

end RepoFace

structure RepoVector2D (T : Type*) where
  x : T
  y : T
  deriving DecidableEq

/-- What an `int32_t` holds to which a `size_t` was assigned. -/
def int32 (n : ℕ) : ℤ := (n : ℤ).bmod (2 ^ 32)

theorem int32_eq_iff {n : ℕ} : int32 n = n ↔ n < 2 ^ 31 := by
  unfold int32
  rw [Int.bmod_def]
  omega

/-- `repo_mesh_mapping_t`, for identifiers `U` and material structs `M`.  The ranges are the values that are assigned;
`int32` of them is what is stored. -/
structure RepoMeshMapping (U M R : Type*) where
  min : RepoVector3D R
  max : RepoVector3D R
  meshId : U
  sharedId : U
  materialId : U
  material : M
  textureId : U
  vertFrom : ℕ
  vertTo : ℕ
  triFrom : ℕ
  triTo : ℕ

namespace RepoMeshMapping

variable {U M R : Type*}

def vertRange (mapping : RepoMeshMapping U M R) : ℕ × ℕ := (mapping.vertFrom, mapping.vertTo)

def triRange (mapping : RepoMeshMapping U M R) : ℕ × ℕ := (mapping.triFrom, mapping.triTo)

/-- The ranges are stored as they are. -/
structure Fits (mapping : RepoMeshMapping U M R) : Prop where
  vertFrom : int32 mapping.vertFrom = mapping.vertFrom
  vertTo : int32 mapping.vertTo = mapping.vertTo
  triFrom : int32 mapping.triFrom = mapping.triFrom
  triTo : int32 mapping.triTo = mapping.triTo

theorem fits_of_lt {mapping : RepoMeshMapping U M R} (hvert : mapping.vertFrom ≤ mapping.vertTo)
    (hvertTo : mapping.vertTo < 2 ^ 31) (htri : mapping.triFrom ≤ mapping.triTo) (htriTo : mapping.triTo < 2 ^ 31) :
    mapping.Fits := by
  constructor <;> exact int32_eq_iff.2 (by omega)

end RepoMeshMapping

end Bouncer
