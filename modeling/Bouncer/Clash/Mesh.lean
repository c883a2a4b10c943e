import Bouncer.Bvh.Builder
import Bouncer.Datastructure.Structs
import Bouncer.Library.Intern
import Mathlib.Data.List.GetD

/-!
# Indexed meshes

`RepoIndexedMesh` is how the narrowphase tests hold geometry, and `RepoIndexedMeshBuilder` puts it together from
triangles, giving equal corners one vertex.  The mesh then has exactly the triangles that were appended, in their
order (`getTriangle_ofTriangles`), and the hierarchy that `build` makes of it encloses them (`build_encloses`).
-/

namespace Bouncer.Clash

open Library (intern prefix_intern getElem?_intern getElem?_grown)

variable {R : Type*}

structure RepoIndexedMesh (R : Type*) where
  vertices : List (RepoVector3D R)
  faces : List RepoFace

namespace RepoIndexedMesh

def getTriangle [Field R] (mesh : RepoIndexedMesh R) (index : ℕ) : RepoTriangle R :=
  let face := mesh.faces.getD index (.triangle 0 0 0)
  ⟨mesh.vertices.getD (face.get 0) 0, mesh.vertices.getD (face.get 1) 0, mesh.vertices.getD (face.get 2) 0⟩

/-- `RepoIndexedMeshBuilder::append` for a triangle.  The map of the builder holds the index of every vertex. -/
def append [DecidableEq R] (mesh : RepoIndexedMesh R) (triangle : RepoTriangle R) : RepoIndexedMesh R :=
  let a := intern mesh.vertices triangle.a
  let b := intern a.1 triangle.b
  let c := intern b.1 triangle.c
  ⟨c.1, mesh.faces ++ [.triangle a.2 b.2 c.2]⟩

def empty : RepoIndexedMesh R := ⟨[], []⟩

/-- The mesh that a builder makes of a list of triangles. -/
def ofTriangles [DecidableEq R] (triangles : List (RepoTriangle R)) : RepoIndexedMesh R :=
  triangles.foldl append empty

end RepoIndexedMesh

/-- The edges of a triangle, each with its smaller end first. -/
def edges (face : RepoFace) : List (ℕ × ℕ) :=
  [(min (face.get 0) (face.get 1), max (face.get 0) (face.get 1)),
    (min (face.get 1) (face.get 2), max (face.get 1) (face.get 2)),
    (min (face.get 2) (face.get 0), max (face.get 2) (face.get 0))]

/-- Every edge belongs to two triangles. -/
def isClosedAndManifold (triangles : List RepoFace) : Bool :=
  let all := triangles.flatMap edges
  all.all fun edge => decide (all.count edge = 2)

section Bvh

variable [Field R] [LinearOrder R]

/-- The box that `builders::build` makes for a face. -/
def faceBox (vertices : List (RepoVector3D R)) (face : RepoFace) : BoundingBox R :=
  face.indices.foldl (fun box i => box.extend ⟨vertices.getD i 0, vertices.getD i 0⟩)
    ⟨⟨dblMax, dblMax, dblMax⟩, ⟨-dblMax, -dblMax, -dblMax⟩⟩

def build (builder : SweepSahBuilder R) (vertices : List (RepoVector3D R)) (faces : List RepoFace) : Bvh R :=
  builder.build (faces.map (faceBox vertices))

end Bvh

/-! ### The triangles of a mesh -/

variable {mesh : RepoIndexedMesh R} {i : ℕ}

namespace RepoIndexedMesh

/-- The faces are triangles, and their corners are vertices of the mesh. -/
def Indexed (mesh : RepoIndexedMesh R) : Prop :=
  ∀ face ∈ mesh.faces, face.sides = 3 ∧ ∀ i ∈ face.indices, i < mesh.vertices.length

theorem Indexed.get_lt (h : mesh.Indexed) {face : RepoFace} (hface : face ∈ mesh.faces)
    {k : ℕ} (hk : k < 3) : face.get k < mesh.vertices.length := by
  obtain ⟨hsides, hlt⟩ := h face hface
  have hk' : k < face.indices.length := by
    have : face.indices.length = 3 := hsides
    omega
  have hget : face.get k = face.indices[k] := List.getD_eq_getElem _ _ hk'
  rw [hget]
  exact hlt _ (List.getElem_mem hk')

private theorem indexed_empty : (empty : RepoIndexedMesh R).Indexed := fun _ h => absurd h List.not_mem_nil

private theorem getD_grown [Field R] {xs ys : List (RepoVector3D R)} (h : xs <+: ys)
    (hi : i < xs.length) :
    ys.getD i 0 = xs.getD i 0 := by
  rw [List.getD_eq_getElem?_getD, List.getD_eq_getElem?_getD,
    getElem?_grown h (List.getElem?_eq_getElem hi), List.getElem?_eq_getElem hi]

/-- Mapping the vertices maps the corners of the triangles. -/
theorem Indexed.getTriangle_map [Field R] (h : mesh.Indexed)
    (f : RepoVector3D R → RepoVector3D R) {index : ℕ} (hindex : index < mesh.faces.length) :
    (⟨mesh.vertices.map f, mesh.faces⟩ : RepoIndexedMesh R).getTriangle index =
      ⟨f (mesh.getTriangle index).a, f (mesh.getTriangle index).b, f (mesh.getTriangle index).c⟩ := by
  have hvertex : ∀ k < 3, (mesh.vertices.map f).getD ((mesh.faces[index]).get k) 0 =
      f (mesh.vertices.getD ((mesh.faces[index]).get k) 0) := by
    intro k hk
    have hlt := h.get_lt (List.getElem_mem hindex) hk
    rw [List.getD_eq_getElem _ _ hlt, List.getD_eq_getElem _ _ (by rwa [List.length_map]), List.getElem_map]
  unfold getTriangle
  rw [List.getD_eq_getElem _ _ hindex]
  dsimp only
  rw [hvertex 0 (by omega), hvertex 1 (by omega), hvertex 2 (by omega)]

section Append

variable [DecidableEq R]

theorem append_faces (mesh : RepoIndexedMesh R) (triangle : RepoTriangle R) : ∃ i j k,
    (mesh.append triangle).faces = mesh.faces ++ [.triangle i j k] ∧
    (mesh.append triangle).vertices[i]? = some triangle.a ∧ (mesh.append triangle).vertices[j]? = some triangle.b ∧
    (mesh.append triangle).vertices[k]? = some triangle.c := by
  refine ⟨_, _, _, rfl, ?_, ?_, ?_⟩
  · exact getElem?_grown ((prefix_intern _).trans (prefix_intern _)) (getElem?_intern triangle.a)
  · exact getElem?_grown (prefix_intern _) (getElem?_intern triangle.b)
  · exact getElem?_intern triangle.c

theorem prefix_append_vertices (mesh : RepoIndexedMesh R) (triangle : RepoTriangle R) :
    mesh.vertices <+: (mesh.append triangle).vertices :=
  ((prefix_intern _).trans (prefix_intern _)).trans (prefix_intern _)

theorem Indexed.append (h : mesh.Indexed) (triangle : RepoTriangle R) :
    (mesh.append triangle).Indexed := by
  obtain ⟨i, j, k, hfaces, hi, hj, hk⟩ := append_faces mesh triangle
  intro face hface
  rw [hfaces, List.mem_append, List.mem_singleton] at hface
  rcases hface with hface | rfl
  · refine ⟨(h face hface).1, ?_⟩
    intro l hl
    exact ((h face hface).2 l hl).trans_le (prefix_append_vertices mesh triangle).length_le
  · refine ⟨rfl, ?_⟩
    have hi := (List.getElem?_eq_some_iff.1 hi).1
    have hj := (List.getElem?_eq_some_iff.1 hj).1
    have hk := (List.getElem?_eq_some_iff.1 hk).1
    simp [RepoFace.triangle, hi, hj, hk]

theorem ofTriangles_concat (triangles : List (RepoTriangle R)) (triangle : RepoTriangle R) :
    ofTriangles (triangles ++ [triangle]) = (ofTriangles triangles).append triangle := by
  rw [ofTriangles, List.foldl_append]
  rfl

theorem indexed_ofTriangles (triangles : List (RepoTriangle R)) : (ofTriangles triangles).Indexed := by
  induction triangles using List.reverseRecOn with
  | nil => exact indexed_empty
  | append_singleton triangles triangle ih =>
    rw [ofTriangles_concat]
    exact ih.append triangle

theorem length_faces_ofTriangles (triangles : List (RepoTriangle R)) :
    (ofTriangles triangles).faces.length = triangles.length := by
  induction triangles using List.reverseRecOn with
  | nil => rfl
  | append_singleton triangles triangle ih =>
    obtain ⟨i, j, k, hfaces, -⟩ := append_faces (ofTriangles triangles) triangle
    rw [ofTriangles_concat, hfaces]
    simp [ih]

/-- An injection of the vertices leaves the faces of a mesh alone. -/
theorem ofTriangles_map {R' : Type*} [DecidableEq R'] {g : RepoVector3D R → RepoVector3D R'}
    (hg : Function.Injective g) (triangles : List (RepoTriangle R)) :
    ofTriangles (triangles.map fun t => ⟨g t.a, g t.b, g t.c⟩) =
      ⟨(ofTriangles triangles).vertices.map g, (ofTriangles triangles).faces⟩ := by
  induction triangles using List.reverseRecOn with
  | nil => rfl
  | append_singleton triangles triangle ih =>
    rw [List.map_append, List.map_singleton, ofTriangles_concat, ofTriangles_concat, ih]
    simp only [append, Library.intern_map hg]

variable [Field R]

private theorem Indexed.getTriangle_append (h : mesh.Indexed) (triangle : RepoTriangle R)
    {index : ℕ} (hindex : index < mesh.faces.length) :
    (mesh.append triangle).getTriangle index = mesh.getTriangle index := by
  obtain ⟨i, j, k, hfaces, -⟩ := append_faces mesh triangle
  have hface : (mesh.append triangle).faces.getD index (.triangle 0 0 0) = mesh.faces[index] := by
    rw [hfaces, List.getD_append _ _ _ _ hindex, List.getD_eq_getElem _ _ hindex]
  have hmem : mesh.faces[index] ∈ mesh.faces := List.getElem_mem hindex
  have hvertices := prefix_append_vertices mesh triangle
  unfold getTriangle
  rw [hface, List.getD_eq_getElem _ _ hindex]
  dsimp only
  rw [getD_grown hvertices (h.get_lt hmem (by omega)), getD_grown hvertices (h.get_lt hmem (by omega)),
    getD_grown hvertices (h.get_lt hmem (by omega))]

private theorem getTriangle_append_length (mesh : RepoIndexedMesh R) (triangle : RepoTriangle R) :
    (mesh.append triangle).getTriangle mesh.faces.length = triangle := by
  obtain ⟨i, j, k, hfaces, hi, hj, hk⟩ := append_faces mesh triangle
  have hface : (mesh.append triangle).faces.getD mesh.faces.length (.triangle 0 0 0) = .triangle i j k := by
    simp [hfaces]
  unfold getTriangle
  rw [hface]
  simp [List.getD_eq_getElem?_getD, hi, hj, hk]

/-- A mesh made of triangles has these triangles. -/
theorem getTriangle_ofTriangles {triangles : List (RepoTriangle R)} (hi : i < triangles.length) :
    (ofTriangles triangles).getTriangle i = triangles[i] := by
  induction triangles using List.reverseRecOn with
  | nil => exact absurd hi (Nat.not_lt_zero _)
  | append_singleton triangles triangle ih =>
    rw [ofTriangles_concat]
    by_cases hlt : i < triangles.length
    · rw [(indexed_ofTriangles triangles).getTriangle_append triangle (by rwa [length_faces_ofTriangles]), ih hlt,
        List.getElem_append_left hlt]
    · have : i = triangles.length := by
        rw [List.length_append, List.length_singleton] at hi
        omega
      subst this
      have hlast := getTriangle_append_length (ofTriangles triangles) triangle
      rw [length_faces_ofTriangles] at hlast
      rw [hlast, List.getElem_concat_length rfl]

end Append

end RepoIndexedMesh

/-! ### Boxes -/

section Boxes

variable [Field R] [LinearOrder R]

private theorem contains_foldl {vertices : List (RepoVector3D R)} {indices : List ℕ} (hi : i ∈ indices)
    (box : BoundingBox R) :
    (indices.foldl (fun box i => box.extend ⟨vertices.getD i 0, vertices.getD i 0⟩) box).Contains
      (vertices.getD i 0) := by
  have hself : ∀ p : RepoVector3D R, (⟨p, p⟩ : BoundingBox R).Contains p :=
    fun p => ⟨⟨le_rfl, le_rfl⟩, ⟨le_rfl, le_rfl⟩, ⟨le_rfl, le_rfl⟩⟩
  have hmap : indices.foldl (fun box i => box.extend ⟨vertices.getD i 0, vertices.getD i 0⟩) box =
      (indices.map fun i => (⟨vertices.getD i 0, vertices.getD i 0⟩ : BoundingBox R)).foldl BoundingBox.extend box := by
    rw [List.foldl_map]
  rw [hmap]
  exact BoundingBox.contains_foldl_extend (List.mem_map_of_mem hi) (hself _)

private theorem contains_faceBox {vertices : List (RepoVector3D R)} {face : RepoFace} (hi : i ∈ face.indices) :
    (faceBox vertices face).Contains (vertices.getD i 0) := contains_foldl hi _

variable [IsStrictOrderedRing R]

private theorem convex_le {lo hi a b c u v w : R} (ha : lo ≤ a ∧ a ≤ hi) (hb : lo ≤ b ∧ b ≤ hi)
    (hc : lo ≤ c ∧ c ≤ hi) (hu : 0 ≤ u) (hv : 0 ≤ v) (hw : 0 ≤ w) (hsum : u + v + w = 1) :
    lo ≤ a * u + b * v + c * w ∧ a * u + b * v + c * w ≤ hi := by
  have hlo : lo = lo * u + lo * v + lo * w := by rw [← mul_add, ← mul_add, hsum, mul_one]
  have hhi : hi = hi * u + hi * v + hi * w := by rw [← mul_add, ← mul_add, hsum, mul_one]
  constructor
  · rw [hlo]
    gcongr
    exacts [ha.1, hb.1, hc.1]
  · rw [hhi]
    gcongr
    exacts [ha.2, hb.2, hc.2]

/-- A box with the corners of a triangle contains its points. -/
theorem contains_of_mem_points {box : BoundingBox R} {t : RepoTriangle R} (ha : box.Contains t.a)
    (hb : box.Contains t.b) (hc : box.Contains t.c) {p : RepoVector3D R} (hp : p ∈ t.points) : box.Contains p := by
  obtain ⟨u, v, w, hu, hv, hw, hsum, rfl⟩ := hp
  exact ⟨convex_le ha.1 hb.1 hc.1 hu hv hw hsum, convex_le ha.2.1 hb.2.1 hc.2.1 hu hv hw hsum,
    convex_le ha.2.2 hb.2.2 hc.2.2 hu hv hw hsum⟩

/-- The hierarchy that is built for a mesh encloses its triangles. -/
theorem build_encloses {builder : SweepSahBuilder R} (hbuilder : builder.Encloses)
    (hindexed : mesh.Indexed) (hne : mesh.faces ≠ []) :
    (build builder mesh.vertices mesh.faces).Encloses
      fun k => {p | k < mesh.faces.length ∧ p ∈ (mesh.getTriangle k).points} := by
  have hboxes : mesh.faces.map (faceBox mesh.vertices) ≠ [] := by simpa using hne
  intro i j hroot hij hleaf k hk p ⟨hlt, hp⟩
  refine hbuilder _ hboxes i j hroot hij hleaf k hk p ⟨faceBox mesh.vertices mesh.faces[k], ?_, ?_⟩
  · rw [List.getElem?_map, List.getElem?_eq_getElem hlt]
    rfl
  · have hmem : mesh.faces[k] ∈ mesh.faces := List.getElem_mem hlt
    have hcorner : ∀ l < 3,
        (faceBox mesh.vertices mesh.faces[k]).Contains (mesh.vertices.getD (mesh.faces[k].get l) 0) := by
      intro l hl
      have hsides : mesh.faces[k].indices.length = 3 := (hindexed _ hmem).1
      refine contains_faceBox ?_
      unfold RepoFace.get
      rw [List.getD_eq_getElem _ _ (hsides ▸ hl)]
      exact List.getElem_mem _
    have htriangle : mesh.getTriangle k = ⟨mesh.vertices.getD (mesh.faces[k].get 0) 0,
        mesh.vertices.getD (mesh.faces[k].get 1) 0, mesh.vertices.getD (mesh.faces[k].get 2) 0⟩ := by
      unfold RepoIndexedMesh.getTriangle
      rw [List.getD_eq_getElem _ _ hlt]
    rw [htriangle] at hp
    exact contains_of_mem_points (hcorner 0 (by omega)) (hcorner 1 (by omega)) (hcorner 2 (by omega)) hp

end Boxes

/-! ### Geometry tests -/

structure MeshView (R : Type*) where
  getBvh : Bvh R
  getTriangle : ℕ → RepoTriangle R

structure FaceFaceResult (R : Type*) extends RepoLine R where
  intersects : Bool

/-- The functions of the namespace `geometry` that are not part of this development. -/
structure Geometry (R : Type*) where
  closestPoints : RepoTriangle R → RepoTriangle R → FaceFaceResult R
  /-- `contains(vertices, indices, bounds, mesh, offset)`. -/
  contains : List (RepoVector3D R) → List ℕ → RepoBounds R → MeshView R → RepoVector3D R → Bool
  orderVertices : List (RepoVector3D R) → List ℕ → List ℕ

end Bouncer.Clash
