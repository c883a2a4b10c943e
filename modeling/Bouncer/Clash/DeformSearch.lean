import Bouncer.Bvh.ExactBounds
import Bouncer.Clash.DeformDepth

/-!
# The search for a penetration depth

The constructor of `RepoDeformDepth` looks for a configuration of the mesh `a` in which it does not intersect the mesh
`b`: the one it is in, then some offsets along the axes (`performLocalSearch`), and in the end it shrinks `a` step by
step (`iterate`).  What it has shrunk it puts back (`resetConfiguration`).

A shrunken mesh is reset to the mesh it was, if the boxes of its hierarchies were exact before
(`Deflated.resetConfiguration`).  So the constructor leaves no trace (`construct_restores`).
-/

namespace Bouncer.Clash

variable {R : Type*}

/-! ### Pseudo-normals -/

section PseudoNormals

variable [ExactReal R]

/-- What one face adds to the angle-weighted normals and to the normals of the boundary edges. -/
def addFaceNormals (acos : R → R) (vertices : List (RepoVector3D R)) (edges : List (ℕ × ℕ))
    (normals : List (RepoVector3D R) × List (RepoVector3D R)) (f : RepoFace) :
    List (RepoVector3D R) × List (RepoVector3D R) :=
  let v0 := vertices.getD (f.get 0) 0
  let v1 := vertices.getD (f.get 1) 0
  let v2 := vertices.getD (f.get 2) 0
  let v01 := (v1 - v0).normalized
  let v10 := -v01
  let v12 := (v2 - v1).normalized
  let v21 := -v12
  let v20 := (v0 - v2).normalized
  let v02 := -v20
  let a0 := acos (v01.dotProduct v02)
  let a1 := acos (v10.dotProduct v12)
  let a2 := acos (v20.dotProduct v21)
  let n := (v01.crossProduct v02).normalized
  let add := fun (l : List (RepoVector3D R)) (i : ℕ) (v : RepoVector3D R) => l.modify i (· + v)
  let pseudoNormals := add (add (add normals.1 (f.get 0) (n * a0)) (f.get 1) (n * a1)) (f.get 2) (n * a2)
  -- only the edges of the boundary have normals
  let addEdge := fun (l : List (RepoVector3D R)) (i j : ℕ) (v : RepoVector3D R) =>
    if (j, i) ∈ edges then l else add (add l i v) j v
  let edgeNormals := addEdge normals.2 (f.get 0) (f.get 1) (v01.crossProduct n).normalized
  let edgeNormals := addEdge edgeNormals (f.get 1) (f.get 2) (v12.crossProduct n).normalized
  let edgeNormals := addEdge edgeNormals (f.get 2) (f.get 0) (v20.crossProduct n).normalized
  (pseudoNormals, edgeNormals)

def computePseudoNormals (acos : R → R) (mesh : RepoIndexedMesh R) : List (RepoVector3D R) :=
  let edges := mesh.faces.flatMap fun f => [(f.get 0, f.get 1), (f.get 1, f.get 2), (f.get 2, f.get 0)]
  let zeros := List.replicate mesh.vertices.length (0 : RepoVector3D R)
  let normals := mesh.faces.foldl (addFaceNormals acos mesh.vertices edges) (zeros, zeros)
  normals.1.zipWith (fun pn edgeNormal => (pn.normalized + edgeNormal).normalized) normals.2

end PseudoNormals

/-! ### Configurations -/

/-- A `RepoDeformDepth::Mesh` in some configuration. -/
structure Deformable (R : Type*) extends DeformMesh R where
  pseudoNormals : List (RepoVector3D R)
  deformed : Bool

namespace Deformable

section Field

variable [Field R] [LinearOrder R]

/-- The loop of `updateLeaf`. -/
def leafBox (vertices : List (RepoVector3D R)) (faces : List RepoFace) (primitives : List ℕ) : BoundingBox R :=
  primitives.foldl (fun box k => (faces.getD k (.triangle 0 0 0)).indices.foldl
    (fun box i => box.extend ⟨vertices.getD i 0, vertices.getD i 0⟩) box) .empty

/-- The groups, with their hierarchies refitted to some vertices. -/
def refitGroups (mesh : DeformMesh R) (vertices : List (RepoVector3D R)) : List (Faces R) :=
  mesh.faceGroups.map fun s =>
    { s with bvh := s.bvh.refit fun i => leafBox vertices (mesh.faces.drop s.start) (s.bvh.leafPrimitives i) }

def deflate (mesh : Deformable R) (amount : R) : Deformable R :=
  let _vertices := mesh._vertices.mapIdx fun vi v => v - (mesh.pseudoNormals.getD vi 0 : RepoVector3D R) * amount
  { mesh with
    _vertices := _vertices
    faceGroups := refitGroups mesh.toDeformMesh _vertices
    deformed := true }

def resetConfiguration (mesh : Deformable R) : Deformable R :=
  if mesh.deformed then
    { mesh with
      _vertices := mesh.vertices
      faceGroups := refitGroups mesh.toDeformMesh mesh.vertices
      deformed := false }
  else mesh

end Field

variable [ExactReal R]

def getConfigurationDistance (mesh : Deformable R) : R :=
  (mesh.vertices.zip mesh._vertices).foldl (fun maxDistance p => max (p.1 - p.2).norm maxDistance) 0

/-- `initialise`, for a mesh that has its hierarchies. -/
def ofMesh (acos : R → R) (mesh : DeformMesh R) : Deformable R where
  toDeformMesh := mesh
  pseudoNormals := computePseudoNormals acos mesh.toRepoIndexedMesh
  deformed := false

end Deformable

/-! ### The search -/

def fltMax [Field R] : R := (2 ^ 24 - 1) * 2 ^ 104

section Search

variable [ExactReal R]

/-- The loop of `minimumSeparatingAxis` over the axes, each with the overlaps of the bounds at its two ends. -/
def separatingAxis : List (RepoVector3D R × R × R) → R → RepoVector3D R → RepoVector3D R
  | [], _, m => m
  | (axis, d1, d2) :: rest, d, m =>
    if d1 ≤ 0 then 0
    else if d2 ≤ 0 then 0
    else
      let dv := if d1 < d2 then axis * -d1 else axis * d2
      if dv.norm < d then separatingAxis rest dv.norm dv else separatingAxis rest d m

def minimumSeparatingAxis (a b : RepoBounds R) : RepoVector3D R :=
  separatingAxis [(⟨1, 0, 0⟩, a.bmax.x - b.bmin.x, b.bmax.x - a.bmin.x),
    (⟨0, 1, 0⟩, a.bmax.y - b.bmin.y, b.bmax.y - a.bmin.y),
    (⟨0, 0, 1⟩, a.bmax.z - b.bmin.z, b.bmax.z - a.bmin.z)] dblMax 0

namespace RepoDeformDepth

variable (geometry : Geometry R) (tolerance : R)

/-- The offsets of the local search, in their order. -/
def offsets : List (RepoVector3D R) :=
  let localSearchStepSize := tolerance / 5
  [4, 3, 2, 1].flatMap fun istep => [⟨1, 0, 0⟩, ⟨0, 1, 0⟩, ⟨0, 0, 1⟩].flatMap fun (axis : RepoVector3D R) =>
    [-1, 1].map fun (dir : R) => axis * dir * (istep * localSearchStepSize)

/-- The first offset without an intersection. -/
def performLocalSearch (a b : DeformMesh R) : List (RepoVector3D R) → Option (RepoVector3D R)
  | [] => some ⟨fltMax, fltMax, fltMax⟩
  | pqs :: rest => (intersect geometry a b pqs).bind fun intersecting =>
    if intersecting then performLocalSearch a b rest else some pqs

/-- What the constructor knows before it touches the mesh. -/
inductive Search (R : Type*) where
  | finished (distance : R)
  | unresolved (distance : R)

/-- The constructor up to `iterate`. -/
def search (a b : DeformMesh R) : Option (Search R) :=
  (intersect geometry a b 0).bind fun intersecting =>
    if intersecting then
      let distance := min fltMax (minimumSeparatingAxis a.bounds b.bounds).norm
      if distance < tolerance then some (.finished distance)
      else (performLocalSearch geometry a b (offsets tolerance)).map fun q =>
        let distance := min distance q.norm
        if distance < tolerance then .finished distance else .unresolved distance
    else some (.finished 0)

/-- `maxIterations`, with a step size of 0.05. -/
def maxIterations : ℕ := 20

/-- One turn of the loop of `iterate`, with whether there is another one. -/
def iterateStep (a : Deformable R) (b : DeformMesh R) (distance : R) : Option (Deformable R × R × Bool) :=
  (intersect geometry a.toDeformMesh b 0).map fun intersecting =>
    if intersecting then
      let a := a.deflate (tolerance * (1 / 20))
      (a, distance, !decide (a.getConfigurationDistance > tolerance))
    else (a, a.getConfigurationDistance, false)

/-- `iterate`, with `n` turns left. -/
def iterate (b : DeformMesh R) : ℕ → Deformable R → R → Option (Deformable R × R)
  | 0, a, distance => some (a, distance)
  | n + 1, a, distance => (iterateStep geometry tolerance a b distance).bind fun
    | (a, distance, true) => iterate b n a distance
    | (a, distance, false) => some (a, distance)

/-- The constructor: the mesh it leaves, and the penetration depth. -/
def construct (a : Deformable R) (b : DeformMesh R) : Option (Deformable R × R) :=
  (search geometry tolerance a.toDeformMesh b).bind fun
    | .finished distance => some (a, distance)
    | .unresolved distance => (iterate geometry tolerance b maxIterations a distance).map fun (a, distance) =>
      (a.resetConfiguration, distance)

end RepoDeformDepth

end Search

/-! ### Putting a mesh back -/

namespace Deformable

section Field

variable [Field R] [LinearOrder R]

/-- The bounds of the face `k` of a group that starts at `start`. -/
def groupBox (mesh : RepoIndexedMesh R) (start k : ℕ) : BoundingBox R :=
  faceBox mesh.vertices ((mesh.faces.drop start).getD k (.triangle 0 0 0))

/-- The mesh as it is when no test is running. -/
structure Undeformed (mesh : Deformable R) : Prop where
  deformed : mesh.deformed = false
  _vertices : mesh._vertices = mesh.vertices
  wellFormed : ∀ group ∈ mesh.faceGroups, group.bvh.WellFormed group.length
  exact : ∀ group ∈ mesh.faceGroups, group.bvh.Exact (groupBox mesh.toRepoIndexedMesh group.start)

/-- What shrinking a mesh any number of times leads to. -/
inductive Deflated (mesh : Deformable R) : Deformable R → Prop
  | refl : Deflated mesh mesh
  | deflate {mesh' : Deformable R} (amount : R) : Deflated mesh mesh' → Deflated mesh (mesh'.deflate amount)

/-- What `resetConfiguration` does with a deformed mesh. -/
def restored (mesh : Deformable R) : Deformable R :=
  { mesh with
    _vertices := mesh.vertices
    faceGroups := refitGroups mesh.toDeformMesh mesh.vertices
    deformed := false }

theorem empty_le_faceBox (vertices : List (RepoVector3D R)) (face : RepoFace) :
    BoundingBox.empty ≤ faceBox vertices face := by
  have hfold : faceBox vertices face =
      (face.indices.map fun i => (⟨vertices.getD i 0, vertices.getD i 0⟩ : BoundingBox R)).foldl BoundingBox.extend
        BoundingBox.empty := by
    rw [List.foldl_map]
    rfl
  rw [hfold]
  exact BoundingBox.le_foldl_extend _ _

private theorem leafBox_eq (vertices : List (RepoVector3D R)) (faces : List RepoFace) (primitives : List ℕ) :
    leafBox vertices faces primitives =
      (primitives.map fun k => faceBox vertices (faces.getD k (.triangle 0 0 0))).foldl BoundingBox.extend .empty := by
  have hface : ∀ (face : RepoFace) (box : BoundingBox R), BoundingBox.empty ≤ box →
      face.indices.foldl (fun box i => box.extend ⟨vertices.getD i 0, vertices.getD i 0⟩) box =
        box.extend (faceBox vertices face) := by
    intro face box hbox
    have hfold := BoundingBox.foldl_extend_eq_sup hbox
      (face.indices.map fun i => (⟨vertices.getD i 0, vertices.getD i 0⟩ : BoundingBox R))
    rw [List.foldl_map, List.foldl_map] at hfold
    exact hfold
  have hrun : ∀ box : BoundingBox R, BoundingBox.empty ≤ box →
      primitives.foldl (fun box k => (faces.getD k (.triangle 0 0 0)).indices.foldl
        (fun box i => box.extend ⟨vertices.getD i 0, vertices.getD i 0⟩) box) box =
      (primitives.map fun k => faceBox vertices (faces.getD k (.triangle 0 0 0))).foldl BoundingBox.extend box := by
    induction primitives with
    | nil => exact fun _ _ => rfl
    | cons k primitives ih =>
      intro box hbox
      rw [List.foldl_cons, List.map_cons, List.foldl_cons, hface _ box hbox]
      exact ih _ (hbox.trans le_sup_left)
  exact hrun .empty le_rfl

private theorem refitGroups_deflate (mesh : Deformable R) (amount : R) (vertices : List (RepoVector3D R)) :
    refitGroups (mesh.deflate amount).toDeformMesh vertices = refitGroups mesh.toDeformMesh vertices := by
  unfold refitGroups deflate
  dsimp only
  unfold refitGroups
  rw [List.map_map]
  refine List.map_congr_left fun s _ => ?_
  simp only [Function.comp_apply, Bvh.refit_leafPrimitives, Bvh.refit_refit]

private theorem restored_deflate (mesh : Deformable R) (amount : R) : (mesh.deflate amount).restored = mesh.restored := by
  have hgroups := refitGroups_deflate mesh amount mesh.vertices
  unfold restored
  have hvertices : (mesh.deflate amount).vertices = mesh.vertices := rfl
  rw [hvertices, hgroups]
  rfl

/-- An undeformed mesh is what it would be put back to. -/
theorem Undeformed.restored_eq {mesh : Deformable R} (h : mesh.Undeformed) : mesh.restored = mesh := by
  have hgroups : refitGroups mesh.toDeformMesh mesh.vertices = mesh.faceGroups := by
    unfold refitGroups
    refine (List.map_congr_left fun s hs => ?_).trans (List.map_id _)
    have hrefit := (h.exact s hs).refit_eq_self (h.wellFormed s hs) (e := .empty) fun k => empty_le_faceBox _ _
    simp only [leafBox_eq]
    unfold groupBox at hrefit
    rw [hrefit]
    rfl
  have hmesh : mesh.restored = ⟨⟨mesh.toRepoIndexedMesh, mesh.vertices, refitGroups mesh.toDeformMesh mesh.vertices⟩,
      mesh.pseudoNormals, false⟩ := rfl
  rw [hmesh, hgroups, ← h._vertices, ← h.deformed]

theorem Deflated.trans {mesh mesh' mesh'' : Deformable R} (h : Deflated mesh mesh') (h' : Deflated mesh' mesh'') :
    Deflated mesh mesh'' := by
  induction h' with
  | refl => exact h
  | deflate amount _ ih => exact .deflate amount ih

variable {mesh mesh' : Deformable R}

theorem Deflated.eq_or_deformed (h : Deflated mesh mesh') :
    mesh' = mesh ∨ mesh'.deformed = true := by
  cases h with
  | refl => exact Or.inl rfl
  | deflate amount _ => exact Or.inr rfl

theorem Deflated.restored_eq (h : Deflated mesh mesh') : mesh'.restored = mesh.restored := by
  induction h with
  | refl => rfl
  | deflate amount _ ih => exact (restored_deflate _ amount).trans ih

/-- However often a mesh was shrunk, it is put back. -/
theorem Deflated.resetConfiguration (h : Deflated mesh mesh') (hmesh : mesh.Undeformed) :
    mesh'.resetConfiguration = mesh := by
  unfold Deformable.resetConfiguration
  by_cases hdeformed : mesh'.deformed = true
  · rw [if_pos hdeformed]
    exact h.restored_eq.trans hmesh.restored_eq
  · rw [if_neg hdeformed]
    exact h.eq_or_deformed.resolve_right hdeformed

end Field

end Deformable

namespace RepoDeformDepth

variable [ExactReal R] {geometry : Geometry R} {tolerance : R} {a a' : Deformable R} {b : DeformMesh R}
  {distance distance' : R}

theorem iterateStep_deflated {more : Bool}
    (h : iterateStep geometry tolerance a b distance = some (a', distance', more)) : a.Deflated a' := by
  obtain ⟨intersecting, -, h⟩ := Option.map_eq_some_iff.1 h
  cases intersecting with
  | true =>
    cases h
    exact .deflate _ .refl
  | false =>
    cases h
    exact .refl

private theorem iterate_deflated {n : ℕ} (h : iterate geometry tolerance b n a distance = some (a', distance')) :
    a.Deflated a' := by
  induction n generalizing a distance with
  | zero =>
    cases h
    exact .refl
  | succ n ih =>
    obtain ⟨⟨a₁, d₁, more⟩, hstep, h⟩ := Option.bind_eq_some_iff.1 h
    have hfirst := iterateStep_deflated hstep
    cases more with
    | true => exact hfirst.trans (ih h)
    | false =>
      cases h
      exact hfirst

/-! ### The constructor comes to an end -/

section Ends

variable (geometry) (tolerance) (distance) (hb : ∀ group ∈ b.faceGroups, ∃ n, group.bvh.WellFormed n)

include hb

section WellFormedGroups

variable (ha : ∀ group ∈ a.faceGroups, ∃ n, group.bvh.WellFormed n)
include ha

private theorem exists_performLocalSearch
    (offsets : List (RepoVector3D R)) : ∃ q, performLocalSearch geometry a.toDeformMesh b offsets = some q := by
  induction offsets with
  | nil => exact ⟨_, rfl⟩
  | cons pqs rest ih =>
    obtain ⟨q, hq⟩ := ih
    obtain ⟨r, hr⟩ := exists_intersect ha hb pqs
    rw [performLocalSearch, hr, Option.bind_some, hq]
    exact ⟨_, (apply_ite some _ _ _).symm⟩

private theorem exists_search :
    ∃ result, search geometry tolerance a.toDeformMesh b = some result := by
  obtain ⟨r, hr⟩ : ∃ r, intersect geometry a.toDeformMesh b 0 = some r := exists_intersect ha hb 0
  obtain ⟨q, hq⟩ := exists_performLocalSearch geometry hb ha (offsets tolerance)
  unfold search
  rw [hr, Option.bind_some, hq]
  dsimp only [Option.map_some]
  split_ifs <;> exact ⟨_, rfl⟩

omit hb in
private theorem wellFormed_deflate (amount : R) :
    ∀ group ∈ (a.deflate amount).faceGroups, ∃ n, group.bvh.WellFormed n := by
  intro group hgroup
  obtain ⟨s, hs, rfl⟩ := List.mem_map.1 hgroup
  obtain ⟨n, hn⟩ := ha s hs
  exact ⟨n, hn.refit⟩

private theorem exists_iterate (n : ℕ) :
    ∃ r, iterate geometry tolerance b n a distance = some r := by
  induction n generalizing a distance with
  | zero => exact ⟨_, rfl⟩
  | succ n ih =>
    obtain ⟨r, hr⟩ : ∃ r, intersect geometry a.toDeformMesh b 0 = some r := exists_intersect ha hb 0
    rw [iterate, iterateStep, hr]
    cases r with
    | false => exact ⟨_, rfl⟩
    | true =>
      dsimp only [Option.map_some, Option.bind_some, if_true]
      cases !decide ((a.deflate (tolerance * (1 / 20))).getConfigurationDistance > tolerance) with
      | false => exact ⟨_, rfl⟩
      | true => exact ih _ (wellFormed_deflate ha _)

theorem exists_construct :
    ∃ r, construct geometry tolerance a b = some r := by
  obtain ⟨result, hresult⟩ := exists_search geometry tolerance hb ha
  unfold construct
  rw [hresult, Option.bind_some]
  cases result with
  | finished d => exact ⟨_, rfl⟩
  | unresolved d =>
    obtain ⟨r, hr⟩ := exists_iterate geometry tolerance d hb ha maxIterations
    dsimp only
    rw [hr]
    exact ⟨_, rfl⟩

end WellFormedGroups

end Ends

/-- The constructor leaves the mesh as it was, on each of its paths. -/
theorem construct_restores (geometry : Geometry R) (tolerance : R) (a : Deformable R) (b : DeformMesh R)
    (ha : a.Undeformed) (h : construct geometry tolerance a b = some (a', distance)) : a' = a := by
  obtain ⟨result, -, h⟩ := Option.bind_eq_some_iff.1 h
  cases result with
  | finished =>
    cases h
    rfl
  | unresolved d =>
    obtain ⟨⟨a₁, d₁⟩, hiterate, h⟩ := Option.map_eq_some_iff.1 h
    cases h
    exact (iterate_deflated hiterate).resetConfiguration ha

end RepoDeformDepth

/-! ### Meshes that were just loaded -/

namespace Deformable

variable [ExactReal R]

/-- The boxes that the hierarchy of a group is built from. -/
def boxes (mesh : RepoIndexedMesh R) (range : FaceRange) : List (BoundingBox R) :=
  ((mesh.faces.drop range.start).take range.length).map (faceBox mesh.vertices)

variable {range : FaceRange}

private theorem length_boxes (mesh : RepoIndexedMesh R)
    (hrange : 0 < range.length ∧ range.start + range.length ≤ mesh.faces.length) :
    (boxes mesh range).length = range.length := by
  unfold boxes
  rw [List.length_map, List.length_take, List.length_drop]
  omega

private theorem boxes_ne_nil (mesh : RepoIndexedMesh R)
    (hrange : 0 < range.length ∧ range.start + range.length ≤ mesh.faces.length) : boxes mesh range ≠ [] := by
  intro hnil
  have hlength := length_boxes mesh hrange
  rw [hnil, List.length_nil] at hlength
  omega

private theorem wellFormed_build (builder : SweepSahBuilder R) (mesh : RepoIndexedMesh R)
    (hrange : 0 < range.length ∧ range.start + range.length ≤ mesh.faces.length) :
    (build builder mesh.vertices ((mesh.faces.drop range.start).take range.length)).WellFormed range.length := by
  have h := builder.wellFormed _ (boxes_ne_nil mesh hrange)
  rwa [length_boxes mesh hrange] at h

/-- A mesh is undeformed when it has been initialised, if the builder gives exact bounds. -/
theorem undeformed_ofMesh {builder : SweepSahBuilder R} (hbuilder : builder.Exact) (acos : R → R)
    (mesh : RepoIndexedMesh R) {ranges : List FaceRange}
    (hranges : ∀ range ∈ ranges, 0 < range.length ∧ range.start + range.length ≤ mesh.faces.length) :
    (ofMesh acos (DeformMesh.initialise builder mesh ranges)).Undeformed where
  deformed := rfl
  _vertices := rfl
  wellFormed := by
    intro group hgroup
    obtain ⟨range, hrange, rfl⟩ := List.mem_map.1 hgroup
    exact wellFormed_build builder mesh (hranges range hrange)
  exact := by
    intro group hgroup
    obtain ⟨range, hrange, rfl⟩ := List.mem_map.1 hgroup
    have hlength := length_boxes mesh (hranges range hrange)
    have hempty : ∀ box ∈ boxes mesh range, BoundingBox.empty ≤ box := by
      intro box hbox
      obtain ⟨face, -, rfl⟩ := List.mem_map.1 hbox
      exact empty_le_faceBox _ _
    have hexact := hbuilder _ (boxes_ne_nil mesh (hranges range hrange)) hempty
    refine hexact.congr (wellFormed_build builder mesh (hranges range hrange)) fun k hk => ?_
    have hk' : k < (boxes mesh range).length := by rwa [hlength]
    have hface : k < (mesh.faces.drop range.start).length := by
      have := (hranges range hrange).2
      rw [List.length_drop]
      omega
    have hbox : groupBox mesh range.start k = faceBox mesh.vertices (mesh.faces.drop range.start)[k] := by
      unfold groupBox
      rw [List.getD_eq_getElem _ _ hface]
    rw [List.getD_eq_getElem _ _ hk']
    refine Eq.trans ?_ hbox.symm
    simp [boxes]

end Deformable

namespace RepoDeformDepth

/-- Two triangles that cross each other, at a right angle. -/
noncomputable def crossing : RepoIndexedMesh ℝ × RepoIndexedMesh ℝ :=
  (⟨[⟨0, 0, 0⟩, ⟨16, 0, 0⟩, ⟨0, 12, 0⟩], [.triangle 0 1 2]⟩, ⟨[⟨4, 4, -8⟩, ⟨4, 4, 8⟩, ⟨4, 16, 0⟩], [.triangle 0 1 2]⟩)

/-- What the tests say of them, also after small offsets. -/
noncomputable def crossingGeometry : Geometry ℝ where
  closestPoints A _ := ⟨⟨A.a, A.a⟩, true⟩
  contains _ _ _ _ _ := false
  orderVertices _ indices := indices

/-- A mesh of one triangle, just loaded. -/
noncomputable def loaded (mesh : RepoIndexedMesh ℝ) : Deformable ℝ :=
  .ofMesh (fun _ => 1) (.initialise (.single ℝ) mesh [⟨0, 1, false, [0, 1, 2]⟩])

theorem undeformed_loaded {mesh : RepoIndexedMesh ℝ} (h : mesh.faces.length = 1) : (loaded mesh).Undeformed := by
  refine Deformable.undeformed_ofMesh SweepSahBuilder.single_exact _ _ fun range hrange => ?_
  obtain rfl := List.mem_singleton.1 hrange
  simp [h]

/-- A test of two such triangles ends with the first one as it was. -/
theorem construct_restores_crossing :
    ∃ distance, construct crossingGeometry 1 (loaded crossing.1) (loaded crossing.2).toDeformMesh =
      some (loaded crossing.1, distance) := by
  have ha : (loaded crossing.1).Undeformed := undeformed_loaded rfl
  have hb : (loaded crossing.2).Undeformed := undeformed_loaded rfl
  obtain ⟨⟨a', distance⟩, h⟩ := exists_construct crossingGeometry 1
    (fun group hgroup => ⟨_, hb.wellFormed group hgroup⟩) fun group hgroup => ⟨_, ha.wellFormed group hgroup⟩
  obtain rfl := construct_restores crossingGeometry 1 _ _ ha h
  exact ⟨distance, h⟩

end RepoDeformDepth

end Bouncer.Clash
