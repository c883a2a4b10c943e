import Bouncer.Clash.Pipelines

/-!
# The clearance pipeline

A test takes the geometry of two mesh nodes.  If the second is closed and contains the first, it appends a line of
length zero.  Otherwise it runs a distance query on the two hierarchies, and appends the closest line of each pair of
triangles that the query collects, if it is shorter than the tolerance (`distanceBranch`).

The query prunes no pair that matters, so the distance branch appends a line exactly if the distance of the two
meshes is less than the tolerance (`distanceBranch_ne_nil_iff`), and what is left of all lines of a clash is a
shortest one (`lookup_clashes`).
-/

namespace Bouncer.Clash.Clearance

open Library (collect keepLess valuesAt lookup_collect measure_foldl_keepLess_le foldl_keepLess_mem_of_lt mem_valuesAt)

variable {boost : Boost} {R : Type*} [ExactReal R]

/-! ### The narrowphase -/

structure Cached (R : Type*) where
  /-- `node->compositeObject->id`. -/
  compositeObjectId : String
  bvh : Bvh R
  mesh : RepoIndexedMesh R
  bounds : RepoBounds R
  isClosed : Bool

namespace Cached

def initialise (builder : SweepSahBuilder R) (node : Node boost R) : Cached R :=
  let mesh := RepoIndexedMesh.ofTriangles (loadGeometry node)
  { compositeObjectId := node.compositeObject.id
    bvh := build builder mesh.vertices mesh.faces
    mesh := mesh
    bounds := RepoBounds.ofPoints mesh.vertices
    isClosed := isClosedAndManifold mesh.faces }

def getTriangle (c : Cached R) (primitive : ℕ) : RepoTriangle R := c.mesh.getTriangle primitive

def view (c : Cached R) : MeshView R := ⟨c.bvh, c.getTriangle⟩

/-- The points of the triangles of the mesh. -/
def points (c : Cached R) (primitive : ℕ) : Set (RepoVector3D R) :=
  {p | primitive < c.mesh.faces.length ∧ p ∈ (c.getTriangle primitive).points}

/-- The hierarchy is well formed, and its boxes enclose the triangles. -/
structure Enclosed (c : Cached R) : Prop where
  wellFormed : c.bvh.WellFormed c.mesh.faces.length
  encloses : c.bvh.Encloses c.points

end Cached

variable (geometry : Geometry R) (tolerance : R)

/-- The condition under which a test appends the line of length zero. -/
def isContained (a b : Cached R) : Bool :=
  b.isClosed && geometry.contains a.mesh.vertices (geometry.orderVertices a.mesh.vertices []) a.bounds b.view 0

/-- The lines that a test appends if the first mesh is not contained in the second. -/
def distanceBranch (a b : Cached R) : Option (List (RepoLine R)) :=
  (Traversal.collect a.bvh b.bvh (DistanceQuery.intersect tolerance)).map fun results =>
    (results.map fun p => (geometry.closestPoints (a.getTriangle p.1) (b.getTriangle p.2)).toRepoLine).filter
      fun line => decide (line.magnitude < tolerance)

/-- One test of the narrowphase: the lines that it appends. -/
def test (a b : Cached R) : Option (List (RepoLine R)) :=
  if isContained geometry a b then some [⟨a.bounds.center, a.bounds.center⟩] else distanceBranch geometry tolerance a b

def narrowphase : Narrowphase (Cached R) (RepoLine R) R := ⟨Cached.compositeObjectId, Cached.bounds, test geometry tolerance⟩

structure ClearanceClash (R : Type*) where
  line : RepoLine R

namespace ClearanceClash

/-- `ClearanceClash()`. -/
def new : ClearanceClash R := ⟨.max⟩

def append (clash : ClearanceClash R) (otherLine : RepoLine R) : ClearanceClash R :=
  if otherLine.magnitude < clash.line.magnitude then ⟨otherLine⟩ else clash

private theorem append_line (clash : ClearanceClash R) (otherLine : RepoLine R) :
    (clash.append otherLine).line = keepLess RepoLine.magnitude clash.line otherLine := by
  unfold append keepLess
  by_cases h : otherLine.magnitude < clash.line.magnitude
  · rw [if_pos h, if_pos h]
  · rw [if_neg h, if_neg h]

theorem foldl_append_line (clash : ClearanceClash R) (lines : List (RepoLine R)) :
    (lines.foldl append clash).line = lines.foldl (keepLess RepoLine.magnitude) clash.line := by
  induction lines generalizing clash with
  | nil => rfl
  | cons line lines ih => rw [List.foldl_cons, List.foldl_cons, ih, append_line]

end ClearanceClash

/-- The clashes after all lines have arrived. -/
def clashes (arrival : List (OrderedPair × RepoLine R)) : AList fun _ : OrderedPair => ClearanceClash R :=
  collect .new ClearanceClash.append arrival

def getClashPositions (clash : ClearanceClash R) : List (RepoVector3D R) := [clash.line.start, clash.line.endpoint]

/-! ### Exactness of the distance branch -/

/-- The distances between the points of two meshes. -/
def distances (a b : Cached R) : Set R := {d | ∃ i j, ∃ x ∈ a.points i, ∃ y ∈ b.points j, d = (y - x).norm}

/-- The line is a closest segment between two triangles. -/
structure IsClosest (line : RepoLine R) (A B : RepoTriangle R) : Prop where
  start : line.start ∈ A.points
  endpoint : line.endpoint ∈ B.points
  least : ∀ x ∈ A.points, ∀ y ∈ B.points, line.magnitude ≤ (y - x).norm

section Distance

variable {geometry} {tolerance} {a b : Cached R}

private theorem exists_isLeast_distances (ha : a.Enclosed) (hb : b.Enclosed)
    (hclosest : ∀ i < a.mesh.faces.length, ∀ j < b.mesh.faces.length,
      IsClosest (geometry.closestPoints (a.getTriangle i) (b.getTriangle j)).toRepoLine (a.getTriangle i)
        (b.getTriangle j)) :
    ∃ i < a.mesh.faces.length, ∃ j < b.mesh.faces.length, IsLeast (distances a b)
      (geometry.closestPoints (a.getTriangle i) (b.getTriangle j)).magnitude := by
  let pairs := Finset.range a.mesh.faces.length ×ˢ Finset.range b.mesh.faces.length
  have hne : pairs.Nonempty :=
    ⟨(0, 0), Finset.mem_product.2 ⟨Finset.mem_range.2 ha.wellFormed.pos, Finset.mem_range.2 hb.wellFormed.pos⟩⟩
  obtain ⟨⟨i, j⟩, hij, hmin⟩ := Finset.exists_min_image pairs
    (fun p => (geometry.closestPoints (a.getTriangle p.1) (b.getTriangle p.2)).magnitude) hne
  obtain ⟨hi, hj⟩ := Finset.mem_product.1 hij
  have hi := Finset.mem_range.1 hi
  have hj := Finset.mem_range.1 hj
  have hline := hclosest i hi j hj
  refine ⟨i, hi, j, hj, ⟨i, j, _, ⟨hi, hline.start⟩, _, ⟨hj, hline.endpoint⟩, rfl⟩, ?_⟩
  rintro d ⟨k, l, x, ⟨hk, hx⟩, y, ⟨hl, hy⟩, rfl⟩
  have hkl : (k, l) ∈ pairs := Finset.mem_product.2 ⟨Finset.mem_range.2 hk, Finset.mem_range.2 hl⟩
  exact (hmin (k, l) hkl).trans ((hclosest k hk l hl).least x hx y hy)

/-- The distance branch appends a line exactly if the distance of the meshes is less than the tolerance. -/
theorem distanceBranch_ne_nil_iff (ha : a.Enclosed) (hb : b.Enclosed)
    (hclosest : ∀ i < a.mesh.faces.length, ∀ j < b.mesh.faces.length,
      IsClosest (geometry.closestPoints (a.getTriangle i) (b.getTriangle j)).toRepoLine (a.getTriangle i)
        (b.getTriangle j)) :
    ∃ lines, distanceBranch geometry tolerance a b = some lines ∧
      ∃ d, IsLeast (distances a b) d ∧ (lines ≠ [] ↔ d < tolerance) := by
  obtain ⟨results, hresults, hlt, hmem⟩ :=
    Traversal.collect_distanceQuery ha.wellFormed hb.wellFormed ha.encloses hb.encloses tolerance
  obtain ⟨i, hi, j, hj, hleast⟩ := exists_isLeast_distances ha hb hclosest
  refine ⟨_, by rw [distanceBranch, hresults]; rfl, _, hleast, ?_⟩
  constructor
  · intro hne
    obtain ⟨line, hline⟩ := List.exists_mem_of_ne_nil _ hne
    obtain ⟨hline, hmag⟩ := List.mem_filter.1 hline
    obtain ⟨⟨k, l⟩, hkl, rfl⟩ := List.mem_map.1 hline
    obtain ⟨hk, hl⟩ := hlt k l hkl
    have hclose := hclosest k hk l hl
    have hd := hleast.2 ⟨k, l, _, ⟨hk, hclose.start⟩, _, ⟨hl, hclose.endpoint⟩, rfl⟩
    exact lt_of_le_of_lt hd (of_decide_eq_true hmag)
  · intro hd
    have hclose := hclosest i hi j hj
    -- the pair with the distance of the meshes is not pruned
    have hnorm2 : ((geometry.closestPoints (a.getTriangle i) (b.getTriangle j)).endpoint -
        (geometry.closestPoints (a.getTriangle i) (b.getTriangle j)).start).norm2 ≤ tolerance * tolerance := by
      rw [← RepoVector3D.norm_mul_norm]
      exact mul_self_le_mul_self (RepoVector3D.norm_nonneg _) hd.le
    have hpair := hmem i j hi hj ⟨_, ⟨hi, hclose.start⟩, _, ⟨hj, hclose.endpoint⟩, hnorm2⟩
    exact List.ne_nil_of_mem (List.mem_filter.2 ⟨List.mem_map.2 ⟨(i, j), hpair, rfl⟩, decide_eq_true hd⟩)

private theorem initialise_faces (builder : SweepSahBuilder R) {node : Node boost R} (hne : node.faces ≠ []) :
    (Cached.initialise builder node).mesh.faces ≠ [] := by
  have hmesh : (Cached.initialise builder node).mesh = .ofTriangles (loadGeometry node) := rfl
  rw [← List.length_pos_iff, hmesh, RepoIndexedMesh.length_faces_ofTriangles, loadGeometry, List.length_map]
  exact List.length_pos_iff.2 hne

private theorem initialise_wellFormed (builder : SweepSahBuilder R) {node : Node boost R} (hne : node.faces ≠ []) :
    (Cached.initialise builder node).bvh.WellFormed (Cached.initialise builder node).mesh.faces.length := by
  have hboxes : (Cached.initialise builder node).mesh.faces.map
      (faceBox (Cached.initialise builder node).mesh.vertices) ≠ [] := by simpa using initialise_faces builder hne
  have hwf := builder.wellFormed _ hboxes
  rw [List.length_map] at hwf
  exact hwf

/-- A hierarchy that is built for a mesh with a triangle encloses it. -/
theorem initialise_enclosed {builder : SweepSahBuilder R} (hbuilder : builder.Encloses) {node : Node boost R}
    (hne : node.faces ≠ []) : (Cached.initialise builder node).Enclosed :=
  ⟨initialise_wellFormed builder hne,
    build_encloses hbuilder (RepoIndexedMesh.indexed_ofTriangles _) (initialise_faces builder hne)⟩

private theorem isSome_test (ha : a.bvh.WellFormed a.mesh.faces.length) (hb : b.bvh.WellFormed b.mesh.faces.length) :
    (test geometry tolerance a b).isSome := by
  obtain ⟨t, ht⟩ := ha
  obtain ⟨u, hu⟩ := hb
  unfold test
  by_cases hcontained : isContained geometry a b
  · rw [if_pos hcontained]
    rfl
  · rw [if_neg hcontained, distanceBranch, Traversal.collect_eq ht hu]
    rfl

end Distance

/-! ### The line that is kept -/

section Clashes

variable {geometry} {tolerance} {tests : List (Cached R × Cached R)} {arrival : List (OrderedPair × RepoLine R)}

private theorem magnitude_lt_of_mem (htolerance : tolerance ≤ dblMax)
    (h : (narrowphase geometry tolerance).Arrives tests arrival) {objects : OrderedPair} {line : RepoLine R}
    (hline : (objects, line) ∈ arrival) : line.magnitude < (RepoLine.max : RepoLine R).magnitude := by
  refine lt_of_lt_of_le ?_ RepoLine.dblMax_le_magnitude_max
  obtain ⟨t, -, -, lines, hlines, hmem⟩ := h.mem_iff.1 hline
  let p := (narrowphase geometry tolerance).swapped t
  have hlines : test geometry tolerance p.1 p.2 = some lines := hlines
  unfold test at hlines
  by_cases hcontained : isContained geometry p.1 p.2
  · rw [if_pos hcontained] at hlines
    cases hlines
    obtain rfl := List.mem_singleton.1 hmem
    refine (RepoVector3D.norm_lt_iff _ RepoLine.dblMax_pos.le).2 ?_
    have hpos := mul_pos (RepoLine.dblMax_pos (R := R)) RepoLine.dblMax_pos
    simpa [RepoVector3D.norm2] using hpos
  · rw [if_neg hcontained] at hlines
    obtain ⟨results, -, rfl⟩ := Option.map_eq_some_iff.1 hlines
    exact lt_of_lt_of_le (of_decide_eq_true (List.mem_filter.1 hmem).2) htolerance

private theorem lookup_clashes (htolerance : tolerance ≤ dblMax)
    (h : (narrowphase geometry tolerance).Arrives tests arrival) {objects : OrderedPair} {clash : ClearanceClash R}
    (hclash : (clashes arrival).lookup objects = some clash) :
    clash.line ∈ valuesAt objects arrival ∧ ∀ line ∈ valuesAt objects arrival, clash.line.magnitude ≤ line.magnitude := by
  rw [clashes, lookup_collect] at hclash
  by_cases hempty : valuesAt objects arrival = []
  · rw [if_pos hempty] at hclash
    cases hclash
  · rw [if_neg hempty] at hclash
    cases hclash
    obtain ⟨line, hline⟩ := List.exists_mem_of_ne_nil _ hempty
    rw [ClearanceClash.foldl_append_line]
    refine ⟨foldl_keepLess_mem_of_lt ⟨line, hline, ?_⟩, (measure_foldl_keepLess_le _ _ _).2⟩
    exact magnitude_lt_of_mem htolerance h (mem_valuesAt.1 hline)

/-- A test is exact, and each clash ends up with a shortest line.  The first part is about the branch of the test that
does not find the first mesh inside the second. -/
theorem test_exact (htolerance : tolerance ≤ dblMax) {a b : Cached R} (ha : a.Enclosed) (hb : b.Enclosed)
    (hclosest : ∀ i < a.mesh.faces.length, ∀ j < b.mesh.faces.length,
      IsClosest (geometry.closestPoints (a.getTriangle i) (b.getTriangle j)).toRepoLine (a.getTriangle i)
        (b.getTriangle j))
    (h : (narrowphase geometry tolerance).Arrives tests arrival) :
    (∃ lines, distanceBranch geometry tolerance a b = some lines ∧
      (isContained geometry a b = false → test geometry tolerance a b = some lines) ∧
      ∃ d, IsLeast (distances a b) d ∧ (lines ≠ [] ↔ d < tolerance)) ∧
    ∀ objects clash, (clashes arrival).lookup objects = some clash →
      clash.line ∈ valuesAt objects arrival ∧
        ∀ line ∈ valuesAt objects arrival, clash.line.magnitude ≤ line.magnitude := by
  obtain ⟨lines, hlines, hdistance⟩ : ∃ lines, distanceBranch geometry tolerance a b = some lines ∧ _ :=
    distanceBranch_ne_nil_iff ha hb hclosest
  refine ⟨⟨lines, hlines, ?_, hdistance⟩, fun objects clash hclash => lookup_clashes htolerance h hclash⟩
  intro hcontained
  rw [test, hcontained, if_neg Bool.false_ne_true, hlines]

end Clashes

/-! ### Corner triangles -/

/-- The triangle with a corner in the origin and one on each of two axes. -/
def corner (s : ℝ) : RepoTriangle ℝ := ⟨⟨0, 0, 0⟩, ⟨s, 0, 0⟩, ⟨0, s, 0⟩⟩

/-- The number of digits. -/
def cornerSize (uniqueId : Boost.digits.Uuid) : ℝ := (show List Char from uniqueId).length

/-- A mesh node with one corner triangle, whose size is the number of digits of the identifier. -/
noncomputable def cornerNode (uniqueId : Boost.digits.Uuid) : SparseNode Boost.digits ℝ where
  uniqueId := uniqueId
  matrix := id
  bounds := ⟨⟨0, 0, 0⟩, ⟨cornerSize uniqueId, cornerSize uniqueId, 0⟩⟩
  vertices := [⟨0, 0, 0⟩, ⟨cornerSize uniqueId, 0, 0⟩, ⟨0, cornerSize uniqueId, 0⟩]
  faces := [.triangle 0 1 2]

/-- The closest points of two corner triangles are their first corners. -/
def cornerGeometry : Geometry ℝ where
  closestPoints A B := ⟨⟨A.a, B.a⟩, false⟩
  contains _ _ _ _ _ := false
  orderVertices _ indices := indices

noncomputable def cornerCached (uniqueId : Boost.digits.Uuid) (object : CompositeObject .digits) : Cached ℝ :=
  .initialise (.chain ℝ) ⟨cornerNode uniqueId, object⟩

section Corner

variable {u u' : Boost.digits.Uuid} {object object' : CompositeObject .digits}

private theorem origin_mem_corner (s : ℝ) : (⟨0, 0, 0⟩ : RepoVector3D ℝ) ∈ (corner s).points :=
  ⟨1, 0, 0, by norm_num, by norm_num, by norm_num, by norm_num, by ext <;> simp [corner]⟩

private theorem isClosest_corner (s s' : ℝ) :
    IsClosest (cornerGeometry.closestPoints (corner s) (corner s')).toRepoLine (corner s) (corner s') where
  start := origin_mem_corner s
  endpoint := origin_mem_corner s'
  least := by
    intro x _ y _
    refine (RepoVector3D.norm_le_norm_iff _ _).2 ?_
    have hzero : (((⟨0, 0, 0⟩ : RepoVector3D ℝ) - ⟨0, 0, 0⟩).norm2) = 0 := by simp [RepoVector3D.norm2]
    exact hzero.trans_le (RepoVector3D.norm2_nonneg _)

private theorem cornerCached_enclosed : (cornerCached u object).Enclosed :=
  initialise_enclosed SweepSahBuilder.chain_encloses (List.cons_ne_nil _ _)

private theorem cornerCached_faces : (cornerCached u object).mesh.faces.length = 1 :=
  RepoIndexedMesh.length_faces_ofTriangles _

private theorem cornerCached_getTriangle : (cornerCached u object).getTriangle 0 = corner (cornerSize u) :=
  RepoIndexedMesh.getTriangle_ofTriangles Nat.one_pos

private theorem cornerCached_isClosest : ∀ i < (cornerCached u object).mesh.faces.length,
    ∀ j < (cornerCached u' object').mesh.faces.length,
      IsClosest (cornerGeometry.closestPoints ((cornerCached u object).getTriangle i)
        ((cornerCached u' object').getTriangle j)).toRepoLine
        ((cornerCached u object).getTriangle i) ((cornerCached u' object').getTriangle j) := by
  intro i hi j hj
  rw [cornerCached_faces, Nat.lt_one_iff] at hi hj
  subst hi hj
  rw [cornerCached_getTriangle, cornerCached_getTriangle]
  exact isClosest_corner _ _

private theorem origin_mem_points : (⟨0, 0, 0⟩ : RepoVector3D ℝ) ∈ (cornerCached u object).points 0 := by
  refine ⟨?_, ?_⟩
  · rw [cornerCached_faces]
    exact Nat.one_pos
  · rw [cornerCached_getTriangle]
    exact origin_mem_corner _

private theorem zero_mem_distances_corner : 0 ∈ distances (cornerCached u object) (cornerCached u' object') := by
  refine ⟨0, 0, _, origin_mem_points, _, origin_mem_points, ?_⟩
  have hzero : (((⟨0, 0, 0⟩ : RepoVector3D ℝ) - ⟨0, 0, 0⟩).norm2) = 0 := by simp [RepoVector3D.norm2]
  have hnorm := RepoVector3D.norm_mul_norm ((⟨0, 0, 0⟩ : RepoVector3D ℝ) - ⟨0, 0, 0⟩)
  rw [hzero] at hnorm
  exact (mul_self_eq_zero.1 hnorm).symm

private theorem bounds_corner (hu : 0 < cornerSize u) :
    (cornerCached u object).bounds = ⟨⟨0, 0, 0⟩, ⟨cornerSize u, cornerSize u, 0⟩⟩ := by
  have hpos := RepoLine.dblMax_pos (R := ℝ)
  have hvertices : (cornerCached u object).mesh.vertices =
      [⟨0, 0, 0⟩, ⟨cornerSize u, 0, 0⟩, ⟨0, cornerSize u, 0⟩] := by
    have hmesh : (cornerCached u object).mesh = .ofTriangles (loadGeometry ⟨cornerNode u, object⟩) := rfl
    rw [hmesh]
    simp [loadGeometry, cornerNode, RepoIndexedMesh.ofTriangles, RepoIndexedMesh.append, RepoIndexedMesh.empty,
      Library.intern, RepoFace.get, RepoFace.triangle, hu.ne', hu.ne]
  have hbounds : (cornerCached u object).bounds = .ofPoints (cornerCached u object).mesh.vertices := rfl
  rw [hbounds, hvertices]
  simp [RepoBounds.ofPoints, RepoBounds.encapsulate, RepoBounds.empty, RepoVector3D.min, RepoVector3D.max, hu.le,
    hpos.le]

/-- The bounds of corner triangles are compared by the sizes of these. -/
theorem gt_corner (hu : 0 < cornerSize u) (hu' : 0 < cornerSize u') :
    (cornerCached u object).bounds.gt (cornerCached u' object').bounds = decide (cornerSize u' < cornerSize u) := by
  rw [bounds_corner hu, bounds_corner hu', RepoBounds.gt]
  refine decide_eq_decide.2 ?_
  rw [← not_le, ← not_le, not_iff_not, RepoVector3D.norm_le_norm_iff]
  simp only [RepoBounds.size, RepoVector3D.norm2, RepoVector3D.sub_x, RepoVector3D.sub_y, RepoVector3D.sub_z, sub_zero]
  rw [mul_self_le_mul_self_iff hu.le hu'.le]
  constructor <;> intro h <;> linarith

private theorem test_corner : ∃ lines,
    test cornerGeometry 1 (cornerCached u object) (cornerCached u' object') = some lines ∧ lines ≠ [] := by
  obtain ⟨lines, hlines, d, hd, hiff⟩ : ∃ lines,
      distanceBranch cornerGeometry 1 (cornerCached u object) (cornerCached u' object') = some lines ∧ _ :=
    distanceBranch_ne_nil_iff cornerCached_enclosed cornerCached_enclosed cornerCached_isClosest
  have hnot : isContained cornerGeometry (cornerCached u object) (cornerCached u' object') = false := Bool.and_false _
  refine ⟨lines, by rw [test, hnot, if_neg Bool.false_ne_true, hlines], hiff.2 ?_⟩
  exact lt_of_le_of_lt (hd.2 zero_mem_distances_corner) one_pos

/-- The test of two corner triangles reports. -/
theorem reports_corner :
    (narrowphase cornerGeometry 1).Reports (cornerCached u object, cornerCached u' object') := by
  unfold Narrowphase.Reports Narrowphase.findings Narrowphase.swapped
  by_cases hgt : ((narrowphase cornerGeometry 1).getBounds (cornerCached u object)).gt
      ((narrowphase cornerGeometry 1).getBounds (cornerCached u' object'))
  · rw [if_pos hgt]
    exact test_corner
  · rw [if_neg hgt]
    exact test_corner

end Corner

/-- Two objects with a corner triangle each. -/
def cornerObject : CompositeObject .digits := ⟨"P", [⟨0, ['1']⟩]⟩

def cornerObject' : CompositeObject .digits := ⟨"Q", [⟨0, ['1', '1']⟩]⟩

/-- Two corner triangles are closer than the tolerance, and their clash keeps a line between them. -/
theorem test_exact_corner : ∃ lines arrival,
    (narrowphase cornerGeometry 1).Arrives [(cornerCached ['1'] cornerObject, cornerCached ['1', '1'] cornerObject')]
      arrival ∧
    distanceBranch cornerGeometry 1 (cornerCached ['1'] cornerObject) (cornerCached ['1', '1'] cornerObject') =
      some lines ∧ lines ≠ [] ∧
    ∀ objects clash, (clashes arrival).lookup objects = some clash → clash.line ∈ valuesAt objects arrival := by
  obtain ⟨arrival, harrival⟩ : ∃ arrival, (narrowphase cornerGeometry 1).Arrives
      [(cornerCached ['1'] cornerObject, cornerCached ['1', '1'] cornerObject')] arrival := by
    refine Narrowphase.exists_arrives ?_
    intro t ht
    obtain rfl := List.mem_singleton.1 ht
    obtain ⟨lines, hlines, -⟩ : (narrowphase cornerGeometry 1).Reports
      (cornerCached ['1'] cornerObject, cornerCached ['1', '1'] cornerObject') := reports_corner
    rw [hlines]
    rfl
  have htolerance : (1 : ℝ) ≤ dblMax := by
    unfold dblMax
    exact one_le_mul_of_one_le_of_one_le (by norm_num) (one_le_pow₀ one_le_two)
  obtain ⟨⟨lines, hlines, -, d, hd, hiff⟩, hclashes⟩ :=
    test_exact htolerance cornerCached_enclosed cornerCached_enclosed cornerCached_isClosest harrival
  refine ⟨lines, arrival, harrival, hlines, hiff.2 ?_, fun objects clash h => (hclashes objects clash h).1⟩
  exact lt_of_le_of_lt (hd.2 zero_mem_distances_corner) one_pos

/-! ### A run of the pipeline -/

/-- The tests that the broadphase asks for. -/
def tests (builder : SweepSahBuilder R) (config : ClashDetectionConfig boost R) (graphs : SceneGraphs boost R) :
    Option (List (Cached R × Cached R)) :=
  ((passes config graphs.a graphs.b graphs.c).mapM (broadphase (DistanceQuery.intersect config.tolerance))).map
    fun results => results.flatten.map fun p => (Cached.initialise builder p.1, Cached.initialise builder p.2)

/-- `runPipeline` returns the report. -/
def Runs (env : Environment boost R) (config : ClashDetectionConfig boost R)
    (report : List (ClashDetectionResult R)) : Prop :=
  ∃ graphs ts arrival, createSceneGraphs env.handler env.builder config = .ok graphs ∧
    tests env.builder config graphs = some ts ∧ (narrowphase env.geometry config.tolerance).Arrives ts arrival ∧
    report = createReport env.hashCombine getClashPositions (clashes arrival)

section Runs

variable {env : Environment boost R} {config : ClashDetectionConfig boost R} {graphs : SceneGraphs boost R}
  {ts : List (Cached R × Cached R)}

theorem mem_tests_iff (h : tests env.builder config graphs = some ts) {t : Cached R × Cached R} :
    t ∈ ts ↔ ∃ pass ∈ passes config graphs.a graphs.b graphs.c, ∃ pairs,
      broadphase (DistanceQuery.intersect config.tolerance) pass = some pairs ∧
      ∃ p ∈ pairs, t = (Cached.initialise env.builder p.1, Cached.initialise env.builder p.2) := by
  obtain ⟨results, hresults, rfl⟩ := Option.map_eq_some_iff.1 h
  rw [List.mem_map]
  constructor
  · rintro ⟨p, hp, rfl⟩
    obtain ⟨pass, hpass, pairs, hpairs, hmem⟩ := (mem_flatten_mapM hresults).1 hp
    exact ⟨pass, hpass, pairs, hpairs, p, hmem, rfl⟩
  · rintro ⟨pass, hpass, pairs, hpairs, p, hmem, rfl⟩
    exact ⟨p, (mem_flatten_mapM hresults).2 ⟨pass, hpass, pairs, hpairs, hmem⟩, rfl⟩

/-- If every mesh has a triangle, every test returns. -/
theorem isSome_findings (hne : ∀ graph ∈ graphs.toList, ∀ node ∈ graph.meshes, node.faces ≠ [])
    (h : tests env.builder config graphs = some ts) {t : Cached R × Cached R} (ht : t ∈ ts) :
    ((narrowphase env.geometry config.tolerance).findings t).isSome := by
  obtain ⟨pass, hpass, pairs, hpairs, p, hp, rfl⟩ := (mem_tests_iff h).1 ht
  obtain ⟨hleft, hright⟩ := Hard.sides_mem hpass
  obtain ⟨hx, hy⟩ := mem_sides_of_broadphase hpairs hp
  have hwx := initialise_wellFormed env.builder (hne _ hleft _ hx)
  have hwy := initialise_wellFormed env.builder (hne _ hright _ hy)
  unfold Narrowphase.findings Narrowphase.swapped
  by_cases hgt : ((narrowphase env.geometry config.tolerance).getBounds (Cached.initialise env.builder p.1)).gt
      ((narrowphase env.geometry config.tolerance).getBounds (Cached.initialise env.builder p.2))
  · rw [if_pos hgt]
    exact isSome_test hwy hwx
  · rw [if_neg hgt]
    exact isSome_test hwx hwy

/-- The pipeline returns if each of the three sets has a mesh and every mesh has a triangle. -/
theorem exists_runs (h : createSceneGraphs env.handler env.builder config = .ok graphs)
    (hmeshes : ∀ graph ∈ graphs.toList, graph.meshes ≠ [])
    (hfaces : ∀ graph ∈ graphs.toList, ∀ node ∈ graph.meshes, node.faces ≠ []) :
    ∃ report, Runs env config report := by
  obtain ⟨results, hresults⟩ := Option.isSome_iff_exists.1
    (isSome_mapM fun pass hpass => isSome_broadphase h hmeshes hpass (DistanceQuery.intersect config.tolerance))
  have hts : tests env.builder config graphs = some (results.flatten.map fun p =>
      (Cached.initialise env.builder p.1, Cached.initialise env.builder p.2)) := by
    rw [tests, passes_eq, hresults]
    rfl
  obtain ⟨arrival, harrival⟩ := Narrowphase.exists_arrives fun t ht => isSome_findings hfaces hts ht
  exact ⟨_, graphs, _, arrival, h, hts, harrival, rfl⟩

end Runs

end Bouncer.Clash.Clearance
