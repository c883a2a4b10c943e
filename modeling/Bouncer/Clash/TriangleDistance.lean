import Bouncer.Clash.Clearance
import Bouncer.Clash.ClosestPoints
import Bouncer.Clash.TriangleOverlap
import Bouncer.Library.BasicSolution
import Mathlib.LinearAlgebra.FiniteDimensional.Defs

/-!
# The distance of triangles

`closestPoints` takes two triangles.  It goes through the pairs of edges and stops at a pair whose slab has the triangles
on its two sides, then looks for an intersection, and then goes through the corners of each triangle and the points of
the other.

The line that is returned always joins the triangles.  It is a closest one, unless the triangles cross (share a point,
though no edges meet and no corner is on the other triangle) and the intersection is too shallow for the threshold.  Then
it is never one (`isClosest_closestPoints_iff`).
-/

namespace Bouncer.Clash.TriangleDistance

open ClosestPoints Clearance
open RepoVector3D (norm2 add_x add_y add_z sub_x sub_y sub_z mul_x mul_y mul_z)
open TriangleIntersection (coplanar cross Shallow)
open Library (used mem_used keepLess measure_foldl_keepLess_le foldl_keepLess_mem)

variable {R : Type*} [ExactReal R]

/-! ### The functions -/

/-- `A[i]`. -/
def corner (T : RepoTriangle R) : Fin 3 → RepoVector3D R := ![T.a, T.b, T.c]

/-- `edgesA[i]`. -/
def edge (T : RepoTriangle R) : Fin 3 → RepoLine R := ![⟨T.a, T.b⟩, ⟨T.b, T.c⟩, ⟨T.c, T.a⟩]

/-- The loop over the pairs of edges: the line at which it returns, or the least line it has met. -/
def edgePairs (A B : RepoTriangle R) : List (Fin 3 × Fin 3) → RepoLine R → RepoLine R ⊕ RepoLine R
  | [], min => .inr min
  | (ea, eb) :: pairs, min =>
    let cv := ClosestPoints.closestPoints (edge A ea) (edge B eb)
    if magnitude2 cv < magnitude2 min then
      let n := direction cv
      let dpa := n.dotProduct (corner A (ea + 2) - cv.start)
      let dpb := n.dotProduct (corner B (eb + 2) - cv.endpoint)
      if dpa ≤ 0 ∧ dpb ≥ 0 then .inl cv else edgePairs A B pairs cv
    else edgePairs A B pairs min

def flip (l : RepoLine R) : RepoLine R := ⟨l.endpoint, l.start⟩

/-- `closestPoints(p, T)`. -/
def closestPointsOfPoint (p : RepoVector3D R) (T : RepoTriangle R) : RepoLine R := ⟨p, closestPoint p T⟩

/-- The loop over the corners of `A`. -/
def cornersA (A B : RepoTriangle R) (min : RepoLine R) : RepoLine R :=
  (List.finRange 3).foldl (fun min i =>
    let cv := closestPointsOfPoint (corner A i) B
    if magnitude2 cv < magnitude2 min then cv else min) min

/-- The loop over the corners of `B`. -/
def cornersB (A B : RepoTriangle R) (min : RepoLine R) : RepoLine R :=
  (List.finRange 3).foldl (fun min i =>
    let cv := closestPointsOfPoint (corner B i) A
    if magnitude2 cv < magnitude2 min then flip cv else min) min

/-- The pairs of edges, in the order of the two loops. -/
def pairs : List (Fin 3 × Fin 3) := (List.finRange 3).flatMap fun ea => (List.finRange 3).map fun eb => (ea, eb)

/-- The whole result, with the depth of the penetration. -/
structure FaceFaceDepth (R : Type*) extends FaceFaceResult R where
  depth : R

/-- `closestPoints(A, B)` for triangles. -/
def closestPoints (A B : RepoTriangle R) : FaceFaceDepth R :=
  match edgePairs A B pairs ⟨A.a, B.a⟩ with
  | .inl cv => ⟨⟨cv, false⟩, coplanar⟩
  | .inr min =>
    let i := TriangleIntersection.intersects A B
    if i.1 > coplanar then
      let p := i.2.getD 0
      ⟨⟨⟨p, p⟩, true⟩, i.1⟩
    else ⟨⟨cornersB A B (cornersA A B min), false⟩, coplanar⟩

/-! ### Edges and corners -/

/-- The points are on an edge of each triangle, or one is a corner and the other a point of the other triangle. -/
inductive OnFeatures (A B : RepoTriangle R) : RepoVector3D R → RepoVector3D R → Prop
  | edges {x y : RepoVector3D R} (i j : Fin 3) (hx : x ∈ segmentPoints (edge A i))
    (hy : y ∈ segmentPoints (edge B j)) : OnFeatures A B x y
  | left {y : RepoVector3D R} (i : Fin 3) (hy : y ∈ B.points) : OnFeatures A B (corner A i) y
  | right {x : RepoVector3D R} (j : Fin 3) (hx : x ∈ A.points) : OnFeatures A B x (corner B j)

variable {c : Fin 3 → R}

section Features

variable {T : RepoTriangle R} {x : RepoVector3D R}

private theorem segment_subset (i : Fin 3) (hx : x ∈ segmentPoints (edge T i)) : x ∈ T.points := by
  obtain ⟨t, h0, h1, rfl⟩ := hx
  have h1 := sub_nonneg.2 h1
  fin_cases i
  · refine ⟨1 - t, t, 0, h1, h0, le_rfl, by ring, ?_⟩
    ext <;> simp [edge, direction] <;> ring
  · refine ⟨0, 1 - t, t, le_rfl, h1, h0, by ring, ?_⟩
    ext <;> simp [edge, direction] <;> ring
  · refine ⟨t, 0, 1 - t, h0, le_rfl, h1, by ring, ?_⟩
    ext <;> simp [edge, direction] <;> ring

private theorem corner_mem (i : Fin 3) : corner T i ∈ T.points := by
  fin_cases i
  · exact TriangleIntersection.a_mem_points T
  · exact TriangleIntersection.b_mem_points T
  · exact TriangleIntersection.c_mem_points T

theorem OnFeatures.mem {A B : RepoTriangle R} {x y : RepoVector3D R} (h : OnFeatures A B x y) :
    x ∈ A.points ∧ y ∈ B.points := by
  cases h with
  | edges i j hx hy => exact ⟨segment_subset i hx, segment_subset j hy⟩
  | left i hy => exact ⟨corner_mem i, hy⟩
  | right j hx => exact ⟨hx, corner_mem j⟩

/-- The point with the given weights. -/
def combination (T : RepoTriangle R) (c : Fin 3 → R) : RepoVector3D R := T.a * c 0 + T.b * c 1 + T.c * c 2

private theorem combination_mem_segment (hc : ∀ i, 0 ≤ c i) (hsum : c 0 + c 1 + c 2 = 1) {k : Fin 3}
    (hk : c k = 0) : combination T c ∈ segmentPoints (edge T (k + 1)) := by
  fin_cases k
  · have h0 : c 0 = 0 := hk
    refine ⟨c 2, hc 2, by linarith [hc 1], ?_⟩
    obtain h1 : c 1 = 1 - c 2 := by linarith
    ext <;> simp [combination, edge, direction, h0, h1] <;> ring
  · have h1 : c 1 = 0 := hk
    refine ⟨c 0, hc 0, by linarith [hc 2], ?_⟩
    obtain h2 : c 2 = 1 - c 0 := by linarith
    ext <;> simp [combination, edge, direction, h1, h2] <;> ring
  · have h2 : c 2 = 0 := hk
    refine ⟨c 1, hc 1, by linarith [hc 0], ?_⟩
    obtain h0 : c 0 = 1 - c 1 := by linarith
    ext <;> simp [combination, edge, direction, h0, h2] <;> ring

private theorem combination_eq_corner (hsum : c 0 + c 1 + c 2 = 1) {i : Fin 3} (hi : ∀ j, j ≠ i → c j = 0) :
    combination T c = corner T i := by
  fin_cases i
  · have h1 : c 1 = 0 := hi 1 (by decide)
    have h2 : c 2 = 0 := hi 2 (by decide)
    have h0 : c 0 = 1 := by linarith
    ext <;> simp [combination, corner, h0, h1, h2]
  · have h0 : c 0 = 0 := hi 0 (by decide)
    have h2 : c 2 = 0 := hi 2 (by decide)
    have h1 : c 1 = 1 := by linarith
    ext <;> simp [combination, corner, h0, h1, h2]
  · have h0 : c 0 = 0 := hi 0 (by decide)
    have h1 : c 1 = 0 := hi 1 (by decide)
    have h2 : c 2 = 1 := by linarith
    ext <;> simp [combination, corner, h0, h1, h2]

private theorem combination_mem (hc : ∀ i, 0 ≤ c i) (hsum : c 0 + c 1 + c 2 = 1) : combination T c ∈ T.points :=
  ⟨c 0, c 1, c 2, hc 0, hc 1, hc 2, hsum, rfl⟩

private theorem exists_combination (hx : x ∈ T.points) :
    ∃ c : Fin 3 → R, (∀ i, 0 ≤ c i) ∧ c 0 + c 1 + c 2 = 1 ∧ x = combination T c := by
  obtain ⟨u, v, w, hu, hv, hw, hsum, rfl⟩ := hx
  refine ⟨![u, v, w], fun i => ?_, hsum, rfl⟩
  fin_cases i
  · exact hu
  · exact hv
  · exact hw

/-- Combinations of at most four corners in all are on features. -/
theorem onFeatures_of_card {A B : RepoTriangle R} {c d : Fin 3 → R} (hc : ∀ i, 0 ≤ c i) (hcsum : c 0 + c 1 + c 2 = 1)
    (hd : ∀ i, 0 ≤ d i) (hdsum : d 0 + d 1 + d 2 = 1) (hcard : (used c).card + (used d).card ≤ 4) :
    OnFeatures A B (combination A c) (combination B d) := by
  have hunused : ∀ {c : Fin 3 → R}, (used c).card ≤ 2 → ∃ k, c k = 0 := by
    intro c hle
    by_contra hall
    push Not at hall
    have : used c = Finset.univ := Finset.eq_univ_of_forall fun i => mem_used.2 (hall i)
    rw [this] at hle
    simp at hle
  have hlone : ∀ {c : Fin 3 → R}, (used c).card ≤ 1 → ∃ i, ∀ j, j ≠ i → c j = 0 := by
    intro c hle
    obtain ⟨i, hi⟩ := Finset.card_le_one_iff_subset_singleton.1 hle
    refine ⟨i, fun j hj => ?_⟩
    by_contra hne
    exact hj (Finset.mem_singleton.1 (hi (mem_used.2 hne)))
  by_cases hcle : (used c).card ≤ 1
  · obtain ⟨i, hi⟩ := hlone hcle
    rw [combination_eq_corner hcsum hi]
    exact .left i (combination_mem hd hdsum)
  by_cases hdle : (used d).card ≤ 1
  · obtain ⟨i, hi⟩ := hlone hdle
    rw [combination_eq_corner hdsum hi]
    exact .right i (combination_mem hc hcsum)
  obtain ⟨k, hk⟩ := hunused (c := c) (by omega)
  obtain ⟨l, hl⟩ := hunused (c := d) (by omega)
  exact .edges _ _ (combination_mem_segment hc hcsum hk) (combination_mem_segment hd hdsum hl)

end Features

/-! ### Triangles that share no point -/

section Apart

variable {A B : RepoTriangle R}

/-- The columns of the equations for a point of each triangle: the weights of the corners of `A` and of `B`, and the part
of `z` by which the points differ. -/
def column (A B : RepoTriangle R) (z : RepoVector3D R) : Option (Fin 3 ⊕ Fin 3) → Fin 5 → R
  | some (.inl i) => ![-(corner A i).x, -(corner A i).y, -(corner A i).z, 1, 0]
  | some (.inr j) => ![(corner B j).x, (corner B j).y, (corner B j).z, 0, 1]
  | none => ![-z.x, -z.y, -z.z, 0, 0]

private theorem sum_column (z : RepoVector3D R) (c : Option (Fin 3 ⊕ Fin 3) → R) :
    ∑ i, c i • column A B z i =
      ![(combination B (c ∘ some ∘ .inr) - combination A (c ∘ some ∘ .inl) - z * c none).x,
        (combination B (c ∘ some ∘ .inr) - combination A (c ∘ some ∘ .inl) - z * c none).y,
        (combination B (c ∘ some ∘ .inr) - combination A (c ∘ some ∘ .inl) - z * c none).z,
        c (some (.inl 0)) + c (some (.inl 1)) + c (some (.inl 2)),
        c (some (.inr 0)) + c (some (.inr 1)) + c (some (.inr 2))] := by
  simp only [Fintype.sum_option, Fintype.sum_sum_type, Fin.sum_univ_three]
  ext k
  fin_cases k <;> simp [column, corner, combination] <;> ring

private theorem card_used (c : Option (Fin 3 ⊕ Fin 3) → R) :
    (used c).card = (used fun _ : Unit => c none).card + (used (c ∘ some ∘ .inl)).card +
      (used (c ∘ some ∘ .inr)).card := by
  simp only [used, Finset.card_filter, Fintype.sum_option, Fintype.sum_sum_type]
  simp [add_assoc]

/-- The points of triangles that share none are no closer than some points on features. -/
theorem exists_onFeatures (hdisjoint : ∀ x ∈ A.points, x ∉ B.points) {x y : RepoVector3D R} (hx : x ∈ A.points)
    (hy : y ∈ B.points) : ∃ x' y', OnFeatures A B x' y' ∧ (y' - x').norm2 ≤ (y - x).norm2 := by
  obtain ⟨a, ha, hasum, rfl⟩ := exists_combination hx
  obtain ⟨b, hb, hbsum, rfl⟩ := exists_combination hy
  obtain ⟨z, hz⟩ : ∃ z, combination B b - combination A a = z := ⟨_, rfl⟩
  have hnonneg : ∀ i, 0 ≤ (Option.elim · 1 (Sum.elim a b)) i := by
    rintro (_ | i | j)
    · exact zero_le_one
    · exact ha i
    · exact hb j
  -- a combination with at most five columns, and no more of `z`
  obtain ⟨c, hc, hsum, hle, -, hcard⟩ :=
    Library.exists_card_le (v := column A B z) (k := none) ⊤ (fun _ _ => trivial) hnonneg
  rw [finrank_top, Module.finrank_fin_fun, card_used] at hcard
  rw [sum_column, sum_column] at hsum
  obtain ⟨a', ha'⟩ : ∃ a', c ∘ some ∘ .inl = a' := ⟨_, rfl⟩
  obtain ⟨b', hb'⟩ : ∃ b', c ∘ some ∘ .inr = b' := ⟨_, rfl⟩
  have hasum' : a' 0 + a' 1 + a' 2 = 1 := by
    rw [← ha', ← hasum]
    exact congrFun hsum 3
  have hbsum' : b' 0 + b' 1 + b' 2 = 1 := by
    rw [← hb', ← hbsum]
    exact congrFun hsum 4
  have hdiff : combination B b' - combination A a' = z * c none := by
    have hx : (combination B (c ∘ some ∘ .inr) - combination A (c ∘ some ∘ .inl) - z * c none).x =
      (combination B b - combination A a - z * (1 : R)).x := congrFun hsum 0
    have hy : (combination B (c ∘ some ∘ .inr) - combination A (c ∘ some ∘ .inl) - z * c none).y =
      (combination B b - combination A a - z * (1 : R)).y := congrFun hsum 1
    have hz' : (combination B (c ∘ some ∘ .inr) - combination A (c ∘ some ∘ .inl) - z * c none).z =
      (combination B b - combination A a - z * (1 : R)).z := congrFun hsum 2
    rw [ha', hb', hz] at hx hy hz'
    simp only [sub_x, sub_y, sub_z, mul_x, mul_y, mul_z, mul_one, sub_self] at hx hy hz'
    ext
    · exact sub_eq_zero.1 hx
    · exact sub_eq_zero.1 hy
    · exact sub_eq_zero.1 hz'
  have hamem : ∀ i, 0 ≤ a' i := fun i => ha' ▸ hc _
  have hbmem : ∀ i, 0 ≤ b' i := fun i => hb' ▸ hc _
  -- the part of `z` is used, for the triangles share no point
  have hne : c none ≠ 0 := by
    intro hzero
    apply hdisjoint _ (combination_mem hamem hasum')
    have : combination A a' = combination B b' := by
      rw [hzero] at hdiff
      have hx := congrArg RepoVector3D.x hdiff
      have hy := congrArg RepoVector3D.y hdiff
      have hz' := congrArg RepoVector3D.z hdiff
      simp only [sub_x, sub_y, sub_z, mul_x, mul_y, mul_z, mul_zero, sub_eq_zero] at hx hy hz'
      ext
      · exact hx.symm
      · exact hy.symm
      · exact hz'.symm
    rw [this]
    exact combination_mem hbmem hbsum'
  refine ⟨_, _, onFeatures_of_card hamem hasum' hbmem hbsum' ?_, ?_⟩
  · have hone : (used fun _ : Unit => c none).card = 1 := by simp [used, hne]
    rw [hone, ha', hb'] at hcard
    omega
  · rw [hdiff, hz, RepoVector3D.norm2_mul]
    exact mul_le_of_le_one_right z.norm2_nonneg (mul_le_one₀ hle (hc none) hle)

end Apart

/-! ### The loops -/

section Loops

variable {A B T : RepoTriangle R}

private theorem start_mem_segment (l : RepoLine R) : l.start ∈ segmentPoints l := ⟨0, le_rfl, zero_le_one, by ext <;> simp⟩

private theorem endpoint_mem_segment (l : RepoLine R) : l.endpoint ∈ segmentPoints l :=
  ⟨1, zero_le_one, le_rfl, by ext <;> simp [direction]⟩

private theorem forall_corner {P : RepoVector3D R → Prop} (i : Fin 3) (hedge : ∀ x ∈ segmentPoints (edge T i), P x)
    (hopposite : P (corner T (i + 2))) (k : Fin 3) : P (corner T k) := by
  have hstart := hedge _ (start_mem_segment _)
  have hend := hedge _ (endpoint_mem_segment _)
  fin_cases i <;> fin_cases k <;> first | exact hstart | exact hend | exact hopposite

private theorem dotProduct_combination_sub (n s : RepoVector3D R) (hsum : c 0 + c 1 + c 2 = 1) :
    n.dotProduct (combination T c - s) = c 0 * n.dotProduct (corner T 0 - s) + c 1 * n.dotProduct (corner T 1 - s) +
      c 2 * n.dotProduct (corner T 2 - s) := by
  obtain h0 : c 0 = 1 - c 1 - c 2 := by linarith
  simp only [RepoVector3D.dotProduct, combination, corner, h0, add_x, add_y, add_z, sub_x, sub_y, sub_z, mul_x, mul_y, mul_z,
    Matrix.cons_val_zero, Matrix.cons_val_one, Matrix.cons_val]
  ring

/-- If the corners opposite to two edges are not in the slab between them, the line between the edges is a closest one
of the triangles. -/
private theorem closest_of_slab {cv : RepoLine R} {i j : Fin 3} (h : Closest cv (segmentPoints (edge A i)) (segmentPoints (edge B j)))
    (hA : (direction cv).dotProduct (corner A (i + 2) - cv.start) ≤ 0)
    (hB : (direction cv).dotProduct (corner B (j + 2) - cv.endpoint) ≥ 0) : Closest cv A.points B.points := by
  refine ⟨segment_subset i h.start, segment_subset j h.endpoint, ?_, ?_⟩
  · intro x hx
    obtain ⟨c, hc, hsum, rfl⟩ := exists_combination hx
    have hcorner := forall_corner (P := fun x => (direction cv).dotProduct (x - cv.start) ≤ 0) i h.behind hA
    rw [dotProduct_combination_sub _ _ hsum]
    have h0 := mul_nonpos_of_nonneg_of_nonpos (hc 0) (hcorner 0)
    have h1 := mul_nonpos_of_nonneg_of_nonpos (hc 1) (hcorner 1)
    have h2 := mul_nonpos_of_nonneg_of_nonpos (hc 2) (hcorner 2)
    linarith
  · intro y hy
    obtain ⟨c, hc, hsum, rfl⟩ := exists_combination hy
    have hcorner := forall_corner (P := fun x => 0 ≤ (direction cv).dotProduct (x - cv.endpoint)) j h.ahead hB
    rw [dotProduct_combination_sub _ _ hsum]
    have h0 := mul_nonneg (hc 0) (hcorner 0)
    have h1 := mul_nonneg (hc 1) (hcorner 1)
    have h2 := mul_nonneg (hc 2) (hcorner 2)
    linarith

/-- No edge is short enough for the degenerate cases. -/
def LongEdges (T : RepoTriangle R) : Prop := ∀ i, dblEpsilon < magnitude2 (edge T i)

/-- What the loop over the pairs of edges has established when it returns, and when it ends. -/
theorem edgePairs_spec (hA : LongEdges A) (hB : LongEdges B) (ps : List (Fin 3 × Fin 3)) {min : RepoLine R}
    (hmin : OnFeatures A B min.start min.endpoint) :
    match edgePairs A B ps min with
    | .inl cv => OnFeatures A B cv.start cv.endpoint ∧ Closest cv A.points B.points
    | .inr m => OnFeatures A B m.start m.endpoint ∧ magnitude2 m ≤ magnitude2 min ∧
        ∀ p ∈ ps, ∀ x ∈ segmentPoints (edge A p.1), ∀ y ∈ segmentPoints (edge B p.2), magnitude2 m ≤ (y - x).norm2 := by
  induction ps generalizing min with
  | nil => exact ⟨hmin, le_rfl, nofun⟩
  | cons p ps ih =>
    obtain ⟨i, j⟩ := p
    have hclosest := closest_closestPoints (hA i) (hB j)
    have hfeatures := OnFeatures.edges i j hclosest.start hclosest.endpoint
    unfold edgePairs
    dsimp only
    split_ifs with hless hslab
    · exact ⟨hfeatures, closest_of_slab hclosest hslab.1 hslab.2⟩
    · have hrest := ih hfeatures
      split at hrest
      · exact hrest
      · obtain ⟨hm, hle, hall⟩ := hrest
        refine ⟨hm, hle.trans hless.le, ?_⟩
        rintro p (_ | ⟨_, hp⟩)
        · exact fun x hx y hy => hle.trans (hclosest.magnitude2_le hx hy)
        · exact hall p hp
    · have hrest := ih hmin
      split at hrest
      · exact hrest
      · obtain ⟨hm, hle, hall⟩ := hrest
        refine ⟨hm, hle, ?_⟩
        rintro p (_ | ⟨_, hp⟩)
        · exact fun x hx y hy => (hle.trans (not_lt.1 hless)).trans (hclosest.magnitude2_le hx hy)
        · exact hall p hp

omit [ExactReal R] in
private theorem mem_pairs (p : Fin 3 × Fin 3) : p ∈ pairs := by
  simp [pairs]

private theorem cornersA_eq (min : RepoLine R) : cornersA A B min =
    ((List.finRange 3).map fun i => closestPointsOfPoint (corner A i) B).foldl (keepLess magnitude2) min := by
  rw [List.foldl_map]
  rfl

private theorem cornersB_eq (min : RepoLine R) : cornersB A B min =
    ((List.finRange 3).map fun i => flip (closestPointsOfPoint (corner B i) A)).foldl (keepLess magnitude2) min := by
  have hflip : ∀ l : RepoLine R, magnitude2 (flip l) = magnitude2 l := by
    intro l
    simp only [magnitude2, direction, flip, norm2, sub_x, sub_y, sub_z]
    ring
  rw [List.foldl_map]
  simp only [cornersB, keepLess, hflip]

/-- The line after the loops over the corners. -/
theorem corners_spec (hA : cross A ≠ 0) (hB : cross B ≠ 0) {min : RepoLine R}
    (hmin : OnFeatures A B min.start min.endpoint) {m : RepoLine R} (hm : m = cornersB A B (cornersA A B min)) :
    OnFeatures A B m.start m.endpoint ∧ magnitude2 m ≤ magnitude2 min ∧
      (∀ i, ∀ y ∈ B.points, magnitude2 m ≤ (y - corner A i).norm2) ∧
      ∀ j, ∀ x ∈ A.points, magnitude2 m ≤ (corner B j - x).norm2 := by
  have hleA := measure_foldl_keepLess_le magnitude2 min
    ((List.finRange 3).map fun i => closestPointsOfPoint (corner A i) B)
  have hmemA := foldl_keepLess_mem magnitude2 min
    ((List.finRange 3).map fun i => closestPointsOfPoint (corner A i) B)
  rw [← cornersA_eq] at hleA hmemA
  have hleB := measure_foldl_keepLess_le magnitude2 (cornersA A B min)
    ((List.finRange 3).map fun i => flip (closestPointsOfPoint (corner B i) A))
  have hmemB := foldl_keepLess_mem magnitude2 (cornersA A B min)
    ((List.finRange 3).map fun i => flip (closestPointsOfPoint (corner B i) A))
  rw [← cornersB_eq, ← hm] at hleB hmemB
  refine ⟨?_, hleB.1.trans hleA.1, ?_, ?_⟩
  · have hfeaturesA : OnFeatures A B (cornersA A B min).start (cornersA A B min).endpoint := by
      rcases hmemA with heq | hmem
      · rwa [heq]
      · obtain ⟨i, -, heq⟩ := List.mem_map.1 hmem
        rw [← heq]
        exact .left i (nearest_closestPoint hB).mem
    rcases hmemB with heq | hmem
    · rwa [heq]
    · obtain ⟨j, -, heq⟩ := List.mem_map.1 hmem
      rw [← heq]
      exact .right j (nearest_closestPoint hA).mem
  · intro i y hy
    have hle := hleA.2 _ (List.mem_map.2 ⟨i, List.mem_finRange i, rfl⟩)
    exact (hleB.1.trans hle).trans ((nearest_closestPoint hB).norm2_le hy)
  · intro j x hx
    have hle := hleB.2 _ (List.mem_map.2 ⟨j, List.mem_finRange j, rfl⟩)
    have hnearest := (nearest_closestPoint hA (p := corner B j)).norm2_le hx
    have hneg : ∀ p q : RepoVector3D R, (p - q).norm2 = (q - p).norm2 := by
      intro p q
      simp only [norm2, sub_x, sub_y, sub_z]
      ring
    rw [hneg]
    refine (hle.trans (le_of_eq ?_)).trans hnearest
    exact hneg _ _

end Loops

/-! ### The closest points of two triangles -/

/-- The triangles share a point, though no edges meet and no corner is on the other triangle. -/
structure Crossing (A B : RepoTriangle R) : Prop where
  meets : ∃ x, x ∈ A.points ∧ x ∈ B.points
  apart : ∀ x, ¬OnFeatures A B x x

section Closest

variable {A B : RepoTriangle R}

variable {l : RepoLine R}

private theorem magnitude_le_norm_iff {x : RepoVector3D R} : l.magnitude ≤ x.norm ↔ magnitude2 l ≤ x.norm2 :=
  RepoVector3D.norm_le_norm_iff _ _

private theorem magnitude2_of_eq (h : l.start = l.endpoint) : magnitude2 l = 0 := by
  simp [magnitude2, direction, h, norm2]

private theorem eq_of_magnitude2_le (h : magnitude2 l ≤ 0) : l.start = l.endpoint := by
  have hzero := RepoVector3D.eq_zero_of_norm2 (le_antisymm h (direction l).norm2_nonneg)
  have hx := congrArg RepoVector3D.x hzero
  have hy := congrArg RepoVector3D.y hzero
  have hz := congrArg RepoVector3D.z hzero
  simp only [direction, sub_x, sub_y, sub_z, RepoVector3D.zero_x, RepoVector3D.zero_y, RepoVector3D.zero_z,
    sub_eq_zero] at hx hy hz
  ext
  · exact hx.symm
  · exact hy.symm
  · exact hz.symm

private theorem isClosest_of_onFeatures (hstart : l.start ∈ A.points) (hend : l.endpoint ∈ B.points)
    (hle : ∀ x y, OnFeatures A B x y → magnitude2 l ≤ (y - x).norm2) (hcrossing : ¬Crossing A B) :
    IsClosest l A B := by
  refine ⟨hstart, hend, fun x hx y hy => magnitude_le_norm_iff.2 ?_⟩
  by_cases hmeets : ∃ x, x ∈ A.points ∧ x ∈ B.points
  · obtain ⟨z, hz⟩ : ∃ z, OnFeatures A B z z := by
      by_contra hall
      exact hcrossing ⟨hmeets, fun z hz => hall ⟨z, hz⟩⟩
    refine (hle z z hz).trans ?_
    have hzero : (z - z).norm2 = 0 := by simp [norm2]
    rw [hzero]
    exact RepoVector3D.norm2_nonneg _
  · obtain ⟨x', y', hfeatures, hle'⟩ := exists_onFeatures (fun z hz hz' => hmeets ⟨z, hz, hz'⟩) hx hy
    exact (hle _ _ hfeatures).trans hle'

/-- The ways in which `closestPoints` returns. -/
theorem closestPoints_cases (hA : cross A ≠ 0) (hB : cross B ≠ 0) (hA' : LongEdges A) (hB' : LongEdges B) :
    (OnFeatures A B (closestPoints A B).start (closestPoints A B).endpoint ∧
      Closest (closestPoints A B).toRepoLine A.points B.points) ∨
    (coplanar < (TriangleIntersection.intersects A B).1 ∧ (closestPoints A B).start = (closestPoints A B).endpoint ∧
      (closestPoints A B).start ∈ A.points ∧ (closestPoints A B).start ∈ B.points) ∨
    ((TriangleIntersection.intersects A B).1 ≤ coplanar ∧ OnFeatures A B (closestPoints A B).start (closestPoints A B).endpoint ∧
      ∀ x y, OnFeatures A B x y → magnitude2 (closestPoints A B).toRepoLine ≤ (y - x).norm2) := by
  have hspec := edgePairs_spec hA' hB' pairs (show OnFeatures A B (⟨A.a, B.a⟩ : RepoLine R).start _ from
    .left 0 (TriangleIntersection.a_mem_points B))
  unfold closestPoints
  rcases hloop : edgePairs A B pairs ⟨A.a, B.a⟩ with cv | m
  · rw [hloop] at hspec
    exact Or.inl hspec
  · rw [hloop] at hspec
    obtain ⟨hm, -, hedges⟩ := hspec
    dsimp only
    split_ifs with hdepth
    · obtain ⟨p, hp⟩ := TriangleIntersection.exists_of_coplanar_lt hdepth
      have hmem := TriangleIntersection.mem_of_intersects hp
      rw [hp]
      exact Or.inr (Or.inl ⟨hdepth, rfl, hmem⟩)
    · obtain ⟨hfeatures, hle, hleft, hright⟩ := corners_spec hA hB hm rfl
      refine Or.inr (Or.inr ⟨not_lt.1 hdepth, hfeatures, ?_⟩)
      intro x y hxy
      cases hxy with
      | edges i j hx hy => exact hle.trans (hedges (i, j) (mem_pairs _) x hx y hy)
      | left i hy => exact hleft i y hy
      | right j hx => exact hright j x hx

private theorem closestPoints_mem (hA : cross A ≠ 0) (hB : cross B ≠ 0) (hA' : LongEdges A) (hB' : LongEdges B) :
    (closestPoints A B).start ∈ A.points ∧ (closestPoints A B).endpoint ∈ B.points := by
  rcases closestPoints_cases hA hB hA' hB' with ⟨h, -⟩ | ⟨-, heq, hstart, hend⟩ | ⟨-, h, -⟩
  · exact h.mem
  · exact ⟨hstart, heq ▸ hend⟩
  · exact h.mem

private theorem isClosest_of_not_shallow (hA : cross A ≠ 0) (hB : cross B ≠ 0) (hA' : LongEdges A) (hB' : LongEdges B)
    (h : ¬(Crossing A B ∧ Shallow coplanar A.points B.points)) : IsClosest (closestPoints A B).toRepoLine A B := by
  obtain ⟨hstart, hend⟩ := closestPoints_mem hA hB hA' hB'
  rcases closestPoints_cases hA hB hA' hB' with ⟨-, hclosest⟩ | ⟨-, heq, -, -⟩ | ⟨hdepth, -, hle⟩
  · exact ⟨hstart, hend, fun x hx y hy => magnitude_le_norm_iff.2 (hclosest.magnitude2_le hx hy)⟩
  · refine ⟨hstart, hend, fun x _ y _ => magnitude_le_norm_iff.2 ?_⟩
    rw [magnitude2_of_eq heq]
    exact RepoVector3D.norm2_nonneg _
  · apply isClosest_of_onFeatures hstart hend hle
    intro hcrossing
    obtain ⟨x, hx, hx'⟩ := hcrossing.meets
    exact h ⟨hcrossing, (TriangleIntersection.intersects_le_iff hA hB le_rfl hx hx').1 hdepth⟩

private theorem ne_of_shallow (hA : cross A ≠ 0) (hB : cross B ≠ 0) (hA' : LongEdges A) (hB' : LongEdges B)
    (hcrossing : Crossing A B) (hshallow : Shallow coplanar A.points B.points) :
    (closestPoints A B).start ≠ (closestPoints A B).endpoint := by
  intro heq
  rcases closestPoints_cases hA hB hA' hB' with ⟨h, -⟩ | ⟨hdepth, -, -, -⟩ | ⟨-, h, -⟩
  · rw [← heq] at h
    exact hcrossing.apart _ h
  · obtain ⟨x, hx, hx'⟩ := hcrossing.meets
    exact hdepth.not_ge ((TriangleIntersection.intersects_le_iff hA hB le_rfl hx hx').2 hshallow)
  · rw [← heq] at h
    exact hcrossing.apart _ h

private theorem eq_of_isClosest (h : IsClosest l A B) {x : RepoVector3D R} (hx : x ∈ A.points)
    (hx' : x ∈ B.points) : l.start = l.endpoint := by
  apply eq_of_magnitude2_le
  have hle := magnitude_le_norm_iff.1 (h.least x hx x hx')
  have hzero : (x - x).norm2 = 0 := by simp [norm2]
  rwa [hzero] at hle

private theorem not_isClosest_of_shallow (hA : cross A ≠ 0) (hB : cross B ≠ 0) (hA' : LongEdges A) (hB' : LongEdges B)
    (hcrossing : Crossing A B) (hshallow : Shallow coplanar A.points B.points) :
    ¬IsClosest (closestPoints A B).toRepoLine A B := by
  intro h
  obtain ⟨x, hx, hx'⟩ := hcrossing.meets
  exact ne_of_shallow hA hB hA' hB' hcrossing hshallow (eq_of_isClosest h hx hx')

end Closest

/-! ### Triangles that cross at a small depth -/

/-- A triangle that stands on its tip, a little below the plane through the origin. -/
noncomputable def needle : RepoTriangle ℝ := ⟨⟨0, 0, -(1 / 10 ^ 16)⟩, ⟨3, 0, 4⟩, ⟨-3, 0, 4⟩⟩

/-- A triangle around the origin. -/
def ground : RepoTriangle ℝ := ⟨⟨-10, -10, 0⟩, ⟨10, -10, 0⟩, ⟨0, 10, 0⟩⟩

private theorem cross_needle : cross needle ≠ 0 := by
  intro h
  have hy := congrArg RepoVector3D.y h
  norm_num [cross, needle, RepoVector3D.crossProduct] at hy

private theorem cross_ground : cross ground ≠ 0 := by
  intro h
  have hz := congrArg RepoVector3D.z h
  norm_num [cross, ground, RepoVector3D.crossProduct] at hz

private theorem longEdges_needle : LongEdges needle := by
  intro i
  fin_cases i <;> simp [edge, needle, magnitude2, direction, norm2, dblEpsilon] <;> norm_num

private theorem longEdges_ground : LongEdges ground := by
  intro i
  fin_cases i <;> simp [edge, ground, magnitude2, direction, norm2, dblEpsilon] <;> norm_num

private theorem mem_needle {x : RepoVector3D ℝ} (hx : x ∈ needle.points) :
    x.y = 0 ∧ -(1 / 10 ^ 16) ≤ x.z ∧ (x.z = 0 → -1 ≤ x.x ∧ x.x ≤ 1) := by
  obtain ⟨u, v, w, hu, hv, hw, hsum, rfl⟩ := hx
  simp only [needle, add_x, add_y, add_z, mul_x, mul_y, mul_z]
  refine ⟨by ring, by linarith, fun hz => ⟨?_, ?_⟩⟩ <;> linarith

private theorem mem_ground {x : RepoVector3D ℝ} (hx : x ∈ ground.points) : x.z = 0 := by
  obtain ⟨u, v, w, hu, hv, hw, hsum, rfl⟩ := hx
  simp [ground]

private theorem crossing_needle : Crossing needle ground := by
  refine ⟨⟨0, ?_, ?_⟩, ?_⟩
  · refine ⟨40000000000000000 / 40000000000000001, 1 / 80000000000000002, 1 / 80000000000000002, by norm_num,
      by norm_num, by norm_num, by norm_num, ?_⟩
    ext <;> norm_num [needle]
  · refine ⟨1 / 4, 1 / 4, 1 / 2, by norm_num, by norm_num, by norm_num, by norm_num, ?_⟩
    ext <;> norm_num [ground]
  · have hleft : ∀ i, corner needle i ∉ ground.points := by
      intro i hi
      have hz := mem_ground hi
      fin_cases i <;> simp [corner, needle] at hz
    have hright : ∀ j, corner ground j ∉ needle.points := by
      intro j hj
      have hy := (mem_needle hj).1
      fin_cases j <;> simp [corner, ground] at hy
    intro x h
    generalize hxy : x = y at h
    cases h with
    | edges i j hx hy =>
      subst hxy
      obtain ⟨hy0, -, hthin⟩ := mem_needle (segment_subset i hx)
      obtain ⟨hlow, hhigh⟩ := hthin (mem_ground (segment_subset j hy))
      obtain ⟨t, h0, h1, rfl⟩ := hy
      -- the edges of the ground keep away from the needle
      fin_cases j <;> simp [edge, ground, direction] at hy0 hlow hhigh <;> linarith
    | left i hy => exact hleft i (hxy ▸ hy)
    | right j hx => exact hright j (hxy ▸ hx)

private theorem shallow_needle : Shallow coplanar needle.points ground.points := by
  refine Or.inr (Or.inl ⟨⟨0, 0, -1⟩, ⟨?_, ?_⟩, ?_⟩)
  · exact RepoVector3D.norm_eq_of_norm2_eq zero_le_one (by simp [norm2])
  · intro x hx y hy
    simp [RepoVector3D.dotProduct, mem_ground hx, mem_ground hy]
  · intro x hx y hy
    have hz := (mem_needle hx).2.1
    simp only [RepoVector3D.dotProduct, sub_x, sub_y, sub_z, mem_ground hy, coplanar]
    norm_num at hz ⊢
    linarith

section Closest

variable {A B : RepoTriangle R}

/-- The line joins the triangles.  It is a closest one exactly if the triangles do not cross, or not at such a small
depth, and it has length zero exactly if they moreover share a point. -/
theorem isClosest_closestPoints_iff (hA : cross A ≠ 0) (hB : cross B ≠ 0) (hA' : LongEdges A) (hB' : LongEdges B) :
    ((closestPoints A B).start ∈ A.points ∧ (closestPoints A B).endpoint ∈ B.points) ∧
    (IsClosest (closestPoints A B).toRepoLine A B ↔ ¬(Crossing A B ∧ Shallow coplanar A.points B.points)) ∧
    ((closestPoints A B).magnitude = 0 ↔
      (∃ x, x ∈ A.points ∧ x ∈ B.points) ∧ ¬(Crossing A B ∧ Shallow coplanar A.points B.points)) := by
  obtain ⟨hstart, hend⟩ := closestPoints_mem hA hB hA' hB'
  have hzero : (closestPoints A B).magnitude = 0 ↔ (closestPoints A B).start = (closestPoints A B).endpoint := by
    constructor
    · intro h
      apply eq_of_magnitude2_le
      have hle : (closestPoints A B).magnitude ≤ (0 : RepoVector3D R).norm := by rw [h, RepoVector3D.norm_zero]
      have := magnitude_le_norm_iff.1 hle
      simpa [norm2] using this
    · intro h
      apply le_antisymm _ (RepoLine.magnitude_nonneg _)
      rw [← RepoVector3D.norm_zero, magnitude_le_norm_iff, magnitude2_of_eq h]
      simp [norm2]
  refine ⟨⟨hstart, hend⟩, ⟨?_, isClosest_of_not_shallow hA hB hA' hB'⟩, ?_⟩
  · rintro hclosest ⟨hcrossing, hshallow⟩
    exact not_isClosest_of_shallow hA hB hA' hB' hcrossing hshallow hclosest
  · rw [hzero]
    constructor
    · intro heq
      refine ⟨⟨_, hstart, heq ▸ hend⟩, ?_⟩
      rintro ⟨hcrossing, hshallow⟩
      exact ne_of_shallow hA hB hA' hB' hcrossing hshallow heq
    · rintro ⟨⟨x, hx, hx'⟩, hdeep⟩
      exact eq_of_isClosest (isClosest_of_not_shallow hA hB hA' hB' hdeep) hx hx'

end Closest

theorem isClosest_closestPoints_iff_needle :
    ((closestPoints needle ground).start ∈ needle.points ∧ (closestPoints needle ground).endpoint ∈ ground.points) ∧
    (IsClosest (closestPoints needle ground).toRepoLine needle ground ↔
      ¬(Crossing needle ground ∧ Shallow coplanar needle.points ground.points)) ∧
    ((closestPoints needle ground).magnitude = 0 ↔ (∃ x, x ∈ needle.points ∧ x ∈ ground.points) ∧
      ¬(Crossing needle ground ∧ Shallow coplanar needle.points ground.points)) :=
  isClosest_closestPoints_iff cross_needle cross_ground longEdges_needle longEdges_ground

/-- The needle crosses the ground at a depth below the threshold: the line that is returned is not a closest one. -/
theorem not_isClosest_needle : (cross needle ≠ 0 ∧ cross ground ≠ 0 ∧ LongEdges needle ∧ LongEdges ground) ∧
    ¬IsClosest (closestPoints needle ground).toRepoLine needle ground :=
  ⟨⟨cross_needle, cross_ground, longEdges_needle, longEdges_ground⟩,
    not_isClosest_of_shallow cross_needle cross_ground longEdges_needle longEdges_ground crossing_needle shallow_needle⟩

end Bouncer.Clash.TriangleDistance
