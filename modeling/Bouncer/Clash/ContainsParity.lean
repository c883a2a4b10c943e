import Bouncer.Clash.Contains
import Bouncer.Clash.RayParity

/-!
# The verdict of the containment test

`geometry::contains` tells from the parity of `numFeatures` whether a point is inside a closed mesh.  Where a ray meets
a triangle in an edge or a corner, its neighbours there are met as well, and the counters of these hits are divided by
two and by three.

The parities of two rays agree exactly if what they count for edges and corners is off by the same from what they would
find there when tilted a little (`numFeatures_parity_iff`).  They do for rays that meet triangles in their interior only
(`boundaryFeatures_eq_zero`).  A ray that touches an edge from outside counts one feature (`not_parity_grazed`).
-/

namespace Bouncer.Clash

open RepoVector3D (triple)

variable {R : Type*} [ExactReal R]

/-- The triangle as it is seen from a point. -/
def seenFrom (p : RepoVector3D R) (t : RepoTriangle R) : RepoTriangle R := ⟨t.a - p, t.b - p, t.c - p⟩

/-! ### The test of one triangle -/

private theorem edgeFunction_eq (d b c : RepoVector3D R) (kz : Fin 3) (hkz : component d kz ≠ 0) :
    let kx := if component d kz < 0 then kz + 2 else kz + 1
    let ky := if component d kz < 0 then kz + 1 else kz + 2
    (component c kx - component d kx / component d kz * component c kz) *
        (component b ky - component d ky / component d kz * component b kz) -
      (component c ky - component d ky / component d kz * component c kz) *
        (component b kx - component d kx / component d kz * component b kz) =
      -1 / |component d kz| * triple d b c := by
  by_cases hneg : component d kz < 0
  · simp only [if_pos hneg, abs_of_neg hneg]
    fin_cases kz <;> simp [component, triple, RepoVector3D.dotProduct, RepoVector3D.crossProduct] at hkz ⊢ <;>
      field_simp <;> ring
  · have hpos : 0 < component d kz := lt_of_le_of_ne (not_lt.1 hneg) hkz.symm
    simp only [if_neg hneg, abs_of_pos hpos]
    fin_cases kz <;> simp [component, triple, RepoVector3D.dotProduct, RepoVector3D.crossProduct] at hkz ⊢ <;>
      field_simp <;> ring

private theorem cramer_component (a b c d : RepoVector3D R) (k : Fin 3) :
    triple d b c * component a k + triple d c a * component b k + triple d a b * component c k =
      triple a b c * component d k := by
  fin_cases k <;> simp [component, triple, RepoVector3D.dotProduct, RepoVector3D.crossProduct] <;> ring

/-- The edge functions and the scaled distance are triple products, up to a factor of the ray. -/
theorem intersects_eq (origin : RepoVector3D R) {direction : RepoVector3D R} (hd : direction ≠ 0) (triangle : RepoTriangle R) :
    ∃ s th : R, s ≠ 0 ∧ ∀ U V W : R, U = s * triple direction (triangle.b - origin) (triangle.c - origin) →
      V = s * triple direction (triangle.c - origin) (triangle.a - origin) →
      W = s * triple direction (triangle.a - origin) (triangle.b - origin) →
      intersects origin direction triangle =
        if |U| < th ∧ |V| < th ∧ |W| < th then .degenerate
        else if (U < 0 ∨ V < 0 ∨ W < 0) ∧ (U > 0 ∨ V > 0 ∨ W > 0) then .miss
        else if U + V + W = 0 ∨
          s * triple (triangle.a - origin) (triangle.b - origin) (triangle.c - origin) / (U + V + W) < 0 then .miss
        else .hit ([U, V, W].countP fun x => decide (x = 0)) := by
  have hkz := dominantAxis_ne_zero hd
  unfold intersects
  extract_lets dir kz kx ky Sx Sy Sz v0 v1 v2 Ax Ay Bx By Cx Cy U V W th det T
  refine ⟨-1 / |dir kz|, th, by simpa using hkz, ?_⟩
  rintro U' V' W' hU' hV' hW'
  have hUVW : U' = U ∧ V' = V ∧ W' = W ∧ T = -1 / |dir kz| *
      triple (triangle.a - origin) (triangle.b - origin) (triangle.c - origin) := by
    have hU : U = -1 / |dir kz| * triple direction (triangle.b - origin) (triangle.c - origin) :=
      edgeFunction_eq direction _ _ kz hkz
    have hV : V = -1 / |dir kz| * triple direction (triangle.c - origin) (triangle.a - origin) :=
      edgeFunction_eq direction _ _ kz hkz
    have hW : W = -1 / |dir kz| * triple direction (triangle.a - origin) (triangle.b - origin) :=
      edgeFunction_eq direction _ _ kz hkz
    refine ⟨hU'.trans hU.symm, hV'.trans hV.symm, hW'.trans hW.symm, ?_⟩
    have hcramer := cramer_component (triangle.a - origin) (triangle.b - origin) (triangle.c - origin) direction kz
    calc T = -1 / |dir kz| * (triple direction (triangle.b - origin) (triangle.c - origin) * v0 kz +
          triple direction (triangle.c - origin) (triangle.a - origin) * v1 kz +
          triple direction (triangle.a - origin) (triangle.b - origin) * v2 kz) * Sz := by
          simp only [T, hU, hV, hW]
          ring
      _ = -1 / |dir kz| * (triple (triangle.a - origin) (triangle.b - origin) (triangle.c - origin) * dir kz) * Sz := by
          rw [← hcramer]
      _ = _ := by
          have hcancel : dir kz * Sz = 1 := mul_one_div_cancel hkz
          rw [mul_assoc, mul_assoc, hcancel, mul_one]
  obtain ⟨rfl, rfl, rfl, hT⟩ := hUVW
  rw [← hT]

/-- A ray from the origin meets a triangle that it does not start from. -/
def Meets (d : RepoVector3D R) (t : RepoTriangle R) : Prop :=
  triple t.a t.b t.c ≠ 0 ∧ 0 ≤ triple t.a t.b t.c * triple d t.b t.c ∧ 0 ≤ triple t.a t.b t.c * triple d t.c t.a ∧
    0 ≤ triple t.a t.b t.c * triple d t.a t.b

instance (d : RepoVector3D R) (t : RepoTriangle R) : Decidable (Meets d t) := inferInstanceAs (Decidable (_ ∧ _))

/-- The number of edges of a triangle that are in a plane with a ray. -/
def edgesMet (d : RepoVector3D R) (t : RepoTriangle R) : ℕ :=
  [triple d t.b t.c, triple d t.c t.a, triple d t.a t.b].countP fun x => decide (x = 0)

private theorem mul_nonneg_iff_of_neg {s x : R} (hs : s < 0) : 0 ≤ s * x ↔ x ≤ 0 := by
  rw [← neg_mul_neg, mul_nonneg_iff_of_pos_left (neg_pos.2 hs), neg_nonneg]

private theorem not_mixed_iff {s m₁ m₂ m₃ : R} (hs : s ≠ 0) :
    ¬ ((s * m₁ < 0 ∨ s * m₂ < 0 ∨ s * m₃ < 0) ∧ (s * m₁ > 0 ∨ s * m₂ > 0 ∨ s * m₃ > 0)) ↔
      (0 ≤ m₁ ∧ 0 ≤ m₂ ∧ 0 ≤ m₃) ∨ (m₁ ≤ 0 ∧ m₂ ≤ 0 ∧ m₃ ≤ 0) := by
  rw [not_and_or]
  push Not
  rcases hs.lt_or_gt with hneg | hpos
  · have hle : ∀ x : R, 0 ≤ s * x ↔ x ≤ 0 := fun x => mul_nonneg_iff_of_neg hneg
    have hge : ∀ x : R, s * x ≤ 0 ↔ 0 ≤ x := fun x => by
      rw [← neg_nonneg, ← mul_neg, hle, neg_nonpos]
    simp only [hle, hge]
    exact or_comm
  · have hle : ∀ x : R, 0 ≤ s * x ↔ 0 ≤ x := fun x => mul_nonneg_iff_of_pos_left hpos
    have hge : ∀ x : R, s * x ≤ 0 ↔ x ≤ 0 := fun x => by
      rw [← neg_nonneg, ← mul_neg, hle, neg_nonneg]
    simp only [hle, hge]

/-- The conditions of a hit, in terms of the triple products. -/
private theorem hit_iff {s D m₁ m₂ m₃ : R} (hs : s ≠ 0)
    (hflat : D = 0 → (0 ≤ m₁ ∧ 0 ≤ m₂ ∧ 0 ≤ m₃) ∨ (m₁ ≤ 0 ∧ m₂ ≤ 0 ∧ m₃ ≤ 0) → m₁ + m₂ + m₃ = 0)
    (hall : D ≠ 0 → ¬ (m₁ = 0 ∧ m₂ = 0 ∧ m₃ = 0)) :
    (¬ ((s * m₁ < 0 ∨ s * m₂ < 0 ∨ s * m₃ < 0) ∧ (s * m₁ > 0 ∨ s * m₂ > 0 ∨ s * m₃ > 0)) ∧
      ¬ (s * m₁ + s * m₂ + s * m₃ = 0 ∨ s * D / (s * m₁ + s * m₂ + s * m₃) < 0)) ↔
    D ≠ 0 ∧ 0 ≤ D * m₁ ∧ 0 ≤ D * m₂ ∧ 0 ≤ D * m₃ := by
  have hsum : s * m₁ + s * m₂ + s * m₃ = s * (m₁ + m₂ + m₃) := by ring
  rw [not_mixed_iff hs, hsum, mul_eq_zero, or_iff_right hs, mul_div_mul_left _ _ hs, not_or, not_lt]
  constructor
  · rintro ⟨hsign, hne, hdiv⟩
    have hD : D ≠ 0 := fun hzero => hne (hflat hzero hsign)
    refine ⟨hD, ?_⟩
    rcases hsign with ⟨h1, h2, h3⟩ | ⟨h1, h2, h3⟩
    · have hS : 0 < m₁ + m₂ + m₃ := lt_of_le_of_ne (by linarith) (Ne.symm hne)
      have hpos : 0 ≤ D := by
        have := mul_nonneg hdiv hS.le
        rwa [div_mul_cancel₀ _ hne] at this
      exact ⟨mul_nonneg hpos h1, mul_nonneg hpos h2, mul_nonneg hpos h3⟩
    · have hS : m₁ + m₂ + m₃ < 0 := lt_of_le_of_ne (by linarith) hne
      have hneg : D ≤ 0 := by
        have := mul_nonpos_of_nonneg_of_nonpos hdiv hS.le
        rwa [div_mul_cancel₀ _ hne] at this
      exact ⟨mul_nonneg_of_nonpos_of_nonpos hneg h1, mul_nonneg_of_nonpos_of_nonpos hneg h2,
        mul_nonneg_of_nonpos_of_nonpos hneg h3⟩
  · rintro ⟨hD, h1, h2, h3⟩
    have hall := hall hD
    rcases hD.lt_or_gt with hneg | hpos
    · have h1 := (mul_nonneg_iff_of_neg hneg).1 h1
      have h2 := (mul_nonneg_iff_of_neg hneg).1 h2
      have h3 := (mul_nonneg_iff_of_neg hneg).1 h3
      refine ⟨Or.inr ⟨h1, h2, h3⟩, fun hzero => hall ⟨?_, ?_, ?_⟩, div_nonneg_of_nonpos hneg.le (by linarith)⟩ <;>
        linarith
    · have h1 := (mul_nonneg_iff_of_pos_left hpos).1 h1
      have h2 := (mul_nonneg_iff_of_pos_left hpos).1 h2
      have h3 := (mul_nonneg_iff_of_pos_left hpos).1 h3
      refine ⟨Or.inl ⟨h1, h2, h3⟩, fun hzero => hall ⟨?_, ?_, ?_⟩, div_nonneg hpos.le (by linarith)⟩ <;> linarith

variable {t : RepoTriangle R}

private theorem sum_eq_zero_of_flat {d : RepoVector3D R} (h0 : (0 : RepoVector3D R) ∉ t.points)
    (hD : triple t.a t.b t.c = 0)
    (hsign : (0 ≤ triple d t.b t.c ∧ 0 ≤ triple d t.c t.a ∧ 0 ≤ triple d t.a t.b) ∨
      (triple d t.b t.c ≤ 0 ∧ triple d t.c t.a ≤ 0 ∧ triple d t.a t.b ≤ 0)) :
    triple d t.b t.c + triple d t.c t.a + triple d t.a t.b = 0 := by
  have hcramer : t.a * triple d t.b t.c + t.b * triple d t.c t.a + t.c * triple d t.a t.b = 0 := by
    rw [cramer, hD]
    ext <;> simp
  by_contra hne
  rcases hsign with ⟨h1, h2, h3⟩ | ⟨h1, h2, h3⟩
  · exact h0 (zero_mem_points h1 h2 h3 (lt_of_le_of_ne (by linarith) (Ne.symm hne)) hcramer)
  · have hlt := lt_of_le_of_ne (by linarith : triple d t.b t.c + triple d t.c t.a + triple d t.a t.b ≤ 0) hne
    refine h0 (zero_mem_points (neg_nonneg.2 h1) (neg_nonneg.2 h2) (neg_nonneg.2 h3) (by linarith) ?_)
    calc t.a * -triple d t.b t.c + t.b * -triple d t.c t.a + t.c * -triple d t.a t.b
        = (t.a * triple d t.b t.c + t.b * triple d t.c t.a + t.c * triple d t.a t.b) * (-1 : R) := by
          ext <;> simp <;> ring
      _ = 0 := by rw [hcramer]; ext <;> simp

private theorem not_all_zero {d : RepoVector3D R} (hd : d ≠ 0) (hD : triple t.a t.b t.c ≠ 0) :
    ¬ (triple d t.b t.c = 0 ∧ triple d t.c t.a = 0 ∧ triple d t.a t.b = 0) := by
  rintro ⟨h1, h2, h3⟩
  have hcramer := cramer t.a t.b t.c d
  rw [h1, h2, h3] at hcramer
  have hcomponent : ∀ x : R, x * triple t.a t.b t.c = 0 → x = 0 := fun x hx => (mul_eq_zero.1 hx).resolve_right hD
  refine hd (RepoVector3D.ext ?_ ?_ ?_)
  · exact hcomponent _ (by simpa using (congrArg RepoVector3D.x hcramer).symm)
  · exact hcomponent _ (by simpa using (congrArg RepoVector3D.y hcramer).symm)
  · exact hcomponent _ (by simpa using (congrArg RepoVector3D.z hcramer).symm)

variable {origin direction : RepoVector3D R}

/-- A test that is not degenerate finds a hit exactly if the ray meets the triangle. -/
theorem intersects_hit_iff (hd : direction ≠ 0) {triangle : RepoTriangle R}
    (h0 : (0 : RepoVector3D R) ∉ (seenFrom origin triangle).points)
    (hne : intersects origin direction triangle ≠ .degenerate) (k : ℕ) :
    intersects origin direction triangle = .hit k ↔
      Meets direction (seenFrom origin triangle) ∧ k = edgesMet direction (seenFrom origin triangle) := by
  obtain ⟨s, th, hs, heq⟩ := intersects_eq origin hd triangle
  have heq := heq _ _ _ rfl rfl rfl
  have hflat := fun hD => sum_eq_zero_of_flat (d := direction) h0 hD
  have hall := fun hD => not_all_zero (t := seenFrom origin triangle) hd hD
  unfold Meets edgesMet
  simp only [seenFrom] at hflat hall ⊢
  generalize triple (triangle.a - origin) (triangle.b - origin) (triangle.c - origin) = D at *
  generalize triple direction (triangle.b - origin) (triangle.c - origin) = m₁ at *
  generalize triple direction (triangle.c - origin) (triangle.a - origin) = m₂ at *
  generalize triple direction (triangle.a - origin) (triangle.b - origin) = m₃ at *
  have hcount : [s * m₁, s * m₂, s * m₃].countP (fun x => decide (x = 0)) =
      [m₁, m₂, m₃].countP fun x => decide (x = 0) := by
    simp [List.countP_cons, hs]
  rw [← hit_iff hs hflat hall, ← hcount]
  rw [heq] at hne ⊢
  split_ifs at hne ⊢ with hdegenerate hmixed hmiss
  · exact absurd rfl hne
  · exact iff_of_false (by simp) fun h => h.1.1 hmixed
  · exact iff_of_false (by simp) fun h => h.1.2 hmiss
  · simp only [RayHit.hit.injEq]
    constructor
    · exact fun h => ⟨⟨hmixed, hmiss⟩, h.symm⟩
    · exact fun h => h.2.symm

/-! ### Counting the hits -/

/-- A hit with this number of edges. -/
def RayHit.isHit (k : ℕ) : RayHit → Bool
  | .hit edges => edges == k
  | _ => false

/-- Without a degenerate test the counters say how often each kind of hit was found. -/
theorem traverse_eq {triangles : List (RepoTriangle R)} (features : Features)
    (h : ∀ t ∈ triangles, intersects origin direction t ≠ .degenerate) :
    traverse origin direction triangles features = .ok (some
      ⟨features.numFaces + triangles.countP fun t => (intersects origin direction t).isHit 0,
        features.numEdges + triangles.countP fun t => (intersects origin direction t).isHit 1,
        features.numVertices + triangles.countP fun t => (intersects origin direction t).isHit 2⟩) := by
  induction triangles generalizing features with
  | nil => rfl
  | cons t triangles ih =>
    have ih := fun features => ih features fun t ht => h t (List.mem_cons_of_mem _ ht)
    rw [traverse]
    simp only [List.countP_cons]
    cases hhit : intersects origin direction t with
    | degenerate => exact absurd hhit (h t List.mem_cons_self)
    | miss => exact ih features
    | hit edges =>
      have hle := edges_le_two hhit
      show (features.count edges).bind (traverse origin direction triangles) = _
      obtain rfl | rfl | rfl : edges = 0 ∨ edges = 1 ∨ edges = 2 := by omega
      · refine (ih { features with numFaces := features.numFaces + 1 }).trans ?_
        simp [RayHit.isHit, Nat.add_assoc, Nat.add_comm 1]
      · refine (ih { features with numEdges := features.numEdges + 1 }).trans ?_
        simp [RayHit.isHit, Nat.add_assoc, Nat.add_comm 1]
      · refine (ih { features with numVertices := features.numVertices + 1 }).trans ?_
        simp [RayHit.isHit, Nat.add_assoc, Nat.add_comm 1]

/-! ### Rays and hierarchies -/

/-- A ray meets the box of a node. -/
def MeetsBox (origin direction : RepoVector3D R) (node : BvhNode R) : Prop :=
  ∃ s : R, 0 ≤ s ∧ node.boundingBoxProxy.Contains (origin + direction * s)

/-- The traverser visits primitives once, and those for which the ray meets all boxes that they are in. -/
structure VisitsMet (bvh : Bvh R) (n : ℕ) (origin direction : RepoVector3D R) (visited : List ℕ) : Prop where
  nodup : visited.Nodup
  lt : ∀ k ∈ visited, k < n
  complete : ∀ j k, bvh.LeafNode j → k ∈ bvh.leafPrimitives j →
    (∀ i, bvh.AncestorOrSelf 0 i → bvh.AncestorOrSelf i j → MeetsBox origin direction (bvh.nodes i)) → k ∈ visited

/-- A ray meets a triangle in a point. -/
theorem Meets.exists_mem_points {p d : RepoVector3D R} (h : Meets d (seenFrom p t)) (hd : d ≠ 0) :
    ∃ s : R, 0 ≤ s ∧ p + d * s ∈ t.points := by
  obtain ⟨hD, h1, h2, h3⟩ := h
  have hall := not_all_zero hd hD
  have hcramer := cramer (seenFrom p t).a (seenFrom p t).b (seenFrom p t).c d
  simp only [seenFrom] at hD h1 h2 h3 hall hcramer
  have hcoordinates : ∀ {a b c x q D m₁ m₂ m₃ : R}, m₁ + m₂ + m₃ ≠ 0 →
      (a - q) * m₁ + (b - q) * m₂ + (c - q) * m₃ = x * D →
      q + x * (D / (m₁ + m₂ + m₃)) = a * (m₁ / (m₁ + m₂ + m₃)) + b * (m₂ / (m₁ + m₂ + m₃)) +
        c * (m₃ / (m₁ + m₂ + m₃)) := by
    intro a b c x q D m₁ m₂ m₃ hne h
    field_simp
    linear_combination -h
  generalize triple (t.a - p) (t.b - p) (t.c - p) = D at *
  generalize triple d (t.b - p) (t.c - p) = m₁ at *
  generalize triple d (t.c - p) (t.a - p) = m₂ at *
  generalize triple d (t.a - p) (t.b - p) = m₃ at *
  have hpos : 0 < D * (m₁ + m₂ + m₃) := by
    refine lt_of_le_of_ne (by linarith) fun hzero => hall ⟨?_, ?_, ?_⟩
    · exact (mul_eq_zero.1 (by linarith : D * m₁ = 0)).resolve_left hD
    · exact (mul_eq_zero.1 (by linarith : D * m₂ = 0)).resolve_left hD
    · exact (mul_eq_zero.1 (by linarith : D * m₃ = 0)).resolve_left hD
  have hS : m₁ + m₂ + m₃ ≠ 0 := (mul_ne_zero_iff.1 hpos.ne').2
  have hdiv : ∀ x, 0 ≤ D * x → 0 ≤ x / (m₁ + m₂ + m₃) := by
    intro x hx
    rw [← mul_div_mul_left _ _ hD]
    exact div_nonneg hx hpos.le
  refine ⟨D / (m₁ + m₂ + m₃), hdiv D (mul_self_nonneg D), m₁ / (m₁ + m₂ + m₃), m₂ / (m₁ + m₂ + m₃),
    m₃ / (m₁ + m₂ + m₃), hdiv _ h1, hdiv _ h2, hdiv _ h3, ?_, ?_⟩
  · rw [← add_div, ← add_div, div_self hS]
  · ext
    exacts [hcoordinates hS (congrArg RepoVector3D.x hcramer), hcoordinates hS (congrArg RepoVector3D.y hcramer),
      hcoordinates hS (congrArg RepoVector3D.z hcramer)]

private theorem VisitsMet.mem {bvh : Bvh R} {n : ℕ} {p d : RepoVector3D R} {visited : List ℕ} {triangles : ℕ → RepoTriangle R}
    (h : VisitsMet bvh n p d visited) (hbvh : bvh.WellFormed n)
    (hencloses : bvh.Encloses fun k => {q | k < n ∧ q ∈ (triangles k).points}) (hd : d ≠ 0) {k : ℕ} (hk : k < n)
    (hmeets : Meets d (seenFrom p (triangles k))) : k ∈ visited := by
  obtain ⟨t, ht⟩ := hbvh
  obtain ⟨j, hj, hprimitive⟩ := ht.lt_iff.1 hk
  obtain ⟨hlabel, hleaf⟩ := ht.spells.mem_leaves_iff.1 hj
  have hroot : bvh.AncestorOrSelf 0 j := ht.root ▸ ht.spells.ancestorOrSelf hlabel
  obtain ⟨s, hs, hpoint⟩ := hmeets.exists_mem_points hd
  exact h.complete j k ⟨hroot, hleaf⟩ hprimitive fun i hi hij =>
    ⟨s, hs, hencloses i j hi hij hleaf k hprimitive _ ⟨hk, hpoint⟩⟩

/-! ### The parity of the features -/

/-- A ray that is cast without a degenerate test. -/
structure CastCleanly (bvh : Bvh R) (mesh : RepoIndexedMesh R) (origin direction : RepoVector3D R)
    (visited : List ℕ) : Prop where
  ne_zero : direction ≠ 0
  visits : VisitsMet bvh mesh.faces.length origin direction visited
  notDegenerate : ∀ k ∈ visited, intersects origin direction (mesh.getTriangle k) ≠ .degenerate

/-- The corners of a mesh as they are seen from a point. -/
def seenVertices (mesh : RepoIndexedMesh R) (p : RepoVector3D R) (i : ℕ) : RepoVector3D R := mesh.vertices.getD i 0 - p

/-- The triangles that a ray meets, with some number of edges. -/
def metWith (mesh : RepoIndexedMesh R) (p d : RepoVector3D R) (k : ℕ) : ℕ :=
  mesh.faces.countP fun face => decide (Meets d (faceTriangle (seenVertices mesh p) face) ∧
    k = edgesMet d (faceTriangle (seenVertices mesh p) face))

/-- The triangles that a ray meets in an edge or a corner and enters when it is tilted. -/
def enteredAtBoundary (mesh : RepoIndexedMesh R) (p d w : RepoVector3D R) : ℕ :=
  mesh.faces.countP fun face => decide (Enters d w (faceTriangle (seenVertices mesh p) face) ∧
    0 ≠ edgesMet d (faceTriangle (seenVertices mesh p) face))

/-- What the features of a ray count for edges and corners, and what they should. -/
def boundaryFeatures (mesh : RepoIndexedMesh R) (p d w : RepoVector3D R) : ℕ :=
  metWith mesh p d 1 / 2 + metWith mesh p d 2 / 3 + enteredAtBoundary mesh p d w

variable {bvh : Bvh R} {mesh : RepoIndexedMesh R} {p d : RepoVector3D R} {visited : List ℕ}

theorem RayHit.isHit_iff {k : ℕ} {hit : RayHit} : hit.isHit k = true ↔ hit = .hit k := by
  cases hit with
  | degenerate => exact iff_of_false Bool.false_ne_true (by simp)
  | miss => exact iff_of_false Bool.false_ne_true (by simp)
  | hit edges => simp [RayHit.isHit]

/-- A point that is not on a triangle does not see it at the origin. -/
theorem zero_notMem_seenFrom (h : p ∉ t.points) :
    (0 : RepoVector3D R) ∉ (seenFrom p t).points := by
  rintro ⟨u, v, w, hu, hv, hw, hsum, hzero⟩
  refine h ⟨u, v, w, hu, hv, hw, hsum, ?_⟩
  have hcoordinate : ∀ {a b c q : R}, 0 = (a - q) * u + (b - q) * v + (c - q) * w → q = a * u + b * v + c * w := by
    intro a b c q h
    linear_combination h - q * hsum
  ext
  exacts [hcoordinate (congrArg RepoVector3D.x hzero), hcoordinate (congrArg RepoVector3D.y hzero),
    hcoordinate (congrArg RepoVector3D.z hzero)]

omit [ExactReal R] in
private theorem countP_eq_of_nodup {α : Type*} {l l' : List α} (hl : l.Nodup) (hl' : l'.Nodup) {q : α → Bool}
    (h : ∀ x, q x = true → (x ∈ l ↔ x ∈ l')) : l.countP q = l'.countP q := by
  rw [List.countP_eq_length_filter, List.countP_eq_length_filter]
  refine ((List.perm_ext_iff_of_nodup (hl.filter q) (hl'.filter q)).2 fun x => ?_).length_eq
  rw [List.mem_filter, List.mem_filter]
  exact and_congr_left fun hx => h x hx

omit [ExactReal R] in
theorem countP_faces (mesh : RepoIndexedMesh R) (q : RepoFace → Bool) :
    mesh.faces.countP q = (List.range mesh.faces.length).countP fun k => q (mesh.faces.getD k (.triangle 0 0 0)) := by
  have hfaces : mesh.faces = (List.range mesh.faces.length).map fun k => mesh.faces.getD k (.triangle 0 0 0) := by
    refine List.ext_getElem (by simp) fun k hk _ => ?_
    rw [List.getElem_map, List.getElem_range, List.getD_eq_getElem]
  conv_lhs => rw [hfaces]
  rw [List.countP_map]
  rfl

private theorem CastCleanly.countP_isHit (h : CastCleanly bvh mesh p d visited) (hbvh : bvh.WellFormed mesh.faces.length)
    (hencloses : bvh.Encloses fun k => {q | k < mesh.faces.length ∧ q ∈ (mesh.getTriangle k).points})
    (hp : ∀ k < mesh.faces.length, p ∉ (mesh.getTriangle k).points) (k : ℕ) :
    (visited.map mesh.getTriangle).countP (fun t => (intersects p d t).isHit k) = metWith mesh p d k := by
  have hhit : ∀ i ∈ visited, (intersects p d (mesh.getTriangle i)).isHit k = true ↔
      decide (Meets d (seenFrom p (mesh.getTriangle i)) ∧ k = edgesMet d (seenFrom p (mesh.getTriangle i))) = true := by
    intro i hi
    rw [RayHit.isHit_iff, decide_eq_true_iff]
    exact intersects_hit_iff h.ne_zero (zero_notMem_seenFrom (hp i (h.visits.lt i hi))) (h.notDegenerate i hi) k
  unfold metWith
  rw [List.countP_map, countP_faces]
  refine (List.countP_congr hhit).trans (countP_eq_of_nodup h.visits.nodup List.nodup_range fun i hi => ?_)
  rw [decide_eq_true_iff] at hi
  rw [List.mem_range]
  exact ⟨h.visits.lt i, fun hlt => h.visits.mem hbvh hencloses h.ne_zero hlt hi.1⟩

private theorem enters_iff_meets {w : RepoVector3D R} (h : 0 = edgesMet d t) :
    Enters d w t ↔ Meets d t := by
  have hne : triple d t.b t.c ≠ 0 ∧ triple d t.c t.a ≠ 0 ∧ triple d t.a t.b ≠ 0 := by
    have h := h.symm
    unfold edgesMet at h
    simpa using List.countP_eq_zero.1 h
  have hside : ∀ {D m n : R}, D ≠ 0 → m ≠ 0 → ((0 < D * m ∨ D * m = 0 ∧ 0 < D * n) ↔ 0 ≤ D * m) := by
    intro D m n hD hm
    have hproduct : D * m ≠ 0 := mul_ne_zero hD hm
    simp only [hproduct, false_and, or_false]
    exact ⟨le_of_lt, fun h => lt_of_le_of_ne h hproduct.symm⟩
  unfold Enters Meets
  by_cases hD : triple t.a t.b t.c = 0
  · simp [hD]
  · rw [hside hD hne.1, hside hD hne.2.1, hside hD hne.2.2]
    simp only [ne_eq, hD, not_false_eq_true, true_and]

/-- The triangles that a tilted ray enters are those it crosses, and some that it meets at their boundary. -/
theorem countP_enters (mesh : RepoIndexedMesh R) (p d w : RepoVector3D R) :
    mesh.faces.countP (fun face => decide (Enters d w (faceTriangle (seenVertices mesh p) face))) =
      metWith mesh p d 0 + enteredAtBoundary mesh p d w := by
  rw [List.countP_eq_countP_filter_add mesh.faces _
    fun face => decide (0 = edgesMet d (faceTriangle (seenVertices mesh p) face)), List.countP_filter,
    List.countP_filter]
  unfold metWith enteredAtBoundary
  congr 1
  · refine List.countP_congr fun face _ => ?_
    rw [Bool.and_eq_true, decide_eq_true_iff, decide_eq_true_iff, decide_eq_true_iff]
    exact and_congr_left fun h => enters_iff_meets h
  · refine List.countP_congr fun face _ => ?_
    simp

theorem Enters.meets {w : RepoVector3D R} (h : Enters d w t) : Meets d t := by
  obtain ⟨h1, h2, h3⟩ := h
  have hle : ∀ {x y : R}, 0 < x ∨ x = 0 ∧ 0 < y → 0 ≤ x := by
    rintro x y (h | ⟨h, -⟩)
    exacts [h.le, h.ge]
  refine ⟨?_, hle h1, hle h2, hle h3⟩
  intro hD
  simp [hD] at h1

private theorem edgesMet_le_two (hd : d ≠ 0) (h : Meets d t) : edgesMet d t ≤ 2 := by
  have hall := not_all_zero hd h.1
  unfold edgesMet
  have hlt : [triple d t.b t.c, triple d t.c t.a, triple d t.a t.b].countP (fun x => decide (x = 0)) <
      [triple d t.b t.c, triple d t.c t.a, triple d t.a t.b].length := by
    refine lt_of_le_of_ne List.countP_le_length fun heq => hall ?_
    rw [List.countP_eq_length] at heq
    simpa using heq
  exact Nat.le_of_lt_succ hlt

/-- A ray that meets no edge and no corner counts nothing there, and should not. -/
theorem boundaryFeatures_eq_zero (hd : d ≠ 0) (hedges : metWith mesh p d 1 = 0) (hcorners : metWith mesh p d 2 = 0)
    (w : RepoVector3D R) : boundaryFeatures mesh p d w = 0 := by
  have hentered : enteredAtBoundary mesh p d w = 0 := by
    unfold metWith at hedges hcorners
    rw [List.countP_eq_zero] at hedges hcorners
    unfold enteredAtBoundary
    rw [List.countP_eq_zero]
    intro face hface h
    obtain ⟨henters, hne⟩ := of_decide_eq_true h
    have hmeets := henters.meets
    have hle := edgesMet_le_two hd hmeets
    have hone : ¬ 1 = edgesMet d (faceTriangle (seenVertices mesh p) face) := fun h =>
      hedges face hface (decide_eq_true ⟨hmeets, h⟩)
    have htwo : ¬ 2 = edgesMet d (faceTriangle (seenVertices mesh p) face) := fun h =>
      hcorners face hface (decide_eq_true ⟨hmeets, h⟩)
    omega
  rw [boundaryFeatures, hedges, hcorners, hentered]

/-- The features of a ray have the parity of the triangles that it enters when tilted, up to those at a boundary. -/
theorem CastCleanly.traverse_eq (h : CastCleanly bvh mesh p d visited) (hbvh : bvh.WellFormed mesh.faces.length)
    (hencloses : bvh.Encloses fun k => {q | k < mesh.faces.length ∧ q ∈ (mesh.getTriangle k).points})
    (hp : ∀ k < mesh.faces.length, p ∉ (mesh.getTriangle k).points) :
    traverse p d (visited.map mesh.getTriangle) .reset =
      .ok (some ⟨metWith mesh p d 0, metWith mesh p d 1, metWith mesh p d 2⟩) := by
  have hnot : ∀ t ∈ visited.map mesh.getTriangle, intersects p d t ≠ .degenerate := by
    intro t ht
    obtain ⟨k, hk, rfl⟩ := List.mem_map.1 ht
    exact h.notDegenerate k hk
  rw [Clash.traverse_eq .reset hnot, h.countP_isHit hbvh hencloses hp, h.countP_isHit hbvh hencloses hp,
    h.countP_isHit hbvh hencloses hp]
  simp [Features.reset]

/-- Seen from a point on no triangle of the mesh, none of its faces holds the origin. -/
theorem zero_notMem_faces (hp : ∀ k < mesh.faces.length, p ∉ (mesh.getTriangle k).points) {face : RepoFace}
    (hface : face ∈ mesh.faces) : (0 : RepoVector3D R) ∉ (faceTriangle (seenVertices mesh p) face).points := by
  obtain ⟨k, hk, rfl⟩ := List.mem_iff_getElem.1 hface
  have hseen := zero_notMem_seenFrom (hp k hk)
  unfold RepoIndexedMesh.getTriangle at hseen
  rwa [List.getD_eq_getElem _ _ hk] at hseen

/-- Two rays find features of the same parity exactly if what they count for edges and corners is off by the same. -/
theorem numFeatures_parity_iff {d' : RepoVector3D R} {visited' : List ℕ}
    (hclosed : isClosedAndManifold mesh.faces = true) (hbvh : bvh.WellFormed mesh.faces.length)
    (hencloses : bvh.Encloses fun k => {q | k < mesh.faces.length ∧ q ∈ (mesh.getTriangle k).points})
    (hp : ∀ k < mesh.faces.length, p ∉ (mesh.getTriangle k).points) (h : CastCleanly bvh mesh p d visited)
    (h' : CastCleanly bvh mesh p d' visited') :
    ∃ f f', traverse p d (visited.map mesh.getTriangle) .reset = .ok (some f) ∧
      traverse p d' (visited'.map mesh.getTriangle) .reset = .ok (some f') ∧
      (f.numFeatures % 2 = f'.numFeatures % 2 ↔ ∃ w, Generic (seenVertices mesh p) mesh.faces w ∧
        boundaryFeatures mesh p d w % 2 = boundaryFeatures mesh p d' w % 2) := by
  refine ⟨_, _, h.traverse_eq hbvh hencloses hp, h'.traverse_eq hbvh hencloses hp, ?_⟩
  have hparity : ∀ w, Generic (seenVertices mesh p) mesh.faces w →
      Even (metWith mesh p d 0 + enteredAtBoundary mesh p d w +
        (metWith mesh p d' 0 + enteredAtBoundary mesh p d' w)) := by
    intro w hw
    have heven := even_countP_enters hclosed (fun _ => zero_notMem_faces hp) hw d d'
    rwa [countP_enters, countP_enters] at heven
  have hiff : ∀ w, Generic (seenVertices mesh p) mesh.faces w →
      ((metWith mesh p d 0 + metWith mesh p d 1 / 2 + metWith mesh p d 2 / 3) % 2 =
        (metWith mesh p d' 0 + metWith mesh p d' 1 / 2 + metWith mesh p d' 2 / 3) % 2 ↔
      boundaryFeatures mesh p d w % 2 = boundaryFeatures mesh p d' w % 2) := by
    intro w hw
    have heven := Nat.even_iff.1 (hparity w hw)
    unfold boundaryFeatures
    omega
  obtain ⟨w, hw⟩ : ∃ w, Generic (seenVertices mesh p) mesh.faces w := exists_generic fun _ => zero_notMem_faces hp
  constructor
  · exact fun heq => ⟨w, hw, (hiff w hw).1 heq⟩
  · rintro ⟨w, hw, heq⟩
    exact (hiff w hw).2 heq

/-! ### A ray along an edge -/

/-- A test is not degenerate if an edge function is not small in comparison with the triangle. -/
theorem intersects_ne_degenerate {triangle : RepoTriangle R} {M : R}
    (hd : direction ≠ 0) (hunit : ∀ i, |component direction i| ≤ 1)
    (hM : ∀ c ∈ triangleCorners (seenFrom origin triangle), ∀ i, |component c i| ≤ M)
    (h : M * (24 / 10 ^ 7) ≤ |triple direction (triangle.b - origin) (triangle.c - origin)| ∨
      M * (24 / 10 ^ 7) ≤ |triple direction (triangle.c - origin) (triangle.a - origin)| ∨
      M * (24 / 10 ^ 7) ≤ |triple direction (triangle.a - origin) (triangle.b - origin)|) :
    intersects origin direction triangle ≠ .degenerate := by
  have hkz := dominantAxis_ne_zero hd
  have hdominant := abs_le_dominantAxis (component direction)
  simp only [triangleCorners, seenFrom, List.mem_cons, List.not_mem_nil, or_false, forall_eq_or_imp, forall_eq] at hM
  obtain ⟨ha, hb, hc⟩ := hM
  unfold intersects
  extract_lets dir kz kx ky Sx Sy Sz v0 v1 v2 Ax Ay Bx By Cx Cy U V W th det T
  have hU : U = -1 / |dir kz| * triple direction (triangle.b - origin) (triangle.c - origin) :=
    edgeFunction_eq direction _ _ kz hkz
  have hV : V = -1 / |dir kz| * triple direction (triangle.c - origin) (triangle.a - origin) :=
    edgeFunction_eq direction _ _ kz hkz
  have hW : W = -1 / |dir kz| * triple direction (triangle.a - origin) (triangle.b - origin) :=
    edgeFunction_eq direction _ _ kz hkz
  -- an edge function is no smaller than the triple product
  have hscale : ∀ m : R, |m| ≤ |-1 / |dir kz| * m| := by
    intro m
    have hpos : 0 < |dir kz| := abs_pos.2 hkz
    rw [abs_mul, abs_div, abs_neg, abs_one, abs_abs]
    exact le_mul_of_one_le_left (abs_nonneg m) ((one_le_div hpos).2 (hunit kz))
  -- coordinates in ray space are at most twice as large
  have hcoordinate : ∀ (v : Fin 3 → R) (k : Fin 3), (∀ i, |v i| ≤ M) → |v k - dir k / dir kz * v kz| ≤ 2 * M := by
    intro v k hv
    have hslope : |dir k / dir kz| ≤ 1 := by
      rw [abs_div]
      exact div_le_one_of_le₀ (hdominant k) (abs_nonneg _)
    calc |v k - dir k / dir kz * v kz| ≤ |v k| + |dir k / dir kz * v kz| := abs_sub _ _
      _ ≤ M + 1 * M := by
        rw [abs_mul]
        exact add_le_add (hv k) (mul_le_mul hslope (hv kz) (abs_nonneg _) zero_le_one)
      _ = 2 * M := by ring
  have hth : th ≤ M * (24 / 10 ^ 7) := by
    have hmax : max (max (max |Ax| |Ay|) (max |Bx| |By|)) (max |Cx| |Cy|) ≤ 2 * M := by
      simp only [max_le_iff]
      exact ⟨⟨⟨hcoordinate v0 kx ha, hcoordinate v0 ky ha⟩, hcoordinate v1 kx hb, hcoordinate v1 ky hb⟩,
        hcoordinate v2 kx hc, hcoordinate v2 ky hc⟩
    calc th ≤ 2 * M * (12 / 10 ^ 7) := mul_le_mul_of_nonneg_right hmax (by norm_num)
      _ = M * (24 / 10 ^ 7) := by ring
  rintro hdegenerate
  split_ifs at hdegenerate with hsmall
  obtain ⟨h1, h2, h3⟩ := hsmall
  rw [hU] at h1
  rw [hV] at h2
  rw [hW] at h3
  rcases h with h | h | h
  · exact absurd (h.trans (hscale _)) (not_le.2 (h1.trans_le hth))
  · exact absurd (h.trans (hscale _)) (not_le.2 (h2.trans_le hth))
  · exact absurd (h.trans (hscale _)) (not_le.2 (h3.trans_le hth))

section Grazing

/-- A tetrahedron at the origin. -/
noncomputable def grazedMesh : RepoIndexedMesh ℝ :=
  ⟨[⟨0, 0, 0⟩, ⟨8, 0, 0⟩, ⟨0, 8, 0⟩, ⟨0, 0, 8⟩],
    [.triangle 0 1 2, .triangle 0 1 3, .triangle 0 2 3, .triangle 1 2 3]⟩

noncomputable def grazedBvh : Bvh ℝ := build (.chain ℝ) grazedMesh.vertices grazedMesh.faces

/-- A point outside of it. -/
noncomputable def grazingPoint : RepoVector3D ℝ := ⟨4, -1, 1⟩

private theorem wellFormed_grazedBvh : grazedBvh.WellFormed grazedMesh.faces.length :=
  (SweepSahBuilder.chain ℝ).wellFormed (grazedMesh.faces.map (faceBox grazedMesh.vertices)) (by simp [grazedMesh])

private theorem encloses_grazedBvh :
    grazedBvh.Encloses fun k => {q | k < grazedMesh.faces.length ∧ q ∈ (grazedMesh.getTriangle k).points} := by
  refine build_encloses SweepSahBuilder.chain_encloses ?_ (by simp [grazedMesh])
  simp [RepoIndexedMesh.Indexed, grazedMesh, RepoFace.triangle, RepoFace.sides]

private theorem visitsMet_grazed (d : RepoVector3D ℝ) :
    VisitsMet grazedBvh grazedMesh.faces.length grazingPoint d [0, 1, 2, 3] where
  nodup := by decide
  lt := by simp [grazedMesh]
  complete := by
    intro j k hleaf hk _
    obtain ⟨t, ht⟩ := wellFormed_grazedBvh
    have hlt : k < 4 := ht.lt_iff.2 ⟨j, ht.leafNode_iff.1 hleaf, hk⟩
    simp only [List.mem_cons, List.not_mem_nil, or_false]
    omega

private theorem notMem_points_grazed : ∀ k < grazedMesh.faces.length, grazingPoint ∉ (grazedMesh.getTriangle k).points := by
  have hy : ∀ i, 0 ≤ (grazedMesh.vertices.getD i 0).y := by
    intro i
    match i with
    | 0 | 1 | 2 | 3 => simp [grazedMesh]
    | _ + 4 => simp [grazedMesh]
  rintro k hk ⟨u, v, w, hu, hv, hw, -, heq⟩
  have hbelow : grazingPoint.y < 0 := by norm_num [grazingPoint]
  rw [heq] at hbelow
  have h1 := mul_nonneg (hy ((grazedMesh.faces.getD k (.triangle 0 0 0)).get 0)) hu
  have h2 := mul_nonneg (hy ((grazedMesh.faces.getD k (.triangle 0 0 0)).get 1)) hv
  have h3 := mul_nonneg (hy ((grazedMesh.faces.getD k (.triangle 0 0 0)).get 2)) hw
  exact hbelow.not_ge (add_nonneg (add_nonneg h1 h2) h3)

/-- Rays with components of one and zero are cast without degenerate tests. -/
theorem castCleanly_grazed {d : RepoVector3D ℝ} (hd : d = ⟨0, 1, -1⟩ ∨ d = ⟨0, -1, 0⟩) :
    CastCleanly grazedBvh grazedMesh grazingPoint d [0, 1, 2, 3] where
  ne_zero := by
    rcases hd with rfl | rfl <;> simp [RepoVector3D.ext_iff]
  visits := visitsMet_grazed d
  notDegenerate := by
    have hne : d ≠ 0 := by
      rcases hd with rfl | rfl <;> simp [RepoVector3D.ext_iff]
    have hunit : ∀ i, |component d i| ≤ 1 := by
      intro i
      rcases hd with rfl | rfl <;> fin_cases i <;> simp [component]
    have hM : ∀ k ∈ [0, 1, 2, 3], ∀ c ∈ triangleCorners (seenFrom grazingPoint (grazedMesh.getTriangle k)),
        ∀ i, |component c i| ≤ 9 := by
      intro k hk c hc i
      simp only [List.mem_cons, List.not_mem_nil, or_false] at hk
      rcases hk with rfl | rfl | rfl | rfl <;>
        simp [triangleCorners, seenFrom, grazedMesh, grazingPoint, RepoIndexedMesh.getTriangle] at hc <;>
        rcases hc with rfl | rfl | rfl <;> fin_cases i <;> norm_num [component]
    intro k hk
    refine intersects_ne_degenerate hne hunit (hM k hk) ?_
    simp only [List.mem_cons, List.not_mem_nil, or_false] at hk
    rcases hk with rfl | rfl | rfl | rfl <;> rcases hd with rfl | rfl <;>
      norm_num [triple, RepoVector3D.dotProduct, RepoVector3D.crossProduct, grazedMesh, grazingPoint,
        RepoIndexedMesh.getTriangle]

private theorem metWith_grazed :
    metWith grazedMesh grazingPoint ⟨0, 1, -1⟩ 0 = 0 ∧ metWith grazedMesh grazingPoint ⟨0, 1, -1⟩ 1 = 2 ∧
    metWith grazedMesh grazingPoint ⟨0, 1, -1⟩ 2 = 0 ∧ ∀ k, metWith grazedMesh grazingPoint ⟨0, -1, 0⟩ k = 0 := by
  refine ⟨?_, ?_, ?_, fun k => ?_⟩ <;>
    norm_num [metWith, Meets, edgesMet, faceTriangle, seenVertices, triple, RepoVector3D.dotProduct,
      RepoVector3D.crossProduct, grazedMesh, grazingPoint, List.countP_cons]

/-- The parity of two rays from the point. -/
theorem numFeatures_parity_iff_grazed :
    ∃ f f', traverse grazingPoint ⟨0, 1, -1⟩ ([0, 1, 2, 3].map grazedMesh.getTriangle) .reset = .ok (some f) ∧
      traverse grazingPoint ⟨0, -1, 0⟩ ([0, 1, 2, 3].map grazedMesh.getTriangle) .reset = .ok (some f') ∧
      (f.numFeatures % 2 = f'.numFeatures % 2 ↔ ∃ w, Generic (seenVertices grazedMesh grazingPoint) grazedMesh.faces w ∧
        boundaryFeatures grazedMesh grazingPoint ⟨0, 1, -1⟩ w % 2 =
          boundaryFeatures grazedMesh grazingPoint ⟨0, -1, 0⟩ w % 2) :=
  numFeatures_parity_iff (by decide) wellFormed_grazedBvh encloses_grazedBvh notMem_points_grazed
    (castCleanly_grazed (Or.inl rfl)) (castCleanly_grazed (Or.inr rfl))

/-- The ray that touches an edge from outside says that the point is inside, the other ray that it is not. -/
theorem not_parity_grazed :
    isClosedAndManifold grazedMesh.faces = true ∧
    (∀ k < grazedMesh.faces.length, grazingPoint ∉ (grazedMesh.getTriangle k).points) ∧
    CastCleanly grazedBvh grazedMesh grazingPoint ⟨0, 1, -1⟩ [0, 1, 2, 3] ∧
    CastCleanly grazedBvh grazedMesh grazingPoint ⟨0, -1, 0⟩ [0, 1, 2, 3] ∧
    ∃ f f', traverse grazingPoint ⟨0, 1, -1⟩ ([0, 1, 2, 3].map grazedMesh.getTriangle) .reset = .ok (some f) ∧
      traverse grazingPoint ⟨0, -1, 0⟩ ([0, 1, 2, 3].map grazedMesh.getTriangle) .reset = .ok (some f') ∧
      f.numFeatures % 2 = 1 ∧ f'.numFeatures % 2 = 0 := by
  have h := castCleanly_grazed (Or.inl rfl)
  have h' := castCleanly_grazed (Or.inr rfl)
  refine ⟨by decide, notMem_points_grazed, h, h', _, _,
    h.traverse_eq wellFormed_grazedBvh encloses_grazedBvh notMem_points_grazed,
    h'.traverse_eq wellFormed_grazedBvh encloses_grazedBvh notMem_points_grazed, ?_, ?_⟩
  · rw [Features.numFeatures, metWith_grazed.1, metWith_grazed.2.1, metWith_grazed.2.2.1]
    rfl
  · simp only [Features.numFeatures, metWith_grazed.2.2.2]

end Grazing

end Bouncer.Clash
