import Bouncer.Clash.TriangleIntersection

/-!
# The overlap of two triangles

A triangle that lies on both sides of the plane of another cuts the line in which the planes meet in an interval, between
the points `cutC` and `cutB`.
-/

namespace Bouncer.Clash.TriangleIntersection

open RepoVector3D (norm2 add_x add_y add_z sub_x sub_y sub_z mul_x mul_y mul_z)

variable {R : Type*} [ExactReal R]

/-! ### The cut of a triangle by a plane -/

private theorem between_mem_points {T : RepoTriangle R} {x y : RepoVector3D R} (hx : x ∈ T.points) (hy : y ∈ T.points) {t : R}
    (h0 : 0 ≤ t) (h1 : t ≤ 1) : x + (y - x) * t ∈ T.points := by
  obtain ⟨u, v, w, hu, hv, hw, hsum, rfl⟩ := hx
  obtain ⟨u', v', w', hu', hv', hw', hsum', rfl⟩ := hy
  have ht := sub_nonneg.2 h1
  refine ⟨u * (1 - t) + u' * t, v * (1 - t) + v' * t, w * (1 - t) + w' * t, ?_, ?_, ?_, ?_, ?_⟩
  · exact add_nonneg (mul_nonneg hu ht) (mul_nonneg hu' h0)
  · exact add_nonneg (mul_nonneg hv ht) (mul_nonneg hv' h0)
  · exact add_nonneg (mul_nonneg hw ht) (mul_nonneg hw' h0)
  · linear_combination (1 - t) * hsum + t * hsum'
  · ext <;> simp only [add_x, add_y, add_z, sub_x, sub_y, sub_z, mul_x, mul_y, mul_z] <;> ring

theorem a_mem_points (T : RepoTriangle R) : T.a ∈ T.points :=
  ⟨1, 0, 0, zero_le_one, le_rfl, le_rfl, by ring, by ext <;> simp⟩

theorem b_mem_points (T : RepoTriangle R) : T.b ∈ T.points :=
  ⟨0, 1, 0, le_rfl, zero_le_one, le_rfl, by ring, by ext <;> simp⟩

theorem c_mem_points (T : RepoTriangle R) : T.c ∈ T.points :=
  ⟨0, 0, 1, le_rfl, le_rfl, zero_le_one, by ring, by ext <;> simp⟩

private theorem height_combination (T T' : RepoTriangle R) {u v w : R} (h : u + v + w = 1) :
    height T' (T.a * u + T.b * v + T.c * w) = u * height T' T.a + v * height T' T.b + w * height T' T.c := by
  simp only [height, RepoVector3D.dotProduct, add_x, add_y, add_z, sub_x, sub_y, sub_z, mul_x, mul_y, mul_z]
  linear_combination (T'.a.x * (cross T').x + T'.a.y * (cross T').y + T'.a.z * (cross T').z) * h

/-- The direction of the line in which the planes of two triangles meet. -/
def axis (T T' : RepoTriangle R) : RepoVector3D R := (cross T).crossProduct (cross T')

private theorem axis_swap (T T' : RepoTriangle R) : axis T' T = axis T T' * (-1 : R) := by
  ext <;> simp only [axis, RepoVector3D.crossProduct, mul_x, mul_y, mul_z] <;> ring

/-- The points where the two edges at the first corner meet the plane of the other triangle. -/
def cutB (T T' : RepoTriangle R) : RepoVector3D R := edgePlaneIntersection T.a (T.b - T.a) (cross T') T'.a

def cutC (T T' : RepoTriangle R) : RepoVector3D R := edgePlaneIntersection T.a (T.c - T.a) (cross T') T'.a

section Cut

variable {T T' : RepoTriangle R} {x : RepoVector3D R}

private theorem edgePlaneIntersection_eq (T' : RepoTriangle R) (p q : RepoVector3D R) :
    edgePlaneIntersection p (q - p) (cross T') T'.a = p + (q - p) * (height T' p / (height T' p - height T' q)) := by
  have hnum : (T'.a - p).dotProduct (cross T') = -height T' p := by
    simp only [height, RepoVector3D.dotProduct, sub_x, sub_y, sub_z]
    ring
  have hden : (q - p).dotProduct (cross T') = -(height T' p - height T' q) := by
    simp only [height, RepoVector3D.dotProduct, sub_x, sub_y, sub_z]
    ring
  rw [edgePlaneIntersection, hnum, hden, neg_div_neg_eq]

private theorem exists_edgePlaneIntersection {p q : RepoVector3D R} (hp : 0 ≤ height T' p) (hq : height T' q ≤ 0)
    (hlt : height T' q < height T' p) : ∃ t : R, 0 ≤ t ∧ t ≤ 1 ∧
    edgePlaneIntersection p (q - p) (cross T') T'.a = p + (q - p) * t ∧
    height T' (edgePlaneIntersection p (q - p) (cross T') T'.a) = 0 := by
  have hpos := sub_pos.2 hlt
  refine ⟨height T' p / (height T' p - height T' q), div_nonneg hp hpos.le, (div_le_one hpos).2 (by linarith),
    edgePlaneIntersection_eq T' p q, ?_⟩
  rw [edgePlaneIntersection_eq]
  obtain ⟨t, ht⟩ : ∃ t, height T' p / (height T' p - height T' q) = t := ⟨_, rfl⟩
  have hcancel : (height T' p - height T' q) * t = height T' p := by rw [← ht, mul_div_cancel₀ _ hpos.ne']
  rw [ht]
  calc height T' (p + (q - p) * t) = height T' p - (height T' p - height T' q) * t := by
        simp only [height, RepoVector3D.dotProduct, add_x, add_y, add_z, sub_x, sub_y, sub_z, mul_x, mul_y, mul_z]
        ring
    _ = 0 := by rw [hcancel, sub_self]

private theorem axis_eq (T T' : RepoTriangle R) : axis T T' =
    (T.b - T.a) * (height T' T.a - height T' T.c) - (T.c - T.a) * (height T' T.a - height T' T.b) := by
  ext <;> simp only [axis, height, RepoVector3D.dotProduct, sub_x, sub_y, sub_z, mul_x, mul_y, mul_z] <;>
    simp only [cross, RepoVector3D.crossProduct, sub_x, sub_y, sub_z] <;> ring

theorem Straddles.cutB_mem (h : Straddles T T') : cutB T T' ∈ T.points ∧ height T' (cutB T T') = 0 := by
  obtain ⟨t, h0, h1, ht, hzero⟩ := exists_edgePlaneIntersection h.first h.second h.second_lt
  refine ⟨?_, hzero⟩
  rw [cutB, ht]
  exact between_mem_points (a_mem_points T) (b_mem_points T) h0 h1

theorem Straddles.cutC_mem (h : Straddles T T') : cutC T T' ∈ T.points ∧ height T' (cutC T T') = 0 := by
  obtain ⟨t, h0, h1, ht, hzero⟩ := exists_edgePlaneIntersection h.first h.third h.third_lt
  refine ⟨?_, hzero⟩
  rw [cutC, ht]
  exact between_mem_points (a_mem_points T) (c_mem_points T) h0 h1

private theorem Straddles.sub_cutC (h : Straddles T T') (hx : x ∈ T.points) (hplane : height T' x = 0) :
    ∃ t : R, 0 ≤ t ∧ x - cutC T T' = axis T T' * t := by
  obtain ⟨u, v, w, hu, hv, hw, hsum, rfl⟩ := hx
  rw [height_combination T T' hsum] at hplane
  have hpos := sub_pos.2 h.third_lt
  refine ⟨v / (height T' T.a - height T' T.c), div_nonneg hv hpos.le, ?_⟩
  rw [cutC, edgePlaneIntersection_eq, axis_eq]
  obtain rfl : u = 1 - v - w := by linarith
  generalize height T' T.a = a at *
  generalize height T' T.b = b at *
  generalize height T' T.c = c at *
  have hne := hpos.ne'
  ext <;> simp only [add_x, add_y, add_z, sub_x, sub_y, sub_z, mul_x, mul_y, mul_z] <;> field_simp
  · linear_combination (T.a.x - T.c.x) * hplane
  · linear_combination (T.a.y - T.c.y) * hplane
  · linear_combination (T.a.z - T.c.z) * hplane

private theorem Straddles.cutB_sub (h : Straddles T T') (hx : x ∈ T.points) (hplane : height T' x = 0) :
    ∃ t : R, 0 ≤ t ∧ cutB T T' - x = axis T T' * t := by
  obtain ⟨u, v, w, hu, hv, hw, hsum, rfl⟩ := hx
  rw [height_combination T T' hsum] at hplane
  have hpos := sub_pos.2 h.second_lt
  refine ⟨w / (height T' T.a - height T' T.b), div_nonneg hw hpos.le, ?_⟩
  rw [cutB, edgePlaneIntersection_eq, axis_eq]
  obtain rfl : u = 1 - v - w := by linarith
  generalize height T' T.a = a at *
  generalize height T' T.b = b at *
  generalize height T' T.c = c at *
  have hne := hpos.ne'
  ext <;> simp only [add_x, add_y, add_z, sub_x, sub_y, sub_z, mul_x, mul_y, mul_z] <;> field_simp
  · linear_combination (T.b.x - T.a.x) * hplane
  · linear_combination (T.b.y - T.a.y) * hplane
  · linear_combination (T.b.z - T.a.z) * hplane

end Cut

/-! ### Two triangles that lie on both sides of each other's planes -/

theorem Straddles.cross_ne_zero {T T' : RepoTriangle R} (h : Straddles T T') : cross T' ≠ 0 := by
  intro hzero
  have hflat : ∀ x, height T' x = 0 := fun x => by simp [height, hzero, RepoVector3D.dotProduct]
  have := h.second_lt
  rw [hflat, hflat] at this
  exact this.false

private theorem axis_ne_zero {T T' : RepoTriangle R} (h : Straddles T T') (h' : Straddles T' T) : axis T T' ≠ 0 := by
  intro hzero
  have heq := axis_eq T T'
  rw [hzero] at heq
  have hpos := sub_pos.2 h.second_lt
  have hcross : cross T * (height T' T.a - height T' T.b) = 0 := by
    have hx := congrArg RepoVector3D.x heq
    have hy := congrArg RepoVector3D.y heq
    have hz := congrArg RepoVector3D.z heq
    simp only [sub_x, sub_y, sub_z, mul_x, mul_y, mul_z, RepoVector3D.zero_x, RepoVector3D.zero_y,
      RepoVector3D.zero_z] at hx hy hz
    ext <;> simp only [cross, RepoVector3D.crossProduct, sub_x, sub_y, sub_z, mul_x, mul_y, mul_z, RepoVector3D.zero_x,
      RepoVector3D.zero_y, RepoVector3D.zero_z]
    · linear_combination (T.b.y - T.a.y) * hz - (T.b.z - T.a.z) * hy
    · linear_combination (T.b.z - T.a.z) * hx - (T.b.x - T.a.x) * hz
    · linear_combination (T.b.x - T.a.x) * hy - (T.b.y - T.a.y) * hx
  apply h'.cross_ne_zero
  apply RepoVector3D.eq_zero_of_norm2
  have hnorm2 := RepoVector3D.norm2_mul (cross T) (height T' T.a - height T' T.b)
  rw [hcross] at hnorm2
  have hzero2 : (0 : RepoVector3D R).norm2 = 0 := by simp [norm2]
  rw [hzero2] at hnorm2
  exact (mul_eq_zero.1 hnorm2.symm).resolve_right (mul_ne_zero hpos.ne' hpos.ne')

/-- How far a point is ahead of the first cut of `T`, along the axis. -/
def along (T T' : RepoTriangle R) (x : RepoVector3D R) : R := (x - cutC T T').dotProduct (axis T T').normalized

section Pair

variable {T T' : RepoTriangle R} {x y : RepoVector3D R}

private theorem along_sub (x y : RepoVector3D R) :
    along T T' x - along T T' y = (x - y).dotProduct (axis T T').normalized := by
  simp only [along, RepoVector3D.dotProduct, sub_x, sub_y, sub_z]
  ring

private theorem sub_eq_axis (h : Straddles T T') (h' : Straddles T' T) (hx : height T x = 0) (hx' : height T' x = 0)
    (hy : height T y = 0) (hy' : height T' y = 0) :
    x - y = (axis T T').normalized * (along T T' x - along T T' y) := by
  rw [along_sub]
  apply RepoVector3D.eq_normalized_mul (axis_ne_zero h h')
  · have : (x - y).dotProduct (cross T) = height T x - height T y := by
      simp only [height, RepoVector3D.dotProduct, sub_x, sub_y, sub_z]
      ring
    rw [this, hx, hy, sub_self]
  · have : (x - y).dotProduct (cross T') = height T' x - height T' y := by
      simp only [height, RepoVector3D.dotProduct, sub_x, sub_y, sub_z]
      ring
    rw [this, hx', hy', sub_self]

private theorem height_of_mem (hx : x ∈ T.points) : height T x = 0 := by
  obtain ⟨u, v, w, _, _, _, hsum, rfl⟩ := hx
  rw [height_combination T T hsum]
  have ha : height T T.a = 0 := by simp [height, RepoVector3D.dotProduct]
  have hb : height T T.b = 0 := by
    simp only [height, cross, RepoVector3D.crossProduct, RepoVector3D.dotProduct, sub_x, sub_y, sub_z]
    ring
  have hc : height T T.c = 0 := by
    simp only [height, cross, RepoVector3D.crossProduct, RepoVector3D.dotProduct, sub_x, sub_y, sub_z]
    ring
  rw [ha, hb, hc]
  ring

private theorem axis_mul_dotProduct (h : Straddles T T') (h' : Straddles T' T) (t : R) :
    (axis T T' * t).dotProduct (axis T T').normalized = t * (axis T T').norm := by
  have hne := axis_ne_zero h h'
  rw [RepoVector3D.normalized_eq hne, RepoVector3D.dotProduct_mul, RepoVector3D.mul_dotProduct,
    RepoVector3D.dotProduct_self, ← RepoVector3D.norm_mul_norm]
  have := (RepoVector3D.norm_pos hne).ne'
  field_simp

private theorem along_of_mem (h : Straddles T T') (h' : Straddles T' T) (hx : x ∈ T.points) (hplane : height T' x = 0) :
    0 ≤ along T T' x ∧ along T T' x ≤ along T T' (cutB T T') := by
  have hnorm := (axis T T').norm_nonneg
  constructor
  · obtain ⟨t, ht, heq⟩ := h.sub_cutC hx hplane
    rw [along, heq, axis_mul_dotProduct h h']
    exact mul_nonneg ht hnorm
  · obtain ⟨t, ht, heq⟩ := h.cutB_sub hx hplane
    rw [← sub_nonneg, along_sub, heq, axis_mul_dotProduct h h']
    exact mul_nonneg ht hnorm

private theorem along_of_mem' (h : Straddles T T') (h' : Straddles T' T) (hx : x ∈ T'.points) (hplane : height T x = 0) :
    along T T' (cutB T' T) ≤ along T T' x ∧ along T T' x ≤ along T T' (cutC T' T) := by
  have hnorm := (axis T T').norm_nonneg
  constructor
  · obtain ⟨t, ht, heq⟩ := h'.cutB_sub hx hplane
    rw [← sub_nonpos, along_sub, heq, axis_swap, RepoVector3D.mul_mul, axis_mul_dotProduct h h']
    have := mul_nonneg ht hnorm
    linarith
  · obtain ⟨t, ht, heq⟩ := h'.sub_cutC hx hplane
    rw [← sub_nonpos, along_sub, heq, axis_swap, RepoVector3D.mul_mul, axis_mul_dotProduct h h']
    have := mul_nonneg ht hnorm
    linarith

private theorem along_cutC : along T T' (cutC T T') = 0 := by
  simp [along, RepoVector3D.dotProduct]

private theorem edge_triple {p q p' q' : RepoVector3D R} {s t τ : R} (hp : height T p = 0) (hq : height T q = 0)
    (heq : p' + (q' - p') * s - (p + (q - p) * t) = axis T T' * τ) :
    ((p' - p).crossProduct (q - p)).dotProduct (q' - p') =
      -τ * ((height T' p - height T' q) * (height T p' - height T q')) := by
  have hedge : (q - p).dotProduct (cross T) = 0 := by
    have : (q - p).dotProduct (cross T) = height T q - height T p := by
      simp only [height, RepoVector3D.dotProduct, sub_x, sub_y, sub_z]
      ring
    rw [this, hp, hq, sub_self]
  have hshift : ((p' - p).crossProduct (q - p)).dotProduct (q' - p') =
      ((p' + (q' - p') * s - (p + (q - p) * t)).crossProduct (q - p)).dotProduct (q' - p') := by
    simp only [RepoVector3D.dotProduct, RepoVector3D.crossProduct, add_x, add_y, add_z, sub_x, sub_y, sub_z, mul_x, mul_y, mul_z]
    ring
  have hbinet : ((axis T T' * τ).crossProduct (q - p)).dotProduct (q' - p') =
      τ * ((q - p).dotProduct (cross T) * (q' - p').dotProduct (cross T') -
        (q - p).dotProduct (cross T') * (q' - p').dotProduct (cross T)) := by
    simp only [axis, RepoVector3D.dotProduct, RepoVector3D.crossProduct, sub_x, sub_y, sub_z, mul_x, mul_y, mul_z]
    ring
  rw [hshift, heq, hbinet, hedge]
  simp only [height, RepoVector3D.dotProduct, sub_x, sub_y, sub_z]
  ring

end Pair

/-! ### The vectors of length one that `checkMinMax` computes with -/

section Normalized

variable {T T' : RepoTriangle R}

private theorem sides_ne_zero (h : cross T ≠ 0) : T.b - T.a ≠ 0 ∧ T.c - T.a ≠ 0 := by
  constructor
  · intro hzero
    apply h
    ext <;> simp [cross, hzero, RepoVector3D.crossProduct]
  · intro hzero
    apply h
    ext <;> simp [cross, hzero, RepoVector3D.crossProduct]

private theorem normal_eq (h : cross T ≠ 0) :
    ((T.b - T.a).normalized.crossProduct (T.c - T.a).normalized).normalized = (cross T).normalized := by
  obtain ⟨hb, hc⟩ := sides_ne_zero h
  rw [RepoVector3D.normalized_eq hb, RepoVector3D.normalized_eq hc, RepoVector3D.mul_crossProduct_mul]
  apply RepoVector3D.normalized_mul_of_pos h
  exact mul_pos (one_div_pos.2 (RepoVector3D.norm_pos hb)) (one_div_pos.2 (RepoVector3D.norm_pos hc))

private theorem axis_normalized_eq (h : Straddles T T') (h' : Straddles T' T) :
    ((cross T).normalized.crossProduct (cross T').normalized).normalized = (axis T T').normalized := by
  have ha := h'.cross_ne_zero
  have hb := h.cross_ne_zero
  rw [RepoVector3D.normalized_eq ha, RepoVector3D.normalized_eq hb, RepoVector3D.mul_crossProduct_mul]
  apply RepoVector3D.normalized_mul_of_pos (axis_ne_zero h h')
  exact mul_pos (one_div_pos.2 (RepoVector3D.norm_pos ha)) (one_div_pos.2 (RepoVector3D.norm_pos hb))

private theorem edgePlaneIntersection_normalized {ep ed n p : RepoVector3D R} (hed : ed ≠ 0) (hn : n ≠ 0) :
    edgePlaneIntersection ep ed.normalized n.normalized p = edgePlaneIntersection ep ed n p := by
  have hned := (one_div_pos.2 (RepoVector3D.norm_pos hed)).ne'
  have hnn := (one_div_pos.2 (RepoVector3D.norm_pos hn)).ne'
  rw [RepoVector3D.normalized_eq hed, RepoVector3D.normalized_eq hn]
  generalize 1 / ed.norm = s at *
  generalize 1 / n.norm = t at *
  simp only [edgePlaneIntersection, RepoVector3D.dotProduct_mul, RepoVector3D.mul_dotProduct, RepoVector3D.mul_mul]
  congr 2
  by_cases hzero : ed.dotProduct n = 0
  · simp [hzero]
  · field_simp

private theorem ite_lt_eq_min (d d2 : R) : (if d2 < d then d2 else d) = min d d2 := by
  rcases lt_or_ge d2 d with h | h
  · rw [if_pos h, min_eq_right h.le]
  · rw [if_neg h.not_gt, min_eq_left h]

/-- The least of the distances that take one triangle out of the other: two along the axis, and two along each normal. -/
def shift (T T' : RepoTriangle R) : R :=
  min (min (min (min (min (along T T' (cutB T T') - along T T' (cutB T' T)) (along T T' (cutC T' T)))
    ((T'.a - T.a).dotProduct (cross T).normalized))
    (-min ((T'.b - T.a).dotProduct (cross T).normalized) ((T'.c - T.a).dotProduct (cross T).normalized)))
    ((T.a - T'.a).dotProduct (cross T').normalized))
    (-min ((T.b - T'.a).dotProduct (cross T').normalized) ((T.c - T'.a).dotProduct (cross T').normalized))

/-- The centre of the overlap of the two intervals. -/
def middle (T T' : RepoTriangle R) : R :=
  max 0 (along T T' (cutB T' T)) +
    (min (along T T' (cutB T T')) (along T T' (cutC T' T)) - max 0 (along T T' (cutB T' T))) * (1 / 2)

/-- The intervals of the triangles have a point in common. -/
def Overlap (T T' : RepoTriangle R) : Prop :=
  along T T' (cutB T' T) ≤ along T T' (cutB T T') ∧ 0 ≤ along T T' (cutC T' T)

private theorem exists_axis_mul (h : Straddles T T') (h' : Straddles T' T) {x y : RepoVector3D R}
    (hx : height T x = 0 ∧ height T' x = 0) (hy : height T y = 0 ∧ height T' y = 0) :
    ∃ t : R, x - y = axis T T' * t ∧ (0 < t ↔ along T T' y < along T T' x) ∧
      (t < 0 ↔ along T T' x < along T T' y) := by
  have hne := axis_ne_zero h h'
  have hnorm := one_div_pos.2 (RepoVector3D.norm_pos hne)
  refine ⟨1 / (axis T T').norm * (along T T' x - along T T' y), ?_, ?_, ?_⟩
  · rw [← RepoVector3D.mul_mul, ← RepoVector3D.normalized_eq hne]
    exact sub_eq_axis h h' hx.1 hx.2 hy.1 hy.2
  · rw [mul_pos_iff_of_pos_left hnorm, sub_pos]
  · rw [← neg_pos, ← mul_neg, mul_pos_iff_of_pos_left hnorm, neg_pos, sub_neg]

private theorem first_test (h : Straddles T T') (h' : Straddles T' T) :
    ((T'.a - T.a).crossProduct (T.a - T.b)).dotProduct (T'.b - T.b) > 0 ↔
      along T T' (cutB T T') < along T T' (cutB T' T) := by
  have hsides := height_of_mem h.cutB_mem.1
  have hsides' := height_of_mem h'.cutB_mem.1
  obtain ⟨τ, hτ, hpos, -⟩ := exists_axis_mul h h' ⟨h'.cutB_mem.2, hsides'⟩ ⟨hsides, h.cutB_mem.2⟩
  rw [← hpos]
  rw [cutB, cutB, edgePlaneIntersection_eq, edgePlaneIntersection_eq] at hτ
  have htriple := edge_triple (height_of_mem (a_mem_points T)) (height_of_mem (b_mem_points T)) hτ
  have hsign : ((T'.a - T.a).crossProduct (T.a - T.b)).dotProduct (T'.b - T.b) =
      -((T'.a - T.a).crossProduct (T.b - T.a)).dotProduct (T'.b - T'.a) := by
    simp only [RepoVector3D.dotProduct, RepoVector3D.crossProduct, sub_x, sub_y, sub_z]
    ring
  rw [hsign, htriple, neg_mul, neg_neg]
  exact mul_pos_iff_of_pos_right (mul_pos (sub_pos.2 h.second_lt) (sub_pos.2 h'.second_lt))

private theorem second_test (h : Straddles T T') (h' : Straddles T' T) :
    ((T'.a - T.a).crossProduct (T.c - T.a)).dotProduct (T'.c - T.a) > 0 ↔ along T T' (cutC T' T) < 0 := by
  have hsides := height_of_mem h.cutC_mem.1
  have hsides' := height_of_mem h'.cutC_mem.1
  obtain ⟨τ, hτ, -, hneg⟩ := exists_axis_mul h h' ⟨h'.cutC_mem.2, hsides'⟩ ⟨hsides, h.cutC_mem.2⟩
  rw [along_cutC] at hneg
  rw [← hneg]
  rw [cutC, cutC, edgePlaneIntersection_eq, edgePlaneIntersection_eq] at hτ
  have htriple := edge_triple (height_of_mem (a_mem_points T)) (height_of_mem (c_mem_points T)) hτ
  have hsign : ((T'.a - T.a).crossProduct (T.c - T.a)).dotProduct (T'.c - T.a) =
      ((T'.a - T.a).crossProduct (T.c - T.a)).dotProduct (T'.c - T'.a) := by
    simp only [RepoVector3D.dotProduct, RepoVector3D.crossProduct, sub_x, sub_y, sub_z]
    ring
  rw [hsign, htriple, gt_iff_lt, mul_pos_iff_of_pos_right, neg_pos]
  exact mul_pos (sub_pos.2 h.third_lt) (sub_pos.2 h'.third_lt)

/-- `checkMinMax` on triangles that lie on both sides of each other's planes. -/
theorem check_eq (h : Straddles T T') (h' : Straddles T' T) :
    (¬Overlap T T' ∧ check T T' = (0, none)) ∨
    (Overlap T T' ∧ check T T' = (shift T T', some (cutC T T' + (axis T T').normalized * middle T T'))) := by
  have hi : edgePlaneIntersection T.a (T.c - T.a).normalized (cross T').normalized T'.a = cutC T T' :=
    edgePlaneIntersection_normalized (sides_ne_zero h'.cross_ne_zero).2 h.cross_ne_zero
  have hj : edgePlaneIntersection T.a (T.b - T.a).normalized (cross T').normalized T'.a = cutB T T' :=
    edgePlaneIntersection_normalized (sides_ne_zero h'.cross_ne_zero).1 h.cross_ne_zero
  have hk : edgePlaneIntersection T'.a (T'.b - T'.a).normalized (cross T).normalized T.a = cutB T' T :=
    edgePlaneIntersection_normalized (sides_ne_zero h.cross_ne_zero).1 h'.cross_ne_zero
  have hl : edgePlaneIntersection T'.a (T'.c - T'.a).normalized (cross T).normalized T.a = cutC T' T :=
    edgePlaneIntersection_normalized (sides_ne_zero h.cross_ne_zero).2 h'.cross_ne_zero
  unfold check checkMinMax
  dsimp only
  simp only [normal_eq h.cross_ne_zero, normal_eq h'.cross_ne_zero, axis_normalized_eq h h', hi, hj, hk, hl,
    ite_lt_eq_min, sub_zero, first_test h h', second_test h h']
  by_cases hjj : along T T' (cutB T T') < along T T' (cutB T' T)
  · rw [if_pos hjj]
    exact Or.inl ⟨fun ho => ho.1.not_gt hjj, rfl⟩
  rw [if_neg hjj]
  by_cases hll : along T T' (cutC T' T) < 0
  · rw [if_pos hll]
    exact Or.inl ⟨fun ho => ho.2.not_gt hll, rfl⟩
  rw [if_neg hll]
  right
  refine ⟨⟨not_lt.1 hjj, not_lt.1 hll⟩, ?_⟩
  simp only [along, middle, shift] at hjj hll ⊢
  rw [if_neg hjj, if_neg hll]

end Normalized

/-! ### The point of intersection -/

section Middle

variable {T T' : RepoTriangle R}

private theorem part_mem_points {x y e : RepoVector3D R} {r s : R} (hx : x ∈ T.points) (hy : y ∈ T.points)
    (hxy : y - x = e * s) (h0 : 0 ≤ r) (hrs : r ≤ s) : x + e * r ∈ T.points := by
  rcases (h0.trans hrs).eq_or_lt with hs | hs
  · obtain rfl : r = 0 := le_antisymm (hrs.trans hs.ge) h0
    have : x + e * (0 : R) = x := by ext <;> simp
    rwa [this]
  · have hr : e * r = (y - x) * (r / s) := by rw [hxy, RepoVector3D.mul_mul, mul_div_cancel₀ _ hs.ne']
    rw [hr]
    exact between_mem_points hx hy (div_nonneg h0 hs.le) ((div_le_one hs).2 hrs)

/-- The centre of the overlap belongs to both triangles. -/
theorem middle_mem_points (h : Straddles T T') (h' : Straddles T' T) (ho : Overlap T T') :
    cutC T T' + (axis T T').normalized * middle T T' ∈ T.points ∧
      cutC T T' + (axis T T').normalized * middle T T' ∈ T'.points := by
  have hjj := (along_of_mem h h' h.cutB_mem.1 h.cutB_mem.2).1
  have hkl := (along_of_mem' h h' h'.cutC_mem.1 h'.cutC_mem.2).1
  obtain ⟨hkj, hll⟩ := ho
  have hle : max 0 (along T T' (cutB T' T)) ≤ min (along T T' (cutB T T')) (along T T' (cutC T' T)) :=
    max_le (le_min hjj hll) (le_min hkj hkl)
  have hlow : max 0 (along T T' (cutB T' T)) ≤ middle T T' := by
    unfold middle
    linarith
  have hhigh : middle T T' ≤ min (along T T' (cutB T T')) (along T T' (cutC T' T)) := by
    unfold middle
    linarith
  constructor
  · refine part_mem_points h.cutC_mem.1 h.cutB_mem.1 ?_ ((le_max_left _ _).trans hlow) (hhigh.trans (min_le_left _ _))
    have := sub_eq_axis h h' (height_of_mem h.cutB_mem.1) h.cutB_mem.2 (height_of_mem h.cutC_mem.1) h.cutC_mem.2
    rwa [along_cutC, sub_zero] at this
  · have hstart := sub_eq_axis h h' h'.cutB_mem.2 (height_of_mem h'.cutB_mem.1) (height_of_mem h.cutC_mem.1) h.cutC_mem.2
    rw [along_cutC, sub_zero] at hstart
    have hshift : cutC T T' + (axis T T').normalized * middle T T' =
        cutB T' T + (axis T T').normalized * (middle T T' - along T T' (cutB T' T)) := by
      have hx := congrArg RepoVector3D.x hstart
      have hy := congrArg RepoVector3D.y hstart
      have hz := congrArg RepoVector3D.z hstart
      simp only [sub_x, sub_y, sub_z, mul_x, mul_y, mul_z] at hx hy hz
      ext <;> simp only [add_x, add_y, add_z, mul_x, mul_y, mul_z]
      · linear_combination -hx
      · linear_combination -hy
      · linear_combination -hz
    rw [hshift]
    refine part_mem_points h'.cutB_mem.1 h'.cutC_mem.1
      (sub_eq_axis h h' h'.cutC_mem.2 (height_of_mem h'.cutC_mem.1) h'.cutB_mem.2 (height_of_mem h'.cutB_mem.1)) ?_ ?_
    · exact sub_nonneg.2 ((le_max_right _ _).trans hlow)
    · exact sub_le_sub_right (hhigh.trans (min_le_right _ _)) _

private theorem overlap_of_mem (h : Straddles T T') (h' : Straddles T' T) {x : RepoVector3D R} (hx : x ∈ T.points)
    (hx' : x ∈ T'.points) : Overlap T T' := by
  obtain ⟨h0, hjj⟩ := along_of_mem h h' hx (height_of_mem hx')
  obtain ⟨hkk, hll⟩ := along_of_mem' h h' hx' (height_of_mem hx)
  exact ⟨hkk.trans hjj, h0.trans hll⟩

end Middle

/-! ### Shallow intersections -/

/-- A vector of length one at right angles to a set. -/
def IsNormal (n : RepoVector3D R) (S : Set (RepoVector3D R)) : Prop :=
  n.norm = 1 ∧ ∀ x ∈ S, ∀ y ∈ S, n.dotProduct (x - y) = 0

/-- The points that no normal tells from the points of a set. -/
def plane (S : Set (RepoVector3D R)) : Set (RepoVector3D R) :=
  {x | ∀ n, IsNormal n S → ∀ y ∈ S, n.dotProduct (x - y) = 0}

/-- One set reaches at most `ε` over the plane of the other, or what they cut out of the line in which their planes meet
overlaps by at most `ε`. -/
def Shallow (ε : R) (S S' : Set (RepoVector3D R)) : Prop :=
  (∃ n, IsNormal n S ∧ ∀ x ∈ S, ∀ y ∈ S', n.dotProduct (y - x) ≤ ε) ∨
  (∃ n, IsNormal n S' ∧ ∀ x ∈ S, ∀ y ∈ S', n.dotProduct (x - y) ≤ ε) ∨
  ∃ u : RepoVector3D R, u.norm = 1 ∧ (∀ n, IsNormal n S ∨ IsNormal n S' → u.dotProduct n = 0) ∧
    ∀ x ∈ S ∩ plane S', ∀ y ∈ S' ∩ plane S, u.dotProduct (y - x) ≤ ε

section Shallow

variable {T T' : RepoTriangle R} {n x y : RepoVector3D R} {ε : R}

private theorem normalized_dotProduct_sub (hT : cross T ≠ 0) (x y : RepoVector3D R) :
    (cross T).normalized.dotProduct (x - y) = (height T x - height T y) * (1 / (cross T).norm) := by
  rw [RepoVector3D.normalized_eq hT, RepoVector3D.mul_dotProduct]
  congr 1
  simp only [height, RepoVector3D.dotProduct, sub_x, sub_y, sub_z]
  ring

private theorem isNormal_normalized (hT : cross T ≠ 0) : IsNormal (cross T).normalized T.points := by
  refine ⟨RepoVector3D.norm_normalized_of_ne hT, fun x hx y hy => ?_⟩
  rw [normalized_dotProduct_sub hT, height_of_mem hx, height_of_mem hy, sub_self, zero_mul]

theorem IsNormal.neg {S : Set (RepoVector3D R)} (h : IsNormal n S) : IsNormal (n * (-1 : R)) S := by
  refine ⟨by rw [RepoVector3D.norm_mul, h.1, abs_neg, abs_one, mul_one], fun x hx y hy => ?_⟩
  rw [RepoVector3D.mul_dotProduct, h.2 x hx y hy, zero_mul]

private theorem isNormal_iff (hT : cross T ≠ 0) :
    IsNormal n T.points ↔ n = (cross T).normalized ∨ n = (cross T).normalized * (-1 : R) := by
  constructor
  · intro h
    exact RepoVector3D.eq_normalized_or_eq_neg hT (h.2 _ (b_mem_points T) _ (a_mem_points T))
      (h.2 _ (c_mem_points T) _ (a_mem_points T)) h.1
  · rintro (rfl | rfl)
    · exact isNormal_normalized hT
    · exact (isNormal_normalized hT).neg

private theorem mem_plane_iff (hT : cross T ≠ 0) : x ∈ plane T.points ↔ height T x = 0 := by
  have hpos := one_div_pos.2 (RepoVector3D.norm_pos hT)
  constructor
  · intro h
    have := h _ (isNormal_normalized hT) _ (a_mem_points T)
    rw [normalized_dotProduct_sub hT, height_of_mem (a_mem_points T), sub_zero] at this
    exact (mul_eq_zero.1 this).resolve_right hpos.ne'
  · intro h n hn y hy
    have hzero : (cross T).normalized.dotProduct (x - y) = 0 := by
      rw [normalized_dotProduct_sub hT, h, height_of_mem hy, sub_self, zero_mul]
    rcases (isNormal_iff hT).1 hn with rfl | rfl
    · exact hzero
    · rw [RepoVector3D.mul_dotProduct, hzero, zero_mul]

private theorem above_le_iff (hT : cross T ≠ 0) (h' : Straddles T' T) :
    (T'.a - T.a).dotProduct (cross T).normalized ≤ ε ↔
      ∀ x ∈ T.points, ∀ y ∈ T'.points, (cross T).normalized.dotProduct (y - x) ≤ ε := by
  have hpos := one_div_pos.2 (RepoVector3D.norm_pos hT)
  rw [RepoVector3D.dotProduct_comm]
  constructor
  · rintro hle x hx y ⟨u, v, w, hu, hv, hw, hsum, rfl⟩
    refine le_trans ?_ hle
    rw [normalized_dotProduct_sub hT, normalized_dotProduct_sub hT, height_of_mem hx, height_of_mem (a_mem_points T),
      height_combination T' T hsum]
    apply mul_le_mul_of_nonneg_right _ hpos.le
    have h1 := mul_nonneg (by linarith : 0 ≤ 1 - u) h'.first
    have h2 := mul_nonpos_of_nonneg_of_nonpos hv h'.second
    have h3 := mul_nonpos_of_nonneg_of_nonpos hw h'.third
    linarith
  · intro hle
    exact hle _ (a_mem_points T) _ (a_mem_points T')

/-- How far the second triangle reaches over the plane of the first, on the negative side. -/
theorem below_le_iff (hT : cross T ≠ 0) (h' : Straddles T' T) :
    -min ((T'.b - T.a).dotProduct (cross T).normalized) ((T'.c - T.a).dotProduct (cross T).normalized) ≤ ε ↔
      ∀ x ∈ T.points, ∀ y ∈ T'.points, ((cross T).normalized * (-1 : R)).dotProduct (y - x) ≤ ε := by
  have hpos := one_div_pos.2 (RepoVector3D.norm_pos hT)
  have hb := normalized_dotProduct_sub hT T'.b T.a
  have hc := normalized_dotProduct_sub hT T'.c T.a
  rw [height_of_mem (a_mem_points T), sub_zero] at hb hc
  rw [RepoVector3D.dotProduct_comm, RepoVector3D.dotProduct_comm (T'.c - T.a), hb, hc, neg_le, le_min_iff]
  constructor
  · rintro ⟨hleb, hlec⟩ x hx y ⟨u, v, w, hu, hv, hw, hsum, rfl⟩
    rw [RepoVector3D.mul_dotProduct, normalized_dotProduct_sub hT, height_of_mem hx, height_combination T' T hsum]
    have h1 := mul_nonneg (mul_nonneg hu h'.first) hpos.le
    have h2 := mul_le_mul_of_nonneg_left hleb hv
    have h3 := mul_le_mul_of_nonneg_left hlec hw
    have hε : 0 ≤ ε := by
      have := mul_nonneg (neg_nonneg.2 h'.second) hpos.le
      linarith
    have h4 := mul_nonneg hu hε
    have h5 : ε = u * ε + v * ε + w * ε := by rw [← add_mul, ← add_mul, hsum, one_mul]
    linarith
  · intro hle
    have hleb := hle _ (a_mem_points T) _ (b_mem_points T')
    have hlec := hle _ (a_mem_points T) _ (c_mem_points T')
    rw [RepoVector3D.mul_dotProduct] at hleb hlec
    constructor <;> linarith

/-- The smallest overlap of the intervals. -/
theorem axis_le_iff (h : Straddles T T') (h' : Straddles T' T) :
    (along T T' (cutB T T') - along T T' (cutB T' T) ≤ ε ∨ along T T' (cutC T' T) ≤ ε) ↔
      ∃ u : RepoVector3D R, u.norm = 1 ∧ (∀ n, IsNormal n T.points ∨ IsNormal n T'.points → u.dotProduct n = 0) ∧
        ∀ x ∈ T.points ∩ plane T'.points, ∀ y ∈ T'.points ∩ plane T.points, u.dotProduct (y - x) ≤ ε := by
  have hT := h'.cross_ne_zero
  have hT' := h.cross_ne_zero
  have hne := axis_ne_zero h h'
  have hunit := RepoVector3D.norm_normalized_of_ne hne
  -- the axis is at right angles to all normals
  have horth : ∀ n, IsNormal n T.points ∨ IsNormal n T'.points → (axis T T').normalized.dotProduct n = 0 := by
    have hleft : (axis T T').dotProduct (cross T) = 0 := by
      simp only [axis, RepoVector3D.dotProduct, RepoVector3D.crossProduct]
      ring
    have hright : (axis T T').dotProduct (cross T') = 0 := by
      simp only [axis, RepoVector3D.dotProduct, RepoVector3D.crossProduct]
      ring
    rintro n (hn | hn)
    · rcases (isNormal_iff hT).1 hn with rfl | rfl
      · rw [RepoVector3D.normalized_eq hne, RepoVector3D.normalized_eq hT, RepoVector3D.mul_dotProduct,
          RepoVector3D.dotProduct_mul, hleft, zero_mul, zero_mul]
      · rw [RepoVector3D.normalized_eq hne, RepoVector3D.normalized_eq hT, RepoVector3D.mul_dotProduct,
          RepoVector3D.dotProduct_mul, RepoVector3D.dotProduct_mul, hleft, zero_mul, zero_mul, zero_mul]
    · rcases (isNormal_iff hT').1 hn with rfl | rfl
      · rw [RepoVector3D.normalized_eq hne, RepoVector3D.normalized_eq hT', RepoVector3D.mul_dotProduct,
          RepoVector3D.dotProduct_mul, hright, zero_mul, zero_mul]
      · rw [RepoVector3D.normalized_eq hne, RepoVector3D.normalized_eq hT', RepoVector3D.mul_dotProduct,
          RepoVector3D.dotProduct_mul, RepoVector3D.dotProduct_mul, hright, zero_mul, zero_mul, zero_mul]
  have hsub : ∀ x y, (axis T T').normalized.dotProduct (y - x) = along T T' y - along T T' x := fun x y => by
    rw [along_sub, RepoVector3D.dotProduct_comm]
  constructor
  · rintro (hle | hle)
    · refine ⟨(axis T T').normalized * (-1 : R), by rw [RepoVector3D.norm_mul, hunit, abs_neg, abs_one, mul_one],
        fun n hn => by rw [RepoVector3D.mul_dotProduct, horth n hn, zero_mul], ?_⟩
      rintro x ⟨hx, hxplane⟩ y ⟨hy, hyplane⟩
      have hx := (along_of_mem h h' hx ((mem_plane_iff hT').1 hxplane)).2
      have hy := (along_of_mem' h h' hy ((mem_plane_iff hT).1 hyplane)).1
      rw [RepoVector3D.mul_dotProduct, hsub]
      linarith
    · refine ⟨(axis T T').normalized, hunit, horth, ?_⟩
      rintro x ⟨hx, hxplane⟩ y ⟨hy, hyplane⟩
      have hx := (along_of_mem h h' hx ((mem_plane_iff hT').1 hxplane)).1
      have hy := (along_of_mem' h h' hy ((mem_plane_iff hT).1 hyplane)).2
      rw [hsub]
      linarith
  · rintro ⟨u, hu, hnormals, hle⟩
    have hperp : ∀ T₀ : RepoTriangle R, cross T₀ ≠ 0 → (∀ n, IsNormal n T₀.points → u.dotProduct n = 0) →
        u.dotProduct (cross T₀) = 0 := by
      intro T₀ h₀ hn
      have := hn _ (isNormal_normalized h₀)
      rw [RepoVector3D.normalized_eq h₀, RepoVector3D.dotProduct_mul] at this
      exact (mul_eq_zero.1 this).resolve_right (one_div_pos.2 (RepoVector3D.norm_pos h₀)).ne'
    rcases RepoVector3D.eq_normalized_or_eq_neg hne (hperp T hT fun n hn => hnormals n (Or.inl hn))
      (hperp T' hT' fun n hn => hnormals n (Or.inr hn)) hu with rfl | rfl
    · right
      have := hle _ ⟨h.cutC_mem.1, (mem_plane_iff hT').2 h.cutC_mem.2⟩ _
        ⟨h'.cutC_mem.1, (mem_plane_iff hT).2 h'.cutC_mem.2⟩
      change (axis T T').normalized.dotProduct _ ≤ ε at this
      rwa [hsub, along_cutC, sub_zero] at this
    · left
      have := hle _ ⟨h.cutB_mem.1, (mem_plane_iff hT').2 h.cutB_mem.2⟩ _
        ⟨h'.cutB_mem.1, (mem_plane_iff hT).2 h'.cutB_mem.2⟩
      change ((axis T T').normalized * (-1 : R)).dotProduct _ ≤ ε at this
      rw [RepoVector3D.mul_dotProduct, hsub] at this
      linarith

private theorem sides_le_iff (hT : cross T ≠ 0) (h' : Straddles T' T) :
    ((T'.a - T.a).dotProduct (cross T).normalized ≤ ε ∨
      -min ((T'.b - T.a).dotProduct (cross T).normalized) ((T'.c - T.a).dotProduct (cross T).normalized) ≤ ε) ↔
      ∃ n, IsNormal n T.points ∧ ∀ x ∈ T.points, ∀ y ∈ T'.points, n.dotProduct (y - x) ≤ ε := by
  rw [above_le_iff hT h', below_le_iff hT h']
  simp only [isNormal_iff hT, or_and_right, exists_or, exists_eq_left]

private theorem shift_le_iff (h : Straddles T T') (h' : Straddles T' T) : shift T T' ≤ ε ↔ Shallow ε T.points T'.points := by
  have hswap : (∃ n, IsNormal n T'.points ∧ ∀ x ∈ T.points, ∀ y ∈ T'.points, n.dotProduct (x - y) ≤ ε) ↔
      ∃ n, IsNormal n T'.points ∧ ∀ x ∈ T'.points, ∀ y ∈ T.points, n.dotProduct (y - x) ≤ ε := by
    refine exists_congr fun n => and_congr_right fun _ => ?_
    exact ⟨fun hle x hx y hy => hle y hy x hx, fun hle x hx y hy => hle y hy x hx⟩
  rw [Shallow, hswap, ← sides_le_iff h'.cross_ne_zero h', ← sides_le_iff h.cross_ne_zero h, ← axis_le_iff h h', shift]
  simp only [min_le_iff]
  tauto

/-! ### What `intersects` returns -/

private theorem shallow_of_flat (hT : cross T ≠ 0) (hε : 0 ≤ ε) (hflat : ∀ y ∈ T'.points, height T y = 0) :
    Shallow ε T.points T'.points := by
  refine Or.inl ⟨_, isNormal_normalized hT, fun x hx y hy => ?_⟩
  rw [normalized_dotProduct_sub hT, hflat y hy, height_of_mem hx, sub_self, zero_mul]
  exact hε

theorem Shallow.symm {S S' : Set (RepoVector3D R)} (h : Shallow ε S S') : Shallow ε S' S := by
  rcases h with ⟨n, hn, hle⟩ | ⟨n, hn, hle⟩ | ⟨u, hu, hnormals, hle⟩
  · exact Or.inr (Or.inl ⟨n, hn, fun x hx y hy => hle y hy x hx⟩)
  · exact Or.inl ⟨n, hn, fun x hx y hy => hle y hy x hx⟩
  · refine Or.inr (Or.inr ⟨u * (-1 : R), ?_, ?_, ?_⟩)
    · rw [RepoVector3D.norm_mul, hu, abs_neg, abs_one, mul_one]
    · intro n hn
      rw [RepoVector3D.mul_dotProduct, hnormals n hn.symm, zero_mul]
    · intro x hx y hy
      have hneg : (u * (-1 : R)).dotProduct (y - x) = u.dotProduct (x - y) := by
        simp only [RepoVector3D.dotProduct, sub_x, sub_y, sub_z, mul_x, mul_y, mul_z]
        ring
      rw [hneg]
      exact hle y hy x hx

/-- The corners of a triangle on one side of a plane keep all of its points off the plane. -/
theorem height_ne_zero (hab : 0 < height T' T.a * height T' T.b) (hac : 0 < height T' T.a * height T' T.c)
    (hx : x ∈ T.points) : height T' x ≠ 0 := by
  obtain ⟨u, v, w, hu, hv, hw, hsum, rfl⟩ := hx
  rw [height_combination T T' hsum]
  generalize height T' T.a = a at *
  generalize height T' T.b = b at *
  generalize height T' T.c = c at *
  have ha : 0 < a * a := mul_self_pos.2 fun h => by simp [h] at hab
  intro hzero
  have hpos : 0 < u * (a * a) + v * (a * b) + w * (a * c) := by
    rcases hu.eq_or_lt with rfl | hu
    · rcases hv.eq_or_lt with rfl | hv
      · obtain rfl : w = 1 := by linarith
        linarith
      · have := mul_pos hv hab
        have := mul_nonneg hw hac.le
        linarith
    · have := mul_pos hu ha
      have := mul_nonneg hv hab.le
      have := mul_nonneg hw hac.le
      linarith
  have : u * (a * a) + v * (a * b) + w * (a * c) = a * (u * a + v * b + w * c) := by ring
  rw [this, hzero, mul_zero] at hpos
  exact hpos.false

private theorem coplanar_nonneg : 0 ≤ (coplanar : R) := by
  unfold coplanar
  positivity

/-- A point that `intersects` sets belongs to both triangles. -/
theorem mem_of_intersects {A B : RepoTriangle R} {p : RepoVector3D R} (hp : (intersects A B).2 = some p) :
    p ∈ A.points ∧ p ∈ B.points := by
  rcases intersects_cases A B with ⟨-, h⟩ | ⟨-, h⟩ | ⟨-, h⟩ | ⟨-, h⟩ | ⟨T, T', hsorted, h⟩
  · simp [h] at hp
  · simp [h] at hp
  · simp [h] at hp
  · simp [h] at hp
  · rcases check_eq hsorted.straddles hsorted.straddles' with ⟨-, h'⟩ | ⟨ho, h'⟩
    · simp [h, h'] at hp
    · rw [h, h', Option.some_inj] at hp
      rw [← hsorted.left, ← hsorted.right, ← hp]
      exact middle_mem_points hsorted.straddles hsorted.straddles' ho

/-- A depth over the threshold comes with a point. -/
theorem exists_of_coplanar_lt {A B : RepoTriangle R} (h : coplanar < (intersects A B).1) :
    ∃ p, (intersects A B).2 = some p := by
  rcases intersects_cases A B with ⟨-, h'⟩ | ⟨-, h'⟩ | ⟨-, h'⟩ | ⟨-, h'⟩ | ⟨T, T', hsorted, h'⟩
  · rw [h'] at h
    exact absurd h coplanar_nonneg.not_gt
  · rw [h'] at h
    exact absurd h coplanar_nonneg.not_gt
  · rw [h'] at h
    exact absurd h (lt_irrefl _)
  · rw [h'] at h
    exact absurd h (lt_irrefl _)
  · rcases check_eq hsorted.straddles hsorted.straddles' with ⟨-, h''⟩ | ⟨-, h''⟩
    · rw [h', h''] at h
      exact absurd h coplanar_nonneg.not_gt
    · rw [h', h'']
      exact ⟨_, rfl⟩

/-- The depth of triangles that share a point is at most `ε` exactly if their intersection is that shallow. -/
theorem intersects_le_iff {A B : RepoTriangle R} (hA : cross A ≠ 0) (hB : cross B ≠ 0) (hε : coplanar ≤ ε)
    (hx : x ∈ A.points) (hx' : x ∈ B.points) : (intersects A B).1 ≤ ε ↔ Shallow ε A.points B.points := by
  have hflat : ∀ {T T' : RepoTriangle R}, height T' T.a = 0 ∧ height T' T.b = 0 ∧ height T' T.c = 0 →
      ∀ y ∈ T.points, height T' y = 0 := by
    rintro T T' ⟨ha, hb, hc⟩ y ⟨u, v, w, -, -, -, hsum, rfl⟩
    rw [height_combination T T' hsum, ha, hb, hc]
    ring
  have hε0 := coplanar_nonneg.trans hε
  rcases intersects_cases A B with ⟨hs, -⟩ | ⟨hs, -⟩ | ⟨hs, h⟩ | ⟨hs, h⟩ | ⟨T, T', hsorted, h⟩
  · exact absurd (height_of_mem hx') (height_ne_zero hs.1 hs.2 hx)
  · exact absurd (height_of_mem hx) (height_ne_zero hs.1 hs.2 hx')
  · rw [h]
    exact iff_of_true hε (shallow_of_flat hB hε0 (hflat hs)).symm
  · rw [h]
    exact iff_of_true hε (shallow_of_flat hA hε0 (hflat hs))
  · rw [← hsorted.left] at hx ⊢
    rw [← hsorted.right] at hx' ⊢
    rcases check_eq hsorted.straddles hsorted.straddles' with ⟨ho, -⟩ | ⟨-, h'⟩
    · exact absurd (overlap_of_mem hsorted.straddles hsorted.straddles' hx hx') ho
    · rw [h, h']
      exact shift_le_iff hsorted.straddles hsorted.straddles'

end Shallow

end Bouncer.Clash.TriangleIntersection
