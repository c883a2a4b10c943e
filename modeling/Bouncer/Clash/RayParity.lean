import Bouncer.Clash.Mesh
import Mathlib.Algebra.CharZero.Infinite
import Mathlib.Tactic.LinearCombination

/-!
# How often a ray crosses a closed mesh

A ray from the origin crosses a triangle in its interior (`Crosses`), or meets its boundary, or misses it.  Where two
rays span a sector, the edges of a triangle pass through the sector an even number of times, if an end of the sector in
the triangle is counted as well (`even_crossings`).  In a closed mesh each edge belongs to two triangles.  So the
numbers of triangles that two rays cross have the same parity (`even_countP_crosses`), as long as no ray meets an edge.

A ray that does is tilted, by as little as needed, towards a direction that is in no plane with the origin and an edge.
It then enters some of the triangles whose boundary it met (`Enters`), and these have to be counted in its place
(`even_countP_enters`).
-/

namespace Bouncer

namespace Clash

open RepoVector3D (triple)

variable {R : Type*} [Field R] [LinearOrder R]

/-- A ray from the origin crosses the interior of a triangle. -/
def Crosses (d : RepoVector3D R) (t : RepoTriangle R) : Prop :=
  0 < triple t.a t.b t.c * triple d t.b t.c ∧ 0 < triple t.a t.b t.c * triple d t.c t.a ∧
    0 < triple t.a t.b t.c * triple d t.a t.b

instance (d : RepoVector3D R) (t : RepoTriangle R) : Decidable (Crosses d t) := inferInstanceAs (Decidable (_ ∧ _))

/-- An edge passes between two rays from the origin. -/
def Between (d e u v : RepoVector3D R) : Prop :=
  triple d e u * triple d e v < 0 ∧ 0 < (triple d e v - triple d e u) * triple e v u ∧
    0 < (triple d e v - triple d e u) * triple d u v

instance (d e u v : RepoVector3D R) : Decidable (Between d e u v) := inferInstanceAs (Decidable (_ ∧ _))

/-- Whether a property holds, as a number. -/
def ind (p : Prop) [Decidable p] : ℕ := if p then 1 else 0

omit [Field R] [LinearOrder R] in
private theorem ind_congr {p q : Prop} [Decidable p] [Decidable q] (h : p ↔ q) : ind p = ind q := by
  unfold ind
  exact if_congr h rfl rfl

omit [Field R] [LinearOrder R] in
private theorem ind_eq_zero {p : Prop} [Decidable p] (h : ¬ p) : ind p = 0 := if_neg h

private theorem between_comm (d e u v : RepoVector3D R) : Between d e u v ↔ Between d e v u := by
  have h1 : (triple d e u - triple d e v) * triple e u v = (triple d e v - triple d e u) * triple e v u := by
    simp only [triple, RepoVector3D.dotProduct, RepoVector3D.crossProduct]
    ring
  have h2 : (triple d e u - triple d e v) * triple d v u = (triple d e v - triple d e u) * triple d u v := by
    simp only [triple, RepoVector3D.dotProduct, RepoVector3D.crossProduct]
    ring
  unfold Between
  rw [h1, h2, mul_comm (triple d e v)]

private theorem between_swap (d e u v : RepoVector3D R) : Between d e u v ↔ Between e d u v := by
  have h0 : triple e d u * triple e d v = triple d e u * triple d e v := by
    simp only [triple, RepoVector3D.dotProduct, RepoVector3D.crossProduct]
    ring
  have h1 : (triple e d v - triple e d u) * triple d v u = (triple d e v - triple d e u) * triple d u v := by
    simp only [triple, RepoVector3D.dotProduct, RepoVector3D.crossProduct]
    ring
  have h2 : (triple e d v - triple e d u) * triple e u v = (triple d e v - triple d e u) * triple e v u := by
    simp only [triple, RepoVector3D.dotProduct, RepoVector3D.crossProduct]
    ring
  unfold Between
  rw [h0, h1, h2, and_comm (a := 0 < _)]

/-- The next corner comes first. -/
def rotate (t : RepoTriangle R) : RepoTriangle R := ⟨t.b, t.c, t.a⟩

omit [LinearOrder R] in
private theorem triple_rotate (a b c : RepoVector3D R) : triple b c a = triple a b c := by
  simp only [triple, RepoVector3D.dotProduct, RepoVector3D.crossProduct]
  ring

private theorem crosses_rotate (d : RepoVector3D R) (t : RepoTriangle R) : Crosses d (rotate t) ↔ Crosses d t := by
  unfold Crosses rotate
  rw [triple_rotate]
  tauto

/-- The ends of a sector in a triangle, and its edges that pass through the sector. -/
def crossings (d e : RepoVector3D R) (t : RepoTriangle R) : ℕ :=
  ind (Crosses d t) + ind (Crosses e t) +
    (ind (Between d e t.a t.b) + ind (Between d e t.b t.c) + ind (Between d e t.c t.a))

private theorem crossings_rotate (d e : RepoVector3D R) (t : RepoTriangle R) :
    crossings d e (rotate t) = crossings d e t := by
  unfold crossings
  rw [ind_congr (crosses_rotate d t), ind_congr (crosses_rotate e t)]
  show _ + (ind (Between d e t.b t.c) + ind (Between d e t.c t.a) + ind (Between d e t.a t.b)) = _
  omega

private theorem crossings_swap (d e : RepoVector3D R) (t : RepoTriangle R) : crossings e d t = crossings d e t := by
  unfold crossings
  rw [ind_congr (between_swap e d t.a t.b), ind_congr (between_swap e d t.b t.c),
    ind_congr (between_swap e d t.c t.a), Nat.add_comm (ind (Crosses e t))]

variable [IsStrictOrderedRing R]

/-! ### A triangle and a sector -/

private theorem even_signs_of_pos {D X Y Z W : R} (hpos : 0 < D) (hlt : Y * Z < X * W) (hX : X ≠ 0) (hY : Y ≠ 0)
    (hZ : Z ≠ 0) (hW : W ≠ 0) :
    Even (ind (0 < D * X ∧ D * Y < 0) + ind (0 < D * W ∧ D * Z < 0) + ind (0 < Z ∧ 0 < X) + ind (0 < W ∧ 0 < Y)) := by
  have hneg : ∀ x : R, D * x < 0 ↔ x < 0 := fun x => smul_neg_iff_of_pos_left hpos
  simp only [mul_pos_iff_of_pos_left hpos, hneg]
  rcases hX.lt_or_gt with hX | hX <;> rcases hW.lt_or_gt with hW | hW
  · simp [ind, hX.not_gt, hW.not_gt]
  · -- `X` and `W` have different signs, so `Y` and `Z` have different signs too
    have hYZ : Y * Z < 0 := hlt.trans (mul_neg_of_neg_of_pos hX hW)
    rcases mul_neg_iff.1 hYZ with ⟨hY, hZ⟩ | ⟨hY, hZ⟩
    · simp [ind, hX.not_gt, hW, hY, hZ]
    · simp [ind, hX.not_gt, hW, hY.not_gt, hZ.not_gt]
  · have hYZ : Y * Z < 0 := hlt.trans (mul_neg_of_pos_of_neg hX hW)
    rcases mul_neg_iff.1 hYZ with ⟨hY, hZ⟩ | ⟨hY, hZ⟩
    · simp [ind, hX, hW.not_gt, hY.not_gt, hZ.not_gt]
    · simp [ind, hX, hW.not_gt, hY, hZ]
  · rcases hY.lt_or_gt with hY | hY <;> rcases hZ.lt_or_gt with hZ | hZ <;>
      simp [ind, hX, hW, hY, hZ, hY.not_gt, hZ.not_gt]

/-- Four products in the plane of a sector.  `X` and `Y` say on which side of `d` two edges pass the plane, `W` and `Z`
on which side of `e`, and `D` on which side of each other. -/
private theorem even_signs {D X Y Z W r : R} (hr : 0 < r) (hD : r * D = X * W - Y * Z) (hX : X ≠ 0) (hY : Y ≠ 0)
    (hZ : Z ≠ 0) (hW : W ≠ 0) (hflat : D = 0 → 0 < X * Y) :
    Even (ind (0 < D * X ∧ D * Y < 0) + ind (0 < D * W ∧ D * Z < 0) + ind (0 < Z ∧ 0 < X) + ind (0 < W ∧ 0 < Y)) := by
  rcases lt_trichotomy D 0 with hneg | rfl | hpos
  · -- the two edges change places
    have hlt : X * W < Y * Z := by nlinarith
    have h := even_signs_of_pos (neg_pos.2 hneg) hlt hY hX hW hZ
    simp only [neg_mul, neg_pos, neg_neg_iff_pos] at h
    rw [ind_congr (and_comm (a := 0 < D * X)), ind_congr (and_comm (a := 0 < D * W)), add_assoc,
      add_comm (ind (0 < Z ∧ 0 < X)), ← add_assoc]
    exact h
  · have hXY := hflat rfl
    rw [mul_zero] at hD
    rcases mul_pos_iff.1 hXY with ⟨hX, hY⟩ | ⟨hX, hY⟩
    · have hZW : 0 < Z ↔ 0 < W := by
        rw [← mul_pos_iff_of_pos_left hX (b := W), sub_eq_zero.1 hD.symm, mul_pos_iff_of_pos_left hY]
      simp [ind, hX, hY, hZW]
    · simp [ind, hX.not_gt, hY.not_gt]
  · exact even_signs_of_pos hpos (by nlinarith) hX hY hZ hW

/-- The triangle is not where the rays start. -/
theorem zero_mem_points {t : RepoTriangle R} {u v w : R} (hu : 0 ≤ u) (hv : 0 ≤ v) (hw : 0 ≤ w) (hpos : 0 < u + v + w)
    (h : t.a * u + t.b * v + t.c * w = 0) : (0 : RepoVector3D R) ∈ t.points := by
  refine ⟨u / (u + v + w), v / (u + v + w), w / (u + v + w), div_nonneg hu hpos.le, div_nonneg hv hpos.le,
    div_nonneg hw hpos.le, ?_, ?_⟩
  · rw [← add_div, ← add_div, div_self hpos.ne']
  · have hx : t.a.x * u + t.b.x * v + t.c.x * w = 0 := congrArg RepoVector3D.x h
    have hy : t.a.y * u + t.b.y * v + t.c.y * w = 0 := congrArg RepoVector3D.y h
    have hz : t.a.z * u + t.b.z * v + t.c.z * w = 0 := congrArg RepoVector3D.z h
    have hscale : ∀ a b c : R, a * u + b * v + c * w = 0 →
        0 = a * (u / (u + v + w)) + b * (v / (u + v + w)) + c * (w / (u + v + w)) := by
      intro a b c h
      rw [← mul_div_assoc, ← mul_div_assoc, ← mul_div_assoc, ← add_div, ← add_div, h, zero_div]
    ext
    exacts [hscale _ _ _ hx, hscale _ _ _ hy, hscale _ _ _ hz]

/-- A direction is in no plane with the origin and two points. -/
def Avoids (d u v : RepoVector3D R) : Prop := u.crossProduct v ≠ 0 → triple d u v ≠ 0

variable {t : RepoTriangle R} {d e : RepoVector3D R}

omit [LinearOrder R] [IsStrictOrderedRing R] in
/-- A direction in the coordinates of three points. -/
theorem cramer (a b c d : RepoVector3D R) :
    a * triple d b c + b * triple d c a + c * triple d a b = d * triple a b c := by
  ext <;> simp [triple, RepoVector3D.dotProduct, RepoVector3D.crossProduct] <;> ring

omit [LinearOrder R] [IsStrictOrderedRing R] in
private theorem crossing_eq_zero {u v : RepoVector3D R} (h : u.crossProduct v = 0) :
    u * triple d e v + v * -triple d e u = 0 := by
  have hx : u.y * v.z - u.z * v.y = 0 := congrArg RepoVector3D.x h
  have hy : u.z * v.x - u.x * v.z = 0 := congrArg RepoVector3D.y h
  have hz : u.x * v.y - u.y * v.x = 0 := congrArg RepoVector3D.z h
  ext <;> simp [triple, RepoVector3D.dotProduct, RepoVector3D.crossProduct]
  · linear_combination (d.z * e.x - d.x * e.z) * hz - (d.x * e.y - d.y * e.x) * hy
  · linear_combination (d.x * e.y - d.y * e.x) * hx - (d.y * e.z - d.z * e.y) * hz
  · linear_combination (d.y * e.z - d.z * e.y) * hy - (d.z * e.x - d.x * e.z) * hx

private theorem third_pos {s p q D x y r : R} (hs : 0 < s) (hp : 0 < p) (hq : 0 < q) (h : s * r = x * p - y * q)
    (hx : 0 < D * x) (hy : D * y < 0) : 0 < D * r := by
  have hsum : s * (D * r) = D * x * p - D * y * q := by linear_combination D * h
  have hpos : 0 < s * (D * r) := by
    rw [hsum]
    linarith [mul_pos hx hp, mul_neg_of_neg_of_pos hy hq]
  exact pos_of_mul_pos_right hpos hs.le

/-- If the plane of a triangle goes through the start of a ray that passes between two corners, the signs of the
products with the sides at the other corner agree: else the start is in the triangle. -/
private theorem flat_pos {T : RepoTriangle R} {s p q r x y : R} (h0 : (0 : RepoVector3D R) ∉ T.points) (hs : 0 < s)
    (hp : 0 < p) (hq : 0 < q) (h : s * r = x * p - y * q) (hx : x ≠ 0) (hy : y ≠ 0)
    (hsum : T.a * r + T.b * -y + T.c * x = 0) : 0 < x * y := by
  by_contra hle
  rcases mul_neg_iff.1 (lt_of_le_of_ne (not_lt.1 hle) (mul_ne_zero hx hy)) with ⟨hx, hy⟩ | ⟨hx, hy⟩
  · have hpos : 0 < s * r := by
      rw [h]
      linarith [mul_pos hx hp, mul_neg_of_neg_of_pos hy hq]
    have hr := pos_of_mul_pos_right hpos hs.le
    exact h0 (zero_mem_points hr.le (neg_nonneg.2 hy.le) hx.le (by linarith) hsum)
  · have hpos : 0 < s * -r := by
      rw [mul_neg, h]
      linarith [mul_neg_of_neg_of_pos hx hp, mul_pos hy hq]
    have hr := pos_of_mul_pos_right hpos hs.le
    refine h0 (zero_mem_points hr.le hy.le (neg_nonneg.2 hx.le) (by linarith) ?_)
    calc T.a * -r + T.b * y + T.c * -x = (T.a * r + T.b * -y + T.c * x) * (-1 : R) := by
          ext <;> simp <;> ring
      _ = 0 := by rw [hsum]; ext <;> simp

/-- The corner `a` alone is on its side of the plane of two rays. -/
private theorem even_crossings_of_lone (h0 : (0 : RepoVector3D R) ∉ t.points) (ha : triple d e t.a < 0)
    (hb : 0 < triple d e t.b) (hc : 0 < triple d e t.c) (hd : Avoids d t.a t.b ∧ Avoids d t.c t.a)
    (he : Avoids e t.a t.b ∧ Avoids e t.c t.a) :
    Even (crossings d e t) := by
  obtain ⟨a, b, c⟩ := t
  unfold crossings
  dsimp only at *
  have hab : a.crossProduct b ≠ 0 := by
    intro h
    refine h0 (zero_mem_points (u := triple d e b) (v := -triple d e a) (w := 0) hb.le (by linarith) le_rfl
      (by linarith) ?_)
    calc a * triple d e b + b * -triple d e a + c * (0 : R) = a * triple d e b + b * -triple d e a := by ext <;> simp
      _ = 0 := crossing_eq_zero h
  have hca : c.crossProduct a ≠ 0 := by
    intro h
    refine h0 (zero_mem_points (u := triple d e c) (v := 0) (w := -triple d e a) hc.le le_rfl (by linarith)
      (by linarith) ?_)
    have hzero : c * triple d e a + a * -triple d e c = 0 := crossing_eq_zero h
    calc a * triple d e c + b * (0 : R) + c * -triple d e a
        = (c * triple d e a + a * -triple d e c) * (-1 : R) := by ext <;> simp
      _ = 0 := by rw [hzero]; ext <;> simp
  have hplane : -triple d e a * triple a b c =
      triple d a b * triple e c a - triple d a c * triple e b a := by
    simp only [triple, RepoVector3D.dotProduct, RepoVector3D.crossProduct]
    ring
  have hM : -triple d e a * triple d b c = triple d a b * triple d e c - triple d a c * triple d e b := by
    simp only [triple, RepoVector3D.dotProduct, RepoVector3D.crossProduct]
    ring
  have hN : -triple d e a * triple e b c = triple e c a * triple d e b - triple e b a * triple d e c := by
    simp only [triple, RepoVector3D.dotProduct, RepoVector3D.crossProduct]
    ring
  have hdca : triple d c a = -triple d a c := by
    simp only [triple, RepoVector3D.dotProduct, RepoVector3D.crossProduct]
    ring
  have heab : triple e a b = -triple e b a := by
    simp only [triple, RepoVector3D.dotProduct, RepoVector3D.crossProduct]
    ring
  have hneg : 0 < -triple d e a := neg_pos.2 ha
  have hX : triple d a b ≠ 0 := hd.1 hab
  have hY : triple d a c ≠ 0 := by
    have := hd.2 hca
    rw [hdca] at this
    exact neg_ne_zero.1 this
  have hZ : triple e b a ≠ 0 := by
    have := he.1 hab
    rw [heab] at this
    exact neg_ne_zero.1 this
  have hW : triple e c a ≠ 0 := he.2 hca
  have hbetween : ∀ {x y z : R}, 0 < y → (triple d e a * y < 0 ∧ 0 < (y - triple d e a) * z ∧
      0 < (y - triple d e a) * x ↔ 0 < z ∧ 0 < x) := by
    intro x y z hy
    have hpos : 0 < y - triple d e a := by linarith
    simp only [mul_neg_of_neg_of_pos ha hy, true_and, mul_pos_iff_of_pos_left hpos]
  have hBab : Between d e a b ↔ 0 < triple e b a ∧ 0 < triple d a b := hbetween hb
  have hBca : Between d e c a ↔ 0 < triple e c a ∧ 0 < triple d a c := by
    rw [between_comm]
    exact hbetween hc
  have hBbc : ¬ Between d e b c := fun h => (mul_pos hb hc).not_gt h.1
  have hCd : Crosses d ⟨a, b, c⟩ ↔ 0 < triple a b c * triple d a b ∧ triple a b c * triple d a c < 0 := by
    unfold Crosses
    dsimp only
    rw [hdca, mul_neg, neg_pos]
    exact ⟨fun h => ⟨h.2.2, h.2.1⟩, fun h => ⟨third_pos hneg hc hb hM h.1 h.2, h.2, h.1⟩⟩
  have hCe : Crosses e ⟨a, b, c⟩ ↔ 0 < triple a b c * triple e c a ∧ triple a b c * triple e b a < 0 := by
    unfold Crosses
    dsimp only
    rw [heab, mul_neg, neg_pos]
    exact ⟨fun h => ⟨h.2.1, h.2.2⟩, fun h => ⟨third_pos hneg hb hc hN h.1 h.2, h.1, h.2⟩⟩
  have hsum : ∀ v, a * triple v b c + b * -triple v a c + c * triple v a b = v * triple a b c := by
    intro v
    have hvca : triple v c a = -triple v a c := by
      simp only [triple, RepoVector3D.dotProduct, RepoVector3D.crossProduct]
      ring
    rw [← hvca, cramer]
  have hflat : triple a b c = 0 → 0 < triple d a b * triple d a c := by
    intro hzero
    refine flat_pos h0 hneg hc hb hM hX hY ?_
    rw [hsum d, hzero]
    ext <;> simp
  have heven := even_signs hneg hplane hX hY hZ hW hflat
  rw [ind_congr hCd, ind_congr hCe, ind_congr hBab, ind_congr hBca, ind_eq_zero hBbc, Nat.add_zero, ← Nat.add_assoc]
  exact heven

/-- A direction is in no plane with the origin and an edge. -/
def AvoidsEdges (d : RepoVector3D R) (t : RepoTriangle R) : Prop :=
  Avoids d t.a t.b ∧ Avoids d t.b t.c ∧ Avoids d t.c t.a

omit [LinearOrder R] [IsStrictOrderedRing R] in
private theorem heights_eq_zero {x : RepoVector3D R} (hx : triple d e x = 0) :
    triple d e t.a * (triple t.a t.b t.c * triple x t.b t.c) + triple d e t.b * (triple t.a t.b t.c * triple x t.c t.a) +
      triple d e t.c * (triple t.a t.b t.c * triple x t.a t.b) = 0 := by
  have hplane : triple d e t.a * (triple t.a t.b t.c * triple x t.b t.c) +
      triple d e t.b * (triple t.a t.b t.c * triple x t.c t.a) +
      triple d e t.c * (triple t.a t.b t.c * triple x t.a t.b) =
      triple t.a t.b t.c * triple t.a t.b t.c * triple d e x := by
    simp only [triple, RepoVector3D.dotProduct, RepoVector3D.crossProduct]
    ring
  rw [hplane, hx, mul_zero]

/-- The corners are on one side of the plane of two rays. -/
private theorem even_crossings_of_same (h : (0 < triple d e t.a ∧ 0 < triple d e t.b ∧ 0 < triple d e t.c) ∨
    (triple d e t.a < 0 ∧ triple d e t.b < 0 ∧ triple d e t.c < 0)) : Even (crossings d e t) := by
  have hbetween : ∀ {u v}, 0 < triple d e u * triple d e v → ¬ Between d e u v := fun hpos hlt => hpos.not_gt hlt.1
  -- the plane of the rays has no other points on that side
  have hcrosses : ∀ x : RepoVector3D R, triple d e x = 0 → ¬ Crosses x t := by
    rintro x hx ⟨ha, hb, hc⟩
    have hplane := heights_eq_zero (t := t) hx
    rcases h with ⟨h1, h2, h3⟩ | ⟨h1, h2, h3⟩
    · linarith only [hplane, mul_pos h1 ha, mul_pos h2 hb, mul_pos h3 hc]
    · linarith only [hplane, mul_neg_of_neg_of_pos h1 ha, mul_neg_of_neg_of_pos h2 hb, mul_neg_of_neg_of_pos h3 hc]
  have hd : triple d e d = 0 := by
    simp only [triple, RepoVector3D.dotProduct, RepoVector3D.crossProduct]
    ring
  have he : triple d e e = 0 := by
    simp only [triple, RepoVector3D.dotProduct, RepoVector3D.crossProduct]
    ring
  have hedges : ¬ Between d e t.a t.b ∧ ¬ Between d e t.b t.c ∧ ¬ Between d e t.c t.a := by
    rcases h with ⟨h1, h2, h3⟩ | ⟨h1, h2, h3⟩
    · exact ⟨hbetween (mul_pos h1 h2), hbetween (mul_pos h2 h3), hbetween (mul_pos h3 h1)⟩
    · exact ⟨hbetween (mul_pos_of_neg_of_neg h1 h2), hbetween (mul_pos_of_neg_of_neg h2 h3),
        hbetween (mul_pos_of_neg_of_neg h3 h1)⟩
  unfold crossings
  rw [ind_eq_zero (hcrosses d hd), ind_eq_zero (hcrosses e he), ind_eq_zero hedges.1, ind_eq_zero hedges.2.1,
    ind_eq_zero hedges.2.2]
  exact Even.zero

omit [IsStrictOrderedRing R] in
private theorem points_rotate : (rotate t).points = t.points := by
  ext p
  constructor
  · rintro ⟨u, v, w, hu, hv, hw, hsum, rfl⟩
    refine ⟨w, u, v, hw, hu, hv, by linear_combination hsum, ?_⟩
    ext <;> simp [rotate] <;> ring
  · rintro ⟨u, v, w, hu, hv, hw, hsum, rfl⟩
    refine ⟨v, w, u, hv, hw, hu, by linear_combination hsum, ?_⟩
    ext <;> simp [rotate] <;> ring

private theorem even_crossings_of_lone' (h0 : (0 : RepoVector3D R) ∉ t.points)
    (h : (triple d e t.a < 0 ∧ 0 < triple d e t.b ∧ 0 < triple d e t.c) ∨
      (0 < triple d e t.a ∧ triple d e t.b < 0 ∧ triple d e t.c < 0))
    (hd : AvoidsEdges d t) (he : AvoidsEdges e t) : Even (crossings d e t) := by
  rcases h with ⟨ha, hb, hc⟩ | ⟨ha, hb, hc⟩
  · exact even_crossings_of_lone h0 ha hb hc ⟨hd.1, hd.2.2⟩ ⟨he.1, he.2.2⟩
  · have hneg : ∀ v, triple e d v = -triple d e v := by
      intro v
      simp only [triple, RepoVector3D.dotProduct, RepoVector3D.crossProduct]
      ring
    rw [← crossings_swap]
    refine even_crossings_of_lone h0 ?_ ?_ ?_ ⟨he.1, he.2.2⟩ ⟨hd.1, hd.2.2⟩ <;> rw [hneg] <;> linarith

private theorem even_crossings (h0 : (0 : RepoVector3D R) ∉ t.points)
    (hs : triple d e t.a ≠ 0 ∧ triple d e t.b ≠ 0 ∧ triple d e t.c ≠ 0) (hd : AvoidsEdges d t)
    (he : AvoidsEdges e t) : Even (crossings d e t) := by
  have hd' : AvoidsEdges d (rotate t) := ⟨hd.2.1, hd.2.2, hd.1⟩
  have he' : AvoidsEdges e (rotate t) := ⟨he.2.1, he.2.2, he.1⟩
  have hd'' : AvoidsEdges d (rotate (rotate t)) := ⟨hd.2.2, hd.1, hd.2.1⟩
  have he'' : AvoidsEdges e (rotate (rotate t)) := ⟨he.2.2, he.1, he.2.1⟩
  have h0' : (0 : RepoVector3D R) ∉ (rotate t).points := by rwa [points_rotate]
  have h0'' : (0 : RepoVector3D R) ∉ (rotate (rotate t)).points := by rwa [points_rotate]
  obtain ⟨ha, hb, hc⟩ := hs
  rcases ha.lt_or_gt with ha | ha <;> rcases hb.lt_or_gt with hb | hb <;> rcases hc.lt_or_gt with hc | hc
  · exact even_crossings_of_same (Or.inr ⟨ha, hb, hc⟩)
  · rw [← crossings_rotate, ← crossings_rotate]
    exact even_crossings_of_lone' h0'' (Or.inr ⟨hc, ha, hb⟩) hd'' he''
  · rw [← crossings_rotate]
    exact even_crossings_of_lone' h0' (Or.inr ⟨hb, hc, ha⟩) hd' he'
  · exact even_crossings_of_lone' h0 (Or.inl ⟨ha, hb, hc⟩) hd he
  · exact even_crossings_of_lone' h0 (Or.inr ⟨ha, hb, hc⟩) hd he
  · rw [← crossings_rotate]
    exact even_crossings_of_lone' h0' (Or.inl ⟨hb, hc, ha⟩) hd' he'
  · rw [← crossings_rotate, ← crossings_rotate]
    exact even_crossings_of_lone' h0'' (Or.inl ⟨hc, ha, hb⟩) hd'' he''
  · exact even_crossings_of_same (Or.inl ⟨ha, hb, hc⟩)

/-! ### Closed meshes -/

omit [Field R] [LinearOrder R] [IsStrictOrderedRing R] in
private theorem countP_eq_sum_ind {α : Type*} (p : α → Prop) [DecidablePred p] (l : List α) :
    l.countP (fun x => decide (p x)) = (l.map fun x => ind (p x)).sum := by
  induction l with
  | nil => rfl
  | cons x l ih =>
    rw [List.countP_cons, List.map_cons, List.sum_cons, ih, Nat.add_comm]
    by_cases h : p x <;> simp [ind, h]

omit [Field R] [LinearOrder R] [IsStrictOrderedRing R] in
private theorem even_sum_of_count_eq_two {α : Type*} [DecidableEq α] {l : List α} (h : ∀ x ∈ l, l.count x = 2) (g : α → ℕ) :
    Even (l.map g).sum := by
  rw [Finset.sum_list_map_count, even_iff_two_dvd]
  refine Finset.dvd_sum fun x hx => ?_
  rw [h x (List.mem_toFinset.1 hx)]
  exact Dvd.intro _ rfl

/-- The triangle of a face. -/
def faceTriangle (v : ℕ → RepoVector3D R) (face : RepoFace) : RepoTriangle R :=
  ⟨v (face.get 0), v (face.get 1), v (face.get 2)⟩

variable {v : ℕ → RepoVector3D R} {faces : List RepoFace}

omit [IsStrictOrderedRing R] in
private theorem sum_edges (d e : RepoVector3D R) (v : ℕ → RepoVector3D R) (face : RepoFace) :
    ((edges face).map fun edge => ind (Between d e (v edge.1) (v edge.2))).sum =
      ind (Between d e (faceTriangle v face).a (faceTriangle v face).b) +
      ind (Between d e (faceTriangle v face).b (faceTriangle v face).c) +
      ind (Between d e (faceTriangle v face).c (faceTriangle v face).a) := by
  have hedge : ∀ i j, ind (Between d e (v (min i j)) (v (max i j))) = ind (Between d e (v i) (v j)) := by
    intro i j
    rcases le_total i j with h | h
    · rw [min_eq_left h, max_eq_right h]
    · rw [min_eq_right h, max_eq_left h, ind_congr (between_comm d e (v j) (v i))]
  simp only [edges, List.map_cons, List.map_nil, List.sum_cons, List.sum_nil, hedge, faceTriangle, Nat.add_zero,
    Nat.add_assoc]
  rfl

/-- In the plane of two rays there is no corner, and none of the rays is in a plane with an edge. -/
private theorem even_countP_of_plane (hclosed : isClosedAndManifold faces = true)
    (h0 : ∀ face ∈ faces, (0 : RepoVector3D R) ∉ (faceTriangle v face).points)
    (hs : ∀ face ∈ faces, triple d e (faceTriangle v face).a ≠ 0 ∧ triple d e (faceTriangle v face).b ≠ 0 ∧
      triple d e (faceTriangle v face).c ≠ 0)
    (hd : ∀ face ∈ faces, AvoidsEdges d (faceTriangle v face))
    (he : ∀ face ∈ faces, AvoidsEdges e (faceTriangle v face)) :
    Even (faces.countP (fun face => decide (Crosses d (faceTriangle v face))) +
      faces.countP fun face => decide (Crosses e (faceTriangle v face))) := by
  have htotal : Even (faces.map fun face => crossings d e (faceTriangle v face)).sum := by
    rw [even_iff_two_dvd]
    refine List.dvd_sum fun n hn => ?_
    obtain ⟨face, hface, rfl⟩ := List.mem_map.1 hn
    exact even_iff_two_dvd.1 (even_crossings (h0 face hface) (hs face hface) (hd face hface) (he face hface))
  have hedges : Even ((faces.flatMap edges).map fun edge => ind (Between d e (v edge.1) (v edge.2))).sum := by
    refine even_sum_of_count_eq_two (fun edge hedge => ?_) _
    have hcount := of_decide_eq_true (List.all_eq_true.1 hclosed edge hedge)
    rw [← hcount]
    congr
    exact lawful_beq_subsingleton _ _
  have hsum : (faces.map fun face => crossings d e (faceTriangle v face)).sum =
      (faces.countP (fun face => decide (Crosses d (faceTriangle v face))) +
        faces.countP fun face => decide (Crosses e (faceTriangle v face))) +
      ((faces.flatMap edges).map fun edge => ind (Between d e (v edge.1) (v edge.2))).sum := by
    rw [countP_eq_sum_ind, countP_eq_sum_ind]
    clear * -
    induction faces with
    | nil => rfl
    | cons face faces ih =>
      rw [List.flatMap_cons, List.map_append, List.sum_append, sum_edges]
      simp only [List.map_cons, List.sum_cons]
      rw [ih]
      unfold crossings
      omega
  rw [hsum] at htotal
  exact (Nat.even_add.1 htotal).2 hedges

/-! ### Directions that meet no edge -/

omit [IsStrictOrderedRing R] in
/-- There is a direction in none of finitely many planes. -/
theorem exists_off_planes [Infinite R] (normals : List (RepoVector3D R)) (h : ∀ n ∈ normals, n.dotProduct n ≠ 0) :
    ∃ x, ∀ n ∈ normals, n.dotProduct x ≠ 0 := by
  induction normals with
  | nil => exact ⟨0, fun _ h => absurd h List.not_mem_nil⟩
  | cons m normals ih =>
    obtain ⟨x, hx⟩ := ih fun n hn => h n (List.mem_cons_of_mem _ hn)
    -- on the line from `x` along `m` each plane has one point at most
    obtain ⟨t, ht⟩ := Infinite.exists_notMem_finset
      ((m :: normals).map fun n => -(n.dotProduct x) / n.dotProduct m).toFinset
    rw [List.mem_toFinset, List.mem_map] at ht
    have hadd : ∀ n : RepoVector3D R, n.dotProduct (x + m * t) = n.dotProduct x + n.dotProduct m * t := by
      intro n
      simp [RepoVector3D.dotProduct]
      ring
    refine ⟨x + m * t, fun n hn hzero => ?_⟩
    rw [hadd] at hzero
    by_cases hnm : n.dotProduct m = 0
    · rcases List.mem_cons.1 hn with rfl | hn'
      · exact h n List.mem_cons_self hnm
      · rw [hnm, zero_mul, add_zero] at hzero
        exact hx n hn' hzero
    · refine ht ⟨n, hn, ?_⟩
      rw [div_eq_iff hnm]
      linear_combination -hzero

/-- The corners of a face. -/
def triangleCorners (t : RepoTriangle R) : List (RepoVector3D R) := [t.a, t.b, t.c]

/-- A direction is in no plane with the origin and an edge, and does not point at or from a corner. -/
structure Generic (v : ℕ → RepoVector3D R) (faces : List RepoFace) (d : RepoVector3D R) : Prop where
  edges : ∀ face ∈ faces, AvoidsEdges d (faceTriangle v face)
  corners : ∀ face ∈ faces, ∀ c ∈ triangleCorners (faceTriangle v face), c.crossProduct d ≠ 0

omit [LinearOrder R] [IsStrictOrderedRing R] in
private theorem dotProduct_self_ne_zero [LinearOrder R] [IsStrictOrderedRing R] {n : RepoVector3D R} (h : n ≠ 0) :
    n.dotProduct n ≠ 0 := by
  intro hzero
  have hzero : n.x * n.x + n.y * n.y + n.z * n.z = 0 := hzero
  have hx := mul_self_nonneg n.x
  have hy := mul_self_nonneg n.y
  have hz := mul_self_nonneg n.z
  refine h (RepoVector3D.ext ?_ ?_ ?_)
  · exact mul_self_eq_zero.1 (by linarith)
  · exact mul_self_eq_zero.1 (by linarith)
  · exact mul_self_eq_zero.1 (by linarith)

/-- The planes of the origin and an edge. -/
def edgeNormals (t : RepoTriangle R) : List (RepoVector3D R) :=
  [t.a.crossProduct t.b, t.b.crossProduct t.c, t.c.crossProduct t.a]

private theorem exists_avoiding (v : ℕ → RepoVector3D R) (faces : List RepoFace) (normals : List (RepoVector3D R)) :
    ∃ x, (∀ face ∈ faces, AvoidsEdges x (faceTriangle v face)) ∧ ∀ n ∈ normals, n ≠ 0 → n.dotProduct x ≠ 0 := by
  obtain ⟨x, hx⟩ := exists_off_planes
    (((faces.flatMap fun face => edgeNormals (faceTriangle v face)) ++ normals).filter fun n => decide (n ≠ 0))
    fun n hn => dotProduct_self_ne_zero (of_decide_eq_true (List.mem_filter.1 hn).2)
  have hoff : ∀ n ∈ (faces.flatMap fun face => edgeNormals (faceTriangle v face)) ++ normals, n ≠ 0 →
      n.dotProduct x ≠ 0 := fun n hn hne => hx n (List.mem_filter.2 ⟨hn, decide_eq_true hne⟩)
  refine ⟨x, fun face hface => ?_, fun n hn => hoff n (List.mem_append_right _ hn)⟩
  have hedge : ∀ u w, u.crossProduct w ∈ edgeNormals (faceTriangle v face) → Avoids x u w := by
    intro u w hmem hne
    have hdot := hoff _ (List.mem_append_left _ (List.mem_flatMap.2 ⟨face, hface, hmem⟩)) hne
    have hcomm : triple x u w = (u.crossProduct w).dotProduct x := by
      simp only [triple, RepoVector3D.dotProduct]
      ring
    rwa [hcomm]
  exact ⟨hedge _ _ (by simp [edgeNormals]), hedge _ _ (by simp [edgeNormals]), hedge _ _ (by simp [edgeNormals])⟩

/-- Two rays that meet no edge of a closed mesh cross an even number of triangles together. -/
theorem even_countP_crosses (hclosed : isClosedAndManifold faces = true)
    (h0 : ∀ face ∈ faces, (0 : RepoVector3D R) ∉ (faceTriangle v face).points) (hd : Generic v faces d)
    (he : Generic v faces e) :
    Even (faces.countP (fun face => decide (Crosses d (faceTriangle v face))) +
      faces.countP fun face => decide (Crosses e (faceTriangle v face))) := by
  -- a third direction, in no plane of one of the two and a corner
  obtain ⟨x, hx, hplanes⟩ := exists_avoiding v faces
    ((faces.flatMap fun face => (triangleCorners (faceTriangle v face)).map fun c => c.crossProduct d) ++
      faces.flatMap fun face => (triangleCorners (faceTriangle v face)).map fun c => c.crossProduct e)
  have hdx : ∀ face ∈ faces, ∀ c ∈ triangleCorners (faceTriangle v face), triple d x c ≠ 0 := by
    intro face hface c hc
    have hdot := hplanes _ (List.mem_append_left _ (List.mem_flatMap.2 ⟨face, hface, List.mem_map_of_mem hc⟩))
      (hd.corners face hface c hc)
    have hcomm : triple d x c = (c.crossProduct d).dotProduct x := by
      simp only [triple, RepoVector3D.dotProduct, RepoVector3D.crossProduct]
      ring
    rwa [hcomm]
  have hex : ∀ face ∈ faces, ∀ c ∈ triangleCorners (faceTriangle v face), triple e x c ≠ 0 := by
    intro face hface c hc
    have hdot := hplanes _ (List.mem_append_right _ (List.mem_flatMap.2 ⟨face, hface, List.mem_map_of_mem hc⟩))
      (he.corners face hface c hc)
    have hcomm : triple e x c = (c.crossProduct e).dotProduct x := by
      simp only [triple, RepoVector3D.dotProduct, RepoVector3D.crossProduct]
      ring
    rwa [hcomm]
  have hdeven := even_countP_of_plane (d := d) (e := x) hclosed h0
    (fun face hface => ⟨hdx face hface _ (by simp [triangleCorners]), hdx face hface _ (by simp [triangleCorners]),
      hdx face hface _ (by simp [triangleCorners])⟩) hd.edges hx
  have heeven := even_countP_of_plane (d := e) (e := x) hclosed h0
    (fun face hface => ⟨hex face hface _ (by simp [triangleCorners]), hex face hface _ (by simp [triangleCorners]),
      hex face hface _ (by simp [triangleCorners])⟩) he.edges hx
  rw [Nat.even_add] at hdeven heeven ⊢
  rw [hdeven, heeven]

/-- There is a generic direction. -/
theorem exists_generic (h0 : ∀ face ∈ faces, (0 : RepoVector3D R) ∉ (faceTriangle v face).points) :
    ∃ w, Generic v faces w := by
  -- the planes of a corner and the axes have only the line of the corner in common
  let axes : List (RepoVector3D R) := [⟨1, 0, 0⟩, ⟨0, 1, 0⟩, ⟨0, 0, 1⟩]
  obtain ⟨w, hedges, hplanes⟩ := exists_avoiding v faces
    (faces.flatMap fun face => (triangleCorners (faceTriangle v face)).flatMap fun c => axes.map c.crossProduct)
  refine ⟨w, hedges, fun face hface c hc hzero => ?_⟩
  have hc0 : c ≠ 0 := by
    rintro rfl
    refine h0 face hface ?_
    simp only [triangleCorners, List.mem_cons, List.not_mem_nil, or_false] at hc
    rcases hc with h | h | h
    · exact ⟨1, 0, 0, zero_le_one, le_rfl, le_rfl, by ring, by rw [← h]; ext <;> simp⟩
    · exact ⟨0, 1, 0, le_rfl, zero_le_one, le_rfl, by ring, by rw [← h]; ext <;> simp⟩
    · exact ⟨0, 0, 1, le_rfl, le_rfl, zero_le_one, by ring, by rw [← h]; ext <;> simp⟩
  have haxis : ∀ a ∈ axes, c.crossProduct a = 0 := by
    intro a ha
    by_contra hne
    refine hplanes _ (List.mem_flatMap.2 ⟨face, hface, List.mem_flatMap.2 ⟨c, hc, List.mem_map_of_mem ha⟩⟩) hne ?_
    have hcomm : (c.crossProduct a).dotProduct w = -a.dotProduct (c.crossProduct w) := by
      simp only [RepoVector3D.dotProduct, RepoVector3D.crossProduct]
      ring
    rw [hcomm, hzero]
    simp [RepoVector3D.dotProduct]
  have hx := haxis ⟨1, 0, 0⟩ (by simp [axes])
  have hy := haxis ⟨0, 1, 0⟩ (by simp [axes])
  simp only [RepoVector3D.crossProduct, mul_zero, mul_one, zero_sub, sub_zero, RepoVector3D.ext_iff, RepoVector3D.zero_x,
    RepoVector3D.zero_y, RepoVector3D.zero_z, neg_eq_zero, sub_self] at hx hy
  exact hc0 (RepoVector3D.ext hy.2.2 hx.2.2 hx.2.1)

/-! ### Rays that are tilted -/

/-- A property holds for all small tilts. -/
def ForSmall (P : R → Prop) : Prop := ∃ δ > 0, ∀ ε, 0 < ε → ε < δ → P ε

omit [IsStrictOrderedRing R] in
theorem ForSmall.and {P Q : R → Prop} (hP : ForSmall P) (hQ : ForSmall Q) : ForSmall fun ε => P ε ∧ Q ε := by
  obtain ⟨δ, hδ, hP⟩ := hP
  obtain ⟨η, hη, hQ⟩ := hQ
  exact ⟨min δ η, lt_min hδ hη, fun ε hε hlt =>
    ⟨hP ε hε (hlt.trans_le (min_le_left _ _)), hQ ε hε (hlt.trans_le (min_le_right _ _))⟩⟩

omit [IsStrictOrderedRing R] in
theorem ForSmall.mono {P Q : R → Prop} (hP : ForSmall P) (h : ∀ ε, P ε → Q ε) : ForSmall Q := by
  obtain ⟨δ, hδ, hP⟩ := hP
  exact ⟨δ, hδ, fun ε hε hlt => h ε (hP ε hε hlt)⟩

omit [IsStrictOrderedRing R] in
private theorem forSmall_of_forall [IsStrictOrderedRing R] {P : R → Prop} (h : ∀ ε, 0 < ε → P ε) : ForSmall P :=
  ⟨1, one_pos, fun ε hε _ => h ε hε⟩

private theorem forSmall_forall_mem {α : Type*} {l : List α} {P : α → R → Prop} (h : ∀ x ∈ l, ForSmall (P x)) :
    ForSmall fun ε => ∀ x ∈ l, P x ε := by
  induction l with
  | nil => exact forSmall_of_forall fun _ _ _ hx => absurd hx List.not_mem_nil
  | cons y l ih =>
    refine ((h y List.mem_cons_self).and (ih fun x hx => h x (List.mem_cons_of_mem _ hx))).mono ?_
    rintro ε ⟨hy, hl⟩ x hx
    rcases List.mem_cons.1 hx with rfl | hx
    exacts [hy, hl x hx]

private theorem forSmall_pos {x : R} (hx : 0 < x) (y : R) : ForSmall fun ε => 0 < x + y * ε := by
  refine ⟨x / (|y| + 1), by positivity, fun ε hε hlt => ?_⟩
  have hbound : (|y| + 1) * ε < x := by rwa [lt_div_iff₀' (by positivity)] at hlt
  have habs : -|y| * ε ≤ y * ε := mul_le_mul_of_nonneg_right (neg_abs_le y) hε.le
  linarith

private theorem forSmall_pos_iff (x y : R) : ForSmall fun ε => (0 < x + y * ε ↔ 0 < x ∨ x = 0 ∧ 0 < y) := by
  rcases lt_trichotomy x 0 with hx | rfl | hx
  · refine (forSmall_pos (neg_pos.2 hx) (-y)).mono fun ε hε => iff_of_false (by linarith) ?_
    rintro (h | ⟨h, -⟩) <;> linarith
  · refine forSmall_of_forall fun ε hε => ?_
    rw [zero_add, mul_pos_iff_of_pos_right hε]
    simp
  · exact (forSmall_pos hx y).mono fun ε hε => iff_of_true hε (Or.inl hx)

private theorem forSmall_ne (x : R) {y : R} (hy : y ≠ 0) : ForSmall fun ε => x + y * ε ≠ 0 := by
  rcases lt_trichotomy x 0 with hx | rfl | hx
  · exact (forSmall_pos (neg_pos.2 hx) (-y)).mono fun ε hε hzero => by linarith
  · exact forSmall_of_forall fun ε hε => by simpa using ⟨hy, hε.ne'⟩
  · exact (forSmall_pos hx y).mono fun ε hε => hε.ne'

/-- A ray that is tilted a little enters the interior of a triangle. -/
def Enters (d w : RepoVector3D R) (t : RepoTriangle R) : Prop :=
  (0 < triple t.a t.b t.c * triple d t.b t.c ∨
    triple t.a t.b t.c * triple d t.b t.c = 0 ∧ 0 < triple t.a t.b t.c * triple w t.b t.c) ∧
  (0 < triple t.a t.b t.c * triple d t.c t.a ∨
    triple t.a t.b t.c * triple d t.c t.a = 0 ∧ 0 < triple t.a t.b t.c * triple w t.c t.a) ∧
  (0 < triple t.a t.b t.c * triple d t.a t.b ∨
    triple t.a t.b t.c * triple d t.a t.b = 0 ∧ 0 < triple t.a t.b t.c * triple w t.a t.b)

instance (d w : RepoVector3D R) (t : RepoTriangle R) : Decidable (Enters d w t) := inferInstanceAs (Decidable (_ ∧ _))

omit [LinearOrder R] [IsStrictOrderedRing R] in
private theorem triple_tilt (d w u v : RepoVector3D R) (ε : R) :
    triple (d + w * ε) u v = triple d u v + triple w u v * ε := by
  simp only [triple, RepoVector3D.dotProduct, RepoVector3D.add_x, RepoVector3D.add_y, RepoVector3D.add_z, RepoVector3D.mul_x,
    RepoVector3D.mul_y, RepoVector3D.mul_z]
  ring

private theorem forSmall_crosses_iff (d w : RepoVector3D R) (t : RepoTriangle R) :
    ForSmall fun ε : R => (Crosses (d + w * ε) t ↔ Enters d w t) := by
  have hside : ∀ u v, ForSmall fun ε : R => (0 < triple t.a t.b t.c * triple (d + w * ε) u v ↔
      0 < triple t.a t.b t.c * triple d u v ∨
        triple t.a t.b t.c * triple d u v = 0 ∧ 0 < triple t.a t.b t.c * triple w u v) := by
    intro u v
    refine (forSmall_pos_iff (triple t.a t.b t.c * triple d u v) (triple t.a t.b t.c * triple w u v)).mono ?_
    intro ε h
    rw [triple_tilt, mul_add, ← mul_assoc]
    exact h
  refine ((hside t.b t.c).and ((hside t.c t.a).and (hside t.a t.b))).mono ?_
  rintro ε ⟨h1, h2, h3⟩
  exact and_congr h1 (and_congr h2 h3)

/-- A ray that is tilted towards a generic direction becomes generic. -/
theorem forSmall_generic (d : RepoVector3D R) {w : RepoVector3D R} (hw : Generic v faces w) :
    ForSmall fun ε : R => Generic v faces (d + w * ε) := by
  have hedges : ForSmall fun ε : R => ∀ face ∈ faces, AvoidsEdges (d + w * ε) (faceTriangle v face) := by
    refine forSmall_forall_mem fun face hface => ?_
    have havoids : ∀ u u', Avoids w u u' → ForSmall fun ε : R => Avoids (d + w * ε) u u' := by
      intro u u' h
      by_cases hne : u.crossProduct u' ≠ 0
      · refine (forSmall_ne (triple d u u') (h hne)).mono fun ε hε _ => ?_
        rwa [triple_tilt]
      · exact forSmall_of_forall fun _ _ h => absurd h hne
    obtain ⟨hab, hbc, hca⟩ := hw.edges face hface
    exact (havoids _ _ hab).and ((havoids _ _ hbc).and (havoids _ _ hca))
  have hcorners : ForSmall fun ε : R =>
      ∀ face ∈ faces, ∀ c ∈ triangleCorners (faceTriangle v face), c.crossProduct (d + w * ε) ≠ 0 := by
    refine forSmall_forall_mem fun face hface => forSmall_forall_mem fun c hc => ?_
    have hne := dotProduct_self_ne_zero (hw.corners face hface c hc)
    refine (forSmall_ne ((c.crossProduct w).dotProduct (c.crossProduct d)) hne).mono fun ε hε hzero => hε ?_
    calc (c.crossProduct w).dotProduct (c.crossProduct d) + (c.crossProduct w).dotProduct (c.crossProduct w) * ε
        = (c.crossProduct w).dotProduct (c.crossProduct (d + w * ε)) := by
          simp only [RepoVector3D.dotProduct, RepoVector3D.crossProduct, RepoVector3D.add_x, RepoVector3D.add_y,
            RepoVector3D.add_z, RepoVector3D.mul_x, RepoVector3D.mul_y, RepoVector3D.mul_z]
          ring
      _ = 0 := by
          rw [hzero]
          simp [RepoVector3D.dotProduct]
  exact (hedges.and hcorners).mono fun ε h => ⟨h.1, h.2⟩

/-- Two rays, each tilted towards a generic direction, enter an even number of triangles of a closed mesh together. -/
theorem even_countP_enters (hclosed : isClosedAndManifold faces = true)
    (h0 : ∀ face ∈ faces, (0 : RepoVector3D R) ∉ (faceTriangle v face).points) {w : RepoVector3D R}
    (hw : Generic v faces w) (d e : RepoVector3D R) :
    Even (faces.countP (fun face => decide (Enters d w (faceTriangle v face))) +
      faces.countP fun face => decide (Enters e w (faceTriangle v face))) := by
  have htilt : ∀ d, ∃ d', Generic v faces d' ∧
      faces.countP (fun face => decide (Crosses d' (faceTriangle v face))) =
        faces.countP fun face => decide (Enters d w (faceTriangle v face)) := by
    intro d
    obtain ⟨δ, hδ, h⟩ := (forSmall_generic d hw).and
      (forSmall_forall_mem fun face (_ : face ∈ faces) => forSmall_crosses_iff d w (faceTriangle v face))
    obtain ⟨hgeneric, hcrosses⟩ := h (δ / 2) (half_pos hδ) (half_lt_self hδ)
    refine ⟨_, hgeneric, List.countP_congr fun face hface => ?_⟩
    rw [decide_eq_true_iff, decide_eq_true_iff]
    exact hcrosses face hface
  obtain ⟨d', hd', hd⟩ := htilt d
  obtain ⟨e', he', he⟩ := htilt e
  rw [← hd, ← he]
  exact even_countP_crosses hclosed h0 hd' he'

end Clash

end Bouncer
