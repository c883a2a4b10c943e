import Bouncer.Datastructure.VectorAlgebra

/-!
# Closest points

`closestPoint` finds the point of a triangle next to a given point, and `closestPoints` the points of two segments next
to each other.  A point of a convex set is next to another point exactly if no direction into the set has a negative
product with the difference.  This is what both functions are shown to establish (`nearest_closestPoint`,
`closest_closestPoints`).
-/

namespace Bouncer.Clash.ClosestPoints

open RepoVector3D (norm2 add_x add_y add_z sub_x sub_y sub_z mul_x mul_y mul_z div_x div_y div_z)

variable {R : Type*} [Field R] [LinearOrder R]

/-! ### The functions -/

def closestPoint (p : RepoVector3D R) (T : RepoTriangle R) : RepoVector3D R :=
  let ab := T.b - T.a
  let ac := T.c - T.a
  let ap := p - T.a
  let d1 := ab.dotProduct ap
  let d2 := ac.dotProduct ap
  if d1 ≤ 0 ∧ d2 ≤ 0 then T.a
  else
    let bp := p - T.b
    let d3 := ab.dotProduct bp
    let d4 := ac.dotProduct bp
    if d3 ≥ 0 ∧ d4 ≤ d3 then T.b
    else
      let vc := d1 * d4 - d3 * d2
      if vc ≤ 0 ∧ d1 ≥ 0 ∧ d3 ≤ 0 then T.a + ab * (d1 / (d1 - d3))
      else
        let cp := p - T.c
        let d5 := ab.dotProduct cp
        let d6 := ac.dotProduct cp
        if d6 ≥ 0 ∧ d5 ≤ d6 then T.c
        else
          let vb := d5 * d2 - d1 * d6
          if vb ≤ 0 ∧ d2 ≥ 0 ∧ d6 ≤ 0 then T.a + ac * (d2 / (d2 - d6))
          else
            let va := d3 * d6 - d5 * d4
            if va ≤ 0 ∧ d4 - d3 ≥ 0 ∧ d5 - d6 ≥ 0 then
              T.b + (T.c - T.b) * (d4 - d3) / ((d4 - d3) + (d5 - d6))
            else
              let denom := 1 / (va + vb + vc)
              let v := vb * denom
              let w := vc * denom
              T.a + ab * v + ac * w

def dblEpsilon : R := 1 / 2 ^ 52

def clamp (v lo hi : R) : R := if v < lo then lo else if hi < v then hi else v

def direction (l : RepoLine R) : RepoVector3D R := l.endpoint - l.start

def magnitude2 (l : RepoLine R) : R := (direction l).norm2

/-- `closestPoints(A, B)` for segments. -/
def closestPoints (A B : RepoLine R) : RepoLine R :=
  let d1 := direction A
  let d2 := direction B
  let r := A.start - B.start
  let a := magnitude2 A
  let e := magnitude2 B
  let f := d2.dotProduct r
  let st : R × R :=
    if a ≤ dblEpsilon ∧ e ≤ dblEpsilon then (0, 0)
    else if a ≤ dblEpsilon then (0, clamp (f / e) 0 1)
    else
      let c := d1.dotProduct r
      if e ≤ dblEpsilon then (clamp (-c / a) 0 1, 0)
      else
        let b := d1.dotProduct d2
        let denom := a * e - b * b
        let s := if denom ≠ 0 then clamp ((b * f - c * e) / denom) 0 1 else 0
        let t := (b * s + f) / e
        if t < 0 then (clamp (-c / a) 0 1, 0)
        else if t > 1 then (clamp ((b - c) / a) 0 1, 1)
        else (s, t)
  ⟨A.start + d1 * st.1, B.start + d2 * st.2⟩

/-! ### The nearest point of a triangle -/

/-- The point of the set is next to `p`. -/
structure Nearest (q p : RepoVector3D R) (S : Set (RepoVector3D R)) : Prop where
  mem : q ∈ S
  optimal : ∀ y ∈ S, 0 ≤ (q - p).dotProduct (y - q)

variable [IsStrictOrderedRing R]

private theorem norm2_le_of_dotProduct_nonneg {q p y : RepoVector3D R} (h : 0 ≤ (q - p).dotProduct (y - q)) :
    (q - p).norm2 ≤ (y - p).norm2 := by
  have hsplit : (y - p).norm2 = (q - p).norm2 + 2 * (q - p).dotProduct (y - q) + (y - q).norm2 := by
    simp only [norm2, RepoVector3D.dotProduct, sub_x, sub_y, sub_z]
    ring
  have := (y - q).norm2_nonneg
  linarith

theorem Nearest.norm2_le {q p y : RepoVector3D R} {S : Set (RepoVector3D R)} (h : Nearest q p S) (hy : y ∈ S) :
    (q - p).norm2 ≤ (y - p).norm2 :=
  norm2_le_of_dotProduct_nonneg (h.optimal y hy)

/-- The regions on the far side of a side of the triangle.  The side starts in the origin, with the square `α` of its
length, the square `γ` of the length of the next side and their product `β`; `x` and `y` are the products with a point
that is behind the start. -/
private theorem outside_edge {α β γ x y : R} (hγ : 0 < γ) (hdet : 0 < α * γ - β * β)
    (houtside : α * y - β * x ≤ 0) (hx : x < 0) :
    y ≤ 0 ∨ (0 ≤ y ∧ y ≤ γ ∧ γ * x - β * y ≤ 0) ∨ (x - β ≤ y - γ ∧ γ ≤ y) := by
  by_cases hy : y ≤ 0
  · exact Or.inl hy
  have hy := not_le.1 hy
  have hα : 0 < α := by
    by_contra h
    nlinarith [mul_self_nonneg β, mul_nonpos_of_nonpos_of_nonneg (not_lt.1 h) hγ.le]
  have hβ : β < 0 := by
    by_contra h
    have := mul_pos hα hy
    have := mul_nonpos_of_nonneg_of_nonpos (not_lt.1 h) hx.le
    linarith
  have hside : γ * x - β * y < 0 := by
    have hpos : 0 < β * (γ * x - β * y) := by
      have := mul_pos hdet hy
      have := mul_nonpos_of_nonneg_of_nonpos hγ.le houtside
      linarith
    exact neg_of_mul_pos_right hpos hβ.le
  rcases le_total y γ with hyγ | hyγ
  · exact Or.inr (Or.inl ⟨hy.le, hyγ, hside.le⟩)
  · refine Or.inr (Or.inr ⟨?_, hyγ⟩)
    have hle : β * (y - γ) ≤ 0 := mul_nonpos_of_nonpos_of_nonneg hβ.le (sub_nonneg.2 hyγ)
    have hxβ : γ * (x - β) < 0 := by linarith
    have := neg_of_mul_neg_right hxβ hγ.le
    linarith

/-- The square of the length of the third side. -/
theorem third_side_pos {α β γ : R} (hα : 0 < α) (hdet : 0 < α * γ - β * β) : 0 < α + γ - 2 * β := by
  nlinarith [mul_self_nonneg (α - β), mul_self_nonneg (γ - β)]

/-- A point in none of the outer regions is inside of all sides. -/
private theorem inside {α β γ x y : R} (hα : 0 < α) (hγ : 0 < γ) (hdet : 0 < α * γ - β * β)
    (ha : ¬(x ≤ 0 ∧ y ≤ 0)) (hb : ¬(x - α ≥ 0 ∧ y - β ≤ x - α))
    (hab : ¬(x * (y - β) - (x - α) * y ≤ 0 ∧ x ≥ 0 ∧ x - α ≤ 0)) (hc : ¬(y - γ ≥ 0 ∧ x - β ≤ y - γ))
    (hac : ¬((x - β) * y - x * (y - γ) ≤ 0 ∧ y ≥ 0 ∧ y - γ ≤ 0))
    (hbc : ¬((x - α) * (y - γ) - (x - β) * (y - β) ≤ 0 ∧ (y - β) - (x - α) ≥ 0 ∧ (x - β) - (y - γ) ≥ 0)) :
    0 < x * (y - β) - (x - α) * y ∧ 0 < (x - β) * y - x * (y - γ) ∧
      0 < (x - α) * (y - γ) - (x - β) * (y - β) := by
  have hbcpos := third_side_pos hα hdet
  refine ⟨?_, ?_, ?_⟩
  · by_contra h
    have h := not_lt.1 h
    rcases lt_or_ge x 0 with hx | hx
    · rcases outside_edge hγ hdet (by linarith) hx with h' | ⟨h₁, h₂, h₃⟩ | ⟨h₁, h₂⟩
      · exact ha ⟨hx.le, h'⟩
      · exact hac ⟨by linarith, h₁, by linarith⟩
      · exact hc ⟨by linarith, h₁⟩
    · have hx' : 0 < x - α := lt_of_not_ge fun h' => hab ⟨h, hx, h'⟩
      rcases outside_edge (α := α) (β := α - β) (x := -(x - α)) (y := (y - β) - (x - α)) hbcpos (by linarith)
        (by linarith) (by linarith) with h' | ⟨h₁, h₂, h₃⟩ | ⟨h₁, h₂⟩
      · exact hb ⟨hx'.le, by linarith⟩
      · exact hbc ⟨by linarith, h₁, by linarith⟩
      · exact hc ⟨by linarith, by linarith⟩
  · by_contra h
    have h := not_lt.1 h
    rcases lt_or_ge y 0 with hy | hy
    · rcases outside_edge (α := γ) (β := β) (x := y) (y := x) hα (by linarith) (by linarith) hy
        with h' | ⟨h₁, h₂, h₃⟩ | ⟨h₁, h₂⟩
      · exact ha ⟨h', hy.le⟩
      · exact hab ⟨by linarith, h₁, by linarith⟩
      · exact hb ⟨by linarith, by linarith⟩
    · have hy' : 0 < y - γ := lt_of_not_ge fun h' => hac ⟨h, hy, h'⟩
      rcases outside_edge (α := γ) (β := γ - β) (x := -(y - γ)) (y := (x - β) - (y - γ)) hbcpos (by linarith)
        (by linarith) (by linarith) with h' | ⟨h₁, h₂, h₃⟩ | ⟨h₁, h₂⟩
      · exact hc ⟨hy'.le, by linarith⟩
      · exact hbc ⟨by linarith, by linarith, h₁⟩
      · exact hb ⟨by linarith, by linarith⟩
  · by_contra h
    have h := not_lt.1 h
    rcases lt_or_ge ((y - β) - (x - α)) 0 with hy | hy
    · rcases outside_edge (α := α + γ - 2 * β) (β := α - β) (x := (y - β) - (x - α)) (y := -(x - α)) hα (by linarith)
        (by linarith) hy with h' | ⟨h₁, h₂, h₃⟩ | ⟨h₁, h₂⟩
      · exact hb ⟨by linarith, by linarith⟩
      · exact hab ⟨by linarith, by linarith, by linarith⟩
      · exact ha ⟨by linarith, by linarith⟩
    · have hx' : (x - β) - (y - γ) < 0 := lt_of_not_ge fun h' => hbc ⟨h, hy, h'⟩
      rcases outside_edge (α := α + γ - 2 * β) (β := γ - β) (x := (x - β) - (y - γ)) (y := -(y - γ)) hγ (by linarith)
        (by linarith) hx' with h' | ⟨h₁, h₂, h₃⟩ | ⟨h₁, h₂⟩
      · exact hc ⟨by linarith, by linarith⟩
      · exact hac ⟨by linarith, by linarith, by linarith⟩
      · exact ha ⟨by linarith, by linarith⟩

section Triangle

variable {T : RepoTriangle R} {p : RepoVector3D R}

/-- The weights `v` and `w` of the second and the third corner of a triangle are such that the distance does not get
smaller towards any corner.  The sides at the first corner have the squares `α` and `γ` and the product `β`, and the
products `x` and `y` with the point. -/
structure StationaryWeights (α β γ x y v w : R) : Prop where
  v_nonneg : 0 ≤ v
  w_nonneg : 0 ≤ w
  add_le_one : v + w ≤ 1
  a : 0 ≤ (α * v + β * w - x) * (0 - v) + (β * v + γ * w - y) * (0 - w)
  b : 0 ≤ (α * v + β * w - x) * (1 - v) + (β * v + γ * w - y) * (0 - w)
  c : 0 ≤ (α * v + β * w - x) * (0 - v) + (β * v + γ * w - y) * (1 - w)

namespace StationaryWeights

variable {α β γ x y v w : R}

private theorem swap (h : StationaryWeights γ β α y x w v) : StationaryWeights α β γ x y v w where
  v_nonneg := h.w_nonneg
  w_nonneg := h.v_nonneg
  add_le_one := by linarith [h.add_le_one]
  a := by linarith [h.a]
  b := by linarith [h.c]
  c := by linarith [h.b]

omit [IsStrictOrderedRing R] in
private theorem of_derivatives {g h : R} (hv : 0 ≤ v) (hw : 0 ≤ w) (hvw : v + w ≤ 1) (hg : α * v + β * w - x = g)
    (hh : β * v + γ * w - y = h) (ha : 0 ≤ g * (0 - v) + h * (0 - w)) (hb : 0 ≤ g * (1 - v) + h * (0 - w))
    (hc : 0 ≤ g * (0 - v) + h * (1 - w)) : StationaryWeights α β γ x y v w := by
  subst hg hh
  exact ⟨hv, hw, hvw, ha, hb, hc⟩

private theorem corner_a (h : x ≤ 0 ∧ y ≤ 0) : StationaryWeights α β γ x y 0 0 where
  v_nonneg := le_rfl
  w_nonneg := le_rfl
  add_le_one := by linarith
  a := by linarith
  b := by linarith [h.1]
  c := by linarith [h.2]

private theorem corner_b (h : x - α ≥ 0 ∧ y - β ≤ x - α) : StationaryWeights α β γ x y 1 0 where
  v_nonneg := zero_le_one
  w_nonneg := le_rfl
  add_le_one := by linarith
  a := by linarith [h.1]
  b := by linarith
  c := by linarith [h.2]

private theorem side_ab (hα : 0 < α) (h : x * (y - β) - (x - α) * y ≤ 0 ∧ x ≥ 0 ∧ x - α ≤ 0) :
    StationaryWeights α β γ x y (x / α) 0 := by
  obtain ⟨hvc, hx, hxα⟩ := h
  have hcancel : α * (x / α) = x := mul_div_cancel₀ _ hα.ne'
  have hh : 0 ≤ β * (x / α) - y := by
    have hdiv : β * (x / α) - y = (β * x - α * y) / α := by
      field_simp
    rw [hdiv]
    exact div_nonneg (by linarith) hα.le
  have hle : x / α ≤ 1 := (div_le_one hα).2 (sub_nonpos.1 hxα)
  apply of_derivatives (g := 0) (h := β * (x / α) - y) (div_nonneg hx hα.le) le_rfl
  · linarith
  · linarith
  · linarith
  · linarith
  · linarith
  · linarith

private theorem side_bc (hd : 0 < α + γ - 2 * β)
    (h : (x - α) * (y - γ) - (x - β) * (y - β) ≤ 0 ∧ (y - β) - (x - α) ≥ 0 ∧ (x - β) - (y - γ) ≥ 0) :
    StationaryWeights α β γ x y (1 - (y - β - (x - α)) / (α + γ - 2 * β)) ((y - β - (x - α)) / (α + γ - 2 * β)) := by
  obtain ⟨hva, hy, hx⟩ := h
  obtain ⟨d, hdenom⟩ : ∃ d, α + γ - 2 * β = d := ⟨_, rfl⟩
  rw [hdenom] at hd ⊢
  have hne := hd.ne'
  have hw1 : (y - β - (x - α)) / d ≤ 1 := (div_le_one hd).2 (by linarith)
  have hg : ((x - α) * (y - γ) - (x - β) * (y - β)) / d ≤ 0 := div_nonpos_of_nonpos_of_nonneg hva hd.le
  -- the derivatives along both sides agree
  apply of_derivatives (g := ((x - α) * (y - γ) - (x - β) * (y - β)) / d)
    (h := ((x - α) * (y - γ) - (x - β) * (y - β)) / d) (by linarith) (div_nonneg hy hd.le)
  · linarith
  · field_simp
    rw [← hdenom]
    ring
  · field_simp
    rw [← hdenom]
    ring
  · linarith
  · linarith
  · linarith

private theorem interior (hdet : 0 < α * γ - β * β)
    (h : 0 < x * (y - β) - (x - α) * y ∧ 0 < (x - β) * y - x * (y - γ) ∧
      0 < (x - α) * (y - γ) - (x - β) * (y - β)) :
    StationaryWeights α β γ x y (((x - β) * y - x * (y - γ)) * (1 / (α * γ - β * β)))
      ((x * (y - β) - (x - α) * y) * (1 / (α * γ - β * β))) := by
  obtain ⟨hvc, hvb, hva⟩ := h
  obtain ⟨d, hd⟩ : ∃ d, α * γ - β * β = d := ⟨_, rfl⟩
  rw [hd] at hdet ⊢
  have hne := hdet.ne'
  have hinv := one_div_nonneg.2 hdet.le
  apply of_derivatives (g := 0) (h := 0) (mul_nonneg hvb.le hinv) (mul_nonneg hvc.le hinv)
  · rw [← add_mul, mul_one_div, div_le_one hdet]
    linarith
  · field_simp
    rw [← hd]
    ring
  · field_simp
    rw [← hd]
    ring
  · linarith
  · linarith
  · linarith

end StationaryWeights

/-- Stationary weights are those of the point of the triangle next to `p`. -/
private theorem nearest_of_stationary {v w : R}
    (h : StationaryWeights ((T.b - T.a).dotProduct (T.b - T.a)) ((T.b - T.a).dotProduct (T.c - T.a))
      ((T.c - T.a).dotProduct (T.c - T.a)) ((T.b - T.a).dotProduct (p - T.a)) ((T.c - T.a).dotProduct (p - T.a)) v w)
    {q : RepoVector3D R} (hq : q = T.a + (T.b - T.a) * v + (T.c - T.a) * w) : Nearest q p T.points := by
  refine ⟨⟨1 - v - w, v, w, by linarith [h.add_le_one], h.v_nonneg, h.w_nonneg, by ring, ?_⟩, ?_⟩
  · rw [hq]
    ext <;> simp only [add_x, add_y, add_z, sub_x, sub_y, sub_z, mul_x, mul_y, mul_z] <;> ring
  · rintro y ⟨x, v', w', hx, hv', hw', hsum, rfl⟩
    obtain rfl : x = 1 - v' - w' := by linarith
    obtain ⟨-, -, -, ha, hb, hc⟩ := h
    obtain ⟨g, hg⟩ : ∃ g, (T.b - T.a).dotProduct (T.b - T.a) * v + (T.b - T.a).dotProduct (T.c - T.a) * w -
      (T.b - T.a).dotProduct (p - T.a) = g := ⟨_, rfl⟩
    obtain ⟨h, hh⟩ : ∃ h, (T.b - T.a).dotProduct (T.c - T.a) * v + (T.c - T.a).dotProduct (T.c - T.a) * w -
      (T.c - T.a).dotProduct (p - T.a) = h := ⟨_, rfl⟩
    rw [hg, hh] at ha hb hc
    have hsplit : (q - p).dotProduct (T.a * (1 - v' - w') + T.b * v' + T.c * w' - q) =
        (1 - v' - w') * (g * (0 - v) + h * (0 - w)) + v' * (g * (1 - v) + h * (0 - w)) +
          w' * (g * (0 - v) + h * (1 - w)) := by
      rw [hq, ← hg, ← hh]
      simp only [RepoVector3D.dotProduct, add_x, add_y, add_z, sub_x, sub_y, sub_z, mul_x, mul_y, mul_z]
      ring
    rw [hsplit]
    exact add_nonneg (add_nonneg (mul_nonneg hx ha) (mul_nonneg hv' hb)) (mul_nonneg hw' hc)

/-- The sides of a triangle that is not degenerate. -/
theorem sides_pos (hT : (T.b - T.a).crossProduct (T.c - T.a) ≠ 0) :
    0 < (T.b - T.a).dotProduct (T.b - T.a) ∧ 0 < (T.c - T.a).dotProduct (T.c - T.a) ∧
      0 < (T.b - T.a).dotProduct (T.b - T.a) * (T.c - T.a).dotProduct (T.c - T.a) -
        (T.b - T.a).dotProduct (T.c - T.a) * (T.b - T.a).dotProduct (T.c - T.a) := by
  have hT := RepoVector3D.norm2_pos hT
  rw [RepoVector3D.norm2_crossProduct] at hT
  have hprod := hT.trans_le (sub_le_self _ (mul_self_nonneg _))
  have hb : 0 ≤ (T.b - T.a).dotProduct (T.b - T.a) := (T.b - T.a).norm2_nonneg
  have hc : 0 ≤ (T.c - T.a).dotProduct (T.c - T.a) := (T.c - T.a).norm2_nonneg
  exact ⟨pos_of_mul_pos_left hprod hc, pos_of_mul_pos_right hprod hb, hT⟩

omit [LinearOrder R] [IsStrictOrderedRing R] in
/-- A product with a point, as it is seen from another one. -/
theorem dotProduct_sub_eq (n p a b : RepoVector3D R) :
    n.dotProduct (p - b) = n.dotProduct (p - a) - n.dotProduct (b - a) := by
  simp only [RepoVector3D.dotProduct, sub_x, sub_y, sub_z]
  ring

/-- `closestPoint` returns the point of a triangle next to a given point. -/
theorem nearest_closestPoint (hT : (T.b - T.a).crossProduct (T.c - T.a) ≠ 0) :
    Nearest (closestPoint p T) p T.points := by
  obtain ⟨hα, hγ, hdet⟩ := sides_pos hT
  have hnearest := fun v w => nearest_of_stationary (T := T) (p := p) (v := v) (w := w)
  unfold closestPoint
  dsimp only
  rw [dotProduct_sub_eq _ p T.a T.b, dotProduct_sub_eq _ p T.a T.b, dotProduct_sub_eq _ p T.a T.c,
    dotProduct_sub_eq _ p T.a T.c, RepoVector3D.dotProduct_comm (T.c - T.a) (T.b - T.a)]
  generalize (T.b - T.a).dotProduct (T.b - T.a) = α at *
  generalize (T.b - T.a).dotProduct (T.c - T.a) = β at *
  generalize (T.c - T.a).dotProduct (T.c - T.a) = γ at *
  generalize (T.b - T.a).dotProduct (p - T.a) = x at *
  generalize (T.c - T.a).dotProduct (p - T.a) = y at *
  split_ifs with ha hb hab hc hac hbc
  · exact hnearest _ _ (.corner_a ha) (by ext <;> simp)
  · exact hnearest _ _ (.corner_b hb) (by ext <;> simp)
  · rw [sub_sub_cancel]
    exact hnearest _ _ (.side_ab hα hab) (by ext <;> simp)
  · exact hnearest _ _ (StationaryWeights.corner_b hc).swap (by ext <;> simp)
  · rw [sub_sub_cancel]
    have hside : StationaryWeights γ β α y x (y / γ) 0 := .side_ab hγ ⟨by linarith [hac.1], hac.2⟩
    exact hnearest _ _ hside.swap (by ext <;> simp)
  · have hdenom : y - β - (x - α) + (x - β - (y - γ)) = α + γ - 2 * β := by ring
    rw [hdenom]
    refine hnearest _ _ (.side_bc (third_side_pos hα hdet) hbc) ?_
    ext <;> simp only [add_x, add_y, add_z, sub_x, sub_y, sub_z, mul_x, mul_y, mul_z, div_x, div_y, div_z] <;> ring
  · have hdenom : (x - α) * (y - γ) - (x - β) * (y - β) + ((x - β) * y - x * (y - γ)) +
        (x * (y - β) - (x - α) * y) = α * γ - β * β := by ring
    rw [hdenom]
    exact hnearest _ _ (.interior hdet (inside hα hγ hdet ha hb hab hc hac hbc)) rfl

end Triangle

/-! ### The closest points of two segments -/

/-- The points of a line from its start to its end. -/
def segmentPoints (l : RepoLine R) : Set (RepoVector3D R) := {p | ∃ t : R, 0 ≤ t ∧ t ≤ 1 ∧ p = l.start + direction l * t}

/-- The line joins the sets, and each lies on its side of the slab between the planes through its ends. -/
structure Closest (l : RepoLine R) (S S' : Set (RepoVector3D R)) : Prop where
  start : l.start ∈ S
  endpoint : l.endpoint ∈ S'
  behind : ∀ x ∈ S, (direction l).dotProduct (x - l.start) ≤ 0
  ahead : ∀ y ∈ S', 0 ≤ (direction l).dotProduct (y - l.endpoint)

theorem Closest.magnitude2_le {l : RepoLine R} {S S' : Set (RepoVector3D R)} (h : Closest l S S')
    {x y : RepoVector3D R} (hx : x ∈ S) (hy : y ∈ S') : magnitude2 l ≤ (y - x).norm2 := by
  have hsplit : (y - x).norm2 = magnitude2 l + 2 * ((direction l).dotProduct (y - l.endpoint) -
      (direction l).dotProduct (x - l.start)) + ((y - l.endpoint) - (x - l.start)).norm2 := by
    simp only [magnitude2, direction, norm2, RepoVector3D.dotProduct, sub_x, sub_y, sub_z]
    ring
  have := h.behind x hx
  have := h.ahead y hy
  have := ((y - l.endpoint) - (x - l.start)).norm2_nonneg
  linarith

omit [IsStrictOrderedRing R] in
private theorem clamp_mem {v : R} (h : (0 : R) ≤ 1) : 0 ≤ clamp v 0 1 ∧ clamp v 0 1 ≤ 1 := by
  unfold clamp
  split_ifs with h1 h2
  · exact ⟨le_rfl, h⟩
  · exact ⟨h, le_rfl⟩
  · exact ⟨not_lt.1 h1, not_lt.1 h2⟩

private theorem clamp_optimal {m n t : R} (hm : 0 < m) (h0 : 0 ≤ t) (h1 : t ≤ 1) :
    0 ≤ (m * clamp (n / m) 0 1 - n) * (t - clamp (n / m) 0 1) := by
  unfold clamp
  split_ifs with hlo hhi
  · have : n < 0 := by rwa [div_lt_iff₀ hm, zero_mul] at hlo
    exact mul_nonneg (by linarith) (by linarith)
  · have : m < n := by rwa [lt_div_iff₀ hm, one_mul] at hhi
    exact mul_nonneg_of_nonpos_of_nonpos (by linarith) (by linarith)
  · rw [mul_div_cancel₀ _ hm.ne', sub_self, zero_mul]

/-- Neither derivative of the squared distance of two segments has a direction that leads to a smaller one. -/
structure Stationary (a b c e f s t : R) : Prop where
  zero_le_s : 0 ≤ s
  s_le_one : s ≤ 1
  zero_le_t : 0 ≤ t
  t_le_one : t ≤ 1
  along : ∀ s', 0 ≤ s' → s' ≤ 1 → 0 ≤ (c + a * s - b * t) * (s' - s)
  across : ∀ t', 0 ≤ t' → t' ≤ 1 → 0 ≤ (e * t - f - b * s) * (t' - t)

section Stationary

variable {a b c e f s t : R}

/-- Once the second point leaves its segment at the start, the first one that is next to the start keeps it there. -/
private theorem across_of_neg {s₀ : R} (he : 0 < e) (hdenom : 0 ≤ a * e - b * b)
    (hopt₀ : 0 ≤ (c + a * s₀ - b * ((b * s₀ + f) / e)) * (s - s₀)) (hopt : 0 ≤ (c + a * s) * (s₀ - s))
    (ht : (b * s₀ + f) / e < 0) : b * s + f ≤ 0 := by
  obtain ⟨t₀, ht₀⟩ : ∃ t₀, (b * s₀ + f) / e = t₀ := ⟨_, rfl⟩
  rw [ht₀] at hopt₀ ht
  have hf : f = e * t₀ - b * s₀ := by
    rw [← ht₀]
    field_simp
    ring
  by_contra hpos
  have hpos := not_le.1 hpos
  -- with `d = s - s₀`: `b d > 0`, and `a d² ≤ -t₀ b d`
  have hd : 0 < b * (s - s₀) := by
    have := mul_neg_of_pos_of_neg he ht
    linarith
  have hsum : a * (s - s₀) * (s - s₀) ≤ -t₀ * (b * (s - s₀)) := by linarith
  have hlow : b * (s - s₀) * (b * (s - s₀)) ≤ -(e * t₀) * (b * (s - s₀)) := by
    have h1 := mul_le_mul_of_nonneg_left hsum he.le
    have h2 := mul_nonneg hdenom (mul_self_nonneg (s - s₀))
    linarith
  have := le_of_mul_le_mul_right hlow hd
  linarith

/-- The parameters that the function computes from the products of the directions and the difference of the starts. -/
private theorem stationary_ite (ha : 0 < a) (he : 0 < e) (hdenom : 0 ≤ a * e - b * b)
    (hparallel : a * e - b * b = 0 → c * e = b * f)
    (hs : s = if a * e - b * b ≠ 0 then clamp ((b * f - c * e) / (a * e - b * b)) 0 1 else 0)
    {st : R × R} (hst : st = if (b * s + f) / e < 0 then (clamp (-c / a) 0 1, 0)
      else if (b * s + f) / e > 1 then (clamp ((b - c) / a) 0 1, 1) else (s, (b * s + f) / e)) :
    Stationary a b c e f st.1 st.2 := by
  have hmem : 0 ≤ s ∧ s ≤ 1 := by
    rw [hs]
    split_ifs
    · exact clamp_mem zero_le_one
    · exact ⟨le_rfl, zero_le_one⟩
  -- `s` is optimal for the distance of the line through the second segment
  have hline : ∀ s', 0 ≤ s' → s' ≤ 1 → 0 ≤ (c + a * s - b * ((b * s + f) / e)) * (s' - s) := by
    intro s' h0 h1
    have hscale : c + a * s - b * ((b * s + f) / e) = ((a * e - b * b) * s - (b * f - c * e)) / e := by
      field_simp
      ring
    rw [hscale, div_mul_eq_mul_div]
    refine div_nonneg ?_ he.le
    by_cases hzero : a * e - b * b = 0
    · rw [hzero, hparallel hzero]
      linarith
    · rw [hs, if_pos hzero]
      exact clamp_optimal (hdenom.lt_of_ne' hzero) h0 h1
  obtain ⟨t₀, ht₀⟩ : ∃ t₀, (b * s + f) / e = t₀ := ⟨_, rfl⟩
  have hf : e * t₀ = b * s + f := by rw [← ht₀, mul_div_cancel₀ _ he.ne']
  rw [ht₀] at hst hline
  split_ifs at hst with hlo hhi
  · subst hst
    obtain ⟨h0, h1⟩ := clamp_mem (v := -c / a) zero_le_one
    have hopt : ∀ s', 0 ≤ s' → s' ≤ 1 → 0 ≤ (c + a * clamp (-c / a) 0 1) * (s' - clamp (-c / a) 0 1) := by
      intro s' h0 h1
      have := clamp_optimal (n := -c) ha h0 h1
      rwa [sub_neg_eq_add, add_comm] at this
    refine ⟨h0, h1, le_rfl, zero_le_one, ?_, ?_⟩
    · intro s' h0 h1
      rw [mul_zero, sub_zero]
      exact hopt s' h0 h1
    · intro t' h0' h1'
      have := across_of_neg he hdenom (by rw [ht₀]; exact hline _ h0 h1) (hopt s hmem.1 hmem.2) (by rwa [ht₀])
      exact mul_nonneg (by linarith) (by linarith)
  · subst hst
    obtain ⟨h0, h1⟩ := clamp_mem (v := (b - c) / a) zero_le_one
    have hopt : ∀ s', 0 ≤ s' → s' ≤ 1 → 0 ≤ (c + a * clamp ((b - c) / a) 0 1 - b) * (s' - clamp ((b - c) / a) 0 1) := by
      intro s' h0 h1
      have := clamp_optimal (n := b - c) ha h0 h1
      convert this using 2
      ring
    refine ⟨h0, h1, zero_le_one, le_rfl, ?_, ?_⟩
    · intro s' h0 h1
      rw [mul_one]
      exact hopt s' h0 h1
    · intro t' h0' h1'
      -- the second segment, from its end to its start
      have ht₀' : (-b * s + (e - f)) / e = 1 - t₀ := by
        rw [← ht₀]
        field_simp
        ring
      have := across_of_neg (a := a) (b := -b) (c := c - b) (f := e - f) he (by linarith)
        (by rw [ht₀']; convert hline _ h0 h1 using 2; ring)
        (by convert hopt s hmem.1 hmem.2 using 2; ring)
        (by rw [ht₀']; linarith)
      exact mul_nonneg_of_nonpos_of_nonpos (by linarith) (by linarith)
  · subst hst
    refine ⟨hmem.1, hmem.2, not_lt.1 hlo, not_lt.1 hhi, hline, ?_⟩
    intro t' _ _
    have : e * t₀ - f - b * s = 0 := by linarith
    rw [this, zero_mul]

end Stationary

private theorem closest_of_stationary {A B : RepoLine R} {s t : R}
    (h : Stationary (magnitude2 A) ((direction A).dotProduct (direction B))
      ((direction A).dotProduct (A.start - B.start)) (magnitude2 B) ((direction B).dotProduct (A.start - B.start)) s t) :
    Closest ⟨A.start + direction A * s, B.start + direction B * t⟩ (segmentPoints A) (segmentPoints B) := by
  refine ⟨⟨s, h.zero_le_s, h.s_le_one, rfl⟩, ⟨t, h.zero_le_t, h.t_le_one, rfl⟩, ?_, ?_⟩
  · rintro x ⟨s', h0, h1, rfl⟩
    rw [← neg_nonneg]
    convert h.along s' h0 h1 using 1
    simp only [magnitude2, direction, norm2, RepoVector3D.dotProduct, add_x, add_y, add_z, sub_x, sub_y, sub_z, mul_x,
      mul_y, mul_z]
    ring
  · rintro y ⟨t', h0, h1, rfl⟩
    convert h.across t' h0 h1 using 1
    simp only [magnitude2, direction, norm2, RepoVector3D.dotProduct, add_x, add_y, add_z, sub_x, sub_y, sub_z, mul_x,
      mul_y, mul_z]
    ring

theorem dblEpsilon_pos : 0 < (dblEpsilon : R) := by
  unfold dblEpsilon
  positivity

/-- `closestPoints` returns the points of two segments next to each other. -/
theorem closest_closestPoints {A B : RepoLine R} (hA : dblEpsilon < magnitude2 A) (hB : dblEpsilon < magnitude2 B) :
    Closest (closestPoints A B) (segmentPoints A) (segmentPoints B) := by
  have ha := dblEpsilon_pos.trans hA
  have hb := dblEpsilon_pos.trans hB
  have hlagrange := RepoVector3D.norm2_crossProduct (direction A) (direction B)
  unfold closestPoints
  dsimp only
  rw [if_neg fun h => hA.not_ge h.1, if_neg hA.not_ge, if_neg hB.not_ge]
  refine closest_of_stationary (stationary_ite ha hb ?_ ?_ rfl rfl)
  · have := RepoVector3D.norm2_nonneg ((direction A).crossProduct (direction B))
    rwa [hlagrange] at this
  · intro hzero
    have hcross := RepoVector3D.eq_zero_of_norm2 (hlagrange.trans hzero)
    have hx := congrArg RepoVector3D.x hcross
    have hy := congrArg RepoVector3D.y hcross
    have hz := congrArg RepoVector3D.z hcross
    simp only [RepoVector3D.crossProduct, RepoVector3D.zero_x, RepoVector3D.zero_y, RepoVector3D.zero_z] at hx hy hz
    -- the triple product of the difference of the starts, the second direction and the cross product
    simp only [magnitude2, norm2, RepoVector3D.dotProduct]
    linear_combination ((A.start - B.start).y * (direction B).z - (A.start - B.start).z * (direction B).y) * hx +
      ((A.start - B.start).z * (direction B).x - (A.start - B.start).x * (direction B).z) * hy +
      ((A.start - B.start).x * (direction B).y - (A.start - B.start).y * (direction B).x) * hz

end Bouncer.Clash.ClosestPoints
