import Bouncer.Clash.ClosestPoints

/-!
# Divisions of the closest points

In the models of `closestPoint` and `closestPoints` a division by zero gives zero.  Here the divisions are checked, and
a division by zero has no result.

The divisors of `closestPoint` depend on the triangle only: they are the squares of its sides and of twice its area.
Those of `closestPoints` are the squared lengths of the segments, once they are known to be no points, and a determinant
that is not zero for segments that are not parallel.  So no pair of segments leads to a division by zero
(`closestPointsChecked_eq`).
-/

namespace Bouncer.Clash.ClosestPoints

open RepoVector3D (norm2 add_x add_y add_z sub_x sub_y sub_z mul_x mul_y mul_z div_x div_y div_z)

variable {R : Type*} [Field R] [LinearOrder R]

/-- A division that has no result if the divisor is zero. -/
def divide (a b : R) : Option R := if b = 0 then none else some (a / b)

/-- `operator/` for a vector and a number, which throws on a division by zero. -/
def divideVector (v : RepoVector3D R) (b : R) : Option (RepoVector3D R) := if b = 0 then none else some (v / b)

private theorem divide_of_ne (a : R) {b : R} (h : b ≠ 0) : divide a b = some (a / b) := if_neg h

private theorem divideVector_of_ne (v : RepoVector3D R) {b : R} (h : b ≠ 0) : divideVector v b = some (v / b) := if_neg h

/-- `closestPoint(p, T)`, with checked divisions. -/
def closestPointChecked (p : RepoVector3D R) (T : RepoTriangle R) : Option (RepoVector3D R) :=
  let ab := T.b - T.a
  let ac := T.c - T.a
  let ap := p - T.a
  let d1 := ab.dotProduct ap
  let d2 := ac.dotProduct ap
  if d1 ≤ 0 ∧ d2 ≤ 0 then some T.a
  else
    let bp := p - T.b
    let d3 := ab.dotProduct bp
    let d4 := ac.dotProduct bp
    if d3 ≥ 0 ∧ d4 ≤ d3 then some T.b
    else
      let vc := d1 * d4 - d3 * d2
      if vc ≤ 0 ∧ d1 ≥ 0 ∧ d3 ≤ 0 then do
        let v ← divide d1 (d1 - d3)
        return T.a + ab * v
      else
        let cp := p - T.c
        let d5 := ab.dotProduct cp
        let d6 := ac.dotProduct cp
        if d6 ≥ 0 ∧ d5 ≤ d6 then some T.c
        else
          let vb := d5 * d2 - d1 * d6
          if vb ≤ 0 ∧ d2 ≥ 0 ∧ d6 ≤ 0 then do
            let w ← divide d2 (d2 - d6)
            return T.a + ac * w
          else
            let va := d3 * d6 - d5 * d4
            if va ≤ 0 ∧ d4 - d3 ≥ 0 ∧ d5 - d6 ≥ 0 then do
              let bw ← divideVector ((T.c - T.b) * (d4 - d3)) ((d4 - d3) + (d5 - d6))
              return T.b + bw
            else do
              let denom ← divide 1 (va + vb + vc)
              let v := vb * denom
              let w := vc * denom
              return T.a + ab * v + ac * w

/-- The second parameter of `closestPoints` for the first one `s`, and the first one again if the second is clamped. -/
def clampSecond (a b c e f s : R) : Option (R × R) := do
  let t ← divide (b * s + f) e
  if t < 0 then
    let s ← divide (-c) a
    return (clamp s 0 1, 0)
  else if t > 1 then
    let s ← divide (b - c) a
    return (clamp s 0 1, 1)
  else return (s, t)

/-- `closestPoints(A, B)` for segments, with checked divisions. -/
def closestPointsChecked (A B : RepoLine R) : Option (RepoLine R) :=
  let d1 := direction A
  let d2 := direction B
  let r := A.start - B.start
  let a := magnitude2 A
  let e := magnitude2 B
  let f := d2.dotProduct r
  let st : Option (R × R) :=
    if a ≤ dblEpsilon ∧ e ≤ dblEpsilon then some (0, 0)
    else if a ≤ dblEpsilon then do
      let t ← divide f e
      return (0, clamp t 0 1)
    else
      let c := d1.dotProduct r
      if e ≤ dblEpsilon then do
        let s ← divide (-c) a
        return (clamp s 0 1, 0)
      else
        let b := d1.dotProduct d2
        let denom := a * e - b * b
        if denom ≠ 0 then do
          let s ← divide (b * f - c * e) denom
          clampSecond a b c e f (clamp s 0 1)
        else clampSecond a b c e f 0
  st.map fun st => ⟨A.start + d1 * st.1, B.start + d2 * st.2⟩

variable [IsStrictOrderedRing R] {T : RepoTriangle R} {p : RepoVector3D R}

/-- The divisors are not zero if the triangle is not degenerate. -/
structure Divisors (T : RepoTriangle R) (p : RepoVector3D R) : Prop where
  ab : (T.b - T.a).dotProduct (p - T.a) - (T.b - T.a).dotProduct (p - T.b) ≠ 0
  ac : (T.c - T.a).dotProduct (p - T.a) - (T.c - T.a).dotProduct (p - T.c) ≠ 0
  bc : (T.c - T.a).dotProduct (p - T.b) - (T.b - T.a).dotProduct (p - T.b) +
    ((T.b - T.a).dotProduct (p - T.c) - (T.c - T.a).dotProduct (p - T.c)) ≠ 0
  abc : (T.b - T.a).dotProduct (p - T.b) * (T.c - T.a).dotProduct (p - T.c) -
      (T.b - T.a).dotProduct (p - T.c) * (T.c - T.a).dotProduct (p - T.b) +
    ((T.b - T.a).dotProduct (p - T.c) * (T.c - T.a).dotProduct (p - T.a) -
      (T.b - T.a).dotProduct (p - T.a) * (T.c - T.a).dotProduct (p - T.c)) +
    ((T.b - T.a).dotProduct (p - T.a) * (T.c - T.a).dotProduct (p - T.b) -
      (T.b - T.a).dotProduct (p - T.b) * (T.c - T.a).dotProduct (p - T.a)) ≠ 0

private theorem divisors (hT : (T.b - T.a).crossProduct (T.c - T.a) ≠ 0) (p : RepoVector3D R) : Divisors T p := by
  obtain ⟨hα, hγ, hdet⟩ := sides_pos hT
  have hthird := third_side_pos hα hdet
  refine ⟨?_, ?_, ?_, ?_⟩
  all_goals
    simp only [dotProduct_sub_eq _ p T.a T.b, dotProduct_sub_eq _ p T.a T.c,
      RepoVector3D.dotProduct_comm (T.c - T.a) (T.b - T.a)]
  · rw [sub_sub_cancel]
    exact hα.ne'
  · rw [sub_sub_cancel]
    exact hγ.ne'
  · convert hthird.ne' using 1
    ring
  · convert hdet.ne' using 1
    ring

private theorem closestPointChecked_eq (hT : (T.b - T.a).crossProduct (T.c - T.a) ≠ 0) (p : RepoVector3D R) :
    closestPointChecked p T = some (closestPoint p T) := by
  have hdivisors := divisors hT p
  unfold closestPointChecked closestPoint
  dsimp only
  split_ifs
  · rfl
  · rfl
  · rw [divide_of_ne _ hdivisors.ab]
    rfl
  · rfl
  · rw [divide_of_ne _ hdivisors.ac]
    rfl
  · rw [divideVector_of_ne _ hdivisors.bc]
    rfl
  · rw [divide_of_ne _ hdivisors.abc]
    rfl

/-- `closestPoint` divides by no zero, and returns a point of the triangle that no other one is closer than. -/
theorem closestPointChecked_nearest (hT : (T.b - T.a).crossProduct (T.c - T.a) ≠ 0) (p : RepoVector3D R) :
    ∃ q, closestPointChecked p T = some q ∧ q ∈ T.points ∧ ∀ y ∈ T.points, (q - p).norm2 ≤ (y - p).norm2 :=
  have hnearest := nearest_closestPoint (p := p) hT
  ⟨closestPoint p T, closestPointChecked_eq hT p, hnearest.mem, fun _ => hnearest.norm2_le⟩

theorem closestPointChecked_nearest_right :
    ∃ q, closestPointChecked (⟨1, 1, 1⟩ : RepoVector3D ℚ) ⟨⟨0, 0, 0⟩, ⟨1, 0, 0⟩, ⟨0, 1, 0⟩⟩ = some q ∧
      q ∈ (⟨⟨0, 0, 0⟩, ⟨1, 0, 0⟩, ⟨0, 1, 0⟩⟩ : RepoTriangle ℚ).points ∧
      ∀ y ∈ (⟨⟨0, 0, 0⟩, ⟨1, 0, 0⟩, ⟨0, 1, 0⟩⟩ : RepoTriangle ℚ).points,
        (q - (⟨1, 1, 1⟩ : RepoVector3D ℚ)).norm2 ≤ (y - (⟨1, 1, 1⟩ : RepoVector3D ℚ)).norm2 :=
  closestPointChecked_nearest
    (fun h => by simpa [RepoVector3D.crossProduct] using congrArg RepoVector3D.z h) ⟨1, 1, 1⟩

/-! ### Segments -/

omit [IsStrictOrderedRing R] in
private theorem clampSecond_eq {a e : R} (ha : a ≠ 0) (he : e ≠ 0) (b c f s : R) :
    clampSecond a b c e f s = some (if (b * s + f) / e < 0 then (clamp (-c / a) 0 1, 0)
      else if (b * s + f) / e > 1 then (clamp ((b - c) / a) 0 1, 1) else (s, (b * s + f) / e)) := by
  unfold clampSecond
  rw [divide_of_ne _ he, Option.bind_eq_bind, Option.bind_some, divide_of_ne _ ha, divide_of_ne _ ha]
  split_ifs <;> rfl

/-- `closestPoints` divides by no zero, whatever the segments are. -/
theorem closestPointsChecked_eq (A B : RepoLine R) : closestPointsChecked A B = some (closestPoints A B) := by
  have hne : ∀ {x : R}, ¬ x ≤ dblEpsilon → x ≠ 0 := by
    intro x hx
    exact (dblEpsilon_pos.trans (not_le.1 hx)).ne'
  unfold closestPointsChecked closestPoints
  dsimp only
  by_cases hpoints : magnitude2 A ≤ dblEpsilon ∧ magnitude2 B ≤ dblEpsilon
  · rw [if_pos hpoints, if_pos hpoints]
    rfl
  rw [if_neg hpoints, if_neg hpoints]
  by_cases hA : magnitude2 A ≤ dblEpsilon
  · -- only the first segment is a point
    have he : magnitude2 B ≠ 0 := hne fun hB => hpoints ⟨hA, hB⟩
    rw [if_pos hA, if_pos hA, divide_of_ne _ he]
    rfl
  rw [if_neg hA, if_neg hA]
  by_cases hB : magnitude2 B ≤ dblEpsilon
  · -- only the second one is
    rw [if_pos hB, if_pos hB, divide_of_ne _ (hne hA)]
    rfl
  rw [if_neg hB, if_neg hB]
  by_cases hdenom : magnitude2 A * magnitude2 B -
      (direction A).dotProduct (direction B) * (direction A).dotProduct (direction B) ≠ 0
  · rw [if_pos hdenom, if_pos hdenom, divide_of_ne _ hdenom, Option.bind_eq_bind, Option.bind_some,
      clampSecond_eq (hne hA) (hne hB)]
    rfl
  · rw [if_neg hdenom, if_neg hdenom, clampSecond_eq (hne hA) (hne hB)]
    rfl

/-- `closestPoints` divides by no zero, and returns points of two segments that no others are closer than. -/
theorem closestPointsChecked_closest {A B : RepoLine R} (hA : dblEpsilon < magnitude2 A)
    (hB : dblEpsilon < magnitude2 B) :
    ∃ l, closestPointsChecked A B = some l ∧ l.start ∈ segmentPoints A ∧ l.endpoint ∈ segmentPoints B ∧
      ∀ x ∈ segmentPoints A, ∀ y ∈ segmentPoints B, (l.endpoint - l.start).norm2 ≤ (y - x).norm2 := by
  have hclosest := closest_closestPoints hA hB
  refine ⟨closestPoints A B, closestPointsChecked_eq A B, hclosest.start, hclosest.endpoint, ?_⟩
  intro x hx y hy
  exact hclosest.magnitude2_le hx hy

theorem closestPointsChecked_closest_skew :
    ∃ l, closestPointsChecked (⟨⟨0, 0, 0⟩, ⟨2, 0, 0⟩⟩ : RepoLine ℚ) ⟨⟨1, -1, 1⟩, ⟨1, 1, 1⟩⟩ = some l ∧
      l.start ∈ segmentPoints (⟨⟨0, 0, 0⟩, ⟨2, 0, 0⟩⟩ : RepoLine ℚ) ∧
      l.endpoint ∈ segmentPoints (⟨⟨1, -1, 1⟩, ⟨1, 1, 1⟩⟩ : RepoLine ℚ) ∧
      ∀ x ∈ segmentPoints (⟨⟨0, 0, 0⟩, ⟨2, 0, 0⟩⟩ : RepoLine ℚ),
        ∀ y ∈ segmentPoints (⟨⟨1, -1, 1⟩, ⟨1, 1, 1⟩⟩ : RepoLine ℚ),
          (l.endpoint - l.start).norm2 ≤ (y - x).norm2 :=
  closestPointsChecked_closest (by norm_num [dblEpsilon, magnitude2, direction, norm2])
    (by norm_num [dblEpsilon, magnitude2, direction, norm2])

end Bouncer.Clash.ClosestPoints
