import Bouncer.Datastructure.Geometry
import Mathlib.Algebra.BigOperators.Fin
import Mathlib.Data.Matrix.Mul
import Mathlib.Tactic.FinCases

/-!
# Transformation matrices

A `RepoMatrix` has four rows of four entries; entry `(i, j)` is `data[4 * i + j]` of the source.  The product of a
matrix with a vector is that with an affine transform: if the last row is not `(0, 0, 0, 1)`, up to a tolerance, the
process ends.
-/

namespace Bouncer

abbrev RepoMatrix (R : Type*) := Matrix (Fin 4) (Fin 4) R

namespace RepoMatrix

variable {R : Type*} [Field R]

/-- The image of a point, whatever the last row is. -/
def image (m : RepoMatrix R) (v : RepoVector3D R) : RepoVector3D R :=
  ⟨m 0 0 * v.x + m 0 1 * v.y + m 0 2 * v.z + m 0 3,
    m 1 0 * v.x + m 1 1 * v.y + m 1 2 * v.z + m 1 3,
    m 2 0 * v.x + m 2 1 * v.y + m 2 2 * v.z + m 2 3⟩

def translate (t : RepoVector3D R) : RepoMatrix R :=
  Matrix.of ![![1, 0, 0, t.x], ![0, 1, 0, t.y], ![0, 0, 1, t.z], ![0, 0, 0, 1]]

def scale (s : R) : RepoMatrix R := Matrix.of ![![s, 0, 0, 0], ![0, s, 0, 0], ![0, 0, s, 0], ![0, 0, 0, 1]]

/-- The `float` that `1e-5` is rounded to. -/
def sig : R := 10995116 / 2 ^ 40

/-- The transform is affine. -/
def Affine (m : RepoMatrix R) : Prop := m 3 0 = 0 ∧ m 3 1 = 0 ∧ m 3 2 = 0 ∧ m 3 3 = 1

variable {m : RepoMatrix R}

section Order

variable [LinearOrder R]

/-- The last row has values, so `operator*` for a vector calls `exit(0)`. -/
def Exits (m : RepoMatrix R) : Prop := |m 3 0| > sig ∨ |m 3 1| > sig ∨ |m 3 2| > sig ∨ |m 3 3 - 1| > sig

instance (m : RepoMatrix R) : Decidable m.Exits := inferInstanceAs (Decidable (_ ∨ _))

/-- `operator*` for a vector, which may end the process. -/
def mulVector (m : RepoMatrix R) (v : RepoVector3D R) : Option (RepoVector3D R) :=
  if m.Exits then none else some (m.image v)

variable [IsStrictOrderedRing R]

theorem Affine.not_exits (h : m.Affine) : ¬ m.Exits := by
  obtain ⟨h0, h1, h2, h3⟩ := h
  have hsig : ¬ |(0 : R)| > sig := by
    rw [abs_zero]
    exact not_lt.2 (by unfold sig; positivity)
  unfold Exits
  rw [h0, h1, h2, h3, sub_self]
  tauto

theorem Affine.mulVector (h : m.Affine) (v : RepoVector3D R) : m.mulVector v = some (m.image v) :=
  if_neg h.not_exits

/-- The `float` that `10e-5` is rounded to. -/
def eps : R := 13743895 / 2 ^ 37

/-- `isIdentity`: the matrix is the identity up to a tolerance. -/
def IsIdentity (m : RepoMatrix R) : Prop :=
  (∀ i, m i i ≤ 1 + eps ∧ m i i ≥ 1 - eps) ∧ ∀ i j, i ≠ j → |m i j| ≤ eps

instance (m : RepoMatrix R) : Decidable m.IsIdentity := inferInstanceAs (Decidable (_ ∧ _))

end Order

/-! ### Products -/

theorem image_one (v : RepoVector3D R) : image (1 : RepoMatrix R) v = v := by
  ext <;> simp [image]

/-- The image under a product, if the second factor is affine. -/
theorem image_mul (m : RepoMatrix R) {m' : RepoMatrix R} (h : m'.Affine) (v : RepoVector3D R) :
    image (m * m') v = m.image (m'.image v) := by
  obtain ⟨h0, h1, h2, h3⟩ := h
  ext
  all_goals
    simp only [image, Matrix.mul_apply, Fin.sum_univ_four, h0, h1, h2, h3]
    ring

theorem affine_one : Affine (1 : RepoMatrix R) := by
  refine ⟨?_, ?_, ?_, ?_⟩ <;> simp

theorem Affine.mul {m m' : RepoMatrix R} (h : m.Affine) (h' : m'.Affine) : Affine (m * m') := by
  obtain ⟨h0, h1, h2, h3⟩ := h
  obtain ⟨h0', h1', h2', h3'⟩ := h'
  refine ⟨?_, ?_, ?_, ?_⟩ <;>
    simp [Matrix.mul_apply, Fin.sum_univ_four, h0, h1, h2, h3, h0', h1', h2', h3']

theorem affine_translate (t : RepoVector3D R) : (translate t).Affine := ⟨rfl, rfl, rfl, rfl⟩

theorem translate_zero : translate (0 : RepoVector3D R) = 1 := by
  funext i j
  fin_cases i <;> fin_cases j <;> rfl

theorem translate_mul_translate (t t' : RepoVector3D R) : translate t * translate t' = translate (t' + t) := by
  funext i j
  rw [Matrix.mul_apply, Fin.sum_univ_four]
  fin_cases i <;> fin_cases j <;> simp [translate, -Matrix.cons_val, Matrix.cons_val_two, Matrix.cons_val_three]

/-! ### The inverse -/

section Inverse

variable {D : Type*} [Add D] [Sub D] [Mul D] [Neg D]

/-- `determinant`, in any arithmetic, whether it rounds or not. -/
def determinant (m : RepoMatrix D) : D :=
  let a1 := m 0 0; let a2 := m 0 1; let a3 := m 0 2; let a4 := m 0 3
  let b1 := m 1 0; let b2 := m 1 1; let b3 := m 1 2; let b4 := m 1 3
  let c1 := m 2 0; let c2 := m 2 1; let c3 := m 2 2; let c4 := m 2 3
  let d1 := m 3 0; let d2 := m 3 1; let d3 := m 3 2; let d4 := m 3 3
  (a1 * b2) * (c3 * d4 - c4 * d3) + (a1 * b3) * (c4 * d2 - c2 * d4) + (a1 * b4) * (c2 * d3 - c3 * d2) +
    -(a2 * b1) * (c3 * d4 - c4 * d3) + -(a2 * b3) * (c4 * d1 - c1 * d4) + -(a2 * b4) * (c1 * d3 - c3 * d1) +
    (a3 * b1) * (c2 * d4 - c4 * d2) + (a3 * b2) * (c4 * d1 - c1 * d4) + (a3 * b4) * (c1 * d2 - c2 * d1) +
    -(a4 * b1) * (c2 * d3 - c3 * d2) + -(a4 * b2) * (c3 * d1 - c1 * d3) + -(a4 * b3) * (c1 * d2 - c2 * d1)

variable [Div D] [Zero D] [One D] [DecidableEq D]

/-- `inverse`.  A matrix with determinant zero becomes the zero matrix. -/
def inverse (m : RepoMatrix D) : RepoMatrix D :=
  let a1 := m 0 0; let a2 := m 0 1; let a3 := m 0 2; let a4 := m 0 3
  let b1 := m 1 0; let b2 := m 1 1; let b3 := m 1 2; let b4 := m 1 3
  let c1 := m 2 0; let c2 := m 2 1; let c3 := m 2 2; let c4 := m 2 3
  let d1 := m 3 0; let d2 := m 3 1; let d3 := m 3 2; let d4 := m 3 3
  let inv_det := 1 / m.determinant
  if m.determinant = 0 then 0 else Matrix.of ![
    ![inv_det * (b2 * (c3 * d4 - c4 * d3) + b3 * (c4 * d2 - c2 * d4) + b4 * (c2 * d3 - c3 * d2)),
      -inv_det * (a2 * (c3 * d4 - c4 * d3) + a3 * (c4 * d2 - c2 * d4) + a4 * (c2 * d3 - c3 * d2)),
      inv_det * (a2 * (b3 * d4 - b4 * d3) + a3 * (b4 * d2 - b2 * d4) + a4 * (b2 * d3 - b3 * d2)),
      -inv_det * (a2 * (b3 * c4 - b4 * c3) + a3 * (b4 * c2 - b2 * c4) + a4 * (b2 * c3 - b3 * c2))],
    ![-inv_det * (b1 * (c3 * d4 - c4 * d3) + b3 * (c4 * d1 - c1 * d4) + b4 * (c1 * d3 - c3 * d1)),
      inv_det * (a1 * (c3 * d4 - c4 * d3) + a3 * (c4 * d1 - c1 * d4) + a4 * (c1 * d3 - c3 * d1)),
      -inv_det * (a1 * (b3 * d4 - b4 * d3) + a3 * (b4 * d1 - b1 * d4) + a4 * (b1 * d3 - b3 * d1)),
      inv_det * (a1 * (b3 * c4 - b4 * c3) + a3 * (b4 * c1 - b1 * c4) + a4 * (b1 * c3 - b3 * c1))],
    ![inv_det * (b1 * (c2 * d4 - c4 * d2) + b2 * (c4 * d1 - c1 * d4) + b4 * (c1 * d2 - c2 * d1)),
      -inv_det * (a1 * (c2 * d4 - c4 * d2) + a2 * (c4 * d1 - c1 * d4) + a4 * (c1 * d2 - c2 * d1)),
      inv_det * (a1 * (b2 * d4 - b4 * d2) + a2 * (b4 * d1 - b1 * d4) + a4 * (b1 * d2 - b2 * d1)),
      -inv_det * (a1 * (b2 * c4 - b4 * c2) + a2 * (b4 * c1 - b1 * c4) + a4 * (b1 * c2 - b2 * c1))],
    ![-inv_det * (b1 * (c2 * d3 - c3 * d2) + b2 * (c3 * d1 - c1 * d3) + b3 * (c1 * d2 - c2 * d1)),
      inv_det * (a1 * (c2 * d3 - c3 * d2) + a2 * (c3 * d1 - c1 * d3) + a3 * (c1 * d2 - c2 * d1)),
      -inv_det * (a1 * (b2 * d3 - b3 * d2) + a2 * (b3 * d1 - b1 * d3) + a3 * (b1 * d2 - b2 * d1)),
      inv_det * (a1 * (b2 * c3 - b3 * c2) + a2 * (b3 * c1 - b1 * c3) + a3 * (b1 * c2 - b2 * c1))]]

omit [Add D] [Sub D] [Mul D] [Neg D] [Div D] [One D] [DecidableEq D] in
/-- What `transformNormals` makes of the inverse. -/
def normalMat (inverse : RepoMatrix D) : RepoMatrix D := fun i j =>
  if (i = 3 ∧ j ≠ 3) ∨ (i ≠ 3 ∧ j = 3) then 0 else inverse.transpose i j

/-- The matrix by which `transformNormals` multiplies. -/
def worldMat (m : RepoMatrix D) : RepoMatrix D := normalMat m.inverse

end Inverse

variable [DecidableEq R]

omit [DecidableEq R] in
/-- The determinant is that of the rotation and the scale. -/
theorem Affine.determinant (h : m.Affine) :
    m.determinant = m 0 0 * (m 1 1 * m 2 2 - m 1 2 * m 2 1) - m 0 1 * (m 1 0 * m 2 2 - m 1 2 * m 2 0) +
      m 0 2 * (m 1 0 * m 2 1 - m 1 1 * m 2 0) := by
  obtain ⟨h0, h1, h2, h3⟩ := h
  unfold RepoMatrix.determinant
  simp only [h0, h1, h2, h3]
  ring

theorem Affine.inverse_last (h : m.Affine) (hdet : m.determinant ≠ 0) : m.inverse 3 3 = 1 := by
  unfold inverse
  rw [if_neg hdet]
  change 1 / m.determinant * (m 0 0 * (m 1 1 * m 2 2 - m 1 2 * m 2 1) + m 0 1 * (m 1 2 * m 2 0 - m 1 0 * m 2 2) +
    m 0 2 * (m 1 0 * m 2 1 - m 1 1 * m 2 0)) = 1
  rw [div_mul_eq_mul_div, one_mul, div_eq_one_iff_eq hdet, h.determinant]
  ring

/-- An affine transform that can be inverted does not end the process when it is applied to normals. -/
theorem Affine.worldMat (h : m.Affine) (hdet : m.determinant ≠ 0) : m.worldMat.Affine := by
  refine ⟨rfl, rfl, rfl, ?_⟩
  unfold RepoMatrix.worldMat normalMat
  rw [if_neg (by decide)]
  exact h.inverse_last hdet

omit [DecidableEq R] in
/-- Only the last entry of the inverse can end the process when normals are transformed. -/
theorem exits_normalMat_iff [LinearOrder R] [IsStrictOrderedRing R] {inverse : RepoMatrix R} :
    (normalMat inverse).Exits ↔ |inverse 3 3 - 1| > sig := by
  have hzero : ¬ |(0 : R)| > sig := by
    rw [abs_zero]
    exact not_lt.2 (by unfold sig; positivity)
  constructor
  · rintro (h | h | h | h)
    · exact absurd h hzero
    · exact absurd h hzero
    · exact absurd h hzero
    · exact h
  · exact fun h => .inr (.inr (.inr h))

/-- The zero matrix that `inverse` returns ends the process. -/
theorem exits_worldMat [LinearOrder R] [IsStrictOrderedRing R] (hdet : m.determinant = 0) :
    m.worldMat.Exits := by
  refine exits_normalMat_iff.2 ?_
  have hlast : m.inverse 3 3 = 0 := by
    unfold inverse
    rw [if_pos hdet]
    rfl
  rw [hlast, zero_sub, abs_neg, abs_one]
  unfold sig
  norm_num

omit [DecidableEq R] in
theorem determinant_translate (t : RepoVector3D R) : (translate t).determinant = 1 := by
  have hdet : (translate t).determinant = 1 * (1 * 1 - 0 * 0) - 0 * (0 * 1 - 0 * 0) + 0 * (0 * 0 - 1 * 0) :=
    (affine_translate t).determinant
  rw [hdet]
  ring

omit [DecidableEq R] in
theorem determinant_translate_mul (t : RepoVector3D R) (h : m.Affine) :
    determinant (translate t * m) = m.determinant := by
  rw [((affine_translate t).mul h).determinant, h.determinant]
  obtain ⟨h0, h1, h2, -⟩ := h
  simp [translate, Matrix.mul_apply, Fin.sum_univ_four, h0, h1, h2, -Matrix.cons_val, Matrix.cons_val_two]

/-! ### Directions and bounds -/

section Bounds

variable {R : Type*} [Field R]

def translation (m : RepoMatrix R) : RepoVector3D R := ⟨m 0 3, m 1 3, m 2 3⟩

def transformDirection (m : RepoMatrix R) (v : RepoVector3D R) : RepoVector3D R :=
  ⟨m 0 0 * v.x + m 0 1 * v.y + m 0 2 * v.z,
    m 1 0 * v.x + m 1 1 * v.y + m 1 2 * v.z,
    m 2 0 * v.x + m 2 1 * v.y + m 2 2 * v.z⟩

/-- `scale()`: the lengths of the first three columns. -/
def scales {R : Type*} [ExactReal R] (m : RepoMatrix R) : RepoVector3D R :=
  ⟨ExactReal.sqrt (m 0 0 * m 0 0 + m 1 0 * m 1 0 + m 2 0 * m 2 0),
    ExactReal.sqrt (m 0 1 * m 0 1 + m 1 1 * m 1 1 + m 2 1 * m 2 1),
    ExactReal.sqrt (m 0 2 * m 0 2 + m 1 2 * m 1 2 + m 2 2 * m 2 2)⟩

/-- `operator*` for bounds, of a matrix with which it does not end the process. -/
def mulBounds [LinearOrder R] (m : RepoMatrix R) (bounds : RepoBounds R) : RepoBounds R :=
  let center := (bounds.bmin + bounds.bmax) * (1 / 2 : R)
  let transformedCenter := m.image center
  let mAbs : RepoMatrix R := fun i j => if i ≠ 3 ∧ j ≠ 3 then |m i j| else m i j
  let extents := (bounds.bmax - bounds.bmin) * (1 / 2 : R)
  let transformedExtents := mAbs.transformDirection extents
  .ofMinMax (transformedCenter - transformedExtents) (transformedCenter + transformedExtents)

end Bounds

end RepoMatrix

/-- `operator*` for a vector and bounds. -/
def RepoVector3D.mulBounds {R : Type*} [Field R] [LinearOrder R] (scalars : RepoVector3D R) (bounds : RepoBounds R) :
    RepoBounds R :=
  .ofMinMax ⟨bounds.bmin.x * scalars.x, bounds.bmin.y * scalars.y, bounds.bmin.z * scalars.z⟩
    ⟨bounds.bmax.x * scalars.x, bounds.bmax.y * scalars.y, bounds.bmax.z * scalars.z⟩

end Bouncer
