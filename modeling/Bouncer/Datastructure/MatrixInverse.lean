import Bouncer.Datastructure.Matrix
import Mathlib.LinearAlgebra.Matrix.NonsingularInverse
import Mathlib.Tactic.LinearCombination

/-!
# Inverses

The sixteen entries of `inverse` are the cofactors over the determinant, so that the product with the matrix is the
identity on either side (`inverse_mul_self_and_mul_inverse`).
-/

namespace Bouncer.RepoMatrix

variable {R : Type*} [Field R] [DecidableEq R] {m : RepoMatrix R}

/-- Each row of cofactors goes with one column of the matrix and is at right angles to the others. -/
theorem inverse_mul_self (hdet : m.determinant ≠ 0) : m.inverse * m = 1 := by
  have hinv : 1 / m.determinant * m.determinant = 1 := one_div_mul_cancel hdet
  unfold inverse
  rw [if_neg hdet]
  generalize 1 / m.determinant = inv_det at hinv ⊢
  unfold determinant at hinv
  funext i j
  rw [Matrix.mul_apply, Fin.sum_univ_four]
  by_cases hij : i = j
  · subst hij
    rw [Matrix.one_apply_eq]
    fin_cases i <;> simp [-Matrix.cons_val, Matrix.cons_val_two, Matrix.cons_val_three] <;> linear_combination hinv
  · rw [Matrix.one_apply_ne hij]
    fin_cases i <;> fin_cases j <;> first | exact absurd rfl hij | skip
    all_goals
      simp [-Matrix.cons_val, Matrix.cons_val_two, Matrix.cons_val_three]
      ring

private theorem mul_inverse_self (hdet : m.determinant ≠ 0) : m * m.inverse = 1 :=
  mul_eq_one_comm.1 (inverse_mul_self hdet)

/-- A translation is undone by the opposite one. -/
theorem inverse_translate (t : RepoVector3D R) : (translate t).inverse = translate (-t) := by
  have hdet : (translate t).determinant ≠ 0 := by
    rw [determinant_translate]
    exact one_ne_zero
  have hback : translate t * translate (-t) = 1 := by
    rw [translate_mul_translate, ← translate_zero]
    congr 1
    ext <;> exact neg_add_cancel _
  calc (translate t).inverse = (translate t).inverse * (translate t * translate (-t)) := by rw [hback, mul_one]
    _ = translate (-t) := by rw [← mul_assoc, inverse_mul_self hdet, one_mul]

/-- `inverse` undoes the matrix on either side. -/
theorem isInverse_inverse (hdet : m.determinant ≠ 0) : m.inverse * m = 1 ∧ m * m.inverse = 1 :=
  ⟨inverse_mul_self hdet, mul_inverse_self hdet⟩

theorem isInverse_inverse_projective :
    inverse (Matrix.of ![![2, 1, 0, 3], ![0, 1, 3, 0], ![1, 0, 1, 5], ![0, 4, 0, 1]] : RepoMatrix ℚ) *
        Matrix.of ![![2, 1, 0, 3], ![0, 1, 3, 0], ![1, 0, 1, 5], ![0, 4, 0, 1]] = 1 ∧
      Matrix.of ![![2, 1, 0, 3], ![0, 1, 3, 0], ![1, 0, 1, 5], ![0, 4, 0, 1]] *
        inverse (Matrix.of ![![2, 1, 0, 3], ![0, 1, 3, 0], ![1, 0, 1, 5], ![0, 4, 0, 1]] : RepoMatrix ℚ) = 1 :=
  isInverse_inverse (by
    show (2 * 1) * (1 * 1 - 5 * 0) + (2 * 3) * (5 * 4 - 0 * 1) + (2 * 0) * (0 * 0 - 1 * 4) +
      -(1 * 0) * (1 * 1 - 5 * 0) + -(1 * 3) * (5 * 0 - 1 * 1) + -(1 * 0) * (1 * 0 - 1 * 0) +
      (0 * 0) * (0 * 1 - 5 * 4) + (0 * 1) * (5 * 0 - 1 * 1) + (0 * 0) * (1 * 4 - 0 * 0) +
      -(3 * 0) * (0 * 0 - 1 * 4) + -(3 * 1) * (1 * 0 - 1 * 0) + -(3 * 3) * (1 * 4 - 0 * 0) ≠ (0 : ℚ)
    norm_num)

/-! ### Affine transforms -/

/-- The rotation and the scale. -/
def linear (m : RepoMatrix R) : Matrix (Fin 3) (Fin 3) R := m.submatrix Fin.castSucc Fin.castSucc

theorem Affine.linear_inverse_mul (h : m.Affine) (hdet : m.determinant ≠ 0) : m.inverse.linear * m.linear = 1 := by
  have hlast : ∀ j : Fin 3, m 3 j.castSucc = 0 := by
    obtain ⟨h0, h1, h2, -⟩ := h
    intro j
    fin_cases j
    · exact h0
    · exact h1
    · exact h2
  funext i j
  have hentry := congrFun (congrFun (inverse_mul_self hdet) i.castSucc) j.castSucc
  rw [Matrix.mul_apply, Fin.sum_univ_castSucc] at hentry
  have hone : (1 : RepoMatrix R) i.castSucc j.castSucc = (1 : Matrix (Fin 3) (Fin 3) R) i j := by
    simp [Matrix.one_apply]
  rw [← hone, ← hentry, Matrix.mul_apply]
  simp only [linear, Matrix.submatrix_apply]
  rw [show Fin.last 3 = 3 from rfl, hlast, mul_zero, add_zero]

/-- The linear part of the inverse of an affine transform is the inverse of its linear part. -/
theorem Affine.linear_inverse (h : m.Affine) (hdet : m.determinant ≠ 0) : m.inverse.linear = m.linear⁻¹ :=
  (Matrix.inv_eq_left_inv (h.linear_inverse_mul hdet)).symm

/-- The column with which a matrix is multiplied. -/
def column (v : RepoVector3D R) : Fin 3 → R := ![v.x, v.y, v.z]

omit [DecidableEq R] in
theorem column_mul (v : RepoVector3D R) (t : R) : column (v * t) = t • column v := by
  funext i
  fin_cases i <;> exact mul_comm _ _

omit [DecidableEq R] in
private theorem column_dotProduct (v v' : RepoVector3D R) : column v ⬝ᵥ column v' = v.dotProduct v' := by
  rw [dotProduct, Fin.sum_univ_three]
  rfl

omit [DecidableEq R] in
private theorem column_transformDirection (m : RepoMatrix R) (v : RepoVector3D R) :
    column (m.transformDirection v) = m.linear.mulVec (column v) := by
  funext i
  rw [Matrix.mulVec, dotProduct, Fin.sum_univ_three]
  fin_cases i <;> rfl

theorem column_worldMat (m : RepoMatrix R) (n : RepoVector3D R) :
    column (m.worldMat.image n) = m.inverse.linear.transpose.mulVec (column n) := by
  funext i
  rw [Matrix.mulVec, dotProduct, Fin.sum_univ_three]
  fin_cases i <;> exact add_zero _

/-- What `worldMat` does to a normal makes up for what the matrix does to a direction. -/
theorem Affine.worldMat_dotProduct (h : m.Affine) (hdet : m.determinant ≠ 0) (n v : RepoVector3D R) :
    (m.worldMat.image n).dotProduct (m.transformDirection v) = n.dotProduct v := by
  rw [← column_dotProduct, column_worldMat, column_transformDirection, Matrix.mulVec_transpose,
    ← Matrix.dotProduct_mulVec, Matrix.mulVec_mulVec, h.linear_inverse_mul hdet, Matrix.one_mulVec, column_dotProduct]

end Bouncer.RepoMatrix
