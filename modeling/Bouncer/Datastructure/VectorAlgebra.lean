import Bouncer.Datastructure.Geometry
import Mathlib.Tactic.LinearCombination

/-!
# Vector algebra

Products of vectors in exact arithmetic: the square of a cross product (`norm2_crossProduct`), vectors at right angles to
two others (`mul_norm2_crossProduct`), and vectors of length one (`normalized_mul_of_pos`, `eq_or_eq_neg_of_parallel`).
-/

namespace Bouncer.RepoVector3D

section Field

variable {R : Type*} [Field R]

theorem mul_dotProduct (a b : RepoVector3D R) (t : R) : (a * t).dotProduct b = a.dotProduct b * t := by
  simp only [dotProduct, mul_x, mul_y, mul_z]
  ring

theorem dotProduct_mul (a b : RepoVector3D R) (t : R) : a.dotProduct (b * t) = a.dotProduct b * t := by
  simp only [dotProduct, mul_x, mul_y, mul_z]
  ring

theorem dotProduct_comm (a b : RepoVector3D R) : a.dotProduct b = b.dotProduct a := by
  simp only [dotProduct]
  ring

theorem dotProduct_self (a : RepoVector3D R) : a.dotProduct a = a.norm2 := rfl

theorem mul_crossProduct_mul (a b : RepoVector3D R) (s t : R) :
    (a * s).crossProduct (b * t) = a.crossProduct b * (s * t) := by
  ext <;> simp only [crossProduct, mul_x, mul_y, mul_z] <;> ring

@[simp] theorem mul_one_eq (a : RepoVector3D R) : a * (1 : R) = a := by ext <;> simp

theorem mul_mul (a : RepoVector3D R) (s t : R) : a * s * t = a * (s * t) := by
  ext <;> simp only [mul_x, mul_y, mul_z] <;> ring

theorem norm2_mul (a : RepoVector3D R) (t : R) : (a * t).norm2 = a.norm2 * (t * t) := by
  simp only [norm2, mul_x, mul_y, mul_z]
  ring

/-- Lagrange's identity. -/
theorem norm2_crossProduct (a b : RepoVector3D R) :
    (a.crossProduct b).norm2 = a.norm2 * b.norm2 - a.dotProduct b * a.dotProduct b := by
  simp only [norm2, dotProduct, crossProduct]
  ring

private theorem mul_norm2_crossProduct {a b d : RepoVector3D R} (ha : d.dotProduct a = 0) (hb : d.dotProduct b = 0) :
    d * (a.crossProduct b).norm2 = a.crossProduct b * d.dotProduct (a.crossProduct b) := by
  simp only [dotProduct] at ha hb
  ext
  · simp only [norm2, dotProduct, crossProduct, mul_x]
    linear_combination (b.y * (a.x * b.y - a.y * b.x) - b.z * (a.z * b.x - a.x * b.z)) * ha +
      (a.z * (a.z * b.x - a.x * b.z) - a.y * (a.x * b.y - a.y * b.x)) * hb
  · simp only [norm2, dotProduct, crossProduct, mul_y]
    linear_combination (b.z * (a.y * b.z - a.z * b.y) - b.x * (a.x * b.y - a.y * b.x)) * ha +
      (a.x * (a.x * b.y - a.y * b.x) - a.z * (a.y * b.z - a.z * b.y)) * hb
  · simp only [norm2, dotProduct, crossProduct, mul_z]
    linear_combination (b.x * (a.z * b.x - a.x * b.z) - b.y * (a.y * b.z - a.z * b.y)) * ha +
      (a.y * (a.y * b.z - a.z * b.y) - a.x * (a.z * b.x - a.x * b.z)) * hb

end Field

section Order

variable {R : Type*} [Field R] [LinearOrder R] [IsStrictOrderedRing R]

theorem norm2_pos {a : RepoVector3D R} (h : a ≠ 0) : 0 < a.norm2 := by
  refine a.norm2_nonneg.lt_of_ne' fun hzero => h ?_
  unfold norm2 at hzero
  have hx : a.x = 0 := by nlinarith [mul_self_nonneg a.x, mul_self_nonneg a.y, mul_self_nonneg a.z]
  have hy : a.y = 0 := by nlinarith [mul_self_nonneg a.x, mul_self_nonneg a.y, mul_self_nonneg a.z]
  have hz : a.z = 0 := by nlinarith [mul_self_nonneg a.x, mul_self_nonneg a.y, mul_self_nonneg a.z]
  ext
  · exact hx
  · exact hy
  · exact hz

theorem eq_zero_of_norm2 {a : RepoVector3D R} (h : a.norm2 = 0) : a = 0 := by
  by_contra hne
  exact (norm2_pos hne).ne' h

end Order

section Norm

variable {R : Type*} [ExactReal R]

theorem norm_pos {a : RepoVector3D R} (h : a ≠ 0) : 0 < a.norm := by
  refine a.norm_nonneg.lt_of_ne' fun hzero => (norm2_pos h).ne' ?_
  rw [← norm_mul_norm, hzero, zero_mul]

theorem normalized_eq {a : RepoVector3D R} (h : a ≠ 0) : a.normalized = a * (1 / a.norm) := by
  unfold normalized
  rw [if_pos (norm_pos h)]
  ext <;> simp only [mul_x, mul_y, mul_z, mul_one_div]

/-- The direction of a vector does not depend on its length. -/
theorem normalized_mul_of_pos {a : RepoVector3D R} (h : a ≠ 0) {t : R} (ht : 0 < t) :
    (a * t).normalized = a.normalized := by
  have hnorm := norm_pos h
  have hne : a * t ≠ 0 := by
    intro hzero
    have hpos := mul_pos (norm2_pos h) (mul_pos ht ht)
    rw [← norm2_mul, hzero] at hpos
    simp [norm2] at hpos
  rw [normalized_eq h, normalized_eq hne, norm_mul, abs_of_pos ht, mul_mul]
  congr 1
  field_simp

theorem norm_normalized_of_ne {a : RepoVector3D R} (h : a ≠ 0) : a.normalized.norm = 1 := by
  rw [normalized_eq h, norm_mul, abs_of_pos (one_div_pos.2 (norm_pos h)), mul_one_div, div_self (norm_pos h).ne']

/-- A vector at right angles to two others, as a multiple of a vector of length one. -/
theorem eq_normalized_mul {a b d : RepoVector3D R} (hab : a.crossProduct b ≠ 0) (ha : d.dotProduct a = 0)
    (hb : d.dotProduct b = 0) :
    d = (a.crossProduct b).normalized * d.dotProduct (a.crossProduct b).normalized := by
  have hparallel := mul_norm2_crossProduct ha hb
  generalize a.crossProduct b = c at hab hparallel ⊢
  have hnorm := (norm_pos hab).ne'
  have hcancel := congrArg (fun v : RepoVector3D R => v * (1 / c.norm2)) hparallel
  simp only [mul_mul] at hcancel
  rw [mul_one_div_cancel (norm2_pos hab).ne', mul_one_eq] at hcancel
  rw [normalized_eq hab, dotProduct_mul, mul_mul, hcancel, mul_dotProduct, dotProduct_self, ← norm_mul_norm]
  congr 1
  field_simp

/-- There are two vectors of length one at right angles to two others. -/
theorem eq_normalized_or_eq_neg {a b d : RepoVector3D R} (hab : a.crossProduct b ≠ 0) (ha : d.dotProduct a = 0)
    (hb : d.dotProduct b = 0) (hd : d.norm = 1) :
    d = (a.crossProduct b).normalized ∨ d = (a.crossProduct b).normalized * (-1 : R) := by
  have hparallel := eq_normalized_mul hab ha hb
  have hunit := norm_normalized_of_ne hab
  generalize a.crossProduct b = c at hparallel hunit ⊢
  generalize d.dotProduct c.normalized = t at hparallel
  have habs : |t| = 1 := by rwa [hparallel, norm_mul, hunit, one_mul] at hd
  rcases eq_or_eq_neg_of_abs_eq habs with rfl | rfl
  · exact Or.inl (by rw [hparallel, mul_one_eq])
  · exact Or.inr hparallel

end Norm

end Bouncer.RepoVector3D
