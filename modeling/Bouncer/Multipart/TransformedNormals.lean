import Bouncer.Datastructure.MatrixInverse
import Bouncer.Datastructure.VectorAlgebra
import Bouncer.Multipart.Supermesh

/-!
# Transformed normals

`transformNormals` multiplies by the inverse of the transpose, and the product with a vector ends the process if the last
row of the matrix has values.  All of that row but the last entry is cleared before.  So the process ends if there are
normals, and the last entry of the inverse, as it is computed, is not one (`transformsNormals_iff`).  In exact arithmetic
that is so if and only if the matrix cannot be inverted: then it becomes the zero matrix (`exceeds_iff`).
-/

namespace Bouncer.MultipartOptimizer

variable {R : Type} [ExactReal R]

/-- The unit vector along the inverse transpose of the linear part, applied to a normal. -/
structure IsTransformedNormal (m : RepoMatrix R) (n r : RepoVector3D R) : Prop where
  norm_eq : r.norm = 1
  parallel : ∃ t : R, 0 < t ∧ RepoMatrix.column r = t • m.linear⁻¹.transpose.mulVec (RepoMatrix.column n)
  orthogonal : ∀ v, n.dotProduct v = 0 → r.dotProduct (m.transformDirection v) = 0

section Arithmetic

variable {D V : Type} [Add D] [Sub D] [Mul D] [Neg D] [Div D] [Zero D] [One D] [DecidableEq D] (exceedsSig : D → Bool)
  (product : RepoMatrix D → V → V)

/-- `transformNormals`, with the operations of `double`, whatever they round.  `exceedsSig` is whether the absolute value
is above the tolerance, and `product` multiplies a vector and normalizes it. -/
def transformNormalsIn (normals : List V) (matrix : RepoMatrix D) : Except Failure (List V) :=
  let worldMat := matrix.worldMat
  normals.mapM fun n =>
    if exceedsSig (worldMat 3 0) ∨ exceedsSig (worldMat 3 1) ∨ exceedsSig (worldMat 3 2) ∨ exceedsSig (worldMat 3 3 - 1)
    then .error .exit else .ok (product worldMat n)

/-- `transformNormals` does not end the process; and in exact arithmetic, with the values of the entries, it is right if
the matrix can be inverted. -/
structure TransformsNormals (value : D → R) (vector : V → RepoVector3D R) (m : RepoMatrix D) (normals : List V) : Prop where
  returns : ∃ result, transformNormalsIn exceedsSig product normals m = .ok result
  exact : RepoMatrix.determinant (m.map value) ≠ 0 →
    ∃ result, transformNormals (normals.map vector) (m.map value) = .ok result ∧
      List.Forall₂ (fun n r => n ≠ 0 → IsTransformedNormal (m.map value) n r) (normals.map vector) result

variable {exceedsSig} {product}

private theorem transformNormalsIn_ok_iff (hsig : exceedsSig 0 = false) (normals : List V) (m : RepoMatrix D) :
    (∃ result, transformNormalsIn exceedsSig product normals m = .ok result) ↔
      exceedsSig (m.inverse 3 3 - 1) = false ∨ normals = [] := by
  have hcheck : (exceedsSig (m.worldMat 3 0) ∨ exceedsSig (m.worldMat 3 1) ∨ exceedsSig (m.worldMat 3 2) ∨
      exceedsSig (m.worldMat 3 3 - 1)) ↔ exceedsSig (m.inverse 3 3 - 1) := by
    change (exceedsSig 0 ∨ exceedsSig 0 ∨ exceedsSig 0 ∨ exceedsSig (m.inverse 3 3 - 1)) ↔ _
    simp [hsig]
  have heq : transformNormalsIn exceedsSig product normals m = normals.mapM fun n =>
      if exceedsSig (m.inverse 3 3 - 1) then .error .exit else .ok (product m.worldMat n) :=
    congrArg (fun f => normals.mapM f) (funext fun n => if_congr hcheck rfl rfl)
  rw [heq]
  cases hexceeds : exceedsSig (m.inverse 3 3 - 1) with
  | false =>
    simp only [Bool.false_eq_true, if_false]
    exact ⟨fun _ => .inl trivial, fun _ => ⟨_, List.mapM_pure⟩⟩
  | true =>
    cases normals with
    | nil => exact ⟨fun _ => .inr rfl, fun _ => ⟨[], rfl⟩⟩
    | cons n normals =>
      rw [List.mapM_cons]
      constructor
      · exact fun ⟨_, h⟩ => nomatch h
      · exact fun h => h.elim nofun nofun

end Arithmetic

variable {m : RepoMatrix R}

private theorem isTransformedNormal (hm : m.Affine) (hdet : m.determinant ≠ 0) {n : RepoVector3D R} (hn : n ≠ 0) :
    IsTransformedNormal m n (m.worldMat.image n).normalized := by
  have hne : m.worldMat.image n ≠ 0 := by
    intro hzero
    have hself := hm.worldMat_dotProduct hdet n n
    rw [hzero, RepoVector3D.dotProduct_self] at hself
    refine (RepoVector3D.norm2_pos hn).ne' (hself.symm.trans ?_)
    simp [RepoVector3D.dotProduct]
  refine ⟨RepoVector3D.norm_normalized_of_ne hne, ?_, ?_⟩
  · refine ⟨1 / (m.worldMat.image n).norm, one_div_pos.2 (RepoVector3D.norm_pos hne), ?_⟩
    rw [RepoVector3D.normalized_eq hne, RepoMatrix.column_mul, RepoMatrix.column_worldMat, hm.linear_inverse hdet]
  · intro v hv
    rw [RepoVector3D.normalized_eq hne, RepoVector3D.mul_dotProduct, hm.worldMat_dotProduct hdet, hv, zero_mul]

private theorem transformNormals_spec (hm : m.Affine) (hdet : m.determinant ≠ 0) (normals : List (RepoVector3D R)) :
    ∃ result, transformNormals normals m = .ok result ∧
      List.Forall₂ (fun n r => n ≠ 0 → IsTransformedNormal m n r) normals result := by
  refine ⟨_, transformNormals_ok hm hdet normals, ?_⟩
  rw [List.forall₂_map_right_iff]
  exact List.forall₂_same.2 fun n _ hn => isTransformedNormal hm hdet hn

/-- The check of an entry in exact arithmetic. -/
def exceeds (x : R) : Bool := decide (|x| > RepoMatrix.sig)

private theorem exceeds_zero : exceeds (0 : R) = false := by
  unfold exceeds
  rw [decide_eq_false_iff_not, abs_zero, not_lt]
  unfold RepoMatrix.sig
  positivity

private theorem exceeds_iff (hm : m.Affine) : exceeds (m.inverse 3 3 - 1) = true ↔ m.determinant = 0 := by
  refine decide_eq_true_iff.trans ⟨fun h => ?_, fun h => RepoMatrix.exits_normalMat_iff.1 (RepoMatrix.exits_worldMat h)⟩
  by_contra hdet
  exact (hm.worldMat hdet).not_exits (RepoMatrix.exits_normalMat_iff.2 h)

/-- In exact arithmetic this is `transformNormals`. -/
theorem transformNormalsIn_exact (normals : List (RepoVector3D R)) (m : RepoMatrix R) :
    transformNormalsIn exceeds (fun worldMat n => (worldMat.image n).normalized) normals m =
      transformNormals normals m := by
  refine congrArg (fun f => normals.mapM f) (funext fun n => ?_)
  by_cases h : m.worldMat.Exits
  · rw [RepoMatrix.mulVector, if_pos h]
    exact if_pos (by simpa [exceeds, RepoMatrix.Exits] using h)
  · rw [RepoMatrix.mulVector, if_neg h]
    exact if_neg (by simpa [exceeds, RepoMatrix.Exits] using h)

/-- An affine transform is applied to normals if and only if the last entry of its inverse is computed as one, up to the
tolerance, or there are no normals. -/
theorem transformsNormals_iff {D V : Type} [Add D] [Sub D] [Mul D] [Neg D] [Div D] [Zero D] [One D] [DecidableEq D]
    {exceedsSig : D → Bool} (hsig : exceedsSig 0 = false) (product : RepoMatrix D → V → V) (value : D → R)
    (vector : V → RepoVector3D R) {m : RepoMatrix D} (hm : RepoMatrix.Affine (m.map value)) (normals : List V) :
    TransformsNormals exceedsSig product value vector m normals ↔
      exceedsSig (m.inverse 3 3 - 1) = false ∨ normals = [] := by
  have hok : (∃ result, transformNormalsIn exceedsSig product normals m = .ok result) ↔ _ :=
    transformNormalsIn_ok_iff hsig normals m
  rw [← hok]
  exact ⟨TransformsNormals.returns, fun h => ⟨h, fun hdet => transformNormals_spec hm hdet _⟩⟩

/-- The transform in exact arithmetic. -/
abbrev ExactlyTransforms (m : RepoMatrix R) : List (RepoVector3D R) → Prop :=
  TransformsNormals exceeds (fun worldMat n => (worldMat.image n).normalized) id id m

theorem transformsNormals_iff_translate :
    ExactlyTransforms (RepoMatrix.translate ⟨0, 0, 1⟩ : RepoMatrix ℝ) [⟨0, 0, 1⟩] ↔
      exceeds (RepoMatrix.inverse (RepoMatrix.translate ⟨0, 0, 1⟩ : RepoMatrix ℝ) 3 3 - 1) = false ∨
        [(⟨0, 0, 1⟩ : RepoVector3D ℝ)] = [] :=
  transformsNormals_iff exceeds_zero _ id id (RepoMatrix.affine_translate _) _

/-- A scaling that flattens the meshes onto the plane `z = 0`. -/
def flattening : RepoMatrix ℝ := Matrix.of ![![1, 0, 0, 0], ![0, 1, 0, 0], ![0, 0, 0, 0], ![0, 0, 0, 1]]

private theorem determinant_flattening : flattening.determinant = 0 := by
  rw [RepoMatrix.Affine.determinant ⟨rfl, rfl, rfl, rfl⟩]
  show (1 : ℝ) * (1 * 0 - 0 * 0) - 0 * (0 * 0 - 0 * 0) + 0 * (0 * 0 - 1 * 0) = 0
  norm_num

theorem not_transformsNormals_flattening : flattening.Affine ∧ ¬ExactlyTransforms flattening [⟨0, 0, 1⟩] := by
  have haffine : flattening.Affine := ⟨rfl, rfl, rfl, rfl⟩
  refine ⟨haffine, fun h => ?_⟩
  rcases (transformNormalsIn_ok_iff exceeds_zero _ _).1 h.returns with hone | hnil
  · exact Bool.false_ne_true (hone.symm.trans ((exceeds_iff haffine).2 determinant_flattening))
  · exact List.cons_ne_nil _ _ hnil

end Bouncer.MultipartOptimizer
