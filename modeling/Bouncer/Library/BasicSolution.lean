import Mathlib.Algebra.Order.Field.Basic
import Mathlib.LinearAlgebra.Dimension.Finite

/-!
# Basic solutions

A vector is often known as a combination of given vectors with coefficients that are not negative.  The combination can
be chosen such that the vectors it uses are linearly independent, and one coefficient does not grow
(`exists_basic`).  So it uses at most as many vectors as there are dimensions (`exists_card_le`).

This is the fundamental theorem of linear programming, for an objective that is one of the coefficients.
-/

namespace Bouncer.Library

open Finset Module

variable {ι R V : Type*} [Fintype ι] [Field R] [LinearOrder R] [IsStrictOrderedRing R] [AddCommGroup V] [Module R V]
  {v : ι → V} {c : ι → R} {k : ι}

/-- The vectors that a combination uses. -/
def used (c : ι → R) : Finset ι := univ.filter fun i => c i ≠ 0

omit [IsStrictOrderedRing R] in
theorem mem_used {i : ι} : i ∈ used c ↔ c i ≠ 0 := by simp [used]

/-- A dependency with a negative coefficient removes a vector from a combination. -/
private theorem exists_fewer (hc : ∀ i, 0 ≤ c i) {g : ι → R} (hg : ∑ i, g i • v i = 0)
    (hzero : ∀ i, c i = 0 → g i = 0) (hk : g k ≤ 0) (hneg : ∃ i, g i < 0) :
    ∃ c' : ι → R, (∀ i, 0 ≤ c' i) ∧ ∑ i, c' i • v i = ∑ i, c i • v i ∧ c' k ≤ c k ∧ used c' ⊂ used c := by
  -- go along the dependency until the first coefficient vanishes
  obtain ⟨j, hj, hmin⟩ := exists_min_image (univ.filter fun i => g i < 0) (fun i => c i / -g i)
    (hneg.imp fun i hi => by simpa using hi)
  have hgj : g j < 0 := by simpa using hj
  have hstep : 0 ≤ c j / -g j := div_nonneg (hc j) (neg_nonneg.2 hgj.le)
  refine ⟨fun i => c i + c j / -g j * g i, fun i => ?_, ?_, ?_, ?_⟩
  · by_cases hi : g i < 0
    · have hle := hmin i (by simpa using hi)
      rw [le_div_iff₀ (neg_pos.2 hi)] at hle
      linarith
    · exact add_nonneg (hc i) (mul_nonneg hstep (not_lt.1 hi))
  · simp only [add_smul, mul_smul, sum_add_distrib, ← smul_sum, hg, smul_zero, add_zero]
  · have := mul_nonpos_of_nonneg_of_nonpos hstep hk
    linarith
  · rw [ssubset_iff_of_subset]
    · refine ⟨j, mem_used.2 fun hcj => hgj.ne (hzero j hcj), ?_⟩
      rw [mem_used, not_not, div_neg, neg_mul, div_mul_cancel₀ _ hgj.ne, add_neg_cancel]
    · intro i hi
      rw [mem_used] at hi ⊢
      intro hci
      exact hi (by rw [hci, hzero i hci, mul_zero, add_zero])

/-- A combination can be chosen to use linearly independent vectors, without raising one of the coefficients. -/
theorem exists_basic (hc : ∀ i, 0 ≤ c i) :
    ∃ c' : ι → R, (∀ i, 0 ≤ c' i) ∧ ∑ i, c' i • v i = ∑ i, c i • v i ∧ c' k ≤ c k ∧ used c' ⊆ used c ∧
      LinearIndepOn R v (used c' : Set ι) := by
  induction hn : (used c).card using Nat.strong_induction_on generalizing c with
  | _ n ih =>
    subst hn
    by_cases hind : LinearIndepOn R v (used c : Set ι)
    · exact ⟨c, hc, rfl, le_rfl, Subset.rfl, hind⟩
    · rw [linearIndepOn_finset_iff] at hind
      push Not at hind
      obtain ⟨f, hf, i, hi, hfi⟩ := hind
      -- the dependency of the vectors in use, with the sign that does not raise the coefficient of `k`
      have hdependency : ∃ g : ι → R, ∑ i, g i • v i = 0 ∧ (∀ i, c i = 0 → g i = 0) ∧ ∃ i, g i ≠ 0 := by
        refine ⟨fun i => if c i = 0 then 0 else f i, ?_, fun i hci => if_pos hci, i, ?_⟩
        · rw [← hf, used, sum_filter]
          refine sum_congr rfl fun i _ => ?_
          by_cases hci : c i = 0 <;> simp [hci]
        · show (if c i = 0 then 0 else f i) ≠ 0
          rw [if_neg (mem_used.1 hi)]
          exact hfi
      obtain ⟨g, hg, hzero, j, hj⟩ := hdependency
      have hsign : ∃ g : ι → R, ∑ i, g i • v i = 0 ∧ (∀ i, c i = 0 → g i = 0) ∧ g k ≤ 0 ∧ ∃ i, g i < 0 := by
        have hneg : ∑ i, (-g i) • v i = 0 := by simp only [neg_smul, sum_neg_distrib, hg, neg_zero]
        have hzero' : ∀ i, c i = 0 → -g i = 0 := fun i hci => neg_eq_zero.2 (hzero i hci)
        rcases lt_trichotomy (g k) 0 with hk | hk | hk
        · exact ⟨g, hg, hzero, hk.le, k, hk⟩
        · rcases hj.lt_or_gt with hj | hj
          · exact ⟨g, hg, hzero, hk.le, j, hj⟩
          · exact ⟨fun i => -g i, hneg, hzero', by simp [hk], j, neg_neg_iff_pos.2 hj⟩
        · exact ⟨fun i => -g i, hneg, hzero', neg_nonpos.2 hk.le, k, neg_neg_iff_pos.2 hk⟩
      obtain ⟨g, hg, hzero, hk, hnegative⟩ := hsign
      obtain ⟨c₁, hc₁, hsum, hle, hfewer⟩ := exists_fewer hc hg hzero hk hnegative
      obtain ⟨c', hc', hsum', hle', hused, hind'⟩ := ih _ (card_lt_card hfewer) hc₁ rfl
      exact ⟨c', hc', hsum'.trans hsum, hle'.trans hle, hused.trans hfewer.subset, hind'⟩

/-- A combination in a space can be chosen with at most as many vectors as the space has dimensions. -/
theorem exists_card_le (W : Submodule R V) [Module.Finite R W] (hv : ∀ i, c i ≠ 0 → v i ∈ W) (hc : ∀ i, 0 ≤ c i) :
    ∃ c' : ι → R, (∀ i, 0 ≤ c' i) ∧ ∑ i, c' i • v i = ∑ i, c i • v i ∧ c' k ≤ c k ∧ used c' ⊆ used c ∧
      (used c').card ≤ finrank R W := by
  obtain ⟨c', hc', hsum, hle, hused, hind⟩ := exists_basic (v := v) (k := k) hc
  refine ⟨c', hc', hsum, hle, hused, ?_⟩
  have hmem : ∀ i : (used c' : Set ι), v i ∈ W := fun i => hv i (mem_used.1 (hused i.2))
  have hind' : LinearIndependent R fun i : (used c' : Set ι) => (⟨v i, hmem i⟩ : W) :=
    LinearIndependent.of_comp W.subtype hind
  have hcard := hind'.fintype_card_le_finrank
  simpa using hcard

end Bouncer.Library
