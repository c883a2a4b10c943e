import Mathlib.Algebra.GroupWithZero.Nat
import Mathlib.Data.List.Pairwise

/-!
# Ranges that tile an interval

A range is a pair of a start and an end that does not belong to it any more.  `Tiles a ranges b` says that the ranges
lie one after the other, none of them empty, from `a` to `b`.  Such a list grows at its end (`Tiles.concat`), its
ranges are in the interval (`Tiles.mem_bounds`) and have no point in common (`Tiles.pairwise`), and every point of the
interval is in one of them (`Tiles.exists_mem`).

`spans` cuts an interval into ranges of given lengths, which may be zero (`pairwise_spans`, `exists_mem_spans`).
-/

namespace Bouncer.Library

def Tiles : ℕ → List (ℕ × ℕ) → ℕ → Prop
  | a, [], b => a = b
  | a, r :: ranges, b => r.1 = a ∧ r.1 < r.2 ∧ Tiles r.2 ranges b

variable {a b c : ℕ} {ranges ranges' : List (ℕ × ℕ)}

@[simp] theorem tiles_nil : Tiles a [] b ↔ a = b := Iff.rfl

theorem Tiles.le (h : Tiles a ranges b) : a ≤ b := by
  induction ranges generalizing a with
  | nil => exact Nat.le_of_eq h
  | cons r ranges ih =>
    obtain ⟨rfl, hlt, h⟩ := h
    have := ih h
    omega

theorem Tiles.append (h : Tiles a ranges b) (h' : Tiles b ranges' c) : Tiles a (ranges ++ ranges') c := by
  induction ranges generalizing a with
  | nil =>
    obtain rfl := h
    exact h'
  | cons r ranges ih =>
    obtain ⟨ha, hlt, h⟩ := h
    exact ⟨ha, hlt, ih h⟩

/-- One more range at the end. -/
theorem Tiles.concat (h : Tiles a ranges b) (hlt : b < c) : Tiles a (ranges ++ [(b, c)]) c :=
  h.append ⟨rfl, hlt, rfl⟩

theorem Tiles.mem_bounds (h : Tiles a ranges b) {r : ℕ × ℕ} (hr : r ∈ ranges) : a ≤ r.1 ∧ r.1 < r.2 ∧ r.2 ≤ b := by
  induction ranges generalizing a with
  | nil => exact absurd hr List.not_mem_nil
  | cons s ranges ih =>
    obtain ⟨rfl, hlt, h⟩ := h
    rcases List.mem_cons.1 hr with rfl | hr
    · exact ⟨Nat.le_refl _, hlt, h.le⟩
    · obtain ⟨hle, hlt', hb⟩ := ih h hr
      exact ⟨by omega, hlt', hb⟩

/-- The ranges are in their order, without a common point. -/
theorem Tiles.pairwise (h : Tiles a ranges b) : ranges.Pairwise fun r s => r.2 ≤ s.1 := by
  induction ranges generalizing a with
  | nil => exact .nil
  | cons r ranges ih =>
    obtain ⟨rfl, -, h⟩ := h
    exact .cons (fun s hs => (h.mem_bounds hs).1) (ih h)

/-- Every point of the interval is in one of the ranges. -/
theorem Tiles.exists_mem (h : Tiles a ranges b) {i : ℕ} (ha : a ≤ i) (hb : i < b) : ∃ r ∈ ranges, r.1 ≤ i ∧ i < r.2 := by
  induction ranges generalizing a with
  | nil =>
    obtain rfl := h
    omega
  | cons r ranges ih =>
    obtain ⟨rfl, -, h⟩ := h
    by_cases hi : i < r.2
    · exact ⟨r, List.mem_cons_self, ha, hi⟩
    · obtain ⟨s, hs, hmem⟩ := ih h (by omega)
      exact ⟨s, List.mem_cons_of_mem _ hs, hmem⟩

/-- The ranges of the given lengths, from `a` on. -/
def spans : ℕ → List ℕ → List (ℕ × ℕ)
  | _, [] => []
  | a, n :: lengths => (a, a + n) :: spans (a + n) lengths

theorem spans_concat (lengths : List ℕ) (n : ℕ) :
    spans a (lengths ++ [n]) = spans a lengths ++ [(a + lengths.sum, a + lengths.sum + n)] := by
  induction lengths generalizing a with
  | nil => rfl
  | cons m lengths ih => rw [List.cons_append, spans, ih, spans, List.cons_append, List.sum_cons, Nat.add_assoc]

theorem mem_spans_bounds {lengths : List ℕ} {r : ℕ × ℕ} (hr : r ∈ spans a lengths) :
    a ≤ r.1 ∧ r.1 ≤ r.2 ∧ r.2 ≤ a + lengths.sum := by
  induction lengths generalizing a with
  | nil => exact absurd hr List.not_mem_nil
  | cons n lengths ih =>
    rw [List.sum_cons]
    rcases List.mem_cons.1 hr with rfl | hr
    · exact ⟨Nat.le_refl _, Nat.le_add_right _ _, by dsimp only; omega⟩
    · have := ih hr
      omega

/-- Spans have no point in common, also if some of them are empty. -/
theorem pairwise_spans (a : ℕ) (lengths : List ℕ) : (spans a lengths).Pairwise fun r s => r.2 ≤ s.1 := by
  induction lengths generalizing a with
  | nil => exact .nil
  | cons n lengths ih => exact .cons (fun s hs => (mem_spans_bounds hs).1) (ih (a + n))

theorem exists_mem_spans {lengths : List ℕ} {i : ℕ} (ha : a ≤ i) (hb : i < a + lengths.sum) :
    ∃ r ∈ spans a lengths, r.1 ≤ i ∧ i < r.2 := by
  induction lengths generalizing a with
  | nil =>
    rw [List.sum_nil] at hb
    omega
  | cons n lengths ih =>
    rw [List.sum_cons] at hb
    by_cases hi : i < a + n
    · exact ⟨(a, a + n), List.mem_cons_self, ha, hi⟩
    · obtain ⟨r, hr, hmem⟩ := ih (a := a + n) (by omega) (by omega)
      exact ⟨r, List.mem_cons_of_mem _ hr, hmem⟩

/-- A point is in one of some ranges without a common point. -/
theorem getElem?_unique_of_pairwise (h : ranges.Pairwise fun r s => r.2 ≤ s.1) {i k k' : ℕ} {r r' : ℕ × ℕ}
    (hk : ranges[k]? = some r) (hk' : ranges[k']? = some r') (hr : r.1 ≤ i ∧ i < r.2) (hr' : r'.1 ≤ i ∧ i < r'.2) :
    k = k' := by
  obtain ⟨hlt, rfl⟩ := List.getElem?_eq_some_iff.1 hk
  obtain ⟨hlt', rfl⟩ := List.getElem?_eq_some_iff.1 hk'
  have hpairwise := List.pairwise_iff_getElem.1 h
  rcases Nat.lt_trichotomy k k' with h | h | h
  · have := hpairwise k k' hlt hlt' h
    omega
  · exact h
  · have := hpairwise k' k hlt' hlt h
    omega

/-- Ranges that lie one after the other from `a` to `b`, of which some may be empty. -/
def Chains : ℕ → List (ℕ × ℕ) → ℕ → Prop
  | a, [], b => a = b
  | a, r :: ranges, b => r.1 = a ∧ r.1 ≤ r.2 ∧ Chains r.2 ranges b

theorem chains_spans (a : ℕ) (lengths : List ℕ) : Chains a (spans a lengths) (a + lengths.sum) := by
  induction lengths generalizing a with
  | nil => exact (Nat.add_zero a).symm
  | cons n lengths ih =>
    rw [List.sum_cons, ← Nat.add_assoc]
    exact ⟨rfl, Nat.le_add_right a n, ih (a + n)⟩

theorem Chains.mem_bounds (h : Chains a ranges b) {r : ℕ × ℕ} (hr : r ∈ ranges) : a ≤ r.1 ∧ r.1 ≤ r.2 ∧ r.2 ≤ b := by
  have hle : ∀ {a : ℕ} {ranges : List (ℕ × ℕ)}, Chains a ranges b → a ≤ b := by
    intro a ranges
    induction ranges generalizing a with
    | nil => exact fun h => Nat.le_of_eq h
    | cons r ranges ih =>
      rintro ⟨rfl, hle, h⟩
      exact Nat.le_trans hle (ih h)
  induction ranges generalizing a with
  | nil => exact absurd hr List.not_mem_nil
  | cons s ranges ih =>
    obtain ⟨rfl, hs, h⟩ := h
    rcases List.mem_cons.1 hr with rfl | hr
    · exact ⟨Nat.le_refl _, hs, hle h⟩
    · obtain ⟨h1, h2, h3⟩ := ih h hr
      exact ⟨Nat.le_trans hs h1, h2, h3⟩

/-- What lies before and after one of the ranges. -/
theorem Chains.split {r : ℕ × ℕ} (h : Chains a (ranges ++ r :: ranges') b) :
    Chains a ranges r.1 ∧ r.1 ≤ r.2 ∧ Chains r.2 ranges' b := by
  induction ranges generalizing a with
  | nil =>
    obtain ⟨rfl, hle, h⟩ := h
    exact ⟨rfl, hle, h⟩
  | cons s ranges ih =>
    obtain ⟨rfl, hle, h⟩ := h
    obtain ⟨h1, h2⟩ := ih h
    exact ⟨⟨rfl, hle, h1⟩, h2⟩

/-- Every point of the interval is in one of the ranges. -/
theorem Chains.exists_mem (h : Chains a ranges b) {i : ℕ} (ha : a ≤ i) (hb : i < b) :
    ∃ k : ℕ, ∃ r : ℕ × ℕ, ranges[k]? = some r ∧ r.1 ≤ i ∧ i < r.2 := by
  induction ranges generalizing a with
  | nil =>
    obtain rfl : a = b := h
    omega
  | cons s ranges ih =>
    obtain ⟨rfl, -, h⟩ := h
    by_cases hi : i < s.2
    · exact ⟨0, s, rfl, ha, hi⟩
    · obtain ⟨k, r, hk, hmem⟩ := ih h (by omega)
      exact ⟨k + 1, r, hk, hmem⟩

/-- The numbers of an interval are those before and those after a point of it. -/
theorem range'_sub_append (hb : a ≤ b) (hc : b ≤ c) :
    List.range' a (b - a) ++ List.range' b (c - b) = List.range' a (c - a) := by
  obtain ⟨m, rfl⟩ := Nat.exists_eq_add_of_le hb
  obtain ⟨k, rfl⟩ := Nat.exists_eq_add_of_le hc
  rw [Nat.add_sub_cancel_left, Nat.add_sub_cancel_left, Nat.add_assoc, Nat.add_sub_cancel_left, List.range'_append_1]

end Bouncer.Library
