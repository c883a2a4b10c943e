import Mathlib.Algebra.GroupWithZero.Nat
import Mathlib.Data.List.Basic
import Mathlib.Order.WellFounded

/-!
# Recursion on two halves

A recursion that takes a state to two others, unless it is a leaf.  It does not end if one of the halves always is like the
state before (`not_ends`), and it ends if both halves are smaller, or as large as before and nearer to where they get smaller
(`ends_of_measure`).

A list whose elements are kept, made smaller or left out gets smaller, or stays as it was (`filterMap_eq_self`).
-/

namespace Bouncer.Library

universe u

section Halves

variable {S : Type u} (leaf : S → Prop) (left right : S → S)

inductive Ends : S → Prop
  | leaf {s : S} : leaf s → Ends s
  | halves {s : S} : ¬ leaf s → Ends (left s) → Ends (right s) → Ends s

variable {leaf left right}

theorem not_ends (P : S → Prop) (h : ∀ s, P s → ¬ leaf s ∧ (P (left s) ∨ P (right s))) {s : S} (hs : P s) :
    ¬ Ends leaf left right s := by
  intro hends
  induction hends with
  | leaf hleaf => exact (h _ hs).1 hleaf
  | halves _ _ _ ihleft ihright =>
    rcases (h _ hs).2 with hs | hs
    · exact ihleft hs
    · exact ihright hs

theorem ends_of_measure (P : S → Prop) (size patience : S → ℕ)
    (h : ∀ s, P s → ¬ leaf s → ∀ t, t = left s ∨ t = right s →
      P t ∧ (size t < size s ∨ (size t = size s ∧ patience t < patience s))) {s : S} (hs : P s) :
    Ends leaf left right s := by
  induction hsize : size s using Nat.strong_induction_on generalizing s with
  | _ n ihsize =>
    induction hpatience : patience s using Nat.strong_induction_on generalizing s with
    | _ k ihpatience =>
      by_cases hleaf : leaf s
      · exact .leaf hleaf
      have hhalf : ∀ t, t = left s ∨ t = right s → Ends leaf left right t := by
        intro t ht
        obtain ⟨hP, hless | ⟨hsame, hnear⟩⟩ := h s hs hleaf t ht
        · exact ihsize (size t) (hsize ▸ hless) hP rfl
        · exact ihpatience (patience t) (hpatience ▸ hnear) hP (hsame.trans hsize) rfl
      exact .halves hleaf (hhalf _ (.inl rfl)) (hhalf _ (.inr rfl))

end Halves

section Lists

variable {α : Type u} {weight : α → ℕ} {f : α → Option α}

theorem sum_filterMap_le (hle : ∀ a b, f a = some b → weight b ≤ weight a) (l : List α) :
    ((l.filterMap f).map weight).sum ≤ (l.map weight).sum := by
  induction l with
  | nil => exact le_rfl
  | cons a l ih =>
    rw [List.filterMap_cons, List.map_cons, List.sum_cons]
    cases hfa : f a with
    | none =>
      simp only
      omega
    | some b =>
      have hb := hle a b hfa
      simp only [List.map_cons, List.sum_cons]
      omega

/-- A list that has not become smaller is unchanged. -/
theorem filterMap_eq_self (hpos : ∀ a, 0 < weight a) (hle : ∀ a b, f a = some b → weight b ≤ weight a)
    (heq : ∀ a b, f a = some b → weight b = weight a → b = a) {l : List α}
    (h : ((l.filterMap f).map weight).sum = (l.map weight).sum) : l.filterMap f = l ∧ ∀ a ∈ l, f a = some a := by
  induction l with
  | nil => exact ⟨rfl, nofun⟩
  | cons a l ih =>
    have hrest := sum_filterMap_le hle l
    have ha := hpos a
    rw [List.filterMap_cons, List.map_cons, List.sum_cons] at h
    rw [List.filterMap_cons]
    cases hfa : f a with
    | none =>
      rw [hfa] at h
      simp only at h
      omega
    | some b =>
      have hb := hle a b hfa
      rw [hfa] at h
      simp only [List.map_cons, List.sum_cons] at h
      obtain rfl := heq a b hfa (by omega)
      obtain ⟨hsame, hall⟩ := ih (by omega)
      refine ⟨by rw [hsame], ?_⟩
      intro a' ha'
      rcases List.mem_cons.mp ha' with rfl | ha'
      · exact hfa
      · exact hall a' ha'

end Lists

end Bouncer.Library
