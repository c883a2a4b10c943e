import Mathlib.Data.List.Induction
import Mathlib.Data.List.Nodup
import Mathlib.Data.List.Pairwise
import Mathlib.Data.List.Perm.Basic
import Mathlib.Order.Defs.Unbundled

/-!
# Ordered sets with a comparator

A set that is kept in the order of a comparator `less`.  An element is taken for one of the set if neither is less than the
other, and is then not inserted.  So a list keeps all its elements if and only if any two of them compare
(`perm_ofList`, `comparable_of_perm_ofList`).
-/

namespace Bouncer.Library.OrderedSet

variable {α β : Type*} (less : α → α → Prop) [DecidableRel less]

def insert (x : α) : List α → List α
  | [] => [x]
  | y :: ys => if less x y then x :: y :: ys else if less y x then y :: insert x ys else y :: ys

def ofList (xs : List α) : List α := xs.foldl (fun s x => insert less x s) []

def Comparable (x y : α) : Prop := less x y ∨ less y x

variable {less}

instance : Std.Symm (Comparable less) := ⟨fun _ _ => Or.symm⟩

theorem ofList_concat (xs : List α) (x : α) : ofList less (xs ++ [x]) = insert less x (ofList less xs) := by
  rw [ofList, List.foldl_append]
  rfl

theorem mem_of_mem_insert {x z : α} {s : List α} (h : z ∈ insert less x s) : z = x ∨ z ∈ s := by
  induction s with
  | nil => simpa [insert] using h
  | cons y ys ih =>
    unfold insert at h
    split_ifs at h
    · simpa using h
    · rcases List.mem_cons.1 h with rfl | h
      · simp
      · have hz := ih h
        simp only [List.mem_cons]
        tauto
    · exact .inr h

theorem mem_of_mem_ofList {z : α} {xs : List α} (h : z ∈ ofList less xs) : z ∈ xs := by
  induction xs using List.reverseRecOn with
  | nil => exact h
  | append_singleton xs x ih =>
    rw [ofList_concat] at h
    rcases mem_of_mem_insert h with rfl | h
    · simp
    · simp [ih h]

/-- An element that compares with all others is inserted. -/
theorem perm_insert {x : α} {s : List α} (h : ∀ y ∈ s, Comparable less x y) : (insert less x s).Perm (x :: s) := by
  induction s with
  | nil => exact .refl _
  | cons y ys ih =>
    unfold insert
    split_ifs with hxy hyx
    · exact .refl _
    · have hrest := ih fun z hz => h z (by simp [hz])
      exact (hrest.cons y).trans (.swap x y ys)
    · rcases h y (by simp) with hless | hless
      · exact absurd hless hxy
      · exact absurd hless hyx

theorem perm_ofList {xs : List α} (h : xs.Pairwise (Comparable less)) : (ofList less xs).Perm xs := by
  induction xs using List.reverseRecOn with
  | nil => exact .refl _
  | append_singleton xs x ih =>
    obtain ⟨hxs, -, hlast⟩ := List.pairwise_append.1 h
    have hperm := ih hxs
    have hcompare : ∀ y ∈ ofList less xs, Comparable less x y := by
      intro y hy
      have hyx := hlast y (mem_of_mem_ofList hy) x (by simp)
      exact hyx.symm
    rw [ofList_concat]
    exact ((perm_insert hcompare).trans (hperm.cons x)).trans (List.perm_append_singleton x xs).symm

/-- Elements with other data that compare in the same way. -/
theorem map_insert (f : β → α) (x : β) (s : List β) :
    (insert (fun a b => less (f a) (f b)) x s).map f = insert less (f x) (s.map f) := by
  induction s with
  | nil => rfl
  | cons y ys ih =>
    simp only [insert, List.map_cons]
    split_ifs
    · rfl
    · rw [List.map_cons, ih]
    · rfl

section Order

variable [IsStrictOrder α less]

/-- A set is in the order of its comparator. -/
theorem pairwise_insert {x : α} {s : List α} (h : s.Pairwise less) : (insert less x s).Pairwise less := by
  induction s with
  | nil => simp [insert]
  | cons y ys ih =>
    obtain ⟨hy, hys⟩ := List.pairwise_cons.1 h
    unfold insert
    split_ifs with hxy hyx
    · refine List.pairwise_cons.2 ⟨?_, h⟩
      intro z hz
      rcases List.mem_cons.1 hz with rfl | hz
      · exact hxy
      · exact IsTrans.trans x y z hxy (hy z hz)
    · refine List.pairwise_cons.2 ⟨?_, ih hys⟩
      intro z hz
      rcases mem_of_mem_insert hz with rfl | hz
      · exact hyx
      · exact hy z hz
    · exact h

theorem pairwise_ofList (xs : List α) : (ofList less xs).Pairwise less := by
  induction xs using List.reverseRecOn with
  | nil => exact .nil
  | append_singleton xs x ih =>
    rw [ofList_concat]
    exact pairwise_insert ih

theorem nodup_ofList (xs : List α) : (ofList less xs).Nodup := by
  refine (pairwise_ofList xs).imp fun {x y} hless heq => ?_
  rw [heq] at hless
  exact irrefl y hless

/-- Two elements that are both in the set compare. -/
theorem comparable_of_mem {xs : List α} {x y : α} (hx : x ∈ ofList less xs) (hy : y ∈ ofList less xs) (hne : x ≠ y) :
    Comparable less x y := by
  have hall : (ofList less xs).Pairwise (Comparable less) := (pairwise_ofList xs).imp .inl
  exact hall.forall hx hy hne

end Order

end Bouncer.Library.OrderedSet
