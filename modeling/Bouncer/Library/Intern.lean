import Mathlib.Data.List.Infix
import Mathlib.Data.List.Nodup

/-!
# Interning values in a table

A table gives its values indices.  `intern` looks a value up and appends it to the table if it is not there yet;
`internAll` interns a list of values one after the other.  The table only ever grows at its end (`prefix_internAll`),
so an index that was handed out keeps its value (`getElem?_grown`), and the indices of the values that were interned
are their positions in the table (`snd_internAll`).
-/

namespace Bouncer.Library

variable {α : Type*}

/-- An index keeps its value when the table grows. -/
theorem getElem?_grown {xs ys : List α} {i : ℕ} {v : α} (h : xs <+: ys) (hi : xs[i]? = some v) :
    ys[i]? = some v := by
  obtain ⟨zs, rfl⟩ := h
  have hlt : i < xs.length := (List.getElem?_eq_some_iff.1 hi).1
  rw [List.getElem?_append_left hlt, hi]

variable [DecidableEq α]

def intern (table : List α) (v : α) : List α × ℕ :=
  if v ∈ table then (table, table.idxOf v) else (table ++ [v], table.length)

def internAll : List α → List α → List α × List ℕ
  | table, [] => (table, [])
  | table, v :: vs =>
    let r := intern table v
    let rs := internAll r.1 vs
    (rs.1, r.2 :: rs.2)

variable {table : List α}

@[simp] theorem internAll_nil : internAll table [] = (table, []) := rfl

theorem internAll_cons (v : α) (vs : List α) :
    internAll table (v :: vs) =
      ((internAll (intern table v).1 vs).1, (intern table v).2 :: (internAll (intern table v).1 vs).2) := rfl

theorem prefix_intern (v : α) : table <+: (intern table v).1 := by
  unfold intern
  by_cases h : v ∈ table
  · rw [if_pos h]
  · rw [if_neg h]
    exact List.prefix_append _ _

theorem getElem?_intern (v : α) : (intern table v).1[(intern table v).2]? = some v := by
  unfold intern
  by_cases h : v ∈ table
  · rw [if_pos h]
    exact List.getElem?_idxOf h
  · rw [if_neg h]
    exact List.getElem?_concat_length

theorem nodup_intern (h : table.Nodup) (v : α) : (intern table v).1.Nodup := by
  unfold intern
  by_cases hv : v ∈ table
  · rwa [if_pos hv]
  · rw [if_neg hv]
    exact List.Nodup.append h (List.nodup_singleton v) (List.disjoint_singleton.2 hv)

theorem mem_intern {v w : α} : w ∈ (intern table v).1 ↔ w ∈ table ∨ w = v := by
  unfold intern
  by_cases h : v ∈ table
  · rw [if_pos h]
    constructor
    · exact Or.inl
    · rintro (hw | rfl)
      · exact hw
      · exact h
  · rw [if_neg h]
    simp

/-- Values that an injection maps get the same indices. -/
theorem intern_map {β : Type*} [DecidableEq β] {g : α → β} (hg : Function.Injective g) (v : α) :
    intern (table.map g) (g v) = ((intern table v).1.map g, (intern table v).2) := by
  have hidxOf : ∀ l : List α, (l.map g).idxOf (g v) = l.idxOf v := by
    intro l
    induction l with
    | nil => rfl
    | cons w l ih =>
      have hbeq : (g w == g v) = (w == v) := by
        rw [Bool.eq_iff_iff, beq_iff_eq, beq_iff_eq, hg.eq_iff]
      rw [List.map_cons, List.idxOf_cons, List.idxOf_cons, ih, hbeq]
  have hmem : g v ∈ table.map g ↔ v ∈ table := List.mem_map_of_injective hg
  unfold intern
  by_cases h : v ∈ table
  · rw [if_pos (hmem.2 h), if_pos h, hidxOf]
  · rw [if_neg (mt hmem.1 h), if_neg h, List.map_append, List.length_map]
    rfl

theorem prefix_internAll (vs : List α) : table <+: (internAll table vs).1 := by
  induction vs generalizing table with
  | nil => exact List.prefix_rfl
  | cons v vs ih => exact (prefix_intern v).trans ih

theorem mem_internAll {vs : List α} {w : α} : w ∈ (internAll table vs).1 ↔ w ∈ table ∨ w ∈ vs := by
  induction vs generalizing table with
  | nil => simp
  | cons v vs ih =>
    rw [internAll_cons, ih, mem_intern, List.mem_cons, or_assoc]

/-- The index of a value is its position in the table. -/
theorem snd_intern (v : α) : (intern table v).2 = (intern table v).1.idxOf v := by
  unfold intern
  by_cases h : v ∈ table
  · rw [if_pos h]
  · rw [if_neg h, List.idxOf_append_of_notMem h]
    simp

theorem idxOf_grown {xs ys : List α} {v : α} (h : xs <+: ys) (hv : v ∈ xs) : ys.idxOf v = xs.idxOf v := by
  obtain ⟨zs, rfl⟩ := h
  exact List.idxOf_append_of_mem hv

theorem internAll_append (vs ws : List α) : internAll table (vs ++ ws) =
    ((internAll (internAll table vs).1 ws).1, (internAll table vs).2 ++ (internAll (internAll table vs).1 ws).2) := by
  induction vs generalizing table with
  | nil => rfl
  | cons v vs ih => rw [List.cons_append, internAll_cons, internAll_cons, ih, List.cons_append]

theorem snd_internAll (vs : List α) : (internAll table vs).2 = vs.map fun v => (internAll table vs).1.idxOf v := by
  induction vs generalizing table with
  | nil => rfl
  | cons v vs ih =>
    have hv : v ∈ (intern table v).1 := mem_intern.2 (Or.inr rfl)
    rw [internAll_cons, List.map_cons, ih, snd_intern, idxOf_grown (prefix_internAll vs) hv]

/-- The table grows by at most as many values as are interned. -/
theorem length_fst_internAll_le (vs : List α) : (internAll table vs).1.length ≤ table.length + vs.length := by
  induction vs generalizing table with
  | nil => exact Nat.le_refl _
  | cons v vs ih =>
    have hone : (intern table v).1.length ≤ table.length + 1 := by
      unfold intern
      split_ifs
      · exact Nat.le_succ _
      · exact Nat.le_of_eq List.length_append
    have hrest : (internAll table (v :: vs)).1.length ≤ (intern table v).1.length + vs.length := ih
    rw [List.length_cons]
    omega

end Bouncer.Library
