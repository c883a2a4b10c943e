import Mathlib.Data.List.Forall2
import Mathlib.Data.List.Infix

/-!
# Interning up to a comparison

Like `intern`, for a comparison that need not be an equality: it is symmetric and transitive, but values that are not the
same as themselves are allowed, as `NaN` is (`SameAs`).  Such a value gets a new entry of the table each time.

The entries of the table are different under the comparison (`pairwise_internAllBy`), every entry that is added is used
(`mem_indices_of_new`), each index stands for the value itself or one that is the same (`forall₂_internAllBy`), and interning
what the indices stand for changes nothing (`internAllBy_again`).

`internGroups` interns groups of values, one after the other, into one table.
-/

namespace Bouncer.Library

variable {α : Type*}

structure SameAs (same : α → α → Bool) : Prop where
  symm : ∀ {v w}, same v w = true → same w v = true
  trans : ∀ {u v w}, same u v = true → same v w = true → same u w = true

def internBy (same : α → α → Bool) (table : List α) (v : α) : List α × ℕ :=
  match table.findIdx? (same · v) with
  | some i => (table, i)
  | none => (table ++ [v], table.length)

def internAllBy (same : α → α → Bool) : List α → List α → List α × List ℕ
  | table, [] => (table, [])
  | table, v :: vs =>
    let r := internBy same table v
    let rs := internAllBy same r.1 vs
    (rs.1, r.2 :: rs.2)

/-- The value, or one that is the same. -/
def SameOrEq (same : α → α → Bool) (w v : α) : Prop := w = v ∨ same w v = true

variable {same : α → α → Bool} {table : List α}

@[simp] theorem internAllBy_nil : internAllBy same table [] = (table, []) := rfl

theorem internAllBy_cons (v : α) (vs : List α) : internAllBy same table (v :: vs) =
    ((internAllBy same (internBy same table v).1 vs).1,
      (internBy same table v).2 :: (internAllBy same (internBy same table v).1 vs).2) := rfl

theorem internAllBy_append (vs ws : List α) : internAllBy same table (vs ++ ws) =
    ((internAllBy same (internAllBy same table vs).1 ws).1,
      (internAllBy same table vs).2 ++ (internAllBy same (internAllBy same table vs).1 ws).2) := by
  induction vs generalizing table with
  | nil => rfl
  | cons v vs ih => rw [List.cons_append, internAllBy_cons, internAllBy_cons, ih, List.cons_append]

/-- Either there is a first entry that is the same, or the value is appended. -/
theorem internBy_cases (same : α → α → Bool) (table : List α) (v : α) :
    (∃ i, ∃ hi : i < table.length, same table[i] v = true ∧ (∀ j (hj : j < i), same table[j] v = false) ∧
      internBy same table v = (table, i)) ∨
    ((∀ w ∈ table, same w v = false) ∧ internBy same table v = (table ++ [v], table.length)) := by
  unfold internBy
  cases h : table.findIdx? (same · v) with
  | some i =>
    obtain ⟨hi, hsame, hfirst⟩ := List.findIdx?_eq_some_iff_getElem.1 h
    exact Or.inl ⟨i, hi, hsame, fun j hj => Bool.eq_false_iff.2 (hfirst j hj), rfl⟩
  | none =>
    refine Or.inr ⟨?_, rfl⟩
    intro w hw
    exact List.findIdx?_eq_none_iff.1 h w hw

theorem prefix_internBy (same : α → α → Bool) (table : List α) (v : α) : table <+: (internBy same table v).1 := by
  rcases internBy_cases same table v with ⟨i, hi, -, -, h⟩ | ⟨-, h⟩
  · rw [h]
  · rw [h]
    exact List.prefix_append _ _

theorem prefix_internAllBy (same : α → α → Bool) (table : List α) (vs : List α) : table <+: (internAllBy same table vs).1 := by
  induction vs generalizing table with
  | nil => exact List.prefix_rfl
  | cons v vs ih => exact (prefix_internBy same table v).trans (ih _)

theorem mem_internAllBy {vs : List α} {w : α} (hw : w ∈ (internAllBy same table vs).1) : w ∈ table ∨ w ∈ vs := by
  induction vs generalizing table with
  | nil => exact Or.inl hw
  | cons v vs ih =>
    rcases ih hw with hmem | hmem
    · rcases internBy_cases same table v with ⟨i, hi, -, -, h⟩ | ⟨-, h⟩
      · rw [h] at hmem
        exact Or.inl hmem
      · rw [h] at hmem
        rcases List.mem_append.1 hmem with hmem | hmem
        · exact Or.inl hmem
        · rw [List.mem_singleton.1 hmem]
          exact Or.inr List.mem_cons_self
    · exact Or.inr (List.mem_cons_of_mem _ hmem)

/-- No entry is the same as an earlier one. -/
theorem pairwise_internBy (h : table.Pairwise fun w w' => same w w' = false) (v : α) :
    (internBy same table v).1.Pairwise fun w w' => same w w' = false := by
  rcases internBy_cases same table v with ⟨i, hi, -, -, hintern⟩ | ⟨hnew, hintern⟩
  · rwa [hintern]
  · rw [hintern, List.pairwise_append]
    refine ⟨h, List.pairwise_singleton _ _, ?_⟩
    intro w hw w' hw'
    rw [List.mem_singleton.1 hw']
    exact hnew w hw

theorem pairwise_internAllBy (h : table.Pairwise fun w w' => same w w' = false) (vs : List α) :
    (internAllBy same table vs).1.Pairwise fun w w' => same w w' = false := by
  induction vs generalizing table with
  | nil => exact h
  | cons v vs ih => exact ih (pairwise_internBy h v)

theorem getElem?_internBy (same : α → α → Bool) (table : List α) (v : α) :
    ∃ w, (internBy same table v).1[(internBy same table v).2]? = some w ∧ SameOrEq same w v := by
  rcases internBy_cases same table v with ⟨i, hi, hsame, -, h⟩ | ⟨-, h⟩
  · rw [h]
    exact ⟨table[i], List.getElem?_eq_getElem hi, Or.inr hsame⟩
  · rw [h]
    exact ⟨v, List.getElem?_concat_length, Or.inl rfl⟩

theorem getElem?_of_prefix {xs ys : List α} {i : ℕ} {v : α} (h : xs <+: ys) (hi : xs[i]? = some v) :
    ys[i]? = some v := by
  obtain ⟨zs, rfl⟩ := h
  rw [List.getElem?_append_left (List.getElem?_eq_some_iff.1 hi).1, hi]

/-- What the indices stand for. -/
theorem forall₂_internAllBy (same : α → α → Bool) (table : List α) (vs : List α) : List.Forall₂ (fun v i =>
    ∃ w, (internAllBy same table vs).1[i]? = some w ∧ SameOrEq same w v) vs (internAllBy same table vs).2 := by
  induction vs generalizing table with
  | nil => exact .nil
  | cons v vs ih =>
    obtain ⟨w, hw, hsame⟩ := getElem?_internBy same table v
    exact .cons ⟨w, getElem?_of_prefix (prefix_internAllBy same _ vs) hw, hsame⟩ (ih _)

/-- Every new entry is used. -/
theorem mem_indices_of_new (same : α → α → Bool) (table : List α) (vs : List α) {i : ℕ} (hold : table.length ≤ i)
    (hnew : i < (internAllBy same table vs).1.length) : i ∈ (internAllBy same table vs).2 := by
  induction vs generalizing table with
  | nil => exact absurd hnew (not_lt.2 hold)
  | cons v vs ih =>
    rw [internAllBy_cons] at hnew ⊢
    by_cases hlater : (internBy same table v).1.length ≤ i
    · exact List.mem_cons_of_mem _ (ih _ hlater hnew)
    · rcases internBy_cases same table v with ⟨j, hj, -, -, h⟩ | ⟨-, h⟩
      · rw [h] at hlater
        exact absurd hold hlater
      · rw [h] at hlater ⊢
        rw [List.length_append, List.length_singleton] at hlater
        have hi : i = table.length := by omega
        rw [hi]
        exact List.mem_cons_self

/-- What an index stands for gets this index again. -/
theorem internBy_again (hsame : SameAs same) (h : table.Pairwise fun w w' => same w w' = false) (v : α) {w : α}
    (hw : (internBy same table v).1[(internBy same table v).2]? = some w) :
    internBy same table w = internBy same table v := by
  rcases internBy_cases same table v with ⟨i, hi, hmatch, -, hintern⟩ | ⟨-, hintern⟩
  · rw [hintern] at hw ⊢
    rw [List.getElem?_eq_getElem hi, Option.some.injEq] at hw
    subst hw
    have hself : same table[i] table[i] = true := hsame.trans hmatch (hsame.symm hmatch)
    rcases internBy_cases same table table[i] with ⟨j, hj, hmatch', hfirst, hintern'⟩ | ⟨hnone, -⟩
    · rw [hintern']
      rcases lt_trichotomy j i with hlt | rfl | hlt
      · have hne := List.pairwise_iff_getElem.1 h j i hj hi hlt
        exact absurd hmatch' (by rw [hne]; exact Bool.false_ne_true)
      · rfl
      · have hne := hfirst i hlt
        exact absurd hself (by rw [hne]; exact Bool.false_ne_true)
    · have hne := hnone table[i] (List.getElem_mem hi)
      exact absurd hself (by rw [hne]; exact Bool.false_ne_true)
  · rw [hintern, List.getElem?_concat_length, Option.some.injEq] at hw
    rw [← hw, hintern]

/-- Interning what the indices stand for, in the table that there is in the end, gives the same table and the same indices. -/
theorem internAllBy_again (hsame : SameAs same) (h : table.Pairwise fun w w' => same w w' = false) (vs ws : List α)
    {final : List α} (hfinal : (internAllBy same table vs).1 <+: final)
    (hws : List.Forall₂ (fun i w => final[i]? = some w) (internAllBy same table vs).2 ws) :
    internAllBy same table ws = internAllBy same table vs := by
  induction vs generalizing table ws with
  | nil =>
    cases hws
    rfl
  | cons v vs ih =>
    rw [internAllBy_cons] at hfinal hws
    obtain ⟨w, ws, hw, hlater, rfl⟩ := List.forall₂_cons_left_iff.1 hws
    obtain ⟨w', hw', -⟩ := getElem?_internBy same table v
    have hfirst := getElem?_of_prefix ((prefix_internAllBy same _ vs).trans hfinal) hw'
    obtain rfl : w' = w := Option.some.inj (hfirst.symm.trans hw)
    have hagain := internBy_again hsame h v hw'
    have hrest := ih (pairwise_internBy h v) ws hfinal hlater
    rw [internAllBy_cons, internAllBy_cons, hagain, hrest]

/-! ### Groups of values -/

def internGroups (same : α → α → Bool) : List α → List (List α) → List α × List (List ℕ)
  | table, [] => (table, [])
  | table, vs :: vss =>
    let r := internAllBy same table vs
    let rs := internGroups same r.1 vss
    (rs.1, r.2 :: rs.2)

theorem internGroups_cons (vs : List α) (vss : List (List α)) : internGroups same table (vs :: vss) =
    ((internGroups same (internAllBy same table vs).1 vss).1,
      (internAllBy same table vs).2 :: (internGroups same (internAllBy same table vs).1 vss).2) := rfl

theorem internGroups_append (vss wss : List (List α)) : internGroups same table (vss ++ wss) =
    ((internGroups same (internGroups same table vss).1 wss).1,
      (internGroups same table vss).2 ++ (internGroups same (internGroups same table vss).1 wss).2) := by
  induction vss generalizing table with
  | nil => rfl
  | cons vs vss ih => rw [List.cons_append, internGroups_cons, internGroups_cons, ih, List.cons_append]

/-- The groups only divide the values. -/
theorem internAllBy_flatten (vss : List (List α)) : internAllBy same table vss.flatten =
    ((internGroups same table vss).1, (internGroups same table vss).2.flatten) := by
  induction vss generalizing table with
  | nil => rfl
  | cons vs vss ih => rw [List.flatten_cons, internAllBy_append, ih, internGroups_cons, List.flatten_cons]

theorem prefix_internGroups (same : α → α → Bool) (table : List α) (vss : List (List α)) :
    table <+: (internGroups same table vss).1 := by
  have h := prefix_internAllBy same table vss.flatten
  rwa [internAllBy_flatten] at h

/-- What the indices stand for, group by group. -/
theorem forall₂_internGroups (same : α → α → Bool) (table : List α) (vss : List (List α)) : List.Forall₂ (List.Forall₂ fun v i =>
    ∃ w, (internGroups same table vss).1[i]? = some w ∧ SameOrEq same w v) vss (internGroups same table vss).2 := by
  induction vss generalizing table with
  | nil => exact .nil
  | cons vs vss ih =>
    refine .cons ?_ (ih _)
    refine (forall₂_internAllBy same table vs).imp ?_
    intro v i h
    obtain ⟨w, hw, hsame⟩ := h
    exact ⟨w, getElem?_of_prefix (prefix_internGroups same _ vss) hw, hsame⟩

theorem internGroups_again (hsame : SameAs same) (h : table.Pairwise fun w w' => same w w' = false)
    (vss wss : List (List α)) {final : List α} (hfinal : (internGroups same table vss).1 <+: final)
    (hwss : List.Forall₂ (List.Forall₂ fun i w => final[i]? = some w) (internGroups same table vss).2 wss) :
    internGroups same table wss = internGroups same table vss := by
  induction vss generalizing table wss with
  | nil =>
    cases hwss
    rfl
  | cons vs vss ih =>
    rw [internGroups_cons] at hfinal hwss
    obtain ⟨ws, wss, hws, hlater, rfl⟩ := List.forall₂_cons_left_iff.1 hwss
    have hagain := internAllBy_again hsame h vs ws ((prefix_internGroups same _ vss).trans hfinal) hws
    have hrest := ih (pairwise_internAllBy h vs) wss hfinal hlater
    rw [internGroups_cons, internGroups_cons, hagain, hrest]

end Bouncer.Library
