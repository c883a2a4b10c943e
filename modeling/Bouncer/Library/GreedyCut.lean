import Bouncer.Library.Tiling

/-!
# Cutting a list where it is full

`greedyCut` cuts a list into runs from its start: an element goes into the current run, unless this is full for it, and
then starts the next one.  The runs make up the list (`flatten_greedyCut`), and what holds of each run of one element
and is kept while there is room holds of all of them (`forall_greedyCut`).

`placed` gives the elements of a list their positions, in two kinds of units at once.
-/

namespace Bouncer.Library

variable {α : Type*}

/-- The runs, when the current one has been started. -/
def greedyCut (full : List α → α → Bool) : List α → List α → List (List α)
  | current, [] => [current]
  | current, x :: xs =>
    if full current x then current :: greedyCut full [x] xs else greedyCut full (current ++ [x]) xs

variable {full : List α → α → Bool} {current : List α} {x : α} {xs : List α}

theorem greedyCut_of_full (h : full current x = true) :
    greedyCut full current (x :: xs) = current :: greedyCut full [x] xs := by
  rw [greedyCut, if_pos h]

theorem greedyCut_of_not_full (h : full current x = false) :
    greedyCut full current (x :: xs) = greedyCut full (current ++ [x]) xs := by
  rw [greedyCut, h]
  rfl

theorem flatten_greedyCut (full : List α → α → Bool) (current xs : List α) :
    (greedyCut full current xs).flatten = current ++ xs := by
  induction xs generalizing current with
  | nil => simp [greedyCut]
  | cons x xs ih =>
    cases h : full current x with
    | true => rw [greedyCut_of_full h, List.flatten_cons, ih, List.singleton_append]
    | false => rw [greedyCut_of_not_full h, ih, List.append_assoc, List.singleton_append]

theorem forall_greedyCut {P : List α → Prop} (hone : ∀ x, P [x])
    (hmore : ∀ current x, P current → full current x = false → P (current ++ [x])) (h : P current) :
    ∀ run ∈ greedyCut full current xs, P run := by
  induction xs generalizing current with
  | nil =>
    intro run hrun
    rwa [List.mem_singleton.1 hrun]
  | cons x xs ih =>
    cases hx : full current x with
    | true =>
      rw [greedyCut_of_full hx]
      exact List.forall_mem_cons.2 ⟨h, ih (hone x)⟩
    | false =>
      rw [greedyCut_of_not_full hx]
      exact ih (hmore current x h hx)

/-! ### Positions -/

section Placed

variable (vSize fSize : α → ℕ)

def placed : ℕ → ℕ → List α → List (ℕ × ℕ × α)
  | _, _, [] => []
  | v, f, x :: xs => (v, f, x) :: placed (v + vSize x) (f + fSize x) xs

variable {vSize fSize} {v f : ℕ}

theorem placed_append (xs ys : List α) : placed vSize fSize v f (xs ++ ys) =
    placed vSize fSize v f xs ++ placed vSize fSize (v + (xs.map vSize).sum) (f + (xs.map fSize).sum) ys := by
  induction xs generalizing v f with
  | nil => rfl
  | cons x xs ih =>
    simp only [List.cons_append, placed, ih, List.map_cons, List.sum_cons, Nat.add_assoc]

theorem placed_concat (xs : List α) (x : α) : placed vSize fSize v f (xs ++ [x]) =
    placed vSize fSize v f xs ++ [(v + (xs.map vSize).sum, f + (xs.map fSize).sum, x)] := placed_append xs [x]

theorem length_placed (xs : List α) : (placed vSize fSize v f xs).length = xs.length := by
  induction xs generalizing v f with
  | nil => rfl
  | cons x xs ih => rw [placed, List.length_cons, List.length_cons, ih]

theorem map_placed (xs : List α) : (placed vSize fSize v f xs).map (fun p => p.2.2) = xs := by
  induction xs generalizing v f with
  | nil => rfl
  | cons x xs ih => rw [placed, List.map_cons, ih]

/-- What an element comes after determines its position. -/
theorem mem_placed {xs : List α} {p : ℕ × ℕ × α} (h : p ∈ placed vSize fSize v f xs) :
    ∃ before after, xs = before ++ p.2.2 :: after ∧ p.1 = v + (before.map vSize).sum ∧
      p.2.1 = f + (before.map fSize).sum := by
  induction xs generalizing v f with
  | nil => exact absurd h List.not_mem_nil
  | cons x xs ih =>
    rcases List.mem_cons.1 h with rfl | h
    · exact ⟨[], xs, rfl, rfl, rfl⟩
    · obtain ⟨before, after, hxs, hv, hf⟩ := ih h
      refine ⟨x :: before, after, by rw [hxs, List.cons_append], ?_, ?_⟩
      · rw [hv, List.map_cons, List.sum_cons, Nat.add_assoc]
      · rw [hf, List.map_cons, List.sum_cons, Nat.add_assoc]

theorem mem_of_mem_placed {xs : List α} {p : ℕ × ℕ × α} (h : p ∈ placed vSize fSize v f xs) : p.2.2 ∈ xs := by
  have hmap : (placed vSize fSize v f xs).map (fun p => p.2.2) = xs := map_placed xs
  exact hmap ▸ List.mem_map_of_mem h

theorem exists_placed_of_mem {xs : List α} {x : α} (h : x ∈ xs) (v f : ℕ) :
    ∃ p ∈ placed vSize fSize v f xs, p.2.2 = x := by
  have hmap : (placed vSize fSize v f xs).map (fun p => p.2.2) = xs := map_placed xs
  rw [← hmap] at h
  exact List.mem_map.1 h

/-- The ranges of the first kind of units. -/
theorem map_placed_fst (xs : List α) : (placed vSize fSize v f xs).map (fun p => (p.1, p.1 + vSize p.2.2)) =
    spans v (xs.map vSize) := by
  induction xs generalizing v f with
  | nil => rfl
  | cons x xs ih => rw [placed, List.map_cons, ih, List.map_cons, spans]

/-- The ranges of the second kind of units. -/
theorem map_placed_snd (xs : List α) : (placed vSize fSize v f xs).map (fun p => (p.2.1, p.2.1 + fSize p.2.2)) =
    spans f (xs.map fSize) := by
  induction xs generalizing v f with
  | nil => rfl
  | cons x xs ih => rw [placed, List.map_cons, ih, List.map_cons, spans]

end Placed

/-- Every unit belongs to an element. -/
theorem exists_split_of_lt_sum {size : α → ℕ} {i : ℕ} (h : i < (xs.map size).sum) : ∃ before x after r,
    xs = before ++ x :: after ∧ i = (before.map size).sum + r ∧ r < size x := by
  induction xs generalizing i with
  | nil => exact absurd h (Nat.not_lt_zero i)
  | cons x xs ih =>
    rw [List.map_cons, List.sum_cons] at h
    by_cases hi : i < size x
    · exact ⟨[], x, xs, i, rfl, (Nat.zero_add i).symm, hi⟩
    · obtain ⟨before, y, after, r, hxs, hr, hlt⟩ := ih (show i - size x < (xs.map size).sum by omega)
      refine ⟨x :: before, y, after, r, by rw [hxs, List.cons_append], ?_, hlt⟩
      rw [List.map_cons, List.sum_cons]
      omega

/-- What an element is mapped to is found at its position. -/
theorem getElem?_flatMap_split {β : Type*} {f : α → List β} {size : α → ℕ} (hsize : ∀ x, (f x).length = size x)
    (before after : List α) {x : α} {r : ℕ} (hr : r < size x) :
    ((before ++ x :: after).flatMap f)[(before.map size).sum + r]? = (f x)[r]? := by
  have hlength : (before.flatMap f).length = (before.map size).sum := by
    rw [List.length_flatMap, List.map_congr_left fun y _ => hsize y]
  rw [List.flatMap_append, List.flatMap_cons, List.getElem?_append_right (by omega), hlength, Nat.add_sub_cancel_left,
    List.getElem?_append_left (by rwa [hsize])]

end Bouncer.Library
