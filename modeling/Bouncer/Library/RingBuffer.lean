import Mathlib.Data.List.GetD
import Mathlib.Data.List.Rotate
import Mathlib.Data.Nat.ModEq

/-!
# Ring buffers and circular lists

A ring buffer keeps a list in an array of slots, from some slot on and past the end from the first slot on.  There is always
a slot without an element.  `HoldsFrom` says that the other slots are empty, and elements are put behind the last one and taken
from the front (`HoldsFrom.push`, `HoldsFrom.pop`).

`Circle` says that a list of nodes is what one reads following their links around a circle.  It can be read from any of its
nodes (`Circle.swap`), and another node can be put into it (`Circle.insert`).
-/

namespace Bouncer.Library

variable {α : Type*}

/-! ### Ring buffers -/

/-- The slots from `first` on hold a list, and the others nothing. -/
structure HoldsFrom (size : ℕ) (data : ℕ → Option α) (first : ℕ) (xs : List α) : Prop where
  first_lt : first < size
  length_lt : xs.length < size
  get : ∀ j < size, data ((first + j) % size) = xs[j]?

theorem add_mod_inj {size first i j : ℕ} (hi : i < size) (hj : j < size) (h : (first + i) % size = (first + j) % size) :
    i = j := by
  have h' : i % size = j % size := Nat.ModEq.add_left_cancel' first h
  rwa [Nat.mod_eq_of_lt hi, Nat.mod_eq_of_lt hj] at h'

namespace HoldsFrom

variable {size first : ℕ} {data : ℕ → Option α} {xs : List α} {x : α}

theorem nil (hpos : first < size) : HoldsFrom size (fun _ => (none : Option α)) first [] :=
  ⟨hpos, (Nat.zero_le _).trans_lt hpos, fun _ _ => rfl⟩

/-- The slot behind the last element is empty. -/
theorem get_length (h : HoldsFrom size data first xs) : data ((first + xs.length) % size) = none := by
  rw [h.get _ h.length_lt, List.getElem?_eq_none le_rfl]

theorem push (h : HoldsFrom size data first xs) (hroom : xs.length + 1 < size) (x : α) :
    HoldsFrom size (Function.update data ((first + xs.length) % size) (some x)) first (xs ++ [x]) where
  first_lt := h.first_lt
  length_lt := by simpa using hroom
  get := by
    intro j hj
    by_cases heq : j = xs.length
    · rw [heq, Function.update_self, List.getElem?_concat_length]
    · rw [Function.update_of_ne fun hslot => heq (add_mod_inj hj h.length_lt hslot), h.get j hj]
      rcases Nat.lt_or_ge j xs.length with hlt | hge
      · rw [List.getElem?_append_left hlt]
      · rw [List.getElem?_eq_none hge, List.getElem?_eq_none]
        rw [List.length_append, List.length_singleton]
        omega

theorem head (h : HoldsFrom size data first (x :: xs)) : data first = some x := by
  have hpos := h.first_lt
  have hget := h.get 0 (by omega)
  rwa [Nat.add_zero, Nat.mod_eq_of_lt hpos] at hget

theorem pop (h : HoldsFrom size data first (x :: xs)) :
    HoldsFrom size (Function.update data first none) ((first + 1) % size) xs where
  first_lt := Nat.mod_lt _ ((Nat.zero_le _).trans_lt h.first_lt)
  length_lt := (Nat.lt_succ_self _).trans h.length_lt
  get := by
    intro j hj
    have hfirst : (first + 0) % size = first := Nat.mod_eq_of_lt h.first_lt
    rw [Nat.mod_add_mod, Nat.add_assoc, Nat.add_comm 1 j]
    by_cases hlast : j + 1 = size
    · have hslot : (first + (j + 1)) % size = first := by rw [hlast, Nat.add_mod_right, Nat.mod_eq_of_lt h.first_lt]
      have hlength := h.length_lt
      rw [List.length_cons] at hlength
      rw [hslot, Function.update_self, List.getElem?_eq_none (by omega)]
    · have hj' : j + 1 < size := by omega
      rw [Function.update_of_ne, h.get _ hj', List.getElem?_cons_succ]
      intro hslot
      exact absurd (add_mod_inj hj' (by omega) (hslot.trans hfirst.symm)) (Nat.succ_ne_zero j)

end HoldsFrom

/-! ### Circular lists -/

/-- The nodes of a list are linked in a circle. -/
def Circle (next : α → α) (l : List α) : Prop := l.map next = l.rotate 1

namespace Circle

variable {next next' : α → α} {a b t : α} {l u w : List α}

theorem cons_iff : Circle next (a :: l) ↔ next a :: l.map next = l ++ [a] := by
  rw [Circle, List.map_cons, List.rotate_cons_succ, List.rotate_zero]

theorem singleton (h : next a = a) : Circle next [a] := cons_iff.2 (congrArg (fun x => [x]) h)

theorem next_head (h : Circle next (a :: b :: l)) : next a = b := (List.cons.inj (cons_iff.1 h)).1

/-- The circle can be read from any of its nodes on. -/
theorem swap (h : Circle next (u ++ w)) : Circle next (w ++ u) := by
  have hrotate : ((u ++ w).map next).rotate u.length = ((u ++ w).rotate 1).rotate u.length :=
    congrArg (fun l => l.rotate u.length) h
  rwa [← List.map_rotate, List.rotate_append_length_eq, List.rotate_rotate, Nat.add_comm, ← List.rotate_rotate,
    List.rotate_append_length_eq] at hrotate

theorem next_mid (h : Circle next (u ++ t :: b :: w)) : next t = b := next_head h.swap

theorem next_last (h : Circle next (a :: (u ++ [t]))) : next t = a :=
  next_head (swap (u := a :: u) (w := [t]) h)

/-- Nothing depends on the links of other nodes. -/
theorem congr (h : Circle next l) (heq : ∀ x ∈ l, next' x = next x) : Circle next' l :=
  (List.map_congr_left heq).trans h

/-- A node is put behind another one. -/
theorem insert (h : Circle next (u ++ t :: w)) (hnodup : (u ++ t :: w).Nodup) (ht : next' t = b)
    (hb : next' b = next t) (hsame : ∀ x ∈ u ++ t :: w, x ≠ t → next' x = next x) : Circle next' (u ++ t :: b :: w) := by
  refine swap (u := t :: b :: w) ?_
  have hcircle : next t :: (w ++ u).map next = w ++ u ++ [t] := cons_iff.1 h.swap
  have hrest : (w ++ u).map next' = (w ++ u).map next := by
    refine List.map_congr_left fun x hx => hsame x ?_ ?_
    · rw [List.mem_append, List.mem_cons]
      exact (List.mem_append.1 hx).symm.imp id .inr
    · rintro rfl
      exact (List.nodup_cons.1 (List.perm_middle.nodup_iff.1 hnodup)).1 (List.perm_append_comm.mem_iff.1 hx)
  refine cons_iff.2 ?_
  show next' t :: next' b :: (w ++ u).map next' = b :: (w ++ u ++ [t])
  rw [ht, hb, hrest, hcircle]

end Circle

end Bouncer.Library
