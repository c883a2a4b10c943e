import Mathlib

/-!
# Sorting by digits

A stable pass lists the elements with the digit `0`, then those with the digit `1`, and so on, the elements with one
digit in their order.  An element goes to the place that counts those with smaller digits and the earlier ones with the
same digit (`stablePass_getElem?`), so that moving each element to its place is such a pass (`map_eq_stablePass`).

Passes by the digits of a number, from the lowest on, sort by the number, and elements with the same number keep their
order (`digitSort_pairwise`).
-/

namespace Bouncer.Library

variable {α : Type*}

/-- The elements by their digits, those with one digit in their order. -/
def stablePass (base : ℕ) (digit : α → ℕ) (l : List α) : List α :=
  (List.range base).flatMap fun d => l.filter fun x => digit x = d

/-- One pass for each digit, from the lowest on. -/
def digitSort (base : ℕ) (key : α → ℕ) (passes : ℕ) (l : List α) : List α :=
  (List.range passes).foldl (fun l i => stablePass base (fun x => key x / base ^ i % base) l) l

/-- The place of the element at `i`. -/
def place (digit : α → ℕ) (l : List α) (i : ℕ) (x : α) : ℕ :=
  (l.countP fun y => digit y < digit x) + (l.take i).countP fun y => digit y = digit x

variable {base : ℕ} {digit : α → ℕ} {l : List α}

private theorem stablePass_succ (base : ℕ) (digit : α → ℕ) (l : List α) :
    stablePass (base + 1) digit l = stablePass base digit l ++ l.filter fun x => digit x = base := by
  unfold stablePass
  rw [List.range_succ, List.flatMap_append, List.flatMap_singleton]

private theorem stablePass_perm_filter (base : ℕ) (digit : α → ℕ) (l : List α) :
    (stablePass base digit l).Perm (l.filter fun x => digit x < base) := by
  induction base with
  | zero => simp [stablePass]
  | succ base ih =>
    have hsplit := (List.filter_append_perm (fun x => decide (digit x < base)) (l.filter fun x => digit x < base + 1))
    rw [List.filter_filter, List.filter_filter] at hsplit
    have hlt : (fun x => decide (digit x < base) && decide (digit x < base + 1)) = fun x => decide (digit x < base) := by
      funext x
      rw [← Bool.decide_and]
      exact decide_eq_decide.2 (by omega)
    have heq : (fun x => (!decide (digit x < base)) && decide (digit x < base + 1)) = fun x => decide (digit x = base) := by
      funext x
      rw [← decide_not, ← Bool.decide_and]
      exact decide_eq_decide.2 (by omega)
    rw [hlt, heq] at hsplit
    rw [stablePass_succ]
    exact (ih.append_right _).trans hsplit

theorem stablePass_perm (h : ∀ x ∈ l, digit x < base) : (stablePass base digit l).Perm l := by
  have hall : (l.filter fun x => decide (digit x < base)) = l := List.filter_eq_self.2 fun x hx => decide_eq_true (h x hx)
  have hperm := stablePass_perm_filter base digit l
  rwa [hall] at hperm

/-- A pass orders by the digit first, and then as before. -/
theorem stablePass_pairwise {r : α → α → Prop} (h : l.Pairwise r) :
    (stablePass base digit l).Pairwise fun x y => digit x < digit y ∨ digit x = digit y ∧ r x y := by
  unfold stablePass
  rw [List.pairwise_flatMap]
  constructor
  · intro d _
    refine (h.filter _).imp_of_mem fun {x y} hx hy hxy => ?_
    have hx : digit x = d := by simpa using List.of_mem_filter hx
    have hy : digit y = d := by simpa using List.of_mem_filter hy
    exact Or.inr ⟨hx.trans hy.symm, hxy⟩
  · refine List.pairwise_lt_range.imp fun {d e} hde x hx y hy => Or.inl ?_
    have hx : digit x = d := by simpa using List.of_mem_filter hx
    have hy : digit y = e := by simpa using List.of_mem_filter hy
    rwa [hx, hy]

/-- The elements with one key, which decides about their digit, keep their order. -/
theorem stablePass_filter {κ : Type*} [DecidableEq κ] (key : α → κ) (k : κ) {d : ℕ} (hd : d < base)
    (hkey : ∀ x, key x = k → digit x = d) :
    (stablePass base digit l).filter (fun x => key x = k) = l.filter fun x => key x = k := by
  have hone : ∀ e, (l.filter fun x => digit x = e).filter (fun x => key x = k) =
      if e = d then l.filter (fun x => key x = k) else [] := by
    intro e
    rw [List.filter_filter]
    split
    · next he =>
      refine List.filter_congr fun x _ => ?_
      rw [← Bool.decide_and]
      exact decide_eq_decide.2 ⟨And.left, fun hx => ⟨hx, (hkey x hx).trans he.symm⟩⟩
    · next he =>
      refine List.filter_eq_nil_iff.2 fun x _ => ?_
      simp only [Bool.and_eq_true, decide_eq_true_eq, not_and]
      exact fun hx hxe => he (hxe.symm.trans (hkey x hx))
  obtain ⟨m, rfl⟩ := Nat.exists_eq_add_of_lt hd
  have hnone : ∀ es : List ℕ, d ∉ es →
      (es.flatMap fun e => if e = d then l.filter (fun x => key x = k) else []) = [] := by
    intro es hes
    rw [List.flatMap_eq_nil_iff]
    exact fun e he => if_neg fun hed : e = d => hes (hed ▸ he)
  have happend : List.range' 0 d ++ List.range' (0 + d) (m + 1) = List.range' 0 (d + (m + 1)) := List.range'_append_1
  rw [Nat.zero_add] at happend
  unfold stablePass
  rw [List.filter_flatMap]
  simp only [hone]
  rw [List.range_eq_range', Nat.add_assoc, ← happend, List.range'_succ, List.flatMap_append, List.flatMap_cons,
    hnone _ (fun h => by rw [List.mem_range'_1] at h; omega), hnone _ (fun h => by rw [List.mem_range'_1] at h; omega),
    if_pos rfl, List.nil_append, List.append_nil]

/-! ### Places -/

private theorem filter_getElem? (p : α → Bool) (l : List α) {i : ℕ} {x : α} (hx : l[i]? = some x) (hp : p x = true) :
    (l.filter p)[(l.take i).countP p]? = some x := by
  induction l generalizing i with
  | nil => simp at hx
  | cons y l ih =>
    cases i with
    | zero =>
      obtain rfl : y = x := by simpa using hx
      simp [hp]
    | succ i =>
      rw [List.getElem?_cons_succ] at hx
      by_cases hy : p y = true
      · simpa [hy] using ih hx
      · simpa [hy] using ih hx

theorem stablePass_getElem? {i : ℕ} {x : α} (hx : l[i]? = some x) (hbase : digit x < base) :
    (stablePass base digit l)[place digit l i x]? = some x := by
  obtain ⟨k, rfl⟩ := Nat.exists_eq_add_of_lt hbase
  -- the elements before those with the digit of `x`
  have hfront : stablePass (digit x + k + 1) digit l = stablePass (digit x) digit l ++
      ((l.filter fun y => digit y = digit x) ++
        (List.range' (digit x + 1) k).flatMap fun d => l.filter fun y => digit y = d) := by
    have hrange : List.range (digit x + k + 1) =
        List.range (digit x) ++ digit x :: List.range' (digit x + 1) k := by
      have happend : List.range' 0 (digit x) ++ List.range' (0 + digit x) (k + 1) = List.range' 0 (digit x + (k + 1)) :=
        List.range'_append_1
      rw [Nat.zero_add] at happend
      rw [List.range_eq_range', List.range_eq_range', ← List.range'_succ, happend, Nat.add_assoc]
    unfold stablePass
    rw [hrange, List.flatMap_append, List.flatMap_cons]
  have hlength : (stablePass (digit x) digit l).length = l.countP fun y => digit y < digit x := by
    rw [(stablePass_perm_filter (digit x) digit l).length_eq, List.countP_eq_length_filter]
  have hin := filter_getElem? (fun y => decide (digit y = digit x)) l hx (decide_eq_true rfl)
  have hlt := (List.getElem?_eq_some_iff.1 hin).1
  unfold place
  rw [hfront, ← hlength, List.getElem?_append_right (Nat.le_add_right _ _), Nat.add_sub_cancel_left,
    List.getElem?_append_left hlt]
  exact hin

/-- Different elements have different places. -/
theorem place_inj {i j : ℕ} {x y : α} (hx : l[i]? = some x) (hy : l[j]? = some y)
    (h : place digit l i x = place digit l j y) : i = j := by
  have hxy : x = y := by
    have hbx : digit x < digit x + digit y + 1 := by omega
    have hby : digit y < digit x + digit y + 1 := by omega
    have h1 := stablePass_getElem? hx hbx
    have h2 := stablePass_getElem? hy hby
    rw [h, h2] at h1
    exact (Option.some.inj h1).symm
  subst hxy
  -- an earlier element with the same digit has fewer before it
  have hlt : ∀ {i j : ℕ}, l[i]? = some x → i < j →
      (l.take i).countP (fun z => digit z = digit x) < (l.take j).countP fun z => digit z = digit x := by
    intro i j hi hij
    have htake : (l.take (i + 1)).countP (fun z => digit z = digit x) =
        (l.take i).countP (fun z => digit z = digit x) + 1 := by
      rw [List.take_add_one, hi, List.countP_append]
      simp
    have hsub : (l.take (i + 1)).Sublist (l.take j) := List.take_sublist_take_left hij
    have := hsub.countP_le (p := fun z => decide (digit z = digit x))
    omega
  unfold place at h
  rcases Nat.lt_trichotomy i j with hij | rfl | hij
  · have := hlt hx hij
    omega
  · rfl
  · have := hlt hy hij
    omega

theorem place_lt {i : ℕ} {x : α} (hx : l[i]? = some x) (h : ∀ y ∈ l, digit y < base) : place digit l i x < l.length := by
  have hget := stablePass_getElem? hx (h x (List.mem_of_getElem? hx))
  have := (List.getElem?_eq_some_iff.1 hget).1
  rwa [(stablePass_perm h).length_eq] at this

/-- An array with each element in its place holds the result of the pass. -/
theorem map_eq_stablePass (copy : ℕ → α) (h : ∀ y ∈ l, digit y < base)
    (hcopy : ∀ i x, l[i]? = some x → copy (place digit l i x) = x) :
    (List.range l.length).map copy = stablePass base digit l := by
  -- the places are all positions
  have hplaces : ((List.range l.length).attach.map fun i =>
      place digit l i.1 (l.get ⟨i.1, List.mem_range.1 i.2⟩)).Perm (List.range l.length) := by
    refine List.Subperm.perm_of_length_le (List.subperm_of_subset ?_ ?_) (by simp)
    · refine List.Nodup.map_on ?_ (List.nodup_attach.2 List.nodup_range)
      intro i _ j _ hij
      exact Subtype.ext (place_inj (List.getElem?_eq_getElem _) (List.getElem?_eq_getElem _) hij)
    · intro p hp
      obtain ⟨i, -, rfl⟩ := List.mem_map.1 hp
      exact List.mem_range.2 (place_lt (List.getElem?_eq_getElem _) h)
  refine List.ext_getElem? fun p => ?_
  by_cases hp : p < l.length
  · obtain ⟨i, -, rfl⟩ := List.mem_map.1 (hplaces.mem_iff.2 (List.mem_range.2 hp))
    have hi := List.mem_range.1 i.2
    have hget : l[i.1]? = some (l.get ⟨i.1, hi⟩) := List.getElem?_eq_getElem hi
    rw [stablePass_getElem? hget (h _ (List.getElem_mem hi)), List.getElem?_map, List.getElem?_range hp, Option.map_some,
      hcopy i.1 _ hget]
  · rw [List.getElem?_eq_none (by simpa using hp), List.getElem?_eq_none (by rw [(stablePass_perm h).length_eq]; omega)]

/-! ### All passes -/

theorem digitSort_succ (base : ℕ) (key : α → ℕ) (passes : ℕ) (l : List α) :
    digitSort base key (passes + 1) l =
      stablePass base (fun x => key x / base ^ passes % base) (digitSort base key passes l) := by
  unfold digitSort
  rw [List.range_succ, List.foldl_append]
  rfl

theorem digitSort_perm (hbase : 0 < base) (key : α → ℕ) (passes : ℕ) (l : List α) :
    (digitSort base key passes l).Perm l := by
  induction passes with
  | zero => exact List.Perm.refl l
  | succ passes ih =>
    rw [digitSort_succ]
    exact (stablePass_perm fun x _ => Nat.mod_lt _ hbase).trans ih

/-- Elements with the same key keep their order. -/
theorem digitSort_filter (hbase : 0 < base) (key : α → ℕ) (passes k : ℕ) (l : List α) :
    (digitSort base key passes l).filter (fun x => key x = k) = l.filter fun x => key x = k := by
  induction passes with
  | zero => rfl
  | succ passes ih =>
    rw [digitSort_succ, stablePass_filter key k (Nat.mod_lt (k / base ^ passes) hbase), ih]
    exact fun x hx => by rw [hx]

/-- The passes sort by the number that the digits make, and otherwise as before. -/
theorem digitSort_pairwise {r : α → α → Prop} (hbase : 0 < base) (key : α → ℕ) (passes : ℕ) (h : l.Pairwise r) :
    (digitSort base key passes l).Pairwise fun x y =>
      key x % base ^ passes < key y % base ^ passes ∨ key x % base ^ passes = key y % base ^ passes ∧ r x y := by
  induction passes with
  | zero =>
    refine h.imp fun {x y} hxy => Or.inr ⟨?_, hxy⟩
    rw [Nat.pow_zero, Nat.mod_one, Nat.mod_one]
  | succ passes ih =>
    rw [digitSort_succ]
    refine (stablePass_pairwise ih).imp fun {x y} hxy => ?_
    rw [Nat.pow_succ, Nat.mod_mul, Nat.mod_mul]
    rcases hxy with hlt | ⟨heq, hlt | ⟨heq', hr⟩⟩
    · left
      have hx := Nat.mod_lt (key x) (Nat.pow_pos (n := passes) hbase)
      calc key x % base ^ passes + base ^ passes * (key x / base ^ passes % base)
          < base ^ passes + base ^ passes * (key x / base ^ passes % base) := Nat.add_lt_add_right hx _
        _ = base ^ passes * (key x / base ^ passes % base + 1) := by rw [Nat.mul_succ, Nat.add_comm]
        _ ≤ base ^ passes * (key y / base ^ passes % base) := Nat.mul_le_mul_left _ hlt
        _ ≤ _ := Nat.le_add_left _ _
    · left
      rw [heq]
      exact Nat.add_lt_add_right hlt _
    · exact Or.inr ⟨by rw [heq, heq'], hr⟩

end Bouncer.Library
