import Mathlib.Algebra.Order.BigOperators.Group.Finset
import Mathlib.Data.List.Perm.Subperm

/-!
# Taking turns

Groups of values are written into an array in rounds: each round takes the next value of every group that still has
one.  A cursor for each group says how far it is, and the rounds end with one that finds nothing.

If the values of the groups are those of a list that is as long as the array, each value in the group of its class, then
the array holds the values of the list in the end, and those of a class stand in the order of their group
(`filter_interleave`, `perm_interleave`).
-/

namespace Bouncer.Library

variable {ι α : Type*}

/-! ### Lists and the classes of their values -/

section Classes

variable [DecidableEq ι] [DecidableEq α] (κ : α → ι) {l l' : List α}

theorem count_filter_class (x : α) (l : List α) :
    (l.filter fun y => decide (κ y = κ x)).count x = l.count x :=
  List.count_filter (by simp)

/-- A list fits into another one if each of its classes does. -/
theorem subperm_of_filter (h : ∀ g, (l.filter fun x => decide (κ x = g)).Subperm (l'.filter fun x => decide (κ x = g))) :
    l.Subperm l' := by
  rw [List.subperm_ext_iff]
  intro x _
  have hcount := (h (κ x)).count_le x
  rwa [count_filter_class, count_filter_class] at hcount

theorem perm_of_filter (h : ∀ g, (l.filter fun x => decide (κ x = g)).Perm (l'.filter fun x => decide (κ x = g))) :
    l.Perm l' := by
  rw [List.perm_iff_count]
  intro x
  have hcount := (h (κ x)).count_eq x
  rwa [count_filter_class, count_filter_class] at hcount

end Classes

namespace RoundRobin

/-- Where the rounds are: a cursor for each group, and one for the array. -/
structure Cursors (ι α : Type*) where
  idx : ι → ℕ
  i : ℕ
  out : List α
  hasElementsRemaining : Bool

variable [DecidableEq ι] (groups : ι → List α)

/-- The turn of a group. -/
def visit (s : Cursors ι α) (g : ι) : Cursors ι α :=
  match (groups g)[s.idx g]? with
  | some x => ⟨Function.update s.idx g (s.idx g + 1), s.i + 1, s.out.set s.i x, true⟩
  | none => s

def round (order : List ι) (s : Cursors ι α) : Cursors ι α :=
  order.foldl (visit groups) { s with hasElementsRemaining := false }

/-! ### The rounds come to an end -/

variable {groups}

variable {s : Cursors ι α}

theorem visit_of_some {g : ι} {x : α} (h : (groups g)[s.idx g]? = some x) :
    visit groups s g = ⟨Function.update s.idx g (s.idx g + 1), s.i + 1, s.out.set s.i x, true⟩ := by
  unfold visit
  rw [h]

theorem visit_of_none {g : ι} (h : (groups g)[s.idx g]? = none) : visit groups s g = s := by
  unfold visit
  rw [h]

/-- The groups that have made progress between two states. -/
structure Progress (groups : ι → List α) (s s' : Cursors ι α) : Prop where
  le : ∀ g, s.idx g ≤ s'.idx g
  lt : s'.hasElementsRemaining = true →
    s.hasElementsRemaining = true ∨ ∃ g, s.idx g < (groups g).length ∧ s.idx g < s'.idx g

omit [DecidableEq ι] in
theorem Progress.refl (s : Cursors ι α) : Progress groups s s := ⟨fun _ => le_rfl, Or.inl⟩

omit [DecidableEq ι] in
theorem Progress.trans {s s' s'' : Cursors ι α} (h : Progress groups s s') (h' : Progress groups s' s'') :
    Progress groups s s'' where
  le g := (h.le g).trans (h'.le g)
  lt hs'' := by
    rcases h'.lt hs'' with hs' | ⟨g, hlt, hidx⟩
    · rcases h.lt hs' with hs | ⟨g, hlt, hidx⟩
      · exact Or.inl hs
      · exact Or.inr ⟨g, hlt, hidx.trans_le (h'.le g)⟩
    · have hle := h.le g
      exact Or.inr ⟨g, by omega, by omega⟩

theorem progress_visit (s : Cursors ι α) (g : ι) : Progress groups s (visit groups s g) := by
  cases h : (groups g)[s.idx g]? with
  | none =>
    rw [visit_of_none h]
    exact Progress.refl s
  | some x =>
    have hlt : s.idx g < (groups g).length := (List.getElem?_eq_some_iff.1 h).1
    rw [visit_of_some h]
    refine ⟨?_, fun _ => Or.inr ⟨g, hlt, ?_⟩⟩
    · intro g'
      by_cases hg : g' = g
      · subst hg
        simp
      · simp [Function.update_of_ne hg]
    · simp

theorem progress_visits (order : List ι) (s : Cursors ι α) : Progress groups s (order.foldl (visit groups) s) := by
  induction order generalizing s with
  | nil => exact Progress.refl s
  | cons g order ih => exact (progress_visit s g).trans (ih _)

/-- A round that finds something moves a cursor. -/
theorem remaining_round_lt [Fintype ι] {order : List ι}
    (h : (round groups order s).hasElementsRemaining = true) :
    ∑ g, ((groups g).length - (round groups order s).idx g) < ∑ g, ((groups g).length - s.idx g) := by
  have hprogress : Progress groups { s with hasElementsRemaining := false } (round groups order s) :=
    progress_visits order _
  rcases hprogress.lt h with hfalse | ⟨g, hlt, hidx⟩
  · exact absurd hfalse (by simp)
  · refine Finset.sum_lt_sum ?_ ⟨g, Finset.mem_univ g, ?_⟩
    · intro g' _
      exact Nat.sub_le_sub_left (hprogress.le g') _
    · exact Nat.sub_lt_sub_left hlt hidx

variable (groups)

/-- Round after round, until one finds nothing. -/
def rounds [Fintype ι] (order : List ι) (s : Cursors ι α) : Cursors ι α :=
  if (round groups order s).hasElementsRemaining = true then rounds order (round groups order s)
  else round groups order s
termination_by ∑ g, ((groups g).length - s.idx g)
decreasing_by exact remaining_round_lt ‹_›

def interleave [Fintype ι] (order : List ι) (out : List α) : List α :=
  (rounds groups order ⟨fun _ => 0, 0, out, false⟩).out

/-! ### What is in the array -/

variable {groups} {κ : α → ι} {l : List α}

/-- What was written so far are the first values of each group, in their order. -/
structure Written (groups : ι → List α) (κ : α → ι) (l : List α) (s : Cursors ι α) : Prop where
  length_out : s.out.length = l.length
  i_le : s.i ≤ l.length
  filter_take : ∀ g, ((s.out.take s.i).filter fun x => decide (κ x = g)) = (groups g).take (s.idx g)

theorem written_start {out : List α} (hlength : out.length = l.length) :
    Written groups κ l ⟨fun _ => 0, 0, out, false⟩ := ⟨hlength, Nat.zero_le _, fun _ => by simp⟩

variable [DecidableEq α]

/-- The groups are those of a list. -/
structure Classes (groups : ι → List α) (κ : α → ι) (l : List α) : Prop where
  perm : ∀ g, (groups g).Perm (l.filter fun x => decide (κ x = g))

omit [DecidableEq α] in
theorem Classes.class_eq (h : Classes groups κ l) {g : ι} {x : α} (hx : x ∈ groups g) : κ x = g := by
  have hmem := (h.perm g).mem_iff.1 hx
  simpa using (List.mem_filter.1 hmem).2

theorem Written.visit (h : Written groups κ l s) (hclasses : Classes groups κ l) (g : ι) :
    Written groups κ l (visit groups s g) := by
  cases hx : (groups g)[s.idx g]? with
  | none => rwa [visit_of_none hx]
  | some x =>
    obtain ⟨hlt, rfl⟩ := List.getElem?_eq_some_iff.1 hx
    have hclass : κ (groups g)[s.idx g] = g := hclasses.class_eq (List.getElem_mem hlt)
    -- with the new value, the first values of the groups are still values of the list, so there is room for it
    have hfilter : ∀ g', ((s.out.take s.i ++ [(groups g)[s.idx g]]).filter fun x => decide (κ x = g')) =
        (groups g').take (Function.update s.idx g (s.idx g + 1) g') := by
      intro g'
      rw [List.filter_append, h.filter_take g']
      by_cases hg : g' = g
      · subst hg
        rw [Function.update_self, List.take_succ_eq_append_getElem hlt, List.filter_singleton]
        simp [hclass]
      · rw [Function.update_of_ne hg, List.filter_singleton]
        simp [hclass, Ne.symm hg]
    have hroom : s.i < l.length := by
      have hsub : (s.out.take s.i ++ [(groups g)[s.idx g]]).Subperm l := by
        refine subperm_of_filter κ fun g' => ?_
        rw [hfilter g']
        exact ((List.take_sublist _ _).subperm).trans (hclasses.perm g').subperm
      have hle := hsub.length_le
      have hi := h.i_le
      rw [List.length_append, List.length_take, h.length_out, List.length_singleton] at hle
      omega
    have htake : (s.out.set s.i (groups g)[s.idx g]).take (s.i + 1) = s.out.take s.i ++ [(groups g)[s.idx g]] := by
      have hlen : s.i < (s.out.set s.i (groups g)[s.idx g]).length := by
        rw [List.length_set, h.length_out]
        exact hroom
      rw [List.take_succ_eq_append_getElem hlen, List.getElem_set_self, List.take_set_of_le le_rfl]
    rw [visit_of_some hx]
    refine ⟨?_, hroom, ?_⟩
    · rw [List.length_set]
      exact h.length_out
    · intro g'
      dsimp only
      rw [htake]
      exact hfilter g'

theorem Written.visits (h : Written groups κ l s) (hclasses : Classes groups κ l) (order : List ι) :
    Written groups κ l (order.foldl (RoundRobin.visit groups) s) := by
  induction order generalizing s with
  | nil => exact h
  | cons g order ih => exact ih (h.visit hclasses g)

theorem Written.round (h : Written groups κ l s) (hclasses : Classes groups κ l) (order : List ι) :
    Written groups κ l (RoundRobin.round groups order s) :=
  have hstart : Written groups κ l { s with hasElementsRemaining := false } := ⟨h.length_out, h.i_le, h.filter_take⟩
  hstart.visits hclasses order

omit [DecidableEq α] in
/-- A round that finds nothing has been at the end of every group. -/
theorem finished_of_visits {order : List ι}
    (h : (order.foldl (visit groups) s).hasElementsRemaining = false) {g : ι} (hg : g ∈ order) :
    (groups g).length ≤ (order.foldl (visit groups) s).idx g := by
  have hkeeps : ∀ (order : List ι) (s : Cursors ι α), s.hasElementsRemaining = true →
      (order.foldl (visit groups) s).hasElementsRemaining = true := by
    intro order
    induction order with
    | nil => exact fun _ hs => hs
    | cons g order ih =>
      intro s hs
      refine ih _ ?_
      cases hx : (groups g)[s.idx g]? with
      | none => rwa [visit_of_none hx]
      | some x => rw [visit_of_some hx]
  induction order generalizing s with
  | nil => exact absurd hg List.not_mem_nil
  | cons g' order ih =>
    rw [List.foldl_cons] at h ⊢
    rcases List.mem_cons.1 hg with rfl | hg
    · cases hx : (groups g)[s.idx g]? with
      | none =>
        rw [visit_of_none hx]
        exact (List.getElem?_eq_none_iff.1 hx).trans ((progress_visits order s).le g)
      | some x =>
        rw [hkeeps order _ (by rw [visit_of_some hx])] at h
        exact absurd h (by simp)
    · exact ih h hg

variable [Fintype ι] {order : List ι}

/-- In the end every group is written. -/
theorem Written.rounds (h : Written groups κ l s) (hclasses : Classes groups κ l)
    (horder : ∀ g, g ∈ order) : Written groups κ l (RoundRobin.rounds groups order s) ∧
      ∀ g, (groups g).length ≤ (RoundRobin.rounds groups order s).idx g := by
  induction s using RoundRobin.rounds.induct groups order with
  | case1 s hmore ih =>
    rw [RoundRobin.rounds, if_pos hmore]
    exact ih (h.round hclasses order)
  | case2 s hdone =>
    rw [RoundRobin.rounds, if_neg hdone]
    refine ⟨h.round hclasses order, ?_⟩
    intro g
    exact finished_of_visits (by simpa [RoundRobin.round] using hdone) (horder g)

variable {out : List α}

/-- Of each class, the array holds its group. -/
theorem filter_interleave (hclasses : Classes groups κ l) (horder : ∀ g, g ∈ order) (hlength : out.length = l.length)
    (g : ι) : ((interleave groups order out).filter fun x => decide (κ x = g)) = groups g := by
  obtain ⟨hwritten, hfinished⟩ := Written.rounds (written_start hlength) hclasses horder
  unfold interleave
  generalize RoundRobin.rounds groups order ⟨fun _ => 0, 0, out, false⟩ = s at hwritten hfinished
  have hfilter : ∀ g, ((s.out.take s.i).filter fun x => decide (κ x = g)) = groups g := by
    intro g
    rw [hwritten.filter_take g, List.take_of_length_le (hfinished g)]
  have hperm : (s.out.take s.i).Perm l := by
    refine perm_of_filter κ fun g => ?_
    rw [hfilter g]
    exact hclasses.perm g
  have hi : s.out.length ≤ s.i := by
    have hlen := hperm.length_eq
    rw [List.length_take, ← hwritten.length_out] at hlen
    omega
  rw [← hfilter g, List.take_of_length_le hi]

/-- The array holds the values of the list. -/
theorem perm_interleave (hclasses : Classes groups κ l) (horder : ∀ g, g ∈ order) (hlength : out.length = l.length) :
    (interleave groups order out).Perm l := by
  refine perm_of_filter κ fun g => ?_
  rw [filter_interleave hclasses horder hlength g]
  exact hclasses.perm g

end RoundRobin

end Bouncer.Library
