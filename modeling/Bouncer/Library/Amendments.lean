import Mathlib.Data.Finset.Lattice.Fold
import Mathlib.Data.List.Nodup

/-!
# Records that are amended after they were written

A log of writes: a record is inserted under its key, or the record under a key gets some more elements of a set.  An
amendment whose key is not there yet is lost.

If every key is inserted once, and amended only after that, then in the end a record has the elements that all of its
amendments give it, in whatever order they came and however they were put together (`records_eq`).
-/

namespace Bouncer.Library

universe u v w

inductive Write (N : Type u) (K : Type v) (P : Type w) where
  | insert (n : N)
  | update (k : K) (ps : Finset P)

/-- Records with a key, and with a set that can be added to. -/
structure Amendable (N : Type u) (K : Type v) (P : Type w) [DecidableEq P] where
  key : N → K
  amend : N → Finset P → N
  key_amend : ∀ n ps, key (amend n ps) = key n
  amend_empty : ∀ n, amend n ∅ = n
  amend_amend : ∀ n ps qs, amend (amend n ps) qs = amend n (ps ∪ qs)

variable {N : Type u} {K : Type v} {P : Type w}

/-- What is inserted. -/
def inserted : List (Write N K P) → List N
  | [] => []
  | .insert n :: log => n :: inserted log
  | .update .. :: log => inserted log

@[simp] theorem inserted_nil : inserted ([] : List (Write N K P)) = [] := rfl

@[simp] theorem inserted_append (log log' : List (Write N K P)) :
    inserted (log ++ log') = inserted log ++ inserted log' := by
  induction log with
  | nil => rfl
  | cons w log ih =>
    cases w with
    | insert n => rw [List.cons_append, inserted, ih, inserted, List.cons_append]
    | update k ps => rw [List.cons_append, inserted, ih, inserted]

variable {log : List (Write N K P)}

theorem mem_inserted {n : N} : n ∈ inserted log ↔ .insert n ∈ log := by
  induction log with
  | nil => simp
  | cons w log ih => cases w <;> simp [inserted, ih]

section Added

variable [DecidableEq K] [DecidableEq P]

/-- What is added under a key. -/
def added (k : K) : List (Write N K P) → Finset P
  | [] => ∅
  | .insert _ :: log => added k log
  | .update k' ps :: log => if k' = k then ps ∪ added k log else added k log

theorem mem_added {k : K} {p : P} : p ∈ added k log ↔ ∃ ps, .update k ps ∈ log ∧ p ∈ ps := by
  induction log with
  | nil => simp [added]
  | cons w log ih =>
    cases w with
    | insert n => simp [added, ih]
    | update k' ps =>
      rw [added]
      split
      · rename_i hk
        subst hk
        rw [Finset.mem_union, ih]
        simp [or_and_right, exists_or]
      · rename_i hk
        rw [ih]
        simp [Ne.symm hk]

@[simp] theorem added_append (k : K) (log log' : List (Write N K P)) :
    added k (log ++ log') = added k log ∪ added k log' := by
  ext p
  rw [Finset.mem_union, mem_added, mem_added, mem_added]
  simp [or_and_right, exists_or]

end Added

namespace Amendable

variable [DecidableEq P] (A : Amendable N K P)

/-- A key is only amended after it was inserted. -/
def Preceded (log : List (Write N K P)) : Prop :=
  ∀ before k ps after, log = before ++ .update k ps :: after → k ∈ (inserted before).map A.key

variable {A}

theorem preceded_nil : A.Preceded [] := by
  intro before k ps after h
  cases before <;> cases h

theorem Preceded.of_append {log log' : List (Write N K P)} (h : A.Preceded (log ++ log')) : A.Preceded log := by
  rintro before k ps after rfl
  exact h before k ps (after ++ log') (by simp)

theorem Preceded.insert (h : A.Preceded log) (n : N) : A.Preceded (log ++ [.insert n]) := by
  intro before k ps after he
  rcases List.eq_nil_or_concat after with rfl | ⟨after, w, rfl⟩
  · have := (List.append_inj' he rfl).2
    cases this
  · rw [List.concat_eq_append, ← List.cons_append, ← List.append_assoc] at he
    exact h before k ps after (List.append_inj' he rfl).1

theorem Preceded.update (h : A.Preceded log) {k : K} (hk : k ∈ (inserted log).map A.key)
    (ps : Finset P) : A.Preceded (log ++ [.update k ps]) := by
  intro before k' ps' after he
  rcases List.eq_nil_or_concat after with rfl | ⟨after, w, rfl⟩
  · obtain ⟨rfl, hlast⟩ := List.append_inj' he rfl
    cases hlast
    exact hk
  · rw [List.concat_eq_append, ← List.cons_append, ← List.append_assoc] at he
    exact h before k' ps' after (List.append_inj' he rfl).1

/-- All amendments of a key follow its insertion. -/
theorem Preceded.mem_keys (h : A.Preceded log) {k : K} {ps : Finset P}
    (hmem : .update k ps ∈ log) : k ∈ (inserted log).map A.key := by
  obtain ⟨before, after, rfl⟩ := List.append_of_mem hmem
  have := h before k ps after rfl
  rw [inserted_append, List.map_append]
  exact List.mem_append_left _ this

/-! ### The records -/

variable [DecidableEq K]

variable (A) in
/-- The first record with the key is amended. -/
def updateOne (k : K) (ps : Finset P) : List N → List N
  | [] => []
  | n :: ns => if A.key n = k then A.amend n ps :: ns else n :: updateOne k ps ns

variable (A) in
def write (records : List N) : Write N K P → List N
  | .insert n => records ++ [n]
  | .update k ps => A.updateOne k ps records

variable (A) in
/-- What there is after the writes. -/
def records (log : List (Write N K P)) : List N := log.foldl A.write []

theorem Preceded.added_eq_empty (h : A.Preceded log) {k : K}
    (hk : k ∉ (inserted log).map A.key) : added k log = ∅ := by
  rw [Finset.eq_empty_iff_forall_notMem]
  intro p hp
  obtain ⟨ps, hmem, -⟩ := mem_added.mp hp
  exact hk (h.mem_keys hmem)

theorem updateOne_eq {ns : List N} (hnodup : (ns.map A.key).Nodup) (k : K) (ps : Finset P) :
    A.updateOne k ps ns = ns.map fun n => if A.key n = k then A.amend n ps else n := by
  induction ns with
  | nil => rfl
  | cons n ns ih =>
    rw [List.map_cons, List.nodup_cons] at hnodup
    rw [updateOne, List.map_cons]
    split
    · rename_i hk
      subst hk
      congr 1
      conv_lhs => rw [← List.map_id ns]
      apply List.map_congr_left
      intro m hm
      have hne : A.key m ≠ A.key n := fun he => hnodup.1 (he ▸ List.mem_map_of_mem hm)
      rw [if_neg hne]
      rfl
    · rw [ih hnodup.2]

/-- What there is in the end. -/
theorem records_eq (hnodup : ((inserted log).map A.key).Nodup) (h : A.Preceded log) :
    A.records log = (inserted log).map fun n => A.amend n (added (A.key n) log) := by
  induction log using List.reverseRecOn with
  | nil => rfl
  | append_singleton log w ih =>
    rw [inserted_append, List.map_append] at hnodup
    have ih := ih (List.nodup_append.mp hnodup).1 h.of_append
    rw [records, List.foldl_append, List.foldl_cons, List.foldl_nil]
    change A.write (A.records log) w = _
    rw [ih]
    cases w with
    | insert n =>
      have hnew : A.key n ∉ (inserted log).map A.key := by
        intro hmem
        exact (List.nodup_append.mp hnodup).2.2 _ hmem _ (List.mem_singleton_self _) rfl
      have hn : A.amend n (added (A.key n) (log ++ [.insert n])) = n := by
        rw [added_append, h.of_append.added_eq_empty hnew]
        exact A.amend_empty n
      rw [write, inserted_append, List.map_append]
      congr 1
      · simp [added]
      · change [n] = [A.amend n _]
        rw [hn]
    | update k ps =>
      have hkeys : (((inserted log).map fun n => A.amend n (added (A.key n) log)).map A.key) = (inserted log).map A.key := by
        rw [List.map_map]
        exact List.map_congr_left fun n _ => A.key_amend n _
      rw [write, updateOne_eq (by rw [hkeys]; exact (List.nodup_append.mp hnodup).1), List.map_map, inserted_append]
      change _ = (inserted log ++ []).map _
      rw [List.append_nil]
      apply List.map_congr_left
      intro n _
      simp only [Function.comp_apply, A.key_amend, added_append, added]
      split
      · rename_i hk
        rw [if_pos hk.symm, A.amend_amend, Finset.union_empty]
      · rename_i hk
        rw [if_neg (Ne.symm hk), Finset.union_empty]

theorem records_concat (log : List (Write N K P)) (w : Write N K P) :
    A.records (log ++ [w]) = A.write (A.records log) w := by
  rw [records, List.foldl_append]
  rfl

theorem keys_records (hnodup : ((inserted log).map A.key).Nodup) (h : A.Preceded log) :
    (A.records log).map A.key = (inserted log).map A.key := by
  rw [records_eq hnodup h, List.map_map]
  apply List.map_congr_left
  intro n _
  exact A.key_amend n _

end Amendable

end Bouncer.Library
