import Bouncer.Library.FullTree
import Bouncer.Library.Worklist

/-!
# Walking a tree with a work list

A loop that takes a node of a tree from its container and either is done with the whole subtree or adds the two
children.  Whatever the discipline of the container, the subtrees it is done with are a cut of the tree: they have
the leaves of the tree, each once (`run_tree`).

A loop with a stack that follows only the nodes with a property visits the items of the leaves that it gets to, until
the visit asks to stop (`run_kept`).
-/

namespace Bouncer.Library

universe u v

namespace FullTree

variable {α : Type u} {γ : Type*}

/-- Subtrees that together have the leaves of `t`, each once. -/
structure Cut (t : FullTree α) (xs : List (FullTree α)) : Prop where
  subtree : ∀ x ∈ xs, x ∈ t.subtrees
  leaves : (xs.flatMap leaves).Perm t.leaves

/-- The items below the subtrees of a cut are those below the tree. -/
theorem Cut.items_perm {t : FullTree α} {xs : List (FullTree α)} (h : t.Cut xs) (f : α → List γ) :
    (xs.flatMap (items f)).Perm (items f t) := by
  have hf := h.leaves.flatMap_right f
  rwa [List.flatMap_assoc] at hf

end FullTree

variable {α : Type u} {σ : Type v} {put : List α → List α → List α} {step : α → σ → Outcome α σ}

/-- The rule for a loop over the nodes of a tree.  `P s xs ps` says what the state is once the loop is done with the
subtrees `xs` and the subtrees `ps` are pending, in whatever order; an iteration at the subtree `x` is done with `x`
or asks for its children. -/
theorem run_tree (hput : ∀ items rest, (put items rest).Perm (items ++ rest)) {t : FullTree α}
    (P : σ → List (FullTree α) → List (FullTree α) → Prop)
    (hperm : ∀ s xs ps ps', ps.Perm ps' → P s xs ps → P s xs ps')
    (hstep : ∀ x ∈ t.subtrees, ∀ s xs ps, P s xs (x :: ps) →
      (∃ s', step x.label s = .push [] s' ∧ P s' (xs ++ [x]) ps) ∨
      (∃ a l r s', x = .branch a l r ∧ step x.label s = .push [l.label, r.label] s' ∧ P s' xs (l :: r :: ps)))
    {s : σ} (hs : P s [] [t]) {n : ℕ} (hn : t.size ≤ n) :
    ∃ s' xs, run put step n [t.label] s = some (s', false) ∧ P s' xs [] ∧ t.Cut xs := by
  -- the subtrees the loop is done with, and the pending ones
  let I := fun (g : List (FullTree α) × List (FullTree α)) (stack : List α) (s : σ) =>
    stack.Perm (g.2.map FullTree.label) ∧ P s g.1 g.2 ∧ t.Cut (g.1 ++ g.2)
  let μ := fun g : List (FullTree α) × List (FullTree α) => (g.2.map FullTree.size).sum
  let Q := fun (s' : σ) (stopped : Bool) => stopped = false ∧ ∃ xs, P s' xs [] ∧ t.Cut xs
  have hdone : ∀ g s, I g [] s → Q s false := by
    rintro ⟨xs, ts⟩ s ⟨hstack, hP, hcut⟩
    obtain rfl : ts = [] := by simpa using hstack
    exact ⟨rfl, xs, hP, by simpa using hcut⟩
  have hnext : ∀ g x rest s, I g (x :: rest) s → ∃ y ts₁ ts₂, g.2 = ts₁ ++ y :: ts₂ ∧ y.label = x ∧
      rest.Perm ((ts₁ ++ ts₂).map FullTree.label) := by
    rintro ⟨xs, ts⟩ x rest s ⟨hstack, -, -⟩
    obtain ⟨y, hy, rfl⟩ := List.mem_map.1 (hstack.mem_iff.1 List.mem_cons_self)
    obtain ⟨ts₁, ts₂, rfl⟩ := List.append_of_mem hy
    refine ⟨y, ts₁, ts₂, rfl, rfl, List.Perm.cons_inv (a := y.label) (hstack.trans ?_)⟩
    exact List.perm_middle.map FullTree.label
  have hpos : ∀ g x rest s, I g (x :: rest) s → 0 < μ g := by
    intro g x rest s hI
    obtain ⟨y, ts₁, ts₂, hg, -, -⟩ := hnext g x rest s hI
    have := y.size_pos
    simp only [μ, hg, List.map_append, List.map_cons, List.sum_append, List.sum_cons]
    omega
  have hiter : ∀ g x rest s, I g (x :: rest) s → ∃ items s' g',
      step x s = .push items s' ∧ I g' (put items rest) s' ∧ μ g' < μ g := by
    intro g x rest s hI
    obtain ⟨y, ts₁, ts₂, hg, rfl, hrest⟩ := hnext g x rest s hI
    obtain ⟨xs, ts⟩ := g
    obtain rfl : ts = ts₁ ++ y :: ts₂ := hg
    obtain ⟨-, hP, hcut⟩ := hI
    have hpos := y.size_pos
    have hyt : y ∈ t.subtrees := hcut.subtree y (by simp)
    have hmiddle : (ts₁ ++ y :: ts₂).Perm (y :: (ts₁ ++ ts₂)) := List.perm_middle
    have hP := hperm s xs _ _ hmiddle hP
    rcases hstep y hyt s xs _ hP with ⟨s', hs', hP'⟩ | ⟨a, l, r, s', rfl, hs', hP'⟩
    · refine ⟨[], s', (xs ++ [y], ts₁ ++ ts₂), hs', ⟨?_, hP', ?_, ?_⟩, ?_⟩
      · exact (hput [] rest).trans hrest
      · intro z hz
        refine hcut.subtree z ?_
        simp only [List.mem_append, List.mem_cons] at hz ⊢
        tauto
      · refine List.Perm.trans (List.Perm.flatMap_right _ ?_) hcut.leaves
        simpa only [List.append_assoc, List.singleton_append] using hmiddle.symm.append_left xs
      · simp only [μ, List.map_append, List.map_cons, List.sum_append, List.sum_cons]
        omega
    · refine ⟨[l.label, r.label], s', (xs, l :: r :: (ts₁ ++ ts₂)), hs', ⟨?_, hP', ?_, ?_⟩, ?_⟩
      · exact (hput _ rest).trans ((hrest.cons r.label).cons l.label)
      · intro z hz
        simp only [List.mem_append, List.mem_cons] at hz
        rcases hz with hz | rfl | rfl | hz
        · exact hcut.subtree z (by simp [hz])
        · exact FullTree.left_mem_subtrees hyt
        · exact FullTree.right_mem_subtrees hyt
        · refine hcut.subtree z ?_
          simp only [List.mem_append, List.mem_cons]
          tauto
      · refine List.Perm.trans ?_ hcut.leaves
        refine List.Perm.trans ?_ ((hmiddle.append_left xs).symm.flatMap_right _)
        simp
      · simp only [μ, List.map_append, List.map_cons, List.sum_append, List.sum_cons, FullTree.size_branch]
        omega
  have hstop : ∀ g x rest s s', I g (x :: rest) s → step x s = .stop s' → Q s' true := by
    intro g x rest s s' hI hs
    obtain ⟨items, s'', g', hs', -⟩ := hiter g x rest s hI
    simp [hs] at hs'
  have hpush : ∀ g x rest s items s', I g (x :: rest) s → step x s = .push items s' →
      ∃ g', I g' (put items rest) s' ∧ μ g' < μ g := by
    intro g x rest s items s' hI hs
    obtain ⟨items', s'', g', hs', hI', hμ⟩ := hiter g x rest s hI
    rw [hs] at hs'
    simp only [Outcome.push.injEq] at hs'
    obtain ⟨rfl, rfl⟩ := hs'
    exact ⟨g', hI', hμ⟩
  have hstart : I ([], [t]) [t.label] s :=
    ⟨List.Perm.refl _, hs, by simp [FullTree.self_mem_subtrees], by simp⟩
  obtain ⟨s', stopped, hrun, rfl, xs, hP, hcut⟩ :=
    run_of_invariant I μ Q hpos hdone hstop hpush hstart (by simpa [μ] using hn)
  exact ⟨s', xs, hrun, hP, hcut⟩

/-! ### Walks that skip subtrees -/

namespace FullTree

variable {α : Type u} {γ : Type*} (keep : α → Bool) (f : α → List γ)

/-- The items of the leaves that are reached through nodes with the property, those on the right first. -/
def keptItems : FullTree α → List γ
  | leaf a => if keep a then f a else []
  | branch a l r => if keep a then keptItems r ++ keptItems l else []

variable {keep f}

/-- If a node has the property whenever a leaf below it does, only the leaves matter. -/
theorem mem_keptItems {t : FullTree α} (h : ∀ s ∈ t.subtrees, ∀ i ∈ s.leaves, keep i = true → keep s.label = true)
    {k : γ} : k ∈ t.keptItems keep f ↔ ∃ i ∈ t.leaves, keep i = true ∧ k ∈ f i := by
  induction t with
  | leaf a =>
    rw [keptItems]
    by_cases ha : keep a = true <;> simp [ha]
  | branch a l r ihl ihr =>
    have hl := ihl fun s hs => h s (List.mem_cons_of_mem _ (List.mem_append_left _ hs))
    have hr := ihr fun s hs => h s (List.mem_cons_of_mem _ (List.mem_append_right _ hs))
    have hself : ∀ i ∈ (branch a l r).leaves, keep i = true → keep a = true := h _ (self_mem_subtrees _)
    have hleaves : (∃ i ∈ (branch a l r).leaves, keep i = true ∧ k ∈ f i) ↔
        (k ∈ r.keptItems keep f ∨ k ∈ l.keptItems keep f) := by
      rw [hl, hr, leaves_branch]
      simp only [List.mem_append, or_and_right, exists_or]
      exact or_comm
    rw [keptItems]
    by_cases ha : keep a = true
    · rw [if_pos ha, List.mem_append, hleaves]
    · rw [if_neg ha]
      constructor
      · nofun
      · rintro ⟨i, hi, hkeep, -⟩
        exact absurd (hself i hi hkeep) ha

end FullTree

/-- The rule for a loop with a stack over the nodes of a tree: it visits the items that it gets to, until the visit asks to
stop. -/
theorem run_kept {γ : Type*} {step : α → σ → Outcome α σ} {keep : α → Bool} {f : α → List γ} {visit : γ → σ → σ × Bool}
    {t : FullTree α}
    (hleaf : ∀ a, FullTree.leaf a ∈ t.subtrees → ∀ s,
      step a s = if keep a then .ofVisit (visitUntil visit (f a) s) else .push [] s)
    (hbranch : ∀ a l r, FullTree.branch a l r ∈ t.subtrees → ∀ s,
      step a s = if keep a then .push [l.label, r.label] s else .push [] s)
    {n : ℕ} (hn : t.size ≤ n) (s : σ) :
    run lifo step n [t.label] s = some (visitUntil visit (t.keptItems keep f) s) := by
  -- the stack has subtrees that are pending
  have hstack : ∀ (n : ℕ) (ts : List (FullTree α)), (∀ x ∈ ts, x ∈ t.subtrees) → (ts.map FullTree.size).sum ≤ n → ∀ s,
      run lifo step n (ts.map FullTree.label) s = some (visitUntil visit (ts.flatMap (FullTree.keptItems keep f)) s) := by
    intro n
    induction n with
    | zero =>
      intro ts _ hn s
      cases ts with
      | nil => rfl
      | cons x ts =>
        have hpos := x.size_pos
        rw [List.map_cons, List.sum_cons] at hn
        omega
    | succ n ih =>
      intro ts hts hn s
      cases ts with
      | nil => rfl
      | cons x ts =>
        have hpos := x.size_pos
        have hx := hts x List.mem_cons_self
        have hrest : ∀ y ∈ ts, y ∈ t.subtrees := fun y hy => hts y (List.mem_cons_of_mem _ hy)
        rw [List.map_cons, List.sum_cons] at hn
        rw [List.map_cons, List.flatMap_cons, visitUntil_append]
        by_cases hkeep : keep x.label = true
        · cases x with
          | leaf a =>
            have hitems : FullTree.keptItems keep f (.leaf a) = f a := if_pos hkeep
            have hx' := (hleaf a hx s).trans (if_pos hkeep)
            rw [hitems, FullTree.label_leaf]
            unfold Outcome.ofVisit at hx'
            by_cases hstop : (visitUntil visit (f a) s).2 = true
            · rw [if_pos hstop] at hx' ⊢
              exact run_cons_stop hx'
            · rw [if_neg hstop] at hx' ⊢
              rw [run_cons_push hx']
              exact ih ts hrest (by omega) _
          | branch a l r =>
            have hitems : FullTree.keptItems keep f (.branch a l r) = r.keptItems keep f ++ l.keptItems keep f :=
              if_pos hkeep
            have hx' := (hbranch a l r hx s).trans (if_pos hkeep)
            rw [FullTree.label_branch, run_cons_push hx', hitems, ← visitUntil_append]
            have hpush := ih (r :: l :: ts) (by
              intro y hy
              simp only [List.mem_cons] at hy
              rcases hy with rfl | rfl | hy
              · exact FullTree.right_mem_subtrees hx
              · exact FullTree.left_mem_subtrees hx
              · exact hrest y hy) (by
                rw [FullTree.size_branch] at hn
                simp only [List.map_cons, List.sum_cons]
                omega) s
            rw [List.flatMap_cons, List.flatMap_cons, ← List.append_assoc] at hpush
            exact hpush
        · have hitems : x.keptItems keep f = [] := by
            cases x <;> exact if_neg hkeep
          have hx' : step x.label s = .push [] s := by
            cases x with
            | leaf a => exact (hleaf a hx s).trans (if_neg hkeep)
            | branch a l r => exact (hbranch a l r hx s).trans (if_neg hkeep)
          rw [run_cons_push hx', hitems]
          exact ih ts hrest (by omega) s
  have hroot := hstack n [t] (by simp [FullTree.self_mem_subtrees]) (by simpa using hn) s
  simpa using hroot

end Bouncer.Library
