import Bouncer.Bvh.Traversal

/-!
# Traversal of a hierarchy against itself

`Traversal::operator()(a)` starts from the two children of the root.  Each node is *entered* the first time it
occurs in a pair, which the frontier records: a leaf then hands the pairs of its own primitives to the callback, an
inner node adds the pair of its children.  After that the pair is treated as in the traversal of two hierarchies.

The invariant of the loop (`SelfInv`) counts every pair of primitives in one of three places: it was visited, it
lies below a pending pair, or it is the own business of a node that has not been entered yet.  Since every node is
entered in the end, what is visited is `selfList` of the tree (`selfTraverse_record`), each unordered pair of
primitives once (`selfTraverse_complete`).
-/

namespace Bouncer

open Library (FullTree Outcome lifo run visitUntil)

variable {R : Type*} {σ τ : Type*}

/-- The pairs of primitives of the leaf `i`, by the two nested loops over its range. -/
def Bvh.selfPairs (b : Bvh R) (i : ℕ) : List (ℕ × ℕ) :=
  let node := b.nodes i
  (List.range node.primitiveCount).flatMap fun l =>
    (List.range' (l + 1) (node.primitiveCount - (l + 1))).map fun r =>
      (b.primitiveIndices (node.firstChildOrPrimitive + l), b.primitiveIndices (node.firstChildOrPrimitive + r))

namespace Traversal

/-- What the loop does when it meets the node `idx`, which happens for both nodes of a pair: nothing if the frontier
has reached it before. -/
def enter (a : Bvh R) (intersectPrims : ℕ × ℕ → σ → σ × Bool) (idx : ℕ) (st : (ℕ → Bool) × σ) :
    Outcome (ℕ × ℕ) ((ℕ → Bool) × σ) :=
  let node := a.nodes idx
  if st.1 idx then .push [] st
  else if node.isLeaf then
    (Outcome.ofVisit (visitUntil intersectPrims (a.selfPairs idx) st.2)).map (Function.update st.1 idx true, ·)
  else
    .push [(node.firstChildOrPrimitive, node.firstChildOrPrimitive + 1)] (Function.update st.1 idx true, st.2)

/-- One iteration of the loop: enter both nodes, then compare them. -/
def selfStep (a : Bvh R) (intersectNodes : BvhNode R → BvhNode R → Bool) (intersectPrims : ℕ × ℕ → σ → σ × Bool)
    (pair : ℕ × ℕ) (st : (ℕ → Bool) × σ) : Outcome (ℕ × ℕ) ((ℕ → Bool) × σ) :=
  (enter a intersectPrims pair.1 st).andThen fun st =>
    (enter a intersectPrims pair.2 st).andThen fun st =>
      (step a a intersectNodes intersectPrims pair st.2).map (st.1, ·)

/-- `Traversal::operator()(a)`, at most `fuel` iterations of it. -/
def selfTraverse (a : Bvh R) (intersectNodes : BvhNode R → BvhNode R → Bool)
    (intersectPrims : ℕ × ℕ → σ → σ × Bool) (fuel : ℕ) (s : σ) : Option (σ × Bool) :=
  if a.nodeCount < 2 then some (s, false)
  else
    let root := a.nodes 0
    (run lifo (selfStep a intersectNodes intersectPrims) fuel
      [(root.firstChildOrPrimitive, root.firstChildOrPrimitive + 1)] (fun _ => false, s)).map
        fun r => (r.1.2, r.2)

/-! ### Callbacks that correspond give traversals that correspond -/

section Map

variable {a : Bvh R} {intersectNodes : BvhNode R → BvhNode R → Bool} {visit : ℕ × ℕ → σ → σ × Bool}
  {visit' : ℕ × ℕ → τ → τ × Bool} {φ : σ → τ}

private theorem step_map {b : Bvh R} (h : ∀ x s, visit' x (φ s) = (φ (visit x s).1, (visit x s).2))
    (pair : ℕ × ℕ) (s : σ) :
    step a b intersectNodes visit' pair (φ s) = (step a b intersectNodes visit pair s).map φ := by
  simp only [step]
  split
  · rfl
  · split
    · rw [Library.visitUntil_map φ h, Outcome.map_ofVisit]
    · split
      · rfl
      · split <;> rfl

private theorem enter_map (h : ∀ x s, visit' x (φ s) = (φ (visit x s).1, (visit x s).2)) (idx : ℕ)
    (st : (ℕ → Bool) × σ) :
    enter a visit' idx (st.1, φ st.2) = (enter a visit idx st).map fun st => (st.1, φ st.2) := by
  simp only [enter]
  split
  · rfl
  · split
    · rw [Library.visitUntil_map φ h, Outcome.map_ofVisit, Outcome.map_ofVisit, Outcome.map_ofVisit]
    · rfl

variable (a intersectNodes) in
private theorem selfTraverse_map (h : ∀ x s, visit' x (φ s) = (φ (visit x s).1, (visit x s).2)) (fuel : ℕ) (s : σ) :
    selfTraverse a intersectNodes visit' fuel (φ s) =
      (selfTraverse a intersectNodes visit fuel s).map fun r => (φ r.1, r.2) := by
  have hstep : ∀ pair (st : (ℕ → Bool) × σ), selfStep a intersectNodes visit' pair (st.1, φ st.2) =
      (selfStep a intersectNodes visit pair st).map fun st => (st.1, φ st.2) := by
    intro pair st
    rw [selfStep, selfStep, enter_map h]
    refine (Outcome.map_andThen _ _ _ _ fun st => ?_).symm
    rw [enter_map h]
    refine (Outcome.map_andThen _ _ _ _ fun st => ?_).symm
    rw [step_map h]
    cases step a a intersectNodes visit pair st.2 <;> rfl
  unfold selfTraverse
  split
  · rfl
  · have hrun : ∀ stack, run lifo (selfStep a intersectNodes visit') fuel stack (fun _ => false, φ s) =
        (run lifo (selfStep a intersectNodes visit) fuel stack (fun _ => false, s)).map
          fun r => ((r.1.1, φ r.1.2), r.2) := by
      intro stack
      exact Library.run_map (fun st : (ℕ → Bool) × σ => (st.1, φ st.2)) hstep fuel stack (fun _ => false, s)
    simp only [hrun, Option.map_map]
    rfl

end Map

/-! ### What is visited -/

section Record

variable {a : Bvh R} {intersectNodes : BvhNode R → BvhNode R → Bool}

variable (a intersectNodes) in
/-- The pairs of primitives that a node is responsible for when it is entered. -/
def own : FullTree ℕ → List (ℕ × ℕ)
  | .leaf i => a.selfPairs i
  | .branch _ l r => reached a a intersectNodes l r

/-- The number of node pairs below the pair that a node adds when it is entered. -/
def ownCount : FullTree ℕ → ℕ
  | .leaf _ => 0
  | .branch _ l r => l.size * r.size

variable (a intersectNodes) in
/-- The pairs of primitives to be visited by a traversal of the tree `t` against itself. -/
def selfReached (t : FullTree ℕ) : List (ℕ × ℕ) :=
  FullTree.selfList (fun i j => intersectNodes (a.nodes i) (a.nodes j)) a.leafPrimitives t

private theorem orderedPairs_range' (f : ℕ → ℕ) (s n : ℕ) :
    FullTree.orderedPairs ((List.range' s n).map f) =
      (List.range' s n).flatMap fun l => (List.range' (l + 1) (s + n - (l + 1))).map fun r => (f l, f r) := by
  induction n generalizing s with
  | zero => rfl
  | succ n ih =>
    simp only [List.range'_succ, List.map_cons, FullTree.orderedPairs, List.flatMap_cons, ih, List.map_map]
    have h1 : s + (n + 1) - (s + 1) = n := by omega
    have h2 : s + 1 + n = s + (n + 1) := by omega
    rw [h1, h2]
    rfl

private theorem selfPairs_eq (i : ℕ) : a.selfPairs i = FullTree.orderedPairs (a.leafPrimitives i) := by
  have h := orderedPairs_range' (fun k => a.primitiveIndices ((a.nodes i).firstChildOrPrimitive + k)) 0
    (a.nodes i).primitiveCount
  rw [← List.range_eq_range', Nat.zero_add] at h
  exact h.symm

variable (a intersectNodes) in
private theorem flatMap_own_perm (t : FullTree ℕ) :
    (t.subtrees.flatMap (own a intersectNodes)).Perm (selfReached a intersectNodes t) := by
  induction t with
  | leaf i => simp [own, selfReached, FullTree.selfList, selfPairs_eq]
  | branch i l r ihl ihr =>
    simp only [FullTree.subtrees_branch, List.flatMap_cons, List.flatMap_append, own]
    exact (ihl.append ihr).append_left _

private theorem sum_ownCount_le (t : FullTree ℕ) : (t.subtrees.map ownCount).sum ≤ t.size * t.size := by
  induction t with
  | leaf i => simp [ownCount]
  | branch i l r ihl ihr =>
    simp only [FullTree.subtrees_branch, List.map_cons, List.map_append, List.sum_cons, List.sum_append, ownCount,
      FullTree.size_branch]
    nlinarith

variable (a intersectNodes) in
/-- The state of the loop for the tree `t`: the pairs `ps` are pending, the nodes `us` have not been entered. -/
structure SelfInv (t : FullTree ℕ) (ps : List (FullTree ℕ × FullTree ℕ)) (us : List (FullTree ℕ))
    (frontier : ℕ → Bool) (calls : List (ℕ × ℕ)) : Prop where
  pending : ∀ p ∈ ps, p.1 ∈ t.subtrees.tail ∧ p.2 ∈ t.subtrees.tail
  nodup : us.Nodup
  waiting : us ⊆ t.subtrees.tail
  entered : ∀ x ∈ t.subtrees.tail, frontier x.label = true ↔ x ∉ us
  covered : ∀ i l r, FullTree.branch i l r ∈ t.subtrees → FullTree.branch i l r ∉ us →
    (l, r) ∈ ps ∨ (l ∉ us ∧ r ∉ us)
  total : (calls ++ (ps.flatMap fun p => reached a a intersectNodes p.1 p.2) ++ us.flatMap (own a intersectNodes)).Perm
    (selfReached a intersectNodes t)

namespace SelfInv

variable {t : FullTree ℕ} {ps : List (FullTree ℕ × FullTree ℕ)} {us : List (FullTree ℕ)} {frontier : ℕ → Bool}
  {calls : List (ℕ × ℕ)}

private theorem perm {ps' : List (FullTree ℕ × FullTree ℕ)} (h : SelfInv a intersectNodes t ps us frontier calls)
    (hps : ps.Perm ps') : SelfInv a intersectNodes t ps' us frontier calls where
  pending := fun p hp => h.pending p (hps.mem_iff.2 hp)
  nodup := h.nodup
  waiting := h.waiting
  entered := h.entered
  covered := fun i l r hm hu => (h.covered i l r hm hu).imp_left hps.mem_iff.1
  total := ((((hps.flatMap_right _).symm).append_left _).append_right _).trans h.total

private theorem entered_of_no_pending (h : SelfInv a intersectNodes t [] us frontier calls) {x : FullTree ℕ}
    (hx : x ∈ t.subtrees) (hxu : x ∉ us) : ∀ y ∈ x.subtrees, y ∉ us := by
  induction x with
  | leaf i =>
    intro y hy
    rw [FullTree.subtrees_leaf, List.mem_singleton] at hy
    rwa [hy]
  | branch i l r ihl ihr =>
    have hlr : l ∉ us ∧ r ∉ us := by simpa using h.covered i l r hx hxu
    intro y hy
    simp only [FullTree.subtrees_branch, List.mem_cons, List.mem_append] at hy
    rcases hy with rfl | hy | hy
    · exact hxu
    · exact ihl (FullTree.left_mem_subtrees hx) hlr.1 y hy
    · exact ihr (FullTree.right_mem_subtrees hx) hlr.2 y hy

/-- Entering a node adds what it is responsible for, unless it has been entered before. -/
theorem enter (h : SelfInv a intersectNodes t ps us frontier calls) (ht : a.Spells t) (hlabels : t.labels.Nodup)
    {x : FullTree ℕ} (hx : x ∈ t.subtrees.tail) :
    ∃ qs us' frontier' calls', Traversal.enter a Library.record x.label (frontier, calls) =
        .push (qs.map roots) (frontier', calls') ∧
      SelfInv a intersectNodes t (qs ++ ps) us' frontier' calls' ∧
      pairCount qs + (us'.map ownCount).sum ≤ (us.map ownCount).sum ∧ us' ⊆ us ∧ x ∉ us' := by
  have hxt : x ∈ t.subtrees := List.mem_of_mem_tail hx
  by_cases hxu : x ∈ us
  · have hf : frontier x.label = false := by
      by_contra hf
      exact (h.entered x hx).1 (by simpa using hf) hxu
    have herase := List.perm_cons_erase hxu
    have hsum := (herase.map ownCount).sum_eq
    have hmem : ∀ y, y ∈ us.erase x ↔ y ≠ x ∧ y ∈ us := fun y => h.nodup.mem_erase_iff
    have hentered : ∀ y ∈ t.subtrees.tail,
        Function.update frontier x.label true y.label = true ↔ y ∉ us.erase x := by
      intro y hy
      by_cases hyx : y = x
      · simp [hyx, hmem]
      · have hne : y.label ≠ x.label := fun he =>
          hyx (FullTree.eq_of_label_eq hlabels (List.mem_of_mem_tail hy) hxt he)
        rw [Function.update_of_ne hne, h.entered y hy, hmem]
        simp [hyx]
    have hcovered : ∀ i l r, FullTree.branch i l r ∈ t.subtrees → FullTree.branch i l r ≠ x →
        FullTree.branch i l r ∉ us.erase x → (l, r) ∈ ps ∨ (l ∉ us.erase x ∧ r ∉ us.erase x) := by
      intro i l r hy hne hyu
      rcases h.covered i l r hy (fun hmem' => hyu ((hmem _).2 ⟨hne, hmem'⟩)) with hp | ⟨hl, hr⟩
      · exact Or.inl hp
      · exact Or.inr ⟨fun hl' => hl ((hmem _).1 hl').2, fun hr' => hr ((hmem _).1 hr').2⟩
    have hnodup := h.nodup.erase x
    have hwaiting : us.erase x ⊆ t.subtrees.tail := fun y hy => h.waiting ((hmem y).1 hy).2
    have htotal := ((herase.flatMap_right (own a intersectNodes)).append_left _).symm.trans h.total
    rw [List.flatMap_cons] at htotal
    have hspells := ht.of_mem_subtrees hxt
    cases x with
    | leaf i =>
      have hleaf : (a.nodes i).isLeaf = true := hspells
      refine ⟨[], us.erase (.leaf i), Function.update frontier i true, calls ++ a.selfPairs i, ?_, ?_, ?_, ?_, ?_⟩
      · simp only [FullTree.label_leaf] at hf
        simp [Traversal.enter, hf, hleaf, Library.visitUntil_record, Outcome.ofVisit, Outcome.map]
      · refine ⟨h.pending, hnodup, hwaiting, hentered, ?_, ?_⟩
        · intro j l r hy hyu
          exact hcovered j l r hy (by simp) hyu
        · refine List.Perm.trans ?_ htotal
          simp only [List.nil_append, List.append_assoc, own]
          refine List.Perm.append_left _ ?_
          rw [← List.append_assoc, ← List.append_assoc]
          exact List.Perm.append_right _ List.perm_append_comm
      · simp only [List.map_cons, List.sum_cons, ownCount] at hsum
        simp [hsum]
      · exact fun y hy => ((hmem y).1 hy).2
      · simp [hmem]
    | branch i l r =>
      obtain ⟨hinner, hl, hr, -, -⟩ := hspells
      have hlt : l ∈ t.subtrees.tail := FullTree.left_mem_tail_subtrees hxt
      have hrt : r ∈ t.subtrees.tail := FullTree.right_mem_tail_subtrees hxt
      refine ⟨[(l, r)], us.erase (.branch i l r), Function.update frontier i true, calls, ?_, ?_, ?_, ?_, ?_⟩
      · simp only [FullTree.label_branch] at hf
        simp [Traversal.enter, hf, hinner, roots, hl, hr]
      · refine ⟨?_, hnodup, hwaiting, hentered, ?_, ?_⟩
        · intro p hp
          rcases List.mem_cons.1 hp with rfl | hp
          · exact ⟨hlt, hrt⟩
          · exact h.pending p hp
        · intro j l' r' hy hyu
          by_cases he : FullTree.branch j l' r' = .branch i l r
          · simp only [FullTree.branch.injEq] at he
            obtain ⟨-, rfl, rfl⟩ := he
            exact Or.inl (by simp)
          · rcases hcovered j l' r' hy he hyu with hp | hp
            · exact Or.inl (List.mem_append_right _ hp)
            · exact Or.inr hp
        · refine List.Perm.trans ?_ htotal
          simp only [List.singleton_append, List.flatMap_cons, List.append_assoc, own]
          refine List.Perm.append_left _ ?_
          rw [← List.append_assoc, ← List.append_assoc]
          exact List.Perm.append_right _ List.perm_append_comm
      · simp only [List.map_cons, List.sum_cons, ownCount] at hsum
        simp only [pairCount_cons, pairCount_nil, hsum]
        omega
      · exact fun y hy => ((hmem y).1 hy).2
      · simp [hmem]
  · refine ⟨[], us, frontier, calls, ?_, h, by simp, List.Subset.refl _, hxu⟩
    have hf : frontier x.label = true := (h.entered x hx).2 hxu
    simp [Traversal.enter, hf]

/-- Comparing the two nodes of a pair replaces what the pair reaches by the calls made and the pairs added. -/
theorem settle {p : FullTree ℕ × FullTree ℕ} (h : SelfInv a intersectNodes t (p :: ps) us frontier calls)
    (ht : a.Spells t) (hp1 : p.1 ∉ us) (hp2 : p.2 ∉ us) :
    ∃ qs calls', step a a intersectNodes Library.record (roots p) calls = .push (qs.map roots) calls' ∧
      SelfInv a intersectNodes t (qs ++ ps) us frontier calls' ∧ pairCount qs < p.1.size * p.2.size := by
  have hp := h.pending p (by simp)
  have hx := ht.of_mem_subtrees (List.mem_of_mem_tail hp.1)
  have hy := ht.of_mem_subtrees (List.mem_of_mem_tail hp.2)
  have hpos := Nat.mul_pos p.1.size_pos p.2.size_pos
  have hcovered : ∀ i l r, FullTree.branch i l r ∈ t.subtrees → FullTree.branch i l r ∉ us →
      (l, r) ∈ ps ∨ (l ∉ us ∧ r ∉ us) := by
    intro i l r hm hu
    rcases h.covered i l r hm hu with hlr | hlr
    · rcases List.mem_cons.1 hlr with rfl | hlr
      · exact Or.inr ⟨hp1, hp2⟩
      · exact Or.inl hlr
    · exact Or.inr hlr
  have htotal := h.total
  rw [List.flatMap_cons] at htotal
  rcases step_cases hx hy intersectNodes Library.record calls with hs | ⟨qs, hs, hqs, hreach, hcount⟩
  · refine ⟨[], calls ++ reached a a intersectNodes p.1 p.2, ?_, ?_, by simpa using hpos⟩
    · rw [roots, hs, Library.visitUntil_record, Outcome.ofVisit]
      rfl
    · refine ⟨fun q hq => h.pending q (List.mem_cons_of_mem _ hq), h.nodup, h.waiting, h.entered, ?_, ?_⟩
      · exact hcovered
      · simpa only [List.nil_append, List.append_assoc] using htotal
  · refine ⟨qs, calls, hs, ?_, hcount⟩
    refine ⟨?_, h.nodup, h.waiting, h.entered, ?_, ?_⟩
    · intro q hq
      rcases List.mem_append.1 hq with hq | hq
      · have hq := hqs q hq
        exact ⟨FullTree.mem_tail_subtrees_trans hq.1 hp.1, FullTree.mem_tail_subtrees_trans hq.2 hp.2⟩
      · exact h.pending q (List.mem_cons_of_mem _ hq)
    · intro i l r hm hu
      exact (hcovered i l r hm hu).imp_left (List.mem_append_right _)
    · rw [List.flatMap_append]
      have hperm := (List.reverse_perm qs).flatMap_right fun q => reached a a intersectNodes q.1 q.2
      rw [hreach] at hperm
      exact (((hperm.symm.append_right _).append_left _).append_right _).trans htotal

/-- What one iteration does: the invariant holds of the new pending pairs, and less is left to be done. -/
theorem selfStep {p : FullTree ℕ × FullTree ℕ} (h : SelfInv a intersectNodes t (p :: ps) us frontier calls)
    (ht : a.Spells t) (hlabels : t.labels.Nodup) :
    ∃ (qs : List (FullTree ℕ × FullTree ℕ)) (us' : List (FullTree ℕ)) (frontier' : ℕ → Bool)
      (calls' : List (ℕ × ℕ)),
      Traversal.selfStep a intersectNodes Library.record (roots p) (frontier, calls) =
        .push (qs.map roots) (frontier', calls') ∧
      SelfInv a intersectNodes t (qs.reverse ++ ps) us' frontier' calls' ∧
      pairCount (qs.reverse ++ ps) + (us'.map ownCount).sum < pairCount (p :: ps) + (us.map ownCount).sum := by
  have hp := h.pending p (by simp)
  obtain ⟨qs₁, us₁, frontier₁, calls₁, hs₁, h₁, hc₁, hsub₁, hnot₁⟩ := h.enter ht hlabels hp.1
  obtain ⟨qs₂, us₂, frontier₂, calls₂, hs₂, h₂, hc₂, hsub₂, hnot₂⟩ := h₁.enter ht hlabels hp.2
  have hperm : (qs₂ ++ (qs₁ ++ p :: ps)).Perm (p :: (qs₁ ++ qs₂ ++ ps)) := by
    rw [← List.append_assoc]
    exact List.perm_middle.trans ((List.perm_append_comm.append_right ps).cons p)
  obtain ⟨qs₃, calls₃, hs₃, h₃, hc₃⟩ := (h₂.perm hperm).settle ht (fun hu => hnot₁ (hsub₂ hu)) hnot₂
  refine ⟨qs₁ ++ (qs₂ ++ qs₃), us₂, frontier₂, calls₃, ?_, h₃.perm ?_, ?_⟩
  · simp only [roots] at hs₃ ⊢
    simp [Traversal.selfStep, hs₁, hs₂, hs₃, Outcome.andThen, Outcome.map]
  · rw [← List.append_assoc]
    refine List.Perm.append_right ps ?_
    refine List.perm_append_comm.trans ?_
    rw [← List.append_assoc]
    exact (List.reverse_perm _).symm
  · simp only [pairCount_append, pairCount_reverse, pairCount_cons]
    omega

end SelfInv

/-- The first pair is that of the children of the root, and no node has been entered. -/
theorem selfInv_start {i : ℕ} {l r : FullTree ℕ} (hlabels : (FullTree.branch i l r).labels.Nodup) :
    SelfInv a intersectNodes (.branch i l r) [(l, r)] (l.subtrees ++ r.subtrees) (fun _ => false) [] where
  pending := by simp [FullTree.self_mem_subtrees]
  nodup := by
    have h := FullTree.nodup_subtrees hlabels
    rw [FullTree.subtrees_branch, List.nodup_cons] at h
    exact h.2
  waiting := by simp
  entered := by
    intro x hx
    constructor
    · intro h
      cases h
    · intro hxu
      exact absurd hx hxu
  covered := by
    intro j l' r' hm hu
    rw [FullTree.subtrees_branch] at hm
    have he := (List.mem_cons.1 hm).resolve_right hu
    simp only [FullTree.branch.injEq] at he
    simp [he]
  total := by
    have h := flatMap_own_perm a intersectNodes (.branch i l r)
    simpa [own] using h

variable (intersectNodes) in
/-- The calls of a traversal of a tree against itself are the pairs of `selfReached`, in some order. -/
theorem selfTraverse_record {n : ℕ} {t : FullTree ℕ} (ht : a.IsTree n t) (hnodes : 2 ≤ a.nodeCount) :
    ∃ calls, calls.Perm (selfReached a intersectNodes t) ∧ ∀ fuel, a.nodeCount * a.nodeCount ≤ fuel →
      selfTraverse a intersectNodes Library.record fuel [] = some (calls, false) := by
  cases t with
  | leaf i =>
    have := ht.size_eq
    rw [FullTree.size_leaf] at this
    omega
  | branch i l r =>
  have hlabels := ht.nodup_labels
  obtain ⟨-, hl, hr, -, -⟩ := ht.spells
  obtain rfl : i = 0 := ht.root
  let I := fun (g : List (FullTree ℕ × FullTree ℕ) × List (FullTree ℕ)) (stack : List (ℕ × ℕ))
    (st : (ℕ → Bool) × List (ℕ × ℕ)) =>
      stack = g.1.map roots ∧ SelfInv a intersectNodes (.branch 0 l r) g.1 g.2 st.1 st.2
  let μ := fun g : List (FullTree ℕ × FullTree ℕ) × List (FullTree ℕ) => pairCount g.1 + (g.2.map ownCount).sum
  let Q := fun (st : (ℕ → Bool) × List (ℕ × ℕ)) (stopped : Bool) =>
    stopped = false ∧ st.2.Perm (selfReached a intersectNodes (.branch 0 l r))
  have hdone : ∀ g st, I g [] st → Q st false := by
    rintro ⟨ps, us⟩ st ⟨hstack, h⟩
    obtain rfl : ps = [] := by simpa using hstack.symm
    -- the root is never entered, so every node below it has been
    have hroot : FullTree.branch 0 l r ∉ us := fun hm =>
      (lt_irrefl _) (FullTree.mem_tail_subtrees.1 (h.waiting hm)).2
    have hus : us = [] := by
      refine List.eq_nil_iff_forall_not_mem.2 fun x hx => ?_
      exact h.entered_of_no_pending (FullTree.self_mem_subtrees _) hroot x
        (FullTree.mem_tail_subtrees.1 (h.waiting hx)).1 hx
    have htotal := h.total
    simp only [hus, List.flatMap_nil, List.append_nil] at htotal
    exact ⟨rfl, htotal⟩
  have hpos : ∀ g x rest st, I g (x :: rest) st → 0 < μ g := by
    rintro ⟨_ | ⟨p, ps⟩, us⟩ x rest st ⟨hstack, -⟩
    · simp at hstack
    · have := Nat.mul_pos p.1.size_pos p.2.size_pos
      simp only [μ, pairCount_cons]
      omega
  have hstep : ∀ g x rest st, I g (x :: rest) st → ∃ items st' g',
      selfStep a intersectNodes Library.record x st = .push items st' ∧ I g' (lifo items rest) st' ∧ μ g' < μ g := by
    rintro ⟨_ | ⟨p, ps⟩, us⟩ x rest ⟨frontier, calls⟩ ⟨hstack, h⟩
    · simp at hstack
    obtain ⟨rfl, rfl⟩ : x = roots p ∧ rest = ps.map roots := by simpa using hstack
    obtain ⟨qs, us', frontier', calls', hs, h', hμ⟩ := h.selfStep ht.spells hlabels
    exact ⟨_, _, (qs.reverse ++ ps, us'), hs, ⟨by simp [lifo], h'⟩, hμ⟩
  have hstop : ∀ g x rest st st', I g (x :: rest) st →
      selfStep a intersectNodes Library.record x st = .stop st' → Q st' true := by
    intro g x rest st st' hI hs
    obtain ⟨items, st'', g', hs', -⟩ := hstep g x rest st hI
    simp [hs] at hs'
  have hpush : ∀ g x rest st items st', I g (x :: rest) st →
      selfStep a intersectNodes Library.record x st = .push items st' →
      ∃ g', I g' (lifo items rest) st' ∧ μ g' < μ g := by
    intro g x rest st items st' hI hs
    obtain ⟨items', st'', g', hs', hI', hμ⟩ := hstep g x rest st hI
    rw [hs] at hs'
    simp only [Outcome.push.injEq] at hs'
    obtain ⟨rfl, rfl⟩ := hs'
    exact ⟨g', hI', hμ⟩
  have hstart : I ([(l, r)], l.subtrees ++ r.subtrees)
      [((a.nodes 0).firstChildOrPrimitive, (a.nodes 0).firstChildOrPrimitive + 1)] (fun _ => false, []) :=
    ⟨by simp [roots, hl, hr], selfInv_start hlabels⟩
  have hn : μ ([(l, r)], l.subtrees ++ r.subtrees) ≤ a.nodeCount * a.nodeCount := by
    have h := sum_ownCount_le (.branch 0 l r)
    rw [ht.size_eq] at h
    simpa [μ, ownCount] using h
  obtain ⟨⟨frontier, calls⟩, stopped, hrun, rfl, hcalls⟩ :=
    Library.run_of_invariant I μ Q hpos hdone hstop hpush hstart hn
  refine ⟨calls, hcalls, fun fuel hfuel => ?_⟩
  have hrun' := Library.run_mono hrun (fuel - a.nodeCount * a.nodeCount)
  rw [Nat.add_sub_cancel' hfuel] at hrun'
  simp only [selfTraverse, show ¬ a.nodeCount < 2 by omega, if_false, hrun', Option.map_some]

/-- The traversal of a well-formed hierarchy of at least two nodes against itself, under a symmetric monotone
predicate, terminates, and a callback that never asks to stop is called exactly once for every unordered pair of
distinct primitives that lie below one leaf or below two different leaves that satisfy the predicate, and for no
other pair. -/
theorem selfTraverse_complete {n : ℕ} (ha : a.WellFormed n) (hnodes : 2 ≤ a.nodeCount)
    (hsymm : ∀ i j, intersectNodes (a.nodes i) (a.nodes j) = intersectNodes (a.nodes j) (a.nodes i))
    (hmono : MonotonePredicate a a intersectNodes) :
    ∃ calls : List (ℕ × ℕ),
      ((FullTree.unordered calls).Nodup ∧ ∀ p q, s(p, q) ∈ FullTree.unordered calls ↔ p ≠ q ∧
        ((∃ i, a.LeafNode i ∧ p ∈ a.leafPrimitives i ∧ q ∈ a.leafPrimitives i) ∨
          ∃ i j, a.LeafNode i ∧ a.LeafNode j ∧ i ≠ j ∧ intersectNodes (a.nodes i) (a.nodes j) = true ∧
            p ∈ a.leafPrimitives i ∧ q ∈ a.leafPrimitives j)) ∧
      ∀ {σ : Type*} (intersectPrims : ℕ × ℕ → σ → σ × Bool), (∀ x s, (intersectPrims x s).2 = false) →
        ∀ fuel, a.nodeCount * a.nodeCount ≤ fuel → ∀ s,
          selfTraverse a intersectNodes intersectPrims fuel s =
            some (calls.foldl (fun s x => (intersectPrims x s).1) s, false) := by
  obtain ⟨t, ht⟩ := ha
  obtain ⟨calls, hperm, hrun⟩ := selfTraverse_record intersectNodes ht hnodes
  have hunordered : (FullTree.unordered calls).Perm (FullTree.unordered (selfReached a intersectNodes t)) :=
    hperm.map _
  have hkeep : ∀ i j, intersectNodes (a.nodes i) (a.nodes j) = true →
      FullTree.KeptDownTo (fun i j => intersectNodes (a.nodes i) (a.nodes j)) t t i j :=
    fun i j hij => hmono.keptDownTo ht ht hij
  refine ⟨calls, ⟨hunordered.nodup_iff.2 (FullTree.nodup_unordered_selfList ht.nodup_items), ?_⟩, ?_⟩
  · intro p q
    rw [hunordered.mem_iff, selfReached, FullTree.mem_unordered_selfList ht.nodup_items (fun i j => hsymm i j) hkeep]
    simp only [ht.leafNode_iff]
    constructor
    · rintro ⟨hpq, ⟨i, hi, hrest⟩ | ⟨i, hi, j, hj, hrest⟩⟩
      · exact ⟨hpq, Or.inl ⟨i, hi, hrest⟩⟩
      · exact ⟨hpq, Or.inr ⟨i, j, hi, hj, hrest⟩⟩
    · rintro ⟨hpq, ⟨i, hi, hrest⟩ | ⟨i, j, hi, hj, hrest⟩⟩
      · exact ⟨hpq, Or.inl ⟨i, hi, hrest⟩⟩
      · exact ⟨hpq, Or.inr ⟨i, hi, j, hj, hrest⟩⟩
  · intro σ intersectPrims hnever fuel hfuel s
    -- the calls are those of the callback that writes them down
    let φ := fun calls : List (ℕ × ℕ) => calls.foldl (fun s x => (intersectPrims x s).1) s
    have hφ : ∀ x calls, intersectPrims x (φ calls) = (φ (Library.record x calls).1, (Library.record x calls).2) := by
      intro x calls
      ext <;> simp [φ, Library.record, hnever]
    have h := selfTraverse_map a intersectNodes hφ fuel []
    rw [hrun fuel hfuel] at h
    exact h

/-- A chain under a predicate that never prunes. -/
theorem selfTraverse_complete_chain : ∃ calls : List (ℕ × ℕ), (FullTree.unordered calls).Nodup ∧
    selfTraverse (.chain (fun _ _ => (0 : ℤ)) (fun _ => 0) 3) (fun _ _ => true) Library.record 25 [] =
      some (calls, false) := by
  obtain ⟨calls, ⟨hnodup, -⟩, hrun⟩ := selfTraverse_complete
    (Bvh.chain_wellFormed (fun _ _ => (0 : ℤ)) (fun _ => 0) 2) (by decide) (fun _ _ => rfl) never_prunes
  refine ⟨calls, hnodup, ?_⟩
  rw [hrun Library.record (fun _ _ => rfl) 25 (by decide), Library.foldl_record]
  rfl

end Record

end Traversal

end Bouncer
