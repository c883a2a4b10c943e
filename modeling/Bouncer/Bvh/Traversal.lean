import Bouncer.Library.Worklist
import Bouncer.Bvh.Builder

/-!
# Traversal of two hierarchies

`Traversal::operator()(a, b)` walks two hierarchies together with one stack of node pairs.  A pair is dropped if the
node predicate fails, two leaves hand all pairs of their primitives to the primitive callback (which may end the
traversal), and any other pair is replaced by the pairs of its children.

The result is that of handing `crossList` of the two trees to the callback (`traverse_eq`), so that what is visited
is a question about trees: for a monotone predicate the callback sees exactly the pairs of primitives below two
leaves that satisfy it, each once (`traverse_complete`).
-/

namespace Bouncer

open Library (FullTree Outcome lifo run visitUntil visitUntil_append)

variable {R : Type*} {σ : Type*}

namespace Traversal

/-- One iteration of the loop over `pairs`. -/
def step (a b : Bvh R) (intersectNodes : BvhNode R → BvhNode R → Bool)
    (intersectPrims : ℕ × ℕ → σ → σ × Bool) (pair : ℕ × ℕ) (s : σ) : Outcome (ℕ × ℕ) σ :=
  let idxLeft := pair.1
  let idxRight := pair.2
  let left := a.nodes idxLeft
  let right := b.nodes idxRight
  if !intersectNodes left right then .push [] s
  else if left.isLeaf && right.isLeaf then
    .ofVisit (visitUntil intersectPrims ((a.leafPrimitives idxLeft).product (b.leafPrimitives idxRight)) s)
  else if left.isLeaf && !right.isLeaf then
    .push [(idxLeft, right.firstChildOrPrimitive), (idxLeft, right.firstChildOrPrimitive + 1)] s
  else if !left.isLeaf && right.isLeaf then
    .push [(left.firstChildOrPrimitive, idxRight), (left.firstChildOrPrimitive + 1, idxRight)] s
  else
    .push [(left.firstChildOrPrimitive, right.firstChildOrPrimitive),
      (left.firstChildOrPrimitive, right.firstChildOrPrimitive + 1),
      (left.firstChildOrPrimitive + 1, right.firstChildOrPrimitive),
      (left.firstChildOrPrimitive + 1, right.firstChildOrPrimitive + 1)] s

/-- `Traversal::operator()(a, b)`, at most `fuel` iterations of it. -/
def traverse (a b : Bvh R) (intersectNodes : BvhNode R → BvhNode R → Bool)
    (intersectPrims : ℕ × ℕ → σ → σ × Bool) (fuel : ℕ) (s : σ) : Option (σ × Bool) :=
  run lifo (step a b intersectNodes intersectPrims) fuel [(0, 0)] s

/-- The pairs of primitives that a traversal of the trees `t` and `u` reaches. -/
def reached (a b : Bvh R) (intersectNodes : BvhNode R → BvhNode R → Bool) (t u : FullTree ℕ) : List (ℕ × ℕ) :=
  FullTree.crossList (fun i j => intersectNodes (a.nodes i) (b.nodes j)) a.leafPrimitives b.leafPrimitives t u

/-- The node indices of a pair of trees. -/
def roots (p : FullTree ℕ × FullTree ℕ) : ℕ × ℕ := (p.1.label, p.2.label)

/-- The number of node pairs below the pending pairs. -/
def pairCount (ps : List (FullTree ℕ × FullTree ℕ)) : ℕ := (ps.map fun p => p.1.size * p.2.size).sum

@[simp] theorem pairCount_nil : pairCount [] = 0 := rfl

@[simp] theorem pairCount_cons (p : FullTree ℕ × FullTree ℕ) (ps : List (FullTree ℕ × FullTree ℕ)) :
    pairCount (p :: ps) = p.1.size * p.2.size + pairCount ps := by simp [pairCount]

@[simp] theorem pairCount_append (ps qs : List (FullTree ℕ × FullTree ℕ)) :
    pairCount (ps ++ qs) = pairCount ps + pairCount qs := by simp [pairCount]

@[simp] theorem pairCount_reverse (ps : List (FullTree ℕ × FullTree ℕ)) :
    pairCount ps.reverse = pairCount ps := by simp [pairCount]

variable {a b : Bvh R} {intersectNodes : BvhNode R → BvhNode R → Bool} {intersectPrims : ℕ × ℕ → σ → σ × Bool}

/-- What one iteration does to a pair of trees: it either visits the whole of what the pair reaches, or replaces
the pair by smaller ones that together reach the same. -/
theorem step_cases {x y : FullTree ℕ} (hx : a.Spells x) (hy : b.Spells y)
    (intersectNodes : BvhNode R → BvhNode R → Bool) (intersectPrims : ℕ × ℕ → σ → σ × Bool) (s : σ) :
    step a b intersectNodes intersectPrims (x.label, y.label) s =
      .ofVisit (visitUntil intersectPrims (reached a b intersectNodes x y) s) ∨
    ∃ ps : List (FullTree ℕ × FullTree ℕ),
      step a b intersectNodes intersectPrims (x.label, y.label) s = .push (ps.map roots) s ∧
      (∀ p ∈ ps, p.1 ∈ x.subtrees ∧ p.2 ∈ y.subtrees) ∧
      (ps.reverse.flatMap fun p => reached a b intersectNodes p.1 p.2) = reached a b intersectNodes x y ∧
      pairCount ps < x.size * y.size := by
  have hpos := Nat.mul_pos x.size_pos y.size_pos
  cases hk : intersectNodes (a.nodes x.label) (b.nodes y.label) with
  | false =>
    right
    refine ⟨[], by simp [step, hk], by simp, ?_, hpos⟩
    rw [reached, FullTree.crossList_of_not_keep hk]
    rfl
  | true =>
    cases x with
    | leaf i =>
      have hi : (a.nodes i).isLeaf = true := hx
      simp only [FullTree.label_leaf] at hk
      cases y with
      | leaf j =>
        have hj : (b.nodes j).isLeaf = true := hy
        simp only [FullTree.label_leaf] at hk
        left
        simp [step, reached, hk, hi, hj, FullTree.crossList_leaf_leaf]
      | branch j l r =>
        obtain ⟨hj, hl, hr, -, -⟩ := hy
        simp only [FullTree.label_branch] at hk
        right
        refine ⟨[(.leaf i, l), (.leaf i, r)], ?_, ?_, ?_, ?_⟩
        · simp [step, roots, hk, hi, hj, hl, hr]
        · simp [FullTree.self_mem_subtrees]
        · simp [reached, FullTree.crossList_leaf_branch, hk]
        · simp
    | branch i l r =>
      obtain ⟨hi, hl, hr, -, -⟩ := hx
      simp only [FullTree.label_branch] at hk
      cases y with
      | leaf j =>
        have hj : (b.nodes j).isLeaf = true := hy
        simp only [FullTree.label_leaf] at hk
        right
        refine ⟨[(l, .leaf j), (r, .leaf j)], ?_, ?_, ?_, ?_⟩
        · simp [step, roots, hk, hi, hj, hl, hr]
        · simp [FullTree.self_mem_subtrees]
        · simp [reached, FullTree.crossList_branch_leaf, hk]
        · simp
      | branch j l' r' =>
        obtain ⟨hj, hl', hr', -, -⟩ := hy
        simp only [FullTree.label_branch] at hk
        right
        refine ⟨[(l, l'), (l, r'), (r, l'), (r, r')], ?_, ?_, ?_, ?_⟩
        · simp [step, roots, hk, hi, hj, hl, hr, hl', hr']
        · simp [FullTree.self_mem_subtrees]
        · simp [reached, FullTree.crossList_branch_branch, hk]
        · simp only [pairCount_cons, pairCount_nil, FullTree.size_branch]
          nlinarith

/-- A traversal hands the pairs it reaches to the callback, until the callback asks to stop. -/
theorem traverse_eq {n m fuel : ℕ} {t u : FullTree ℕ} (ht : a.IsTree n t) (hu : b.IsTree m u)
    (hfuel : a.nodeCount * b.nodeCount ≤ fuel) (s : σ) :
    traverse a b intersectNodes intersectPrims fuel s =
      some (visitUntil intersectPrims (reached a b intersectNodes t u) s) := by
  let todo := fun ps : List (FullTree ℕ × FullTree ℕ) => ps.flatMap fun p => reached a b intersectNodes p.1 p.2
  let goal := visitUntil intersectPrims (reached a b intersectNodes t u) s
  -- the invariant: visiting what the pending pairs reach, from the current state, gives the goal
  let I := fun (ps : List (FullTree ℕ × FullTree ℕ)) (stack : List (ℕ × ℕ)) (s : σ) =>
    stack = ps.map roots ∧ (∀ p ∈ ps, a.Spells p.1 ∧ b.Spells p.2) ∧ visitUntil intersectPrims (todo ps) s = goal
  have hdone : ∀ ps s, I ps [] s → (s, false) = goal := by
    rintro ps s ⟨hstack, -, hgoal⟩
    obtain rfl : ps = [] := by simpa using hstack.symm
    exact hgoal
  have hpos : ∀ ps x rest s, I ps (x :: rest) s → 0 < pairCount ps := by
    rintro (_ | ⟨p, ps⟩) x rest s ⟨hstack, -, -⟩
    · simp at hstack
    · have := Nat.mul_pos p.1.size_pos p.2.size_pos
      simp only [pairCount_cons]
      omega
  have hstop : ∀ ps x rest s s', I ps (x :: rest) s →
      step a b intersectNodes intersectPrims x s = .stop s' → (s', true) = goal := by
    rintro (_ | ⟨p, ps⟩) x rest s s' ⟨hstack, hps, hgoal⟩ hs
    · simp at hstack
    obtain ⟨rfl, rfl⟩ : x = roots p ∧ rest = ps.map roots := by simpa using hstack
    have hp := hps p (by simp)
    simp only [todo, List.flatMap_cons, visitUntil_append] at hgoal
    rcases step_cases hp.1 hp.2 intersectNodes intersectPrims s with h | ⟨qs, h, -⟩
    · rw [roots, h, Outcome.ofVisit] at hs
      split at hs
      · rename_i hstopped
        simp only [hstopped, if_true, Outcome.stop.injEq] at hgoal hs
        rw [← hgoal, hs]
      · simp at hs
    · rw [roots, h] at hs
      simp at hs
  have hpush : ∀ ps x rest s items s', I ps (x :: rest) s →
      step a b intersectNodes intersectPrims x s = .push items s' →
      ∃ ps', I ps' (lifo items rest) s' ∧ pairCount ps' < pairCount ps := by
    rintro (_ | ⟨p, ps⟩) x rest s items s' ⟨hstack, hps, hgoal⟩ hs
    · simp at hstack
    obtain ⟨rfl, rfl⟩ : x = roots p ∧ rest = ps.map roots := by simpa using hstack
    have hp := hps p (by simp)
    have hpos := Nat.mul_pos p.1.size_pos p.2.size_pos
    rcases step_cases hp.1 hp.2 intersectNodes intersectPrims s with h | ⟨qs, h, hqs, hreach, hcount⟩
    · rw [roots, h, Outcome.ofVisit] at hs
      split at hs
      · simp at hs
      · rename_i hgo
        simp only [Outcome.push.injEq] at hs
        obtain ⟨rfl, rfl⟩ := hs
        simp only [todo, List.flatMap_cons, visitUntil_append, hgo] at hgoal
        exact ⟨ps, ⟨by simp [lifo], fun q hq => hps q (by simp [hq]), hgoal⟩, by rw [pairCount_cons]; omega⟩
    · rw [roots, h] at hs
      simp only [Outcome.push.injEq] at hs
      obtain ⟨rfl, rfl⟩ := hs
      refine ⟨qs.reverse ++ ps, ⟨by simp [lifo], ?_, ?_⟩, by simp; omega⟩
      · intro q hq
        rcases List.mem_append.1 hq with hq | hq
        · have hq := hqs q (List.mem_reverse.1 hq)
          exact ⟨hp.1.of_mem_subtrees hq.1, hp.2.of_mem_subtrees hq.2⟩
        · exact hps q (by simp [hq])
      · rw [← hgoal]
        simp only [todo, List.flatMap_append, hreach, List.flatMap_cons]
  have hI : I [(t, u)] [(0, 0)] s := by
    refine ⟨by simp [roots, ht.root, hu.root], by simp [ht.spells, hu.spells], ?_⟩
    simp [todo, goal]
  have hn : pairCount [(t, u)] ≤ fuel := by simpa [ht.size_eq, hu.size_eq] using hfuel
  obtain ⟨s', stopped, hrun, hgoal⟩ := Library.run_of_invariant I pairCount (fun s' stopped => (s', stopped) = goal)
    hpos hdone hstop hpush hI hn
  rw [traverse, hrun, hgoal]

/-- If the predicate holds for two nodes, it holds for every pair of their ancestors or selves. -/
def MonotonePredicate (a b : Bvh R) (intersectNodes : BvhNode R → BvhNode R → Bool) : Prop :=
  ∀ i i' j j', a.AncestorOrSelf 0 i → a.AncestorOrSelf i i' → b.AncestorOrSelf 0 j → b.AncestorOrSelf j j' →
    intersectNodes (a.nodes i') (b.nodes j') = true → intersectNodes (a.nodes i) (b.nodes j) = true

theorem MonotonePredicate.keptDownTo {n m : ℕ} {t u : FullTree ℕ} (h : MonotonePredicate a b intersectNodes)
    (ht : a.IsTree n t) (hu : b.IsTree m u) {i j : ℕ} (hij : intersectNodes (a.nodes i) (b.nodes j) = true) :
    FullTree.KeptDownTo (fun i j => intersectNodes (a.nodes i) (b.nodes j)) t u i j := by
  intro x hx hi y hy hj
  exact h x.label i y.label j (ht.ancestorOrSelf_label hx) (ht.label_ancestorOrSelf hx hi)
    (hu.ancestorOrSelf_label hy) (hu.label_ancestorOrSelf hy hj) hij

/-- The traversal of two well-formed hierarchies under a monotone predicate terminates, and a callback that never
asks to stop is called exactly once for every pair of primitives below two leaves that satisfy the predicate, and
for no other pair. -/
theorem traverse_complete {n m : ℕ} (ha : a.WellFormed n) (hb : b.WellFormed m)
    (hmono : MonotonePredicate a b intersectNodes) :
    ∃ calls : List (ℕ × ℕ),
      (calls.Nodup ∧ ∀ p q, (p, q) ∈ calls ↔ ∃ i j, a.LeafNode i ∧ b.LeafNode j ∧
        intersectNodes (a.nodes i) (b.nodes j) = true ∧ p ∈ a.leafPrimitives i ∧ q ∈ b.leafPrimitives j) ∧
      ∀ {σ : Type*} (intersectPrims : ℕ × ℕ → σ → σ × Bool), (∀ x s, (intersectPrims x s).2 = false) →
        ∀ fuel, a.nodeCount * b.nodeCount ≤ fuel → ∀ s,
          traverse a b intersectNodes intersectPrims fuel s =
            some (calls.foldl (fun s x => (intersectPrims x s).1) s, false) := by
  obtain ⟨t, ht⟩ := ha
  obtain ⟨u, hu⟩ := hb
  refine ⟨reached a b intersectNodes t u, ⟨FullTree.nodup_crossList ht.nodup_items hu.nodup_items, ?_⟩, ?_⟩
  · intro p q
    constructor
    · intro h
      obtain ⟨i, hi, j, hj, hij, hp, hq⟩ := FullTree.exists_keep_of_mem_crossList h
      exact ⟨i, j, ht.leafNode_iff.2 hi, hu.leafNode_iff.2 hj, hij, hp, hq⟩
    · rintro ⟨i, j, hi, hj, hij, hp, hq⟩
      exact FullTree.mem_crossList_of_keptDownTo (ht.leafNode_iff.1 hi) (hu.leafNode_iff.1 hj)
        (hmono.keptDownTo ht hu hij) hp hq
  · intro σ intersectPrims hnever fuel hfuel s
    rw [traverse_eq ht hu hfuel, Library.visitUntil_of_never hnever]

theorem never_prunes {b : Bvh R} : MonotonePredicate a b fun _ _ => true := fun _ _ _ _ _ _ _ _ _ => rfl

/-- Two chains of different length, under a predicate that never prunes. -/
theorem traverse_complete_chain : ∃ calls : List (ℕ × ℕ), calls.Nodup ∧
    traverse (.chain (fun _ _ => (0 : ℤ)) (fun _ => 0) 2) (.chain (fun _ _ => 0) (fun _ => 0) 3) (fun _ _ => true)
      Library.record 15 [] = some (calls, false) := by
  obtain ⟨calls, ⟨hnodup, -⟩, hrun⟩ := traverse_complete (Bvh.chain_wellFormed (fun _ _ => (0 : ℤ)) (fun _ => 0) 1)
    (Bvh.chain_wellFormed (fun _ _ => 0) (fun _ => 0) 2) never_prunes
  refine ⟨calls, hnodup, ?_⟩
  rw [hrun Library.record (fun _ _ => rfl) 15 (by decide), Library.foldl_record]
  rfl

end Traversal

end Bouncer
