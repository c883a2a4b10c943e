import Bouncer.Bvh.SelfTraversal

/-!
# Predicates on nodes

The node predicates of the clash queries: `intersects` for overlapping boxes, `contacts` for boxes within a distance
proportional to their size, and the lower bound `distance2` on the distance of what two boxes hold, which
`DistanceQuery` compares with the square of its distance.

`distance2` is a lower bound (`distance2_le_norm2`), so that a pair of nodes above two points that are close enough is
never pruned (`collect_distanceQuery`).
-/

namespace Bouncer

variable {R : Type*}

/-- The square of the gap on one axis, where the overlap reaches from `lo` to `hi`. -/
def gap2 [Field R] [LinearOrder R] (lo hi : R) : R := if lo > hi then (lo - hi) ^ 2 else 0

private theorem gap2_le [Field R] [LinearOrder R] [IsStrictOrderedRing R] {a₀ a₁ b₀ b₁ x y : R}
    (hx : a₀ ≤ x ∧ x ≤ a₁) (hy : b₀ ≤ y ∧ y ≤ b₁) : gap2 (max a₀ b₀) (min a₁ b₁) ≤ (y - x) * (y - x) := by
  unfold gap2
  by_cases h : max a₀ b₀ > min a₁ b₁
  · rw [if_pos h]
    have hlo : max a₀ b₀ ≤ max y x := by
      rw [max_comm y x]
      exact max_le_max hx.1 hy.1
    have hhi : min y x ≤ min a₁ b₁ := by
      rw [min_comm y x]
      exact min_le_min hx.2 hy.2
    have hgap : max a₀ b₀ - min a₁ b₁ ≤ |y - x| := by
      rw [← max_sub_min_eq_abs']
      linarith
    have hpos : 0 ≤ max a₀ b₀ - min a₁ b₁ := by linarith
    calc (max a₀ b₀ - min a₁ b₁) ^ 2 ≤ |y - x| ^ 2 := pow_le_pow_left₀ hpos hgap 2
      _ = (y - x) * (y - x) := by rw [sq_abs, sq]
  · rw [if_neg h]
    exact mul_self_nonneg _

namespace BoundingBox

def overlap [LinearOrder R] (a b : BoundingBox R) : BoundingBox R := ⟨a.min.max b.min, a.max.min b.max⟩

variable [Field R] [LinearOrder R]

def distance2 (a b : BoundingBox R) : R :=
  let ib := overlap a b
  gap2 ib.min.x ib.max.x + gap2 ib.min.y ib.max.y + gap2 ib.min.z ib.max.z

private theorem distance2_comm (a b : BoundingBox R) : distance2 a b = distance2 b a := by
  simp only [distance2, overlap, RepoVector3D.max, RepoVector3D.min, max_comm, min_comm]

private theorem distance2_le_norm2 [IsStrictOrderedRing R] {a b : BoundingBox R} {p q : RepoVector3D R} (hp : a.Contains p)
    (hq : b.Contains q) : distance2 a b ≤ (q - p).norm2 := by
  have hx := gap2_le hp.1 hq.1
  have hy := gap2_le hp.2.1 hq.2.1
  have hz := gap2_le hp.2.2 hq.2.2
  unfold distance2 overlap RepoVector3D.norm2
  simp only [RepoVector3D.max, RepoVector3D.min, RepoVector3D.sub_x, RepoVector3D.sub_y, RepoVector3D.sub_z]
  exact add_le_add (add_le_add hx hy) hz

end BoundingBox

namespace Predicates

variable [LinearOrder R]

def intersects (a b : BvhNode R) : Bool :=
  decide (a.bounds 0 ≤ b.bounds 1) && decide (a.bounds 1 ≥ b.bounds 0) &&
    decide (a.bounds 2 ≤ b.bounds 3) && decide (a.bounds 3 ≥ b.bounds 2) &&
    decide (a.bounds 4 ≤ b.bounds 5) && decide (a.bounds 5 ≥ b.bounds 4)

variable [Field R]

/-- `1e-9`. -/
def magicEpsilon : R := 1 / 10 ^ 9

def contacts (a b : BvhNode R) : Bool :=
  let extent := fun i j => max (a.bounds j) (b.bounds j) - min (a.bounds i) (b.bounds i)
  let th := max (extent 4 5) (max (extent 2 3) (max (extent 0 1) 0)) * magicEpsilon
  let separate := fun i j => decide (b.bounds i - a.bounds j > th) || decide (a.bounds i - b.bounds j > th)
  !(separate 0 1 || separate 2 3 || separate 4 5)

end Predicates

/-- `DistanceQuery::intersect` for two nodes, at distance `d`. -/
def DistanceQuery.intersect [Field R] [LinearOrder R] (d : R) (a b : BvhNode R) : Bool :=
  decide (BoundingBox.distance2 a.boundingBoxProxy b.boundingBoxProxy ≤ d * d)

/-- `IntersectQuery::intersect` for two nodes. -/
def IntersectQuery.intersect [LinearOrder R] (a b : BvhNode R) : Bool := Predicates.intersects a b

namespace Traversal

/-- A query whose callback collects the pairs, on two hierarchies. -/
def collect (a b : Bvh R) (intersectNodes : BvhNode R → BvhNode R → Bool) : Option (List (ℕ × ℕ)) :=
  (traverse a b intersectNodes Library.record (a.nodeCount * b.nodeCount) []).map Prod.fst

/-- A query whose callback collects the pairs, on one hierarchy. -/
def selfCollect (a : Bvh R) (intersectNodes : BvhNode R → BvhNode R → Bool) : Option (List (ℕ × ℕ)) :=
  (selfTraverse a intersectNodes Library.record (a.nodeCount * a.nodeCount) []).map Prod.fst

theorem collect_eq {a b : Bvh R} {n m : ℕ} {t u : Library.FullTree ℕ} (ht : a.IsTree n t) (hu : b.IsTree m u)
    (intersectNodes : BvhNode R → BvhNode R → Bool) :
    collect a b intersectNodes = some (reached a b intersectNodes t u) := by
  rw [collect, traverse_eq ht hu le_rfl, Library.visitUntil_record]
  simp

section Reached

variable {a b : Bvh R} {n m : ℕ} {t u : Library.FullTree ℕ} {intersectNodes : BvhNode R → BvhNode R → Bool}

theorem lt_of_mem_reached (ht : a.IsTree n t) (hu : b.IsTree m u) {i j : ℕ}
    (h : (i, j) ∈ reached a b intersectNodes t u) : i < n ∧ j < m := by
  obtain ⟨k, hk, l, hl, -, hi, hj⟩ := Library.FullTree.exists_keep_of_mem_crossList h
  exact ⟨ht.lt_iff.2 ⟨k, hk, hi⟩, hu.lt_iff.2 ⟨l, hl, hj⟩⟩

variable [LinearOrder R] {A B : ℕ → Set (RepoVector3D R)} {i j : ℕ} {p q : RepoVector3D R}

private theorem mem_reached_of_encloses (ht : a.IsTree n t) (hu : b.IsTree m u) (ha : a.Encloses A) (hb : b.Encloses B)
    (hi : i < n) (hj : j < m) (hp : p ∈ A i) (hq : q ∈ B j)
    (h : ∀ x y : BvhNode R, x.boundingBoxProxy.Contains p → y.boundingBoxProxy.Contains q →
      intersectNodes x y = true) : (i, j) ∈ reached a b intersectNodes t u := by
  obtain ⟨k, hk, hik⟩ := ht.lt_iff.1 hi
  obtain ⟨l, hl, hjl⟩ := hu.lt_iff.1 hj
  refine Library.FullTree.mem_crossList_of_keptDownTo hk hl ?_ hik hjl
  intro x hx hkx y hy hly
  have hx := ha x.label k (ht.ancestorOrSelf_label hx) (ht.label_ancestorOrSelf hx hkx)
    (ht.spells.mem_leaves_iff.1 hk).2 i hik p hp
  have hy := hb y.label l (hu.ancestorOrSelf_label hy) (hu.label_ancestorOrSelf hy hly)
    (hu.spells.mem_leaves_iff.1 hl).2 j hjl q hq
  exact h _ _ hx hy

private theorem mem_selfReached_of_encloses (ht : a.IsTree n t) (ha : a.Encloses A) (hi : i < n) (hj : j < n) (hij : i ≠ j)
    (hp : p ∈ A i) (hq : q ∈ A j)
    (h : ∀ x y : BvhNode R, x.boundingBoxProxy.Contains p → y.boundingBoxProxy.Contains q →
      intersectNodes x y = true ∧ intersectNodes y x = true) :
    (i, j) ∈ selfReached a intersectNodes t ∨ (j, i) ∈ selfReached a intersectNodes t := by
  obtain ⟨k, hk, hik⟩ := ht.lt_iff.1 hi
  obtain ⟨l, hl, hjl⟩ := ht.lt_iff.1 hj
  have hbox : ∀ x ∈ t.subtrees, ∀ m ∈ x.leaves, m ∈ t.leaves → ∀ c ∈ a.leafPrimitives m, ∀ r ∈ A c,
      (a.nodes x.label).boundingBoxProxy.Contains r := by
    intro x hx m hmx hm c hc r hr
    exact ha x.label m (ht.ancestorOrSelf_label hx) (ht.label_ancestorOrSelf hx hmx) (ht.spells.mem_leaves_iff.1 hm).2
      c hc r hr
  refine Library.FullTree.mem_unordered.1
    (Library.FullTree.mem_unordered_selfList_of_keptDownTo ht.nodup_items hk hl (fun _ => ⟨?_, ?_⟩) hij hik hjl)
  · intro x hx hkx y hy hly
    exact (h _ _ (hbox x hx k hkx hk i hik p hp) (hbox y hy l hly hl j hjl q hq)).1
  · intro x hx hlx y hy hky
    exact (h _ _ (hbox y hy k hky hk i hik p hp) (hbox x hx l hlx hl j hjl q hq)).2

end Reached

theorem selfCollect_isSome {a : Bvh R} {n : ℕ} (ha : a.WellFormed n)
    (intersectNodes : BvhNode R → BvhNode R → Bool) : (selfCollect a intersectNodes).isSome := by
  obtain ⟨t, ht⟩ := ha
  unfold selfCollect
  by_cases hnodes : 2 ≤ a.nodeCount
  · obtain ⟨calls, -, hrun⟩ := selfTraverse_record intersectNodes ht hnodes
    rw [hrun _ le_rfl]
    rfl
  · rw [selfTraverse, if_pos (by omega)]
    rfl

/-- A distance query collects pairs of primitives, and all those that are no further apart than its distance. -/
theorem collect_distanceQuery [Field R] [LinearOrder R] [IsStrictOrderedRing R] {a b : Bvh R} {n m : ℕ}
    (ha : a.WellFormed n) (hb : b.WellFormed m) {A B : ℕ → Set (RepoVector3D R)} (hA : a.Encloses A)
    (hB : b.Encloses B) (d : R) : ∃ results, collect a b (DistanceQuery.intersect d) = some results ∧
      (∀ i j, (i, j) ∈ results → i < n ∧ j < m) ∧
      ∀ i j, i < n → j < m → (∃ p ∈ A i, ∃ q ∈ B j, (q - p).norm2 ≤ d * d) → (i, j) ∈ results := by
  obtain ⟨t, ht⟩ := ha
  obtain ⟨u, hu⟩ := hb
  refine ⟨_, collect_eq ht hu _, fun i j h => lt_of_mem_reached ht hu h, ?_⟩
  rintro i j hi hj ⟨p, hp, q, hq, hd⟩
  refine mem_reached_of_encloses ht hu hA hB hi hj hp hq ?_
  intro x y hx hy
  exact decide_eq_true ((BoundingBox.distance2_le_norm2 hx hy).trans hd)

/-- A distance query on one hierarchy collects all pairs of different primitives that are no further apart than its
distance. -/
theorem selfCollect_distanceQuery [Field R] [LinearOrder R] [IsStrictOrderedRing R] {a : Bvh R} {n : ℕ}
    (ha : a.WellFormed n) (hnodes : 2 ≤ a.nodeCount) {A : ℕ → Set (RepoVector3D R)} (hA : a.Encloses A) (d : R) :
    ∃ results, selfCollect a (DistanceQuery.intersect d) = some results ∧
      ∀ i j, i < n → j < n → i ≠ j → (∃ p ∈ A i, ∃ q ∈ A j, (q - p).norm2 ≤ d * d) →
        (i, j) ∈ results ∨ (j, i) ∈ results := by
  obtain ⟨t, ht⟩ := ha
  obtain ⟨calls, hperm, hrun⟩ := selfTraverse_record (DistanceQuery.intersect d) ht hnodes
  refine ⟨calls, by rw [selfCollect, hrun _ le_rfl]; rfl, ?_⟩
  rintro i j hi hj hij ⟨p, hp, q, hq, hd⟩
  rw [hperm.mem_iff, hperm.mem_iff]
  refine mem_selfReached_of_encloses ht hA hi hj hij hp hq ?_
  intro x y hx hy
  have hxy := (BoundingBox.distance2_le_norm2 hx hy).trans hd
  exact ⟨decide_eq_true hxy, decide_eq_true (by rwa [BoundingBox.distance2_comm])⟩

end Traversal

end Bouncer
