import Bouncer.Bvh.Basic

/-!
# Building a hierarchy

`SweepSahBuilder` is the vendored builder as this development uses it: a function from the boxes of the primitives to
a hierarchy, which for at least one primitive is well formed.  Which tree it builds is not fixed.

`chain` is the simplest hierarchy over `n` primitives: every inner node has a leaf with one primitive on its left.
It shows that well-formed hierarchies of every size exist (`chain_wellFormed`), and concrete inputs below are built
with it.  Its boxes enclose those of the primitives (`SweepSahBuilder.chain_encloses`).
-/

namespace Bouncer

open Library (FullTree)

variable {R : Type*}

structure SweepSahBuilder (R : Type*) where
  /-- `builder.build(..)`; the union and the centres of the boxes it is also given follow from the boxes. -/
  build : List (BoundingBox R) → Bvh R
  wellFormed : ∀ boundingBoxes, boundingBoxes ≠ [] → (build boundingBoxes).WellFormed boundingBoxes.length

/-- The boxes of the nodes enclose those of the primitives below them. -/
def SweepSahBuilder.Encloses [LinearOrder R] (builder : SweepSahBuilder R) : Prop :=
  ∀ boundingBoxes, boundingBoxes ≠ [] →
    (builder.build boundingBoxes).Encloses fun k => {p | ∃ box, boundingBoxes[k]? = some box ∧ box.Contains p}

namespace Bvh

/-- Node `2 * k` is the inner node with the leaf of primitive `k` on its left, or the last leaf. -/
def chain (leafBounds : ℕ → Fin 6 → R) (bounds : Fin 6 → R) (n : ℕ) : Bvh R where
  nodes := fun i =>
    if i % 2 = 1 then ⟨leafBounds (i / 2), 1, i / 2⟩
    else if i / 2 + 1 < n then ⟨bounds, 0, i + 1⟩
    else ⟨leafBounds (i / 2), 1, i / 2⟩
  primitiveIndices := id
  nodeCount := 2 * n - 1

/-- The tree below node `2 * k`, with `m` inner nodes. -/
def chainTree (k : ℕ) : ℕ → FullTree ℕ
  | 0 => .leaf (2 * k)
  | m + 1 => .branch (2 * k) (.leaf (2 * k + 1)) (chainTree (k + 1) m)

private theorem label_chainTree (k m : ℕ) : (chainTree k m).label = 2 * k := by
  cases m <;> rfl

private theorem labels_chainTree (k m : ℕ) : (chainTree k m).labels = List.range' (2 * k) (2 * m + 1) := by
  induction m generalizing k with
  | zero => rfl
  | succ m ih =>
    have h : 2 * (m + 1) + 1 = 2 * m + 1 + 1 + 1 := by omega
    rw [h, List.range'_succ, List.range'_succ]
    have hk : 2 * (k + 1) = 2 * k + 1 + 1 := by omega
    simp [chainTree, ih, hk]

section Chain

variable {leafBounds : ℕ → Fin 6 → R} {bounds : Fin 6 → R} {n : ℕ}

private theorem chain_odd (k : ℕ) : (chain leafBounds bounds n).nodes (2 * k + 1) = ⟨leafBounds k, 1, k⟩ := by
  have h1 : (2 * k + 1) % 2 = 1 := by omega
  have h2 : (2 * k + 1) / 2 = k := by omega
  simp [chain, h1, h2]

private theorem chain_inner {k : ℕ} (h : k + 1 < n) : (chain leafBounds bounds n).nodes (2 * k) = ⟨bounds, 0, 2 * k + 1⟩ := by
  have h1 : 2 * k / 2 = k := by omega
  simp [chain, h1, h]

private theorem chain_last {k : ℕ} (h : ¬ k + 1 < n) : (chain leafBounds bounds n).nodes (2 * k) = ⟨leafBounds k, 1, k⟩ := by
  have h1 : 2 * k / 2 = k := by omega
  simp [chain, h1, h]

private theorem spells_chainTree (k m : ℕ) (h : k + m + 1 = n) : (chain leafBounds bounds n).Spells (chainTree k m) := by
  induction m generalizing k with
  | zero =>
    show ((chain leafBounds bounds n).nodes (2 * k)).isLeaf = true
    rw [chain_last (by omega)]
    rfl
  | succ m ih =>
    have hodd : ((chain leafBounds bounds n).nodes (2 * k + 1)).isLeaf = true := by rw [chain_odd]; rfl
    rw [chainTree, Spells, chain_inner (by omega), label_chainTree]
    have hright : 2 * (k + 1) = 2 * k + 1 + 1 := by omega
    exact ⟨rfl, rfl, hright, hodd, ih (k + 1) (by omega)⟩

private theorem items_chainTree (k m : ℕ) (h : k + m + 1 = n) :
    (chainTree k m).items (chain leafBounds bounds n).leafPrimitives = List.range' k (m + 1) := by
  induction m generalizing k with
  | zero =>
    rw [chainTree, FullTree.items_leaf, leafPrimitives, chain_last (by omega)]
    rfl
  | succ m ih =>
    rw [chainTree, FullTree.items_branch, ih (k + 1) (by omega), FullTree.items_leaf, leafPrimitives, chain_odd,
      List.range'_succ]
    rfl

theorem chain_isTree (leafBounds : ℕ → Fin 6 → R) (bounds : Fin 6 → R) (m : ℕ) :
    (chain leafBounds bounds (m + 1)).IsTree (m + 1) (chainTree 0 m) where
  root := label_chainTree 0 m
  spells := spells_chainTree 0 m (by omega)
  nodes := by
    rw [labels_chainTree, List.range_eq_range']
    exact List.Perm.refl _
  primitives := by
    rw [items_chainTree 0 m (by omega), List.range_eq_range']

theorem chain_wellFormed (leafBounds : ℕ → Fin 6 → R) (bounds : Fin 6 → R) (m : ℕ) :
    (chain leafBounds bounds (m + 1)).WellFormed (m + 1) :=
  ⟨_, chain_isTree leafBounds bounds m⟩

/-- A node of a chain is an inner node with the common box, or the leaf of one primitive. -/
theorem chain_nodes (leafBounds : ℕ → Fin 6 → R) (bounds : Fin 6 → R) (n i : ℕ) :
    ((chain leafBounds bounds n).nodes i).bounds = bounds ∨
      ((chain leafBounds bounds n).nodes i).isLeaf = true ∧
        ((chain leafBounds bounds n).nodes i).bounds = leafBounds (i / 2) ∧
        (chain leafBounds bounds n).leafPrimitives i = [i / 2] := by
  unfold leafPrimitives chain
  by_cases hodd : i % 2 = 1
  · exact Or.inr (by simp [hodd, BvhNode.isLeaf])
  · by_cases hinner : i / 2 + 1 < n
    · exact Or.inl (by simp [hodd, hinner])
    · exact Or.inr (by simp [hodd, hinner, BvhNode.isLeaf])

/-- A chain encloses what the boxes of its leaves and the box of its inner nodes contain. -/
theorem chain_encloses [LinearOrder R] {leafBoxes : ℕ → BoundingBox R} {box : BoundingBox R}
    {points : ℕ → Set (RepoVector3D R)}
    (h : ∀ k, ∀ p ∈ points k, (leafBoxes k).Contains p ∧ box.Contains p) :
    (chain (fun k => (leafBoxes k).bounds) box.bounds n).Encloses points := by
  intro i j _ hij hleaf k hk p hp
  rcases chain_nodes (fun k => (leafBoxes k).bounds) box.bounds n i with hi | ⟨hi, hbounds, hprims⟩
  · unfold BvhNode.boundingBoxProxy
    rw [hi]
    exact (h k p hp).2
  · obtain rfl := eq_of_ancestorOrSelf_leaf hij hi
    obtain rfl := List.mem_singleton.1 (hprims ▸ hk)
    unfold BvhNode.boundingBoxProxy
    rw [hbounds]
    exact (h _ p hp).1

end Chain

end Bvh

/-- The builder of chains, with the union of all boxes in the inner nodes. -/
def SweepSahBuilder.chain (R : Type*) [Zero R] [LinearOrder R] : SweepSahBuilder R where
  build := fun boundingBoxes =>
    let union := boundingBoxes.tail.foldl BoundingBox.extend (boundingBoxes.headD ⟨⟨0, 0, 0⟩, ⟨0, 0, 0⟩⟩)
    .chain (fun k => (boundingBoxes.getD k union).bounds) union.bounds boundingBoxes.length
  wellFormed := by
    intro boundingBoxes h
    obtain ⟨m, hm⟩ := Nat.exists_eq_succ_of_ne_zero (List.length_pos_iff.2 h).ne'
    rw [hm]
    exact Bvh.chain_wellFormed _ _ m

theorem SweepSahBuilder.chain_encloses [Zero R] [LinearOrder R] : (SweepSahBuilder.chain R).Encloses := by
  intro boundingBoxes hne
  obtain ⟨head, rest, rfl⟩ := List.exists_cons_of_ne_nil hne
  let union := rest.foldl BoundingBox.extend head
  show (Bvh.chain (fun k => ((head :: rest).getD k union).bounds) union.bounds _).Encloses _
  apply Bvh.chain_encloses
  rintro k p ⟨box, hbox, hp⟩
  constructor
  · rw [List.getD_eq_getElem?_getD, hbox]
    exact hp
  · rcases List.mem_cons.1 (List.mem_of_getElem? hbox) with rfl | hmem
    · exact hp.foldl_extend rest
    · exact BoundingBox.contains_foldl_extend hmem hp

end Bouncer
