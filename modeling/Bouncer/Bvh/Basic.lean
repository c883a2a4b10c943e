import Bouncer.Datastructure.Geometry
import Bouncer.Library.FullTree

/-!
# Bounding volume hierarchies

The vendored `bvh::Bvh`: an array of nodes, the children of an inner node next to each other, and an array of
primitive indices of which each leaf owns a range.  The source keeps both arrays behind raw pointers with room for
more nodes than are in use; here they are functions of the index, and `nodeCount` says how far they are filled.

`Bvh.Spells b t` reads the labelled tree `t` off the nodes, and `Bvh.WellFormed b n` says what every builder
promises for `n` primitives: the nodes in use are those of one binary tree rooted at node `0`, each reached once,
and the leaves partition the primitives.
-/

namespace Bouncer

open Library (FullTree)
open Library.FullTree (leaf branch)

structure BoundingBox (R : Type*) where
  min : RepoVector3D R
  max : RepoVector3D R

namespace BoundingBox

variable {R : Type*}

/-- The box as the `bounds` of a node. -/
def bounds (b : BoundingBox R) : Fin 6 → R := ![b.min.x, b.max.x, b.min.y, b.max.y, b.min.z, b.max.z]

def extend [LinearOrder R] (b c : BoundingBox R) : BoundingBox R := ⟨b.min.min c.min, b.max.max c.max⟩

/-- The point lies in the box. -/
def Contains [LinearOrder R] (b : BoundingBox R) (p : RepoVector3D R) : Prop :=
  (b.min.x ≤ p.x ∧ p.x ≤ b.max.x) ∧ (b.min.y ≤ p.y ∧ p.y ≤ b.max.y) ∧ (b.min.z ≤ p.z ∧ p.z ≤ b.max.z)

section Contains

variable [LinearOrder R] {b c : BoundingBox R} {p : RepoVector3D R}

theorem Contains.extend_left (h : b.Contains p) : (b.extend c).Contains p :=
  ⟨⟨min_le_of_left_le h.1.1, le_max_of_le_left h.1.2⟩, ⟨min_le_of_left_le h.2.1.1, le_max_of_le_left h.2.1.2⟩,
    ⟨min_le_of_left_le h.2.2.1, le_max_of_le_left h.2.2.2⟩⟩

theorem Contains.extend_right (h : c.Contains p) : (b.extend c).Contains p :=
  ⟨⟨min_le_of_right_le h.1.1, le_max_of_le_right h.1.2⟩, ⟨min_le_of_right_le h.2.1.1, le_max_of_le_right h.2.1.2⟩,
    ⟨min_le_of_right_le h.2.2.1, le_max_of_le_right h.2.2.2⟩⟩

theorem Contains.foldl_extend (h : b.Contains p) (cs : List (BoundingBox R)) : (cs.foldl extend b).Contains p := by
  induction cs generalizing b with
  | nil => exact h
  | cons c cs ih => exact ih h.extend_left

/-- The union of boxes contains each of them. -/
theorem contains_foldl_extend {cs : List (BoundingBox R)} (hc : c ∈ cs) (h : c.Contains p) :
    (cs.foldl extend b).Contains p := by
  induction cs generalizing b with
  | nil => exact absurd hc List.not_mem_nil
  | cons c' cs ih =>
    rcases List.mem_cons.1 hc with rfl | hc
    · exact h.extend_right.foldl_extend cs
    · exact ih hc

end Contains

end BoundingBox

structure BvhNode (R : Type*) where
  /-- `min.x, max.x, min.y, max.y, min.z, max.z`. -/
  bounds : Fin 6 → R
  primitiveCount : ℕ
  firstChildOrPrimitive : ℕ

namespace BvhNode

variable {R : Type*}

def isLeaf (n : BvhNode R) : Bool := n.primitiveCount ≠ 0

def boundingBoxProxy (n : BvhNode R) : BoundingBox R :=
  ⟨⟨n.bounds 0, n.bounds 2, n.bounds 4⟩, ⟨n.bounds 1, n.bounds 3, n.bounds 5⟩⟩

@[simp] theorem boundingBoxProxy_bounds (b : BoundingBox R) (count first : ℕ) :
    (⟨b.bounds, count, first⟩ : BvhNode R).boundingBoxProxy = b := rfl

end BvhNode

structure Bvh (R : Type*) where
  nodes : ℕ → BvhNode R
  primitiveIndices : ℕ → ℕ
  nodeCount : ℕ

namespace Bvh

variable {R : Type*}

/-- The primitives of the node `i`, as a leaf. -/
def leafPrimitives (b : Bvh R) (i : ℕ) : List ℕ :=
  (List.range (b.nodes i).primitiveCount).map fun k => b.primitiveIndices ((b.nodes i).firstChildOrPrimitive + k)

/-- `j` is a child of the inner node `i`. -/
def Child (b : Bvh R) (i j : ℕ) : Prop :=
  (b.nodes i).isLeaf = false ∧
    (j = (b.nodes i).firstChildOrPrimitive ∨ j = (b.nodes i).firstChildOrPrimitive + 1)

/-- `i` is an ancestor of `j`, or `j` itself. -/
def AncestorOrSelf (b : Bvh R) : ℕ → ℕ → Prop := Relation.ReflTransGen b.Child

/-- `i` is a leaf below the root. -/
def LeafNode (b : Bvh R) (i : ℕ) : Prop := b.AncestorOrSelf 0 i ∧ (b.nodes i).isLeaf = true

/-- The boxes of the nodes in the tree contain the points of the primitives below them. -/
def Encloses [LinearOrder R] (b : Bvh R) (points : ℕ → Set (RepoVector3D R)) : Prop :=
  ∀ i j, b.AncestorOrSelf 0 i → b.AncestorOrSelf i j → (b.nodes j).isLeaf = true → ∀ k ∈ b.leafPrimitives j, ∀ p ∈ points k,
    (b.nodes i).boundingBoxProxy.Contains p

/-- The tree `t` of node indices is what one reads off the nodes below `t.label`. -/
def Spells (b : Bvh R) : FullTree ℕ → Prop
  | .leaf i => (b.nodes i).isLeaf = true
  | .branch i l r => (b.nodes i).isLeaf = false ∧ l.label = (b.nodes i).firstChildOrPrimitive ∧
      r.label = (b.nodes i).firstChildOrPrimitive + 1 ∧ b.Spells l ∧ b.Spells r

/-- `t` is the tree of a hierarchy over `n` primitives. -/
structure IsTree (b : Bvh R) (n : ℕ) (t : FullTree ℕ) : Prop where
  root : t.label = 0
  spells : b.Spells t
  nodes : t.labels.Perm (List.range b.nodeCount)
  primitives : (t.items b.leafPrimitives).Perm (List.range n)

def WellFormed (b : Bvh R) (n : ℕ) : Prop := ∃ t, b.IsTree n t

section Spells

variable {b : Bvh R} {n : ℕ} {t : FullTree ℕ}

variable {s : FullTree ℕ}

theorem Spells.of_mem_subtrees (ht : b.Spells t) (hs : s ∈ t.subtrees) : b.Spells s := by
  induction t with
  | leaf i => simp only [FullTree.subtrees_leaf, List.mem_singleton] at hs; subst hs; exact ht
  | branch i l r ihl ihr =>
    simp only [FullTree.subtrees_branch, List.mem_cons, List.mem_append] at hs
    rcases hs with rfl | h | h
    · exact ht
    · exact ihl ht.2.2.2.1 h
    · exact ihr ht.2.2.2.2 h

theorem eq_of_ancestorOrSelf_leaf {i j : ℕ} (h : b.AncestorOrSelf i j) (hleaf : (b.nodes i).isLeaf = true) :
    j = i := by
  rcases Relation.ReflTransGen.cases_head h with rfl | ⟨k, hk, -⟩
  · rfl
  · exact absurd hleaf (by simp [hk.1])

variable {i : ℕ}

/-- The labels of a tree are the nodes below its root. -/
theorem Spells.ancestorOrSelf (ht : b.Spells t) (hi : i ∈ t.labels) : b.AncestorOrSelf t.label i := by
  induction t with
  | leaf j => simp only [FullTree.labels_leaf, List.mem_singleton] at hi; subst hi; exact .refl
  | branch j l r ihl ihr =>
    obtain ⟨hleaf, hl, hr, hsl, hsr⟩ := ht
    simp only [FullTree.labels_branch, List.mem_cons, List.mem_append] at hi
    rcases hi with rfl | h | h
    · exact .refl
    · exact .head ⟨hleaf, Or.inl hl⟩ (ihl hsl h)
    · exact .head ⟨hleaf, Or.inr hr⟩ (ihr hsr h)

private theorem Spells.child_mem {i j : ℕ} (ht : b.Spells t) (hi : i ∈ t.labels) (hij : b.Child i j) :
    j ∈ t.labels := by
  induction t with
  | leaf k =>
    simp only [FullTree.labels_leaf, List.mem_singleton] at hi
    subst hi
    have hleaf : (b.nodes i).isLeaf = true := ht
    exact absurd hij.1 (by simp [hleaf])
  | branch k l r ihl ihr =>
    obtain ⟨-, hl, hr, hsl, hsr⟩ := ht
    simp only [FullTree.labels_branch, List.mem_cons, List.mem_append] at hi ⊢
    rcases hi with rfl | h | h
    · rcases hij.2 with rfl | rfl
      · exact Or.inr (Or.inl (hl ▸ l.label_mem_labels))
      · exact Or.inr (Or.inr (hr ▸ r.label_mem_labels))
    · exact Or.inr (Or.inl (ihl hsl h))
    · exact Or.inr (Or.inr (ihr hsr h))

theorem Spells.mem_labels_iff (ht : b.Spells t) : i ∈ t.labels ↔ b.AncestorOrSelf t.label i := by
  constructor
  · exact ht.ancestorOrSelf
  · intro h
    induction h with
    | refl => exact t.label_mem_labels
    | tail _ hchild ih => exact ht.child_mem ih hchild

theorem Spells.mem_leaves_iff (ht : b.Spells t) :
    i ∈ t.leaves ↔ i ∈ t.labels ∧ (b.nodes i).isLeaf = true := by
  induction t with
  | leaf k =>
    have hleaf : (b.nodes k).isLeaf = true := ht
    simp only [FullTree.leaves_leaf, FullTree.labels_leaf, List.mem_singleton]
    constructor
    · rintro rfl; exact ⟨rfl, hleaf⟩
    · exact And.left
  | branch k l r ihl ihr =>
    obtain ⟨hinner, -, -, hsl, hsr⟩ := ht
    simp only [FullTree.leaves_branch, FullTree.labels_branch, List.mem_append, List.mem_cons, ihl hsl, ihr hsr]
    constructor
    · rintro (⟨h, hleaf⟩ | ⟨h, hleaf⟩)
      · exact ⟨Or.inr (Or.inl h), hleaf⟩
      · exact ⟨Or.inr (Or.inr h), hleaf⟩
    · rintro ⟨rfl | h | h, hleaf⟩
      · exact absurd hleaf (by simp [hinner])
      · exact Or.inl ⟨h, hleaf⟩
      · exact Or.inr ⟨h, hleaf⟩

theorem IsTree.leafNode_iff (h : b.IsTree n t) : b.LeafNode i ↔ i ∈ t.leaves := by
  rw [h.spells.mem_leaves_iff, h.spells.mem_labels_iff, h.root, LeafNode]

theorem IsTree.ancestorOrSelf_label (h : b.IsTree n t) (hs : s ∈ t.subtrees) :
    b.AncestorOrSelf 0 s.label := by
  rw [← h.root]
  exact h.spells.ancestorOrSelf (FullTree.labels_subset_of_mem_subtrees hs s.label_mem_labels)

theorem IsTree.label_ancestorOrSelf (h : b.IsTree n t) (hs : s ∈ t.subtrees)
    (hi : i ∈ s.leaves) : b.AncestorOrSelf s.label i :=
  (h.spells.of_mem_subtrees hs).ancestorOrSelf (s.leaves_subset_labels hi)

/-- The primitives are those of the leaves. -/
theorem IsTree.lt_iff {k : ℕ} (h : b.IsTree n t) : k < n ↔ ∃ i ∈ t.leaves, k ∈ b.leafPrimitives i := by
  rw [← List.mem_range, ← h.primitives.mem_iff, FullTree.items, List.mem_flatMap]

/-- No leaf is empty. -/
theorem IsTree.exists_leafPrimitive (h : b.IsTree n t) (hi : i ∈ t.leaves) : ∃ k, k ∈ b.leafPrimitives i := by
  have hleaf : (b.nodes i).primitiveCount ≠ 0 := by
    simpa [BvhNode.isLeaf] using (h.spells.mem_leaves_iff.1 hi).2
  exact ⟨_, List.mem_map.2 ⟨0, List.mem_range.2 (Nat.pos_of_ne_zero hleaf), rfl⟩⟩

theorem WellFormed.pos (h : b.WellFormed n) : 0 < n := by
  obtain ⟨t, ht⟩ := h
  obtain ⟨i, hi⟩ := List.exists_mem_of_ne_nil _ t.leaves_ne_nil
  obtain ⟨k, hk⟩ := ht.exists_leafPrimitive hi
  exact (Nat.zero_le _).trans_lt (ht.lt_iff.2 ⟨i, hi, hk⟩)

/-- The box of the root contains what is in the primitives. -/
theorem WellFormed.root_contains [LinearOrder R] {points : ℕ → Set (RepoVector3D R)} (h : b.WellFormed n)
    (hencloses : b.Encloses points) {k : ℕ} (hk : k < n) {p : RepoVector3D R} (hp : p ∈ points k) :
    (b.nodes 0).boundingBoxProxy.Contains p := by
  obtain ⟨t, ht⟩ := h
  obtain ⟨i, hi, hprimitive⟩ := ht.lt_iff.1 hk
  obtain ⟨hlabel, hleaf⟩ := ht.spells.mem_leaves_iff.1 hi
  have hroot : b.AncestorOrSelf 0 i := ht.root ▸ ht.spells.ancestorOrSelf hlabel
  exact hencloses 0 i .refl hroot hleaf k hprimitive p hp

theorem IsTree.nodup_labels (h : b.IsTree n t) : t.labels.Nodup := h.nodes.nodup_iff.2 List.nodup_range

theorem IsTree.nodup_items (h : b.IsTree n t) : (t.items b.leafPrimitives).Nodup :=
  h.primitives.nodup_iff.2 List.nodup_range

theorem IsTree.size_eq (h : b.IsTree n t) : t.size = b.nodeCount := by
  rw [← FullTree.length_labels, h.nodes.length_eq, List.length_range]

end Spells

end Bvh

end Bouncer
