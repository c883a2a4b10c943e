import Bouncer.Bvh.Builder
import Mathlib.Tactic.FinCases

/-!
# Refitting a hierarchy

`bvh::HierarchyRefitter` gives each leaf a new box and each inner node the union of the boxes of its two children, from
the leaves up.  The tree stays as it is, so only the last of several refits matters (`refit_refit`), and a hierarchy
whose boxes already fit does not change (`refit_eq_self`).
-/

namespace Bouncer

open Library (FullTree)

variable {R : Type*}

theorem BvhNode.bounds_boundingBoxProxy (node : BvhNode R) : node.boundingBoxProxy.bounds = node.bounds := by
  funext i
  fin_cases i <;> rfl

def BoundingBox.empty [Field R] : BoundingBox R := ⟨⟨dblMax, dblMax, dblMax⟩, ⟨-dblMax, -dblMax, -dblMax⟩⟩

namespace Bvh

variable [LinearOrder R] (b : Bvh R) (leafBox : ℕ → BoundingBox R)

/-- The box that a node gets, with at most `n` nodes on each path down from it. -/
def refitBox : ℕ → ℕ → BoundingBox R
  | 0, i => leafBox i
  | n + 1, i =>
    if (b.nodes i).isLeaf then leafBox i
    else (refitBox n (b.nodes i).firstChildOrPrimitive).extend (refitBox n ((b.nodes i).firstChildOrPrimitive + 1))

/-- `BvhRefitter::refit`, with the boxes that `updateLeaf` gives to the leaves. -/
def refit : Bvh R :=
  { b with
    nodes := fun i =>
      if i < b.nodeCount then { b.nodes i with bounds := (b.refitBox leafBox b.nodeCount i).bounds } else b.nodes i }

/-- The boxes of the leaves are these, and those of the inner nodes are the unions of the boxes of their children. -/
def Fits : Prop :=
  ∀ i, b.AncestorOrSelf 0 i → (b.nodes i).boundingBoxProxy =
    if (b.nodes i).isLeaf then leafBox i
    else (b.nodes (b.nodes i).firstChildOrPrimitive).boundingBoxProxy.extend
      (b.nodes ((b.nodes i).firstChildOrPrimitive + 1)).boundingBoxProxy

/-- The union of the boxes of the leaves of a tree. -/
def unionBox (leafBox : ℕ → BoundingBox R) : FullTree ℕ → BoundingBox R
  | .leaf i => leafBox i
  | .branch _ l r => (unionBox leafBox l).extend (unionBox leafBox r)

variable {b} {leafBox}

/-! ### What a refit leaves alone -/

@[simp] theorem refit_nodeCount : (b.refit leafBox).nodeCount = b.nodeCount := rfl

@[simp] theorem refit_primitiveCount (i : ℕ) :
    ((b.refit leafBox).nodes i).primitiveCount = (b.nodes i).primitiveCount := by
  unfold refit
  dsimp only
  split <;> rfl

@[simp] theorem refit_firstChildOrPrimitive (i : ℕ) :
    ((b.refit leafBox).nodes i).firstChildOrPrimitive = (b.nodes i).firstChildOrPrimitive := by
  unfold refit
  dsimp only
  split <;> rfl

@[simp] theorem refit_isLeaf (i : ℕ) : ((b.refit leafBox).nodes i).isLeaf = (b.nodes i).isLeaf := by
  unfold BvhNode.isLeaf
  rw [refit_primitiveCount]

@[simp] theorem refit_leafPrimitives (i : ℕ) : (b.refit leafBox).leafPrimitives i = b.leafPrimitives i := by
  unfold leafPrimitives
  rw [refit_primitiveCount, refit_firstChildOrPrimitive]
  rfl

private theorem refitBox_refit (leafBox leafBox' : ℕ → BoundingBox R) (n i : ℕ) :
    (b.refit leafBox).refitBox leafBox' n i = b.refitBox leafBox' n i := by
  induction n generalizing i with
  | zero => rfl
  | succ n ih => rw [refitBox, refitBox, refit_isLeaf, refit_firstChildOrPrimitive, ih, ih]

/-- Only the last refit matters. -/
theorem refit_refit (b : Bvh R) (leafBox leafBox' : ℕ → BoundingBox R) :
    (b.refit leafBox).refit leafBox' = b.refit leafBox' := by
  have hnodes : ((b.refit leafBox).refit leafBox').nodes = (b.refit leafBox').nodes := by
    funext i
    show (if i < b.nodeCount then _ else _) = (if i < b.nodeCount then _ else _)
    by_cases hi : i < b.nodeCount
    · rw [if_pos hi, if_pos hi, refitBox_refit, refit_nodeCount]
      simp only [refit, if_pos hi]
    · rw [if_neg hi, if_neg hi]
      simp only [refit, if_neg hi]
  show (⟨((b.refit leafBox).refit leafBox').nodes, b.primitiveIndices, b.nodeCount⟩ : Bvh R) = _
  rw [hnodes]
  rfl

/-! ### The boxes after a refit -/

section Tree

variable {t : FullTree ℕ} {n : ℕ}

theorem Spells.refit (h : b.Spells t) : (b.refit leafBox).Spells t := by
  induction t with
  | leaf i => exact (refit_isLeaf i).trans h
  | branch i l r ihl ihr =>
    obtain ⟨hleaf, hl, hr, hsl, hsr⟩ := h
    refine ⟨(refit_isLeaf i).trans hleaf, ?_, ?_, ihl hsl, ihr hsr⟩
    · rw [hl, refit_firstChildOrPrimitive]
    · rw [hr, refit_firstChildOrPrimitive]

theorem IsTree.refit (h : b.IsTree n t) : (b.refit leafBox).IsTree n t where
  root := h.root
  spells := h.spells.refit
  nodes := h.nodes
  primitives := by
    have hleaf : (b.refit leafBox).leafPrimitives = b.leafPrimitives := funext fun i => refit_leafPrimitives i
    rw [hleaf]
    exact h.primitives

theorem WellFormed.refit (h : b.WellFormed n) : (b.refit leafBox).WellFormed n := by
  obtain ⟨t, ht⟩ := h
  exact ⟨t, ht.refit⟩

private theorem Spells.refitBox_label (h : b.Spells t) (hn : t.size ≤ n) :
    b.refitBox leafBox n t.label = unionBox leafBox t := by
  induction t generalizing n with
  | leaf i =>
    cases n with
    | zero => rfl
    | succ n => exact if_pos h
  | branch i l r ihl ihr =>
    obtain ⟨hleaf, hl, hr, hsl, hsr⟩ := h
    rw [FullTree.size_branch] at hn
    obtain ⟨m, rfl⟩ : ∃ m, n = m + 1 := ⟨n - 1, by omega⟩
    have hinner : ¬ (b.nodes i).isLeaf = true := by simp [hleaf]
    rw [FullTree.label_branch, refitBox, if_neg hinner, ← hr, ← hl, ihl hsl (by omega), ihr hsr (by omega)]
    rfl

/-- If the boxes fit, the one of the root of a tree is the union of its leaves. -/
theorem Fits.box_label (hfits : b.Fits leafBox) (h : b.Spells t) (hroot : b.AncestorOrSelf 0 t.label) :
    (b.nodes t.label).boundingBoxProxy = unionBox leafBox t := by
  induction t with
  | leaf i => exact (hfits i hroot).trans (if_pos h)
  | branch i l r ihl ihr =>
    obtain ⟨hleaf, hl, hr, hsl, hsr⟩ := h
    have hinner : ¬ (b.nodes i).isLeaf = true := by simp [hleaf]
    have hbox := (hfits i hroot).trans (if_neg hinner)
    rw [← hr, ← hl, ihl hsl (hroot.tail ⟨hleaf, Or.inl hl⟩), ihr hsr (hroot.tail ⟨hleaf, Or.inr hr⟩)] at hbox
    exact hbox

omit [LinearOrder R] in
private theorem IsTree.exists_subtree (h : b.IsTree n t) {i : ℕ} (hi : i < b.nodeCount) : ∃ s ∈ t.subtrees, s.label = i := by
  have hmem : i ∈ t.labels := h.nodes.mem_iff.2 (List.mem_range.2 hi)
  rw [← FullTree.map_label_subtrees] at hmem
  exact List.mem_map.1 hmem

theorem IsTree.refitBox_eq (h : b.IsTree n t) {s : FullTree ℕ} (hs : s ∈ t.subtrees) :
    b.refitBox leafBox b.nodeCount s.label = unionBox leafBox s :=
  (h.spells.of_mem_subtrees hs).refitBox_label (h.size_eq ▸ FullTree.size_le_of_mem_subtrees hs)

/-- A hierarchy that fits does not change. -/
theorem refit_eq_self (h : b.WellFormed n) (hfits : b.Fits leafBox) : b.refit leafBox = b := by
  obtain ⟨t, ht⟩ := h
  have hnodes : (b.refit leafBox).nodes = b.nodes := by
    funext i
    show (if i < b.nodeCount then _ else _) = _
    by_cases hi : i < b.nodeCount
    · obtain ⟨s, hs, rfl⟩ := ht.exists_subtree hi
      rw [if_pos hi, ht.refitBox_eq hs, ← hfits.box_label (ht.spells.of_mem_subtrees hs) (ht.ancestorOrSelf_label hs),
        BvhNode.bounds_boundingBoxProxy]
    · rw [if_neg hi]
  show (⟨(b.refit leafBox).nodes, b.primitiveIndices, b.nodeCount⟩ : Bvh R) = b
  rw [hnodes]

end Tree

end Bvh

namespace SweepSahBuilder

section Field

variable [Field R] [LinearOrder R]

/-- The union of the boxes of the primitives of a leaf. -/
def leafBox (boundingBoxes : List (BoundingBox R)) (primitives : List ℕ) : BoundingBox R :=
  primitives.foldl (fun box k => box.extend (boundingBoxes.getD k .empty)) .empty

/-- The boxes that the builder gives to the nodes are no larger than necessary. -/
def Tight (builder : SweepSahBuilder R) : Prop :=
  ∀ boundingBoxes, boundingBoxes ≠ [] → (builder.build boundingBoxes).Fits fun i =>
    leafBox boundingBoxes ((builder.build boundingBoxes).leafPrimitives i)

/-- The builder of hierarchies that are a single leaf. -/
def single (R : Type*) [Field R] [LinearOrder R] : SweepSahBuilder R where
  build := fun boundingBoxes =>
    { nodes := fun _ => ⟨(leafBox boundingBoxes (List.range boundingBoxes.length)).bounds, boundingBoxes.length, 0⟩
      primitiveIndices := id
      nodeCount := 1 }
  wellFormed := by
    intro boundingBoxes hne
    refine ⟨.leaf 0, rfl, by simpa [Bvh.Spells, BvhNode.isLeaf] using hne, List.Perm.refl _, ?_⟩
    simp [Bvh.leafPrimitives]

theorem single_leafPrimitives (boundingBoxes : List (BoundingBox R)) (i : ℕ) :
    ((single R).build boundingBoxes).leafPrimitives i = List.range boundingBoxes.length := by
  simp [single, Bvh.leafPrimitives]

theorem single_tight : (single R).Tight := by
  intro boundingBoxes hne i hroot
  have hlength : boundingBoxes.length ≠ 0 := by simpa using hne
  have hleaf : (((single R).build boundingBoxes).nodes i).isLeaf = true := decide_eq_true hlength
  rw [if_pos hleaf]
  dsimp only
  rw [single_leafPrimitives]
  rfl

end Field

end SweepSahBuilder

end Bouncer
