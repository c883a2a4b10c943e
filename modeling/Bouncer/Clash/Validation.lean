import Bouncer.Bvh.Refit
import Bouncer.Datastructure.Matrix
import Bouncer.Library.TreeWalk

/-!
# Validation of scene graphs

Before the narrowphase, `validateSceneGraph` looks for meshes that are too large, before or after they are scaled, or moved
too far.  It skips the parts of the hierarchy whose boxes, in project coordinates, are within the limit for meshes.

But a mesh with such a box may be too large itself, and be scaled down, or be moved back by its transform.  So the
validation finds nothing exactly if all meshes that violate a limit are in leaves whose boxes are within the limit
(`raises_iff`).
-/

namespace Bouncer.Clash

open Library (FullTree Outcome lifo run visitUntil)

variable {K U R : Type*}

def meshLimit [Field R] : R := 8000000

def translationLimit [Field R] : R := 100000000000

inductive ValidationException (K U : Type*) where
  | meshBounds (container : K) (uniqueId : U)
  | transformBounds (container : K) (uniqueId : U)

section Code

variable [ExactReal R]

/-- What is read of a `Graph::Node` here.  With another matrix the constructor of the graph ends the process. -/
structure PlacedNode (K U R : Type*) [ExactReal R] where
  container : K
  uniqueId : U
  matrix : RepoMatrix R
  /-- The two corners in the field with the bounding box. -/
  boundingBox : RepoVector3D R × RepoVector3D R
  not_exits : ¬ matrix.Exits

namespace PlacedNode

variable (node : PlacedNode K U R)

/-- `getBoundsField`. -/
def meshBounds : RepoBounds R := .ofMinMax node.boundingBox.1 node.boundingBox.2

/-- The bounds in project coordinates. -/
def projectBounds : BoundingBox R :=
  let bounds := node.matrix.mulBounds node.meshBounds
  ⟨bounds.bmin, bounds.bmax⟩

end PlacedNode

structure PlacedGraph (K U R : Type*) [ExactReal R] where
  meshes : List (PlacedNode K U R)
  bvh : Bvh R

def PlacedGraph.ofNodes (builder : SweepSahBuilder R) (nodes : List (PlacedNode K U R)) : PlacedGraph K U R :=
  ⟨nodes, builder.build (nodes.map PlacedNode.projectBounds)⟩

/-! ### The limits -/

def isWithinLimits (v : RepoVector3D R) (limit : R) : Bool := decide (|v.x| ≤ limit ∧ |v.y| ≤ limit ∧ |v.z| ≤ limit)

/-- `isWithinLimits`, for bounds. -/
def isWithinLimitsBounds (bounds : RepoBounds R) (limit : R) : Bool :=
  isWithinLimits bounds.bmin limit && isWithinLimits bounds.bmax limit

/-- `isWithinLimits`, for a node of a hierarchy. -/
def isWithinLimitsNode (node : BvhNode R) (limit : R) : Bool := decide (∀ i, ¬ |node.bounds i| > limit)

/-- The exception for a mesh that is checked. -/
def PlacedNode.violation (node : PlacedNode K U R) : Option (ValidationException K U) :=
  if !isWithinLimitsBounds node.meshBounds meshLimit then some (.meshBounds node.container node.uniqueId)
  else if !isWithinLimitsBounds (node.matrix.scales.mulBounds node.meshBounds) (meshLimit + 1) then
    some (.transformBounds node.container node.uniqueId)
  else if !isWithinLimits node.matrix.translation translationLimit then
    some (.transformBounds node.container node.uniqueId)
  else none

/-- The mesh violates one of the limits for meshes. -/
def PlacedNode.Violates (node : PlacedNode K U R) : Prop :=
  isWithinLimitsBounds node.meshBounds meshLimit = false ∨
    isWithinLimitsBounds (node.matrix.scales.mulBounds node.meshBounds) (meshLimit + 1) = false ∨
    isWithinLimits node.matrix.translation translationLimit = false

/-- The transformed bounds of the mesh are beyond the limit for meshes. -/
def PlacedNode.Beyond (node : PlacedNode K U R) : Prop :=
  isWithinLimitsBounds (node.matrix.mulBounds node.meshBounds) meshLimit = false

namespace PlacedGraph

variable (graph : PlacedGraph K U R)

/-- A primitive of a leaf is checked. -/
def check (primitive : ℕ) (thrown : Option (ValidationException K U)) : Option (ValidationException K U) × Bool :=
  match graph.meshes[primitive]?.bind PlacedNode.violation with
  | some exception => (some exception, true)
  | none => (thrown, false)

/-- One iteration of the loop over `nodesToProcess`. -/
def step (i : ℕ) (thrown : Option (ValidationException K U)) : Outcome ℕ (Option (ValidationException K U)) :=
  let node := graph.bvh.nodes i
  if !isWithinLimitsNode node meshLimit then
    if node.isLeaf then .ofVisit (visitUntil graph.check (graph.bvh.leafPrimitives i) thrown)
    else .push [node.firstChildOrPrimitive, node.firstChildOrPrimitive + 1] thrown
  else .push [] thrown

/-- The exception that is thrown, if there is one. -/
def validateSceneGraph : Option (Option (ValidationException K U)) :=
  (run lifo graph.step graph.bvh.nodeCount (if graph.meshes.length ≠ 0 then [0] else []) none).map Prod.fst

/-- In the leaf with the primitive is a mesh with transformed bounds beyond the limit, perhaps the primitive itself. -/
def Examined (k : ℕ) : Prop :=
  ∃ i, graph.bvh.LeafNode i ∧ k ∈ graph.bvh.leafPrimitives i ∧
    ∃ k' ∈ graph.bvh.leafPrimitives i, ∃ node, graph.meshes[k']? = some node ∧ node.Beyond

end PlacedGraph

end Code

/-! ### Boxes within a limit -/

section Boxes

variable [ExactReal R] {b c : BoundingBox R} {limit : R}

/-- No corner of the box is beyond the limit. -/
def Inside (b : BoundingBox R) (limit : R) : Prop :=
  (-limit ≤ b.min.x ∧ -limit ≤ b.min.y ∧ -limit ≤ b.min.z) ∧ b.max.x ≤ limit ∧ b.max.y ≤ limit ∧ b.max.z ≤ limit

def Ordered (b : BoundingBox R) : Prop := b.min.x ≤ b.max.x ∧ b.min.y ≤ b.max.y ∧ b.min.z ≤ b.max.z

private theorem inside_extend : Inside (b.extend c) limit ↔ Inside b limit ∧ Inside c limit := by
  simp only [Inside, BoundingBox.extend, RepoVector3D.min, RepoVector3D.max, le_min_iff, max_le_iff]
  tauto

theorem Ordered.extend_left (h : Ordered b) : Ordered (b.extend c) :=
  ⟨(min_le_left _ _).trans (h.1.trans (le_max_left _ _)), (min_le_left _ _).trans (h.2.1.trans (le_max_left _ _)),
    (min_le_left _ _).trans (h.2.2.trans (le_max_left _ _))⟩

theorem Ordered.extend_right (h : Ordered c) : Ordered (b.extend c) :=
  ⟨(min_le_right _ _).trans (h.1.trans (le_max_right _ _)), (min_le_right _ _).trans (h.2.1.trans (le_max_right _ _)),
    (min_le_right _ _).trans (h.2.2.trans (le_max_right _ _))⟩

private theorem ordered_ofMinMax (p q : RepoVector3D R) :
    Ordered ⟨(RepoBounds.ofMinMax p q).bmin, (RepoBounds.ofMinMax p q).bmax⟩ := by
  obtain ⟨⟨hx, hx'⟩, ⟨hy, hy'⟩, hz, hz'⟩ := RepoBounds.contains_ofMinMax_left (p := p) (q := q)
  exact ⟨hx.trans hx', hy.trans hy', hz.trans hz'⟩

private theorem isWithinLimitsBounds_iff {bounds : RepoBounds R} (h : Ordered ⟨bounds.bmin, bounds.bmax⟩) :
    isWithinLimitsBounds bounds limit = true ↔ Inside ⟨bounds.bmin, bounds.bmax⟩ limit := by
  obtain ⟨hx, hy, hz⟩ := h
  simp only [isWithinLimitsBounds, isWithinLimits, Bool.and_eq_true, decide_eq_true_eq, abs_le, Inside]
  constructor
  · rintro ⟨⟨hminx, hminy, hminz⟩, hmaxx, hmaxy, hmaxz⟩
    exact ⟨⟨hminx.1, hminy.1, hminz.1⟩, hmaxx.2, hmaxy.2, hmaxz.2⟩
  · rintro ⟨⟨hminx, hminy, hminz⟩, hmaxx, hmaxy, hmaxz⟩
    exact ⟨⟨⟨hminx, hx.trans hmaxx⟩, ⟨hminy, hy.trans hmaxy⟩, hminz, hz.trans hmaxz⟩,
      ⟨hminx.trans hx, hmaxx⟩, ⟨hminy.trans hy, hmaxy⟩, hminz.trans hz, hmaxz⟩

private theorem isWithinLimitsNode_iff {node : BvhNode R} (h : Ordered node.boundingBoxProxy) :
    isWithinLimitsNode node limit = true ↔ Inside node.boundingBoxProxy limit := by
  obtain ⟨hx, hy, hz⟩ := h
  have hall : isWithinLimitsNode node limit = true ↔ ∀ i, -limit ≤ node.bounds i ∧ node.bounds i ≤ limit := by
    simp only [isWithinLimitsNode, decide_eq_true_eq, gt_iff_lt, not_lt, abs_le]
  rw [hall]
  constructor
  · intro hbounds
    exact ⟨⟨(hbounds 0).1, (hbounds 2).1, (hbounds 4).1⟩, (hbounds 1).2, (hbounds 3).2, (hbounds 5).2⟩
  · rintro ⟨⟨hminx, hminy, hminz⟩, hmaxx, hmaxy, hmaxz⟩ i
    fin_cases i
    · exact ⟨hminx, hx.trans hmaxx⟩
    · exact ⟨hminx.trans hx, hmaxx⟩
    · exact ⟨hminy, hy.trans hmaxy⟩
    · exact ⟨hminy.trans hy, hmaxy⟩
    · exact ⟨hminz, hz.trans hmaxz⟩
    · exact ⟨hminz.trans hz, hmaxz⟩

private theorem inside_empty (hlimit : 0 ≤ limit) : Inside (BoundingBox.empty : BoundingBox R) limit := by
  have hpos := RepoLine.dblMax_pos (R := R)
  simp only [Inside, BoundingBox.empty]
  refine ⟨⟨?_, ?_, ?_⟩, ?_, ?_, ?_⟩ <;> linarith

private theorem meshLimit_nonneg : (0 : R) ≤ meshLimit := by
  unfold meshLimit
  positivity

private theorem inside_leafBox (hlimit : 0 ≤ limit) (boundingBoxes : List (BoundingBox R)) (primitives : List ℕ) :
    Inside (SweepSahBuilder.leafBox boundingBoxes primitives) limit ↔
      ∀ k ∈ primitives, Inside (boundingBoxes.getD k .empty) limit := by
  have hfold : ∀ box : BoundingBox R,
      Inside (primitives.foldl (fun box k => box.extend (boundingBoxes.getD k .empty)) box) limit ↔
        Inside box limit ∧ ∀ k ∈ primitives, Inside (boundingBoxes.getD k .empty) limit := by
    induction primitives with
    | nil => simp
    | cons k primitives ih =>
      intro box
      rw [List.foldl_cons, ih, inside_extend, List.forall_mem_cons, and_assoc]
  rw [SweepSahBuilder.leafBox, hfold]
  exact and_iff_right (inside_empty hlimit)

private theorem ordered_leafBox {boundingBoxes : List (BoundingBox R)} {primitives : List ℕ} {k : ℕ} (hk : k ∈ primitives)
    (h : Ordered (boundingBoxes.getD k .empty)) : Ordered (SweepSahBuilder.leafBox boundingBoxes primitives) := by
  have hkeep : ∀ (l : List ℕ) (box : BoundingBox R), Ordered box →
      Ordered (l.foldl (fun box k => box.extend (boundingBoxes.getD k .empty)) box) := by
    intro l
    induction l with
    | nil => exact fun _ hbox => hbox
    | cons k l ih => exact fun box hbox => ih _ hbox.extend_left
  obtain ⟨before, after, rfl⟩ := List.append_of_mem hk
  rw [SweepSahBuilder.leafBox, List.foldl_append, List.foldl_cons]
  exact hkeep after _ h.extend_right

private theorem inside_unionBox {leafBox : ℕ → BoundingBox R} {t : FullTree ℕ} :
    Inside (Bvh.unionBox leafBox t) limit ↔ ∀ i ∈ t.leaves, Inside (leafBox i) limit := by
  induction t with
  | leaf i => simp [Bvh.unionBox]
  | branch i l r ihl ihr =>
    rw [Bvh.unionBox, inside_extend, ihl, ihr, FullTree.leaves_branch, List.forall_mem_append]

private theorem ordered_unionBox {leafBox : ℕ → BoundingBox R} {t : FullTree ℕ} (h : ∀ i ∈ t.leaves, Ordered (leafBox i)) :
    Ordered (Bvh.unionBox leafBox t) := by
  induction t with
  | leaf i => exact h i (by simp)
  | branch i l r ihl _ =>
    exact (ihl fun j hj => h j (by rw [FullTree.leaves_branch]; exact List.mem_append_left _ hj)).extend_left

end Boxes

/-! ### What is found -/

section Found

variable [ExactReal R]

theorem PlacedNode.violation_isSome_iff {node : PlacedNode K U R} : node.violation.isSome = true ↔ node.Violates := by
  unfold PlacedNode.violation PlacedNode.Violates
  cases isWithinLimitsBounds node.meshBounds meshLimit <;>
    cases isWithinLimitsBounds (node.matrix.scales.mulBounds node.meshBounds) (meshLimit + 1) <;>
    cases isWithinLimits node.matrix.translation translationLimit <;> simp

theorem PlacedNode.ordered_projectBounds (node : PlacedNode K U R) : Ordered node.projectBounds :=
  ordered_ofMinMax _ _

theorem PlacedNode.beyond_iff {node : PlacedNode K U R} : node.Beyond ↔ ¬ Inside node.projectBounds meshLimit := by
  have hbounds : isWithinLimitsBounds (node.matrix.mulBounds node.meshBounds) meshLimit = true ↔
      Inside node.projectBounds meshLimit := isWithinLimitsBounds_iff node.ordered_projectBounds
  rw [← hbounds, Bool.not_eq_true]
  rfl

namespace PlacedGraph

private theorem visitUntil_check {graph : PlacedGraph K U R} {primitives : List ℕ} :
    (visitUntil graph.check primitives none).1.isSome = true ↔
      ∃ k ∈ primitives, ∃ node, graph.meshes[k]? = some node ∧ node.Violates := by
  induction primitives with
  | nil => simp [visitUntil]
  | cons k primitives ih =>
    have hcheck : (∃ node, graph.meshes[k]? = some node ∧ node.Violates) ↔
        (graph.meshes[k]?.bind PlacedNode.violation).isSome = true := by
      cases graph.meshes[k]? with
      | none => simp
      | some node => simp [PlacedNode.violation_isSome_iff]
    rw [List.exists_mem_cons_iff, hcheck, visitUntil, check]
    cases graph.meshes[k]?.bind PlacedNode.violation with
    | none => simpa using ih
    | some exception => simp

section Tree

variable {builder : SweepSahBuilder R} {nodes : List (PlacedNode K U R)} {t : FullTree ℕ}

private theorem inside_primitive {k : ℕ} : Inside ((nodes.map PlacedNode.projectBounds).getD k .empty) meshLimit ↔
    ¬ ∃ node, nodes[k]? = some node ∧ node.Beyond := by
  rw [List.getD_eq_getElem?_getD, List.getElem?_map]
  cases nodes[k]? with
  | none => simpa using inside_empty meshLimit_nonneg
  | some node => simp [PlacedNode.beyond_iff]

/-- The nodes of the hierarchy that are passed over are those with only such primitives below them. -/
theorem isWithinLimits_label (hbuilder : builder.Tight)
    (ht : (ofNodes builder nodes).bvh.IsTree nodes.length t) {s : FullTree ℕ} (hs : s ∈ t.subtrees) :
    isWithinLimitsNode ((ofNodes builder nodes).bvh.nodes s.label) meshLimit = true ↔
      ∀ i ∈ s.leaves, ∀ k ∈ (ofNodes builder nodes).bvh.leafPrimitives i,
        ¬ ∃ node, nodes[k]? = some node ∧ node.Beyond := by
  have hne : nodes.map PlacedNode.projectBounds ≠ [] := by
    have hpos := Bvh.WellFormed.pos ⟨t, ht⟩
    exact List.ne_nil_of_length_pos (by simpa using hpos)
  have hbox := (hbuilder _ hne).box_label (ht.spells.of_mem_subtrees hs) (ht.ancestorOrSelf_label hs)
  have hordered : ∀ i ∈ s.leaves, Ordered (SweepSahBuilder.leafBox (nodes.map PlacedNode.projectBounds)
      ((ofNodes builder nodes).bvh.leafPrimitives i)) := by
    intro i hi
    have hit : i ∈ t.leaves := by
      rw [← FullTree.leaf_mem_subtrees_iff] at hi ⊢
      exact FullTree.subtrees_trans hi hs
    obtain ⟨k, hk⟩ := ht.exists_leafPrimitive hit
    have hlt : k < nodes.length := ht.lt_iff.2 ⟨i, hit, hk⟩
    refine ordered_leafBox hk ?_
    rw [List.getD_eq_getElem?_getD, List.getElem?_map, List.getElem?_eq_getElem hlt]
    exact PlacedNode.ordered_projectBounds _
  have hproxy : Ordered ((ofNodes builder nodes).bvh.nodes s.label).boundingBoxProxy := by
    rw [ofNodes, hbox]
    exact ordered_unionBox hordered
  rw [isWithinLimitsNode_iff hproxy]
  simp only [ofNodes] at hbox ⊢
  rw [hbox, inside_unionBox]
  simp only [inside_leafBox meshLimit_nonneg, inside_primitive]

private theorem validateSceneGraph_eq {graph : PlacedGraph K U R} (hne : graph.meshes.length ≠ 0)
    (ht : graph.bvh.IsTree graph.meshes.length t) :
    graph.validateSceneGraph = some (visitUntil graph.check
      (t.keptItems (fun i => !isWithinLimitsNode (graph.bvh.nodes i) meshLimit) graph.bvh.leafPrimitives) none).1 := by
  have hleaf : ∀ i, FullTree.leaf i ∈ t.subtrees → ∀ thrown, graph.step i thrown =
      if (!isWithinLimitsNode (graph.bvh.nodes i) meshLimit) = true then
        .ofVisit (visitUntil graph.check (graph.bvh.leafPrimitives i) thrown)
      else .push [] thrown := by
    intro i hi thrown
    have hleaf : (graph.bvh.nodes i).isLeaf = true := ht.spells.of_mem_subtrees hi
    rw [step, if_pos hleaf]
  have hbranch : ∀ i l r, FullTree.branch i l r ∈ t.subtrees → ∀ thrown, graph.step i thrown =
      if (!isWithinLimitsNode (graph.bvh.nodes i) meshLimit) = true then .push [l.label, r.label] thrown
      else .push [] thrown := by
    intro i l r hi thrown
    obtain ⟨hinner, hl, hr, -, -⟩ := ht.spells.of_mem_subtrees hi
    have hinner : ¬ (graph.bvh.nodes i).isLeaf = true := by simp [hinner]
    rw [step, if_neg hinner, hl, hr]
  unfold validateSceneGraph
  rw [if_pos hne, ← ht.root, Library.run_kept hleaf hbranch ht.size_eq.le, Option.map_some]

/-- Something is thrown if a mesh violates a limit and is in a leaf that the loop gets to.  Only leaves matter: the box of an
inner node is beyond the limit if the box of a leaf below it is. -/
theorem validateSceneGraph_isSome_iff (hbuilder : builder.Tight) (nodes : List (PlacedNode K U R)) :
    ∃ thrown, (ofNodes builder nodes).validateSceneGraph = some thrown ∧ (thrown.isSome = true ↔
      ∃ k node, nodes[k]? = some node ∧ node.Violates ∧ (ofNodes builder nodes).Examined k) := by
  by_cases hne : nodes = []
  · subst hne
    exact ⟨none, congrArg (Option.map Prod.fst) (Library.run_nil _ _), by simp⟩
  · have hboxes : nodes.map PlacedNode.projectBounds ≠ [] := by simpa using hne
    obtain ⟨t, ht⟩ := builder.wellFormed _ hboxes
    rw [List.length_map] at ht
    have ht : (ofNodes builder nodes).bvh.IsTree nodes.length t := ht
    have hlength : (ofNodes builder nodes).meshes.length ≠ 0 := by simpa [ofNodes] using hne
    refine ⟨_, validateSceneGraph_eq hlength ht, ?_⟩
    have hpassed : ∀ s ∈ t.subtrees,
        (!isWithinLimitsNode ((ofNodes builder nodes).bvh.nodes s.label) meshLimit) = true ↔
          ∃ i ∈ s.leaves, ∃ k ∈ (ofNodes builder nodes).bvh.leafPrimitives i,
            ∃ node, nodes[k]? = some node ∧ node.Beyond := by
      intro s hs
      rw [Bool.not_eq_true', ← Bool.not_eq_true, isWithinLimits_label hbuilder ht hs]
      simp only [not_forall, not_not, exists_prop]
    have hmem : ∀ k, k ∈ t.keptItems (fun i => !isWithinLimitsNode ((ofNodes builder nodes).bvh.nodes i) meshLimit)
        (ofNodes builder nodes).bvh.leafPrimitives ↔ (ofNodes builder nodes).Examined k := by
      intro k
      rw [FullTree.mem_keptItems]
      · constructor
        · rintro ⟨i, hi, hkept, hk⟩
          have hleaf := (hpassed (.leaf i) (FullTree.leaf_mem_subtrees_iff.2 hi)).1 hkept
          exact ⟨i, ht.leafNode_iff.2 hi, hk, by simpa [ofNodes] using hleaf⟩
        · rintro ⟨i, hi, hk, hbeyond⟩
          have hi := ht.leafNode_iff.1 hi
          refine ⟨i, hi, (hpassed (.leaf i) (FullTree.leaf_mem_subtrees_iff.2 hi)).2 ?_, hk⟩
          exact ⟨i, by simp, hbeyond⟩
      · intro s hs i hi hkept
        have hit : FullTree.leaf i ∈ t.subtrees := FullTree.subtrees_trans (FullTree.leaf_mem_subtrees_iff.2 hi) hs
        obtain ⟨j, hj, hbeyond⟩ := (hpassed (.leaf i) hit).1 hkept
        obtain rfl : j = i := by simpa using hj
        exact (hpassed s hs).2 ⟨j, hi, hbeyond⟩
    rw [visitUntil_check]
    constructor
    · rintro ⟨k, hk, node, hnode, hviolates⟩
      exact ⟨k, node, hnode, hviolates, (hmem k).1 hk⟩
    · rintro ⟨k, node, hnode, hviolates, hexamined⟩
      exact ⟨k, (hmem k).2 hexamined, node, hnode, hviolates⟩

end Tree

/-- Something is thrown exactly if a mesh violates a limit, provided that one of these is in a leaf that is examined. -/
theorem raises_iff (builder : SweepSahBuilder R) (hbuilder : builder.Tight) (nodes : List (PlacedNode K U R)) :
    ∃ thrown, (ofNodes builder nodes).validateSceneGraph = some thrown ∧
      ((thrown.isSome = true ↔ ∃ node ∈ nodes, node.Violates) ↔
        ((∃ node ∈ nodes, node.Violates) →
          ∃ k node, nodes[k]? = some node ∧ node.Violates ∧ (ofNodes builder nodes).Examined k)) := by
  obtain ⟨thrown, hthrown, hsome⟩ := validateSceneGraph_isSome_iff hbuilder nodes
  refine ⟨thrown, hthrown, ?_⟩
  rw [hsome]
  constructor
  · exact fun h => h.2
  · intro h
    refine ⟨?_, h⟩
    rintro ⟨k, node, hnode, hviolates, -⟩
    exact ⟨node, List.mem_of_getElem? hnode, hviolates⟩

end PlacedGraph

end Found

/-! ### A mesh that is scaled down -/

section ScaledDown

/-- A cube with sides of ten million, which is scaled to a tenth. -/
noncomputable def scaledDown : PlacedNode Unit Unit ℝ where
  container := ()
  uniqueId := ()
  matrix := RepoMatrix.scale (1 / 10)
  boundingBox := (⟨0, 0, 0⟩, ⟨10000000, 10000000, 10000000⟩)
  not_exits := RepoMatrix.Affine.not_exits ⟨rfl, rfl, rfl, rfl⟩

private theorem le_dblMax : (10000000 : ℝ) ≤ dblMax := by
  have hpow : (1 : ℝ) ≤ 2 ^ 971 := one_le_pow₀ (by norm_num)
  calc (10000000 : ℝ) = 10000000 * 1 := by norm_num
    _ ≤ (2 ^ 53 - 1) * 2 ^ 971 := mul_le_mul (by norm_num) hpow (by norm_num) (by norm_num)

private theorem meshBounds_scaledDown : scaledDown.meshBounds = ⟨⟨0, 0, 0⟩, ⟨10000000, 10000000, 10000000⟩⟩ := by
  have hle := le_dblMax
  exact RepoBounds.ofMinMax_cube (by linarith) (by norm_num) hle

private theorem violates_scaledDown : scaledDown.Violates := by
  refine Or.inl ?_
  rw [meshBounds_scaledDown]
  norm_num [isWithinLimitsBounds, isWithinLimits, meshLimit]

private theorem projectBounds_scaledDown : scaledDown.matrix.mulBounds scaledDown.meshBounds =
    ⟨⟨0, 0, 0⟩, ⟨1000000, 1000000, 1000000⟩⟩ := by
  have hle := le_dblMax
  have hcenter : scaledDown.matrix.image ⟨5000000, 5000000, 5000000⟩ = ⟨500000, 500000, 500000⟩ := by
    ext
    · show (1 / 10 : ℝ) * 5000000 + 0 * 5000000 + 0 * 5000000 + 0 = 500000
      norm_num
    · show (0 : ℝ) * 5000000 + 1 / 10 * 5000000 + 0 * 5000000 + 0 = 500000
      norm_num
    · show (0 : ℝ) * 5000000 + 0 * 5000000 + 1 / 10 * 5000000 + 0 = 500000
      norm_num
  have hextents : RepoMatrix.transformDirection
      (fun i j => if i ≠ 3 ∧ j ≠ 3 then |scaledDown.matrix i j| else scaledDown.matrix i j)
      ⟨5000000, 5000000, 5000000⟩ = ⟨500000, 500000, 500000⟩ := by
    ext
    · show |(1 / 10 : ℝ)| * 5000000 + |0| * 5000000 + |0| * 5000000 = 500000
      norm_num [abs_of_pos]
    · show |(0 : ℝ)| * 5000000 + |1 / 10| * 5000000 + |0| * 5000000 = 500000
      norm_num [abs_of_pos]
    · show |(0 : ℝ)| * 5000000 + |0| * 5000000 + |1 / 10| * 5000000 = 500000
      norm_num [abs_of_pos]
  have hhalf : ((⟨0, 0, 0⟩ : RepoVector3D ℝ) + ⟨10000000, 10000000, 10000000⟩) * (1 / 2 : ℝ) =
      ⟨5000000, 5000000, 5000000⟩ := by
    ext <;> norm_num
  have hhalf' : ((⟨10000000, 10000000, 10000000⟩ : RepoVector3D ℝ) - ⟨0, 0, 0⟩) * (1 / 2 : ℝ) =
      ⟨5000000, 5000000, 5000000⟩ := by
    ext <;> norm_num
  rw [meshBounds_scaledDown]
  unfold RepoMatrix.mulBounds
  dsimp only
  rw [hhalf, hhalf', hcenter, hextents]
  calc RepoBounds.ofMinMax ((⟨500000, 500000, 500000⟩ : RepoVector3D ℝ) - ⟨500000, 500000, 500000⟩)
        (⟨500000, 500000, 500000⟩ + ⟨500000, 500000, 500000⟩)
      = .ofMinMax ⟨0, 0, 0⟩ ⟨1000000, 1000000, 1000000⟩ := by
        refine congrArg₂ RepoBounds.ofMinMax ?_ ?_ <;> ext <;> norm_num
    _ = _ := RepoBounds.ofMinMax_cube (by linarith) (by norm_num) (by linarith)

private theorem not_beyond_scaledDown : ¬ scaledDown.Beyond := by
  rw [PlacedNode.Beyond, projectBounds_scaledDown]
  norm_num [isWithinLimitsBounds, isWithinLimits, meshLimit]

theorem raises_iff_scaledDown : ∃ thrown,
    (PlacedGraph.ofNodes (SweepSahBuilder.single ℝ) [scaledDown]).validateSceneGraph = some thrown ∧
      ((thrown.isSome = true ↔ ∃ node ∈ [scaledDown], node.Violates) ↔
        ((∃ node ∈ [scaledDown], node.Violates) → ∃ k node, [scaledDown][k]? = some node ∧ node.Violates ∧
          (PlacedGraph.ofNodes (SweepSahBuilder.single ℝ) [scaledDown]).Examined k)) :=
  PlacedGraph.raises_iff (SweepSahBuilder.single ℝ) SweepSahBuilder.single_tight [scaledDown]

/-- The cube is not found. -/
theorem not_raises_scaledDown : ∃ thrown,
    (PlacedGraph.ofNodes (SweepSahBuilder.single ℝ) [scaledDown]).validateSceneGraph = some thrown ∧
      ¬ (thrown.isSome = true ↔ ∃ node ∈ [scaledDown], node.Violates) := by
  obtain ⟨thrown, hthrown, hsome⟩ :=
    PlacedGraph.validateSceneGraph_isSome_iff SweepSahBuilder.single_tight [scaledDown]
  refine ⟨thrown, hthrown, ?_⟩
  intro h
  obtain ⟨k, node, -, -, i, -, -, k', -, node', hnode', hbeyond⟩ :=
    hsome.1 (h.2 ⟨scaledDown, List.mem_singleton_self _, violates_scaledDown⟩)
  obtain rfl : node' = scaledDown := List.mem_singleton.1 (List.mem_of_getElem? hnode')
  exact not_beyond_scaledDown hbeyond

end ScaledDown

end Bouncer.Clash
