import Mathlib.Data.List.Infix
import Bouncer.Core.RepoNode
import Bouncer.Library.Loop
import Bouncer.Library.RoseTree

/-!
# The selection tree

`traversePtree` goes through the node tree of a scene, puts the IFC spaces first among siblings, and writes the path
and the toggle state of each node and the maps from the ids of nodes to their paths and meshes.

One call reports to its caller whether something below is hidden and which meshes are below, and the maps are filled
on the way.  `Traversed` says all that calls for some siblings have done, and it is what each turn of the loop over
the children keeps.
-/

namespace Bouncer.SelectionTree

open Library (RoseTree)
open Library.RoseTree (Path)

inductive ToggleState where
  | SHOW
  | HIDDEN
  | HALF_HIDDEN
  deriving DecidableEq

structure Node (U : Type) where
  type : NodeType
  name : String
  _id : U
  shared_id : U
  path : List U
  toggleState : ToggleState

/-- `SelectionTreesSet` without the tree. -/
structure Maps (U : Type) where
  idToPath : U → Option (List U)
  idToMeshes : U → Option (List U)
  idToName : U → Option String
  idMap : U → Option U
  hiddenNodes : List U

structure SelectionTreesSet (U : Type) extends Maps U where
  fullTree : RoseTree (Node U)

/-- What a call of `traversePtree` leaves behind, for one node or for siblings. -/
structure Traversal (N U : Type) where
  node : N
  hasHiddenChildren : Bool
  meshIds : List U
  trees : Maps U

/-- `std::sort`.  Of the order it promises that no element comes after one that it is less than, for a strict weak
order; which of two equivalent elements comes first is left open. -/
structure Sorter where
  sort : ∀ {α : Type}, (α → α → Bool) → List α → List α
  perm : ∀ {α : Type} (less : α → α → Bool) (l : List α), (sort less l).Perm l
  sorted : ∀ {α : Type} (less : α → α → Bool) [IsStrictWeakOrder α fun a b => less a b = true] (l : List α),
    (sort less l).Pairwise fun a b => less b a = false

variable {U : Type}

def ifcTypeSpaceLabel : String := "(IFC Space)"

def isIfcSpace (node : Node U) : Bool := decide (ifcTypeSpaceLabel.toList <:+: node.name.toList)

/-- The comparison of siblings. -/
def spaceFirst (a b : RoseTree (Node U)) : Bool := isIfcSpace a.value && !isIfcSpace b.value

section Traverse

variable [DecidableEq U] (sort : Sorter) (isHiddenByDefault : U → Bool)

/-- What is done with a node after its children. -/
def record (node : Node U) (currentPath : List U) (below : Traversal (List (RoseTree (Node U))) U) :
    Traversal (RoseTree (Node U)) U :=
  let hidden := isHiddenByDefault node._id || (isIfcSpace node && node.type = .MESH)
  let toggleState :=
    if hidden then .HIDDEN
    else if below.hasHiddenChildren then .HALF_HIDDEN
    else .SHOW
  let meshIds := if node.type = .MESH then below.meshIds ++ [node._id] else below.meshIds
  { node := .node { node with path := currentPath, toggleState := toggleState } below.node
    hasHiddenChildren := hidden || below.hasHiddenChildren
    meshIds := meshIds
    trees :=
      { idToPath := Function.update below.trees.idToPath node._id (some currentPath)
        idToMeshes := Function.update below.trees.idToMeshes node._id (some meshIds)
        idToName := Function.update below.trees.idToName node._id (some node.name)
        idMap := Function.update below.trees.idMap node._id (some node.shared_id)
        hiddenNodes :=
          if hidden then below.trees.hiddenNodes ++ [node._id] else below.trees.hiddenNodes } }

/-- What the loop does with the result for one child. -/
def merge (st : Traversal (List (RoseTree (Node U))) U) (child : Traversal (RoseTree (Node U)) U) :
    Traversal (List (RoseTree (Node U))) U :=
  { node := st.node ++ [child.node]
    hasHiddenChildren := st.hasHiddenChildren || child.hasHiddenChildren
    meshIds := st.meshIds ++ child.meshIds
    trees := child.trees }

/-- The vector `meshIds` is empty and `hasHiddenChildren` is false when a call starts. -/
def traversePtree (node : RoseTree (Node U)) (currentPath : List U) (trees : Maps U) :
    Traversal (RoseTree (Node U)) U :=
  let path := currentPath ++ [node.value._id]
  record isHiddenByDefault node.value path <|
    (sort.sort spaceFirst node.children).attach.foldl
      (fun st child => merge st (traversePtree child.1 path st.trees)) ⟨[], false, [], trees⟩
termination_by node.size
decreasing_by
  have hchild := (sort.perm spaceFirst node.children).mem_iff.1 child.2
  exact RoseTree.size_lt_of_mem_children hchild

/-- The end of `generateSelectionTrees`, when the nodes are connected. -/
def generateSelectionTrees (root : RoseTree (Node U)) : SelectionTreesSet U :=
  let r := traversePtree sort isHiddenByDefault root []
    { idToPath := fun _ => none, idToMeshes := fun _ => none, idToName := fun _ => none, idMap := fun _ => none
      hiddenNodes := [] }
  { r.trees with fullTree := r.node }

/-- The loop over the children, without the proof that they are smaller. -/
def traverseChildren (children : List (RoseTree (Node U))) (path : List U) (trees : Maps U) :
    Traversal (List (RoseTree (Node U))) U :=
  children.foldl (fun st child => merge st (traversePtree sort isHiddenByDefault child path st.trees))
    ⟨[], false, [], trees⟩

private theorem traversePtree_node (a : Node U) (ts : List (RoseTree (Node U))) (currentPath : List U) (trees : Maps U) :
    traversePtree sort isHiddenByDefault (.node a ts) currentPath trees =
      record isHiddenByDefault a (currentPath ++ [a._id])
        (traverseChildren sort isHiddenByDefault (sort.sort spaceFirst ts) (currentPath ++ [a._id]) trees) := by
  rw [traversePtree]
  simp only [RoseTree.value_node, RoseTree.children_node, traverseChildren]
  congr 1
  exact List.foldl_attach (f := fun st child => merge st (traversePtree sort isHiddenByDefault child _ st.trees))

end Traverse

/-! ### What the traversal is to achieve -/

section Spec

variable (isHiddenByDefault : U → Bool)

/-- The node is hidden itself. -/
def IsHidden (node : Node U) : Prop :=
  isHiddenByDefault node._id = true ∨ (isIfcSpace node = true ∧ node.type = .MESH)

instance (node : Node U) : Decidable (IsHidden isHiddenByDefault node) :=
  inferInstanceAs (Decidable (_ ∨ _))

/-- `t'` is the node `t`, at the end of `path`, as the traversal leaves it. -/
structure Written (t : RoseTree (Node U)) (path : List U) (t' : RoseTree (Node U)) : Prop where
  value : t'.value = { t.value with path := path, toggleState := t'.value.toggleState }
  children : (t'.children.map fun c => (c.value._id, c.value.name)).Perm
    (t.children.map fun c => (c.value._id, c.value.name))
  hidden : t'.value.toggleState = .HIDDEN ↔ IsHidden isHiddenByDefault t.value
  halfHidden : t'.value.toggleState = .HALF_HIDDEN ↔
    ¬ IsHidden isHiddenByDefault t.value ∧ ∃ d ∈ t.descendants, IsHidden isHiddenByDefault d.value
  visible : t'.value.toggleState = .SHOW ↔
    ¬ IsHidden isHiddenByDefault t.value ∧ ¬ ∃ d ∈ t.descendants, IsHidden isHiddenByDefault d.value
  spacesFirst : t'.children.Pairwise fun a b => isIfcSpace b.value = true → isIfcSpace a.value = true

def ids (t : RoseTree (Node U)) : List U := t.values.map Node._id

def idsWhere (keep : Node U → Bool) (t : RoseTree (Node U)) : List U := (t.values.filter keep).map Node._id

def meshes (t : RoseTree (Node U)) : List U := idsWhere (fun n => n.type = .MESH) t

def hiddenIds (t : RoseTree (Node U)) : List U := idsWhere (fun n => IsHidden isHiddenByDefault n) t

/-- What the traversal of the siblings `ts` below `path` has done to `trees`. -/
structure Traversed (ts : List (RoseTree (Node U))) (path : List U) (trees : Maps U)
    (r : Traversal (List (RoseTree (Node U))) U) : Prop where
  keys : (r.node.map fun c => (c.value._id, c.value.name)) = ts.map fun c => (c.value._id, c.value.name)
  ids : (r.node.flatMap ids).Perm (ts.flatMap ids)
  written : ∀ t ∈ ts, ∀ p s, Path t p s →
    ∃ t' ∈ r.node, ∃ s' ∈ t'.nodes, Written isHiddenByDefault s (path ++ p.map Node._id) s'
  hasHiddenChildren : r.hasHiddenChildren = true ↔ ∃ d ∈ ts.flatMap RoseTree.nodes, IsHidden isHiddenByDefault d.value
  meshIds : r.meshIds.Perm (ts.flatMap meshes)
  hiddenNodes : r.trees.hiddenNodes.Perm (trees.hiddenNodes ++ ts.flatMap (hiddenIds isHiddenByDefault))
  outside : ∀ id, id ∉ ts.flatMap SelectionTree.ids →
    r.trees.idToPath id = trees.idToPath id ∧ r.trees.idToMeshes id = trees.idToMeshes id
  idToPath : ∀ t ∈ ts, ∀ p s, Path t p s → r.trees.idToPath s.value._id = some (path ++ p.map Node._id)
  idToMeshes : ∀ t ∈ ts, ∀ s ∈ t.nodes, ∃ l, r.trees.idToMeshes s.value._id = some l ∧ l.Perm (meshes s)

end Spec

variable {isHiddenByDefault : U → Bool} {a : Node U} {t s : RoseTree (Node U)} {ts : List (RoseTree (Node U))}

private theorem ids_node : ids (.node a ts) = a._id :: ts.flatMap ids := by
  rw [ids, RoseTree.values_node, List.map_cons, List.map_flatMap]
  rfl

private theorem idsWhere_node (keep : Node U → Bool) :
    idsWhere keep (.node a ts) = (if keep a then [a._id] else []) ++ ts.flatMap (idsWhere keep) := by
  rw [idsWhere, RoseTree.values_node, List.filter_cons, List.filter_flatMap]
  have hbelow : (ts.flatMap fun t => t.values.filter keep).map Node._id = ts.flatMap (idsWhere keep) :=
    List.map_flatMap
  cases keep a <;> simp [hbelow]

private theorem id_mem_ids (h : s ∈ t.nodes) : s.value._id ∈ ids t :=
  List.mem_map_of_mem (List.mem_map_of_mem h)

private theorem id_mem_flatMap_ids (ht : t ∈ ts) (h : s ∈ t.nodes) : s.value._id ∈ ts.flatMap ids :=
  List.mem_flatMap.2 ⟨t, ht, id_mem_ids h⟩

private theorem descendants_node : (RoseTree.node a ts).descendants = ts.flatMap RoseTree.nodes := rfl

/-! ### The loop over the children -/

section Run

/-- The result for one node as a result for siblings. -/
def Traversal.singleton (r : Traversal (RoseTree (Node U)) U) : Traversal (List (RoseTree (Node U))) U :=
  ⟨[r.node], r.hasHiddenChildren, r.meshIds, r.trees⟩

variable {path : List U} {trees : Maps U} {st : Traversal (List (RoseTree (Node U))) U}

theorem Traversed.nil : Traversed isHiddenByDefault [] path trees ⟨[], false, [], trees⟩ where
  keys := rfl
  ids := .nil
  written := nofun
  hasHiddenChildren := by simp
  meshIds := .nil
  hiddenNodes := by simp
  outside := fun _ _ => ⟨rfl, rfl⟩
  idToPath := nofun
  idToMeshes := nofun

/-- One turn of the loop. -/
theorem Traversed.merge (h : Traversed isHiddenByDefault ts path trees st) {r : Traversal (RoseTree (Node U)) U}
    (hr : Traversed isHiddenByDefault [t] path st.trees r.singleton)
    (hdisjoint : ∀ id ∈ ts.flatMap SelectionTree.ids, id ∉ SelectionTree.ids t) :
    Traversed isHiddenByDefault (ts ++ [t]) path trees (merge st r) where
  keys := by
    have := congrArg₂ (· ++ ·) h.keys hr.keys
    simpa [SelectionTree.merge, Traversal.singleton] using this
  ids := by
    have := h.ids.append hr.ids
    simpa [SelectionTree.merge, Traversal.singleton] using this
  written := by
    intro u hu p s hs
    obtain hu | hu := List.mem_append.1 hu
    · obtain ⟨t', ht', hs'⟩ := h.written u hu p s hs
      exact ⟨t', List.mem_append_left _ ht', hs'⟩
    · obtain ⟨t', ht', hs'⟩ := hr.written u hu p s hs
      exact ⟨t', List.mem_append_right _ ht', hs'⟩
  hasHiddenChildren := by
    have hleft := h.hasHiddenChildren
    have hright := hr.hasHiddenChildren
    simp only [Traversal.singleton] at hright
    rw [List.flatMap_append, SelectionTree.merge, Bool.or_eq_true, hleft, hright]
    simp only [List.mem_append, or_and_right, exists_or]
  meshIds := by
    have := h.meshIds.append hr.meshIds
    rwa [← List.flatMap_append] at this
  hiddenNodes := by
    have := hr.hiddenNodes.trans (h.hiddenNodes.append_right _)
    rwa [List.append_assoc, ← List.flatMap_append] at this
  outside := by
    intro id hid
    rw [List.flatMap_append, List.mem_append, not_or] at hid
    have hst := h.outside id hid.1
    have hchild := hr.outside id hid.2
    exact ⟨hchild.1.trans hst.1, hchild.2.trans hst.2⟩
  idToPath := by
    intro u hu p s hs
    obtain hu | hu := List.mem_append.1 hu
    · have hmem := hdisjoint _ (id_mem_flatMap_ids hu hs.mem_nodes)
      exact (hr.outside _ (by simpa using hmem)).1.trans (h.idToPath u hu p s hs)
    · exact hr.idToPath u hu p s hs
  idToMeshes := by
    intro u hu s hs
    obtain hu | hu := List.mem_append.1 hu
    · have hmem := hdisjoint _ (id_mem_flatMap_ids hu hs)
      obtain ⟨l, hl, hperm⟩ := h.idToMeshes u hu s hs
      exact ⟨l, (hr.outside _ (by simpa using hmem)).2.trans hl, hperm⟩
    · exact hr.idToMeshes u hu s hs

private theorem decide_isHidden (node : Node U) :
    (isHiddenByDefault node._id || (isIfcSpace node && decide (node.type = .MESH))) =
      decide (IsHidden isHiddenByDefault node) := by
  rw [Bool.eq_iff_iff, decide_eq_true_iff]
  simp [IsHidden]

private theorem toggleState_cases (hidden : Prop) [Decidable hidden] {below : Prop} {hasHiddenChildren : Bool}
    (hbelow : hasHiddenChildren = true ↔ below) (state : ToggleState)
    (hstate : state = if hidden then .HIDDEN else if hasHiddenChildren then .HALF_HIDDEN else .SHOW) :
    (state = .HIDDEN ↔ hidden) ∧ (state = .HALF_HIDDEN ↔ ¬ hidden ∧ below) ∧ (state = .SHOW ↔ ¬ hidden ∧ ¬ below) := by
  subst hstate
  by_cases hh : hidden
  · simp [hh]
  · rw [← hbelow]
    cases hasHiddenChildren <;> simp [hh]

section Record

variable [DecidableEq U] {sorted : List (RoseTree (Node U))}

/-- The node itself is written as it should be when the siblings below it are done. -/
theorem Traversed.written_root (h : Traversed isHiddenByDefault sorted (path ++ [a._id]) trees st)
    (hperm : sorted.Perm ts) (hfirst : sorted.Pairwise fun b c => spaceFirst c b = false) :
    Written isHiddenByDefault (.node a ts) (path ++ [a._id]) (record isHiddenByDefault a (path ++ [a._id]) st).node := by
  have hbelow : st.hasHiddenChildren = true ↔
      ∃ d ∈ (RoseTree.node a ts).descendants, IsHidden isHiddenByDefault d.value := by
    rw [h.hasHiddenChildren, descendants_node]
    simp only [(hperm.flatMap_right RoseTree.nodes).mem_iff]
  obtain ⟨hhidden, hhalf, hshow⟩ := toggleState_cases (IsHidden isHiddenByDefault a) hbelow
    (record isHiddenByDefault a (path ++ [a._id]) st).node.value.toggleState
    (by simp only [record, decide_isHidden, RoseTree.value_node, decide_eq_true_eq])
  refine ⟨rfl, ?_, hhidden, hhalf, hshow, ?_⟩
  · show (st.node.map _).Perm _
    rw [h.keys]
    exact hperm.map _
  · -- whether a node is an IFC space is seen from its key
    let space := fun key : U × String => decide (ifcTypeSpaceLabel.toList <:+: key.2.toList)
    have hkeys : (sorted.map fun c => (c.value._id, c.value.name)).Pairwise
        fun b c => space c = true → space b = true := by
      rw [List.pairwise_map]
      refine hfirst.imp ?_
      intro b c hbc hc
      have hspace : isIfcSpace c.value = true := hc
      have hb : isIfcSpace b.value = true := by simpa [spaceFirst, hspace] using hbc
      exact hb
    rw [← h.keys, List.pairwise_map] at hkeys
    exact hkeys

/-- The step from the children to the node. -/
theorem Traversed.record (h : Traversed isHiddenByDefault sorted (path ++ [a._id]) trees st)
    (hperm : sorted.Perm ts) (hfirst : sorted.Pairwise fun b c => spaceFirst c b = false)
    (hid : a._id ∉ ts.flatMap SelectionTree.ids) :
    Traversed isHiddenByDefault [.node a ts] path trees
      (record isHiddenByDefault a (path ++ [a._id]) st).singleton where
  keys := rfl
  ids := by
    have := (h.ids.trans (hperm.flatMap_right _)).cons a._id
    simpa [Traversal.singleton, SelectionTree.record, ids_node] using this
  written := by
    intro t ht p s hs
    obtain rfl := List.mem_singleton.1 ht
    refine ⟨_, List.mem_singleton_self _, ?_⟩
    obtain ⟨rfl, rfl⟩ | ⟨c, hc, q, rfl, hq⟩ := RoseTree.path_iff.1 hs
    · exact ⟨_, RoseTree.self_mem_nodes _, h.written_root hperm hfirst⟩
    · obtain ⟨t', ht', s', hs', hw⟩ := h.written c (hperm.mem_iff.2 hc) q s hq
      refine ⟨s', ?_, by simpa using hw⟩
      simp only [SelectionTree.record, RoseTree.nodes_node]
      exact List.mem_cons_of_mem _ (List.mem_flatMap.2 ⟨t', ht', hs'⟩)
  hasHiddenChildren := by
    simp only [Traversal.singleton, SelectionTree.record, decide_isHidden, Bool.or_eq_true, decide_eq_true_eq,
      h.hasHiddenChildren, (hperm.flatMap_right RoseTree.nodes).mem_iff, List.flatMap_singleton, RoseTree.nodes_node,
      List.exists_mem_cons_iff, RoseTree.value_node]
  meshIds := by
    have hbelow := h.meshIds.trans (hperm.flatMap_right meshes)
    rw [List.flatMap_singleton, meshes, idsWhere_node]
    simp only [Traversal.singleton, SelectionTree.record, decide_eq_true_eq]
    split
    · exact (List.perm_append_singleton _ _).trans (hbelow.cons _)
    · exact hbelow
  hiddenNodes := by
    have hbelow := h.hiddenNodes.trans ((hperm.flatMap_right (hiddenIds isHiddenByDefault)).append_left _)
    rw [List.flatMap_singleton, hiddenIds, idsWhere_node]
    simp only [Traversal.singleton, SelectionTree.record, decide_isHidden, decide_eq_true_eq]
    split
    · refine (List.perm_append_singleton _ _).trans ?_
      exact (hbelow.cons _).trans List.perm_middle.symm
    · exact hbelow
  outside := by
    intro id hid'
    rw [List.flatMap_singleton, ids_node, List.mem_cons, not_or] at hid'
    have hst := h.outside id fun hmem => hid'.2 ((hperm.flatMap_right _).mem_iff.1 hmem)
    simp only [Traversal.singleton, SelectionTree.record, Function.update_of_ne hid'.1]
    exact hst
  idToPath := by
    intro t ht p s hs
    obtain rfl := List.mem_singleton.1 ht
    obtain ⟨rfl, rfl⟩ | ⟨c, hc, q, rfl, hq⟩ := RoseTree.path_iff.1 hs
    · exact Function.update_self ..
    · have hne : s.value._id ≠ a._id := fun he => hid (he ▸ id_mem_flatMap_ids hc hq.mem_nodes)
      have hbelow := h.idToPath c (hperm.mem_iff.2 hc) q s hq
      simp only [Traversal.singleton, SelectionTree.record, Function.update_of_ne hne, hbelow]
      simp
  idToMeshes := by
    intro t ht s hs
    obtain rfl := List.mem_singleton.1 ht
    rw [RoseTree.nodes_node] at hs
    obtain rfl | hs := List.mem_cons.1 hs
    · refine ⟨_, Function.update_self .., ?_⟩
      have hbelow := h.meshIds.trans (hperm.flatMap_right meshes)
      rw [meshes, idsWhere_node]
      simp only [decide_eq_true_eq]
      split
      · exact (List.perm_append_singleton _ _).trans (hbelow.cons _)
      · exact hbelow
    · obtain ⟨c, hc, hs⟩ := List.mem_flatMap.1 hs
      have hne : s.value._id ≠ a._id := fun he => hid (he ▸ id_mem_flatMap_ids hc hs)
      obtain ⟨l, hl, hperm'⟩ := h.idToMeshes c (hperm.mem_iff.2 hc) s hs
      refine ⟨l, ?_, hperm'⟩
      simp only [Traversal.singleton, SelectionTree.record, Function.update_of_ne hne, hl]

end Record

/-! ### The whole tree -/

instance spaceFirst_strictWeakOrder :
    IsStrictWeakOrder (RoseTree (Node U)) fun a b => spaceFirst a b = true where
  irrefl a := by simp [spaceFirst]
  trans a b c hab hbc := by
    simp only [spaceFirst, Bool.and_eq_true, Bool.not_eq_true'] at hab hbc ⊢
    exact ⟨hab.1, hbc.2⟩
  incomp_trans a b c hab hbc := by
    simp only [spaceFirst] at hab hbc ⊢
    generalize isIfcSpace a.value = x, isIfcSpace b.value = y, isIfcSpace c.value = z at *
    revert x y z
    decide

private theorem not_mem_ids_of_nodup {done rest : List (RoseTree (Node U))}
    (hnodup : ((done ++ t :: rest).flatMap ids).Nodup) : ∀ id ∈ done.flatMap ids, id ∉ ids t := by
  intro id hdone ht
  rw [List.flatMap_append, List.flatMap_cons] at hnodup
  have hdisjoint := (List.nodup_append'.1 hnodup).2.2
  exact hdisjoint hdone (List.mem_append_left _ ht)

section Whole

variable [DecidableEq U] (sort : Sorter) (isHiddenByDefault : U → Bool)

theorem traversed_traversePtree (t : RoseTree (Node U)) (hids : (ids t).Nodup) (path : List U) (trees : Maps U) :
    Traversed isHiddenByDefault [t] path trees
      (traversePtree sort isHiddenByDefault t path trees).singleton := by
  induction t using RoseTree.rec_children generalizing path trees with
  | h a ts ih =>
    rw [ids_node, List.nodup_cons] at hids
    rw [traversePtree_node]
    have hperm := sort.perm spaceFirst ts
    refine Traversed.record ?_ hperm (sort.sorted spaceFirst ts) hids.1
    have hnodup : ((sort.sort spaceFirst ts).flatMap ids).Nodup := ((hperm.flatMap_right ids).nodup_iff).2 hids.2
    refine Library.Loop.foldl_done
      (fun done st => Traversed isHiddenByDefault done (path ++ [a._id]) trees st) .nil ?_
    intro done t rest st hsplit hst
    have ht : t ∈ ts := hperm.mem_iff.1 (hsplit ▸ List.mem_append_right _ List.mem_cons_self)
    have htids : (ids t).Nodup := (List.nodup_flatMap.1 hids.2).1 t ht
    exact hst.merge (ih t ht htids _ _) (not_mem_ids_of_nodup (hsplit ▸ hnodup))

end Whole

end Run

/-! ### The selection tree is faithful -/

section Faithful

/-- `trees` tells the truth about the node tree `root`. -/
structure Faithful (isHiddenByDefault : U → Bool) (root : RoseTree (Node U)) (trees : SelectionTreesSet U) : Prop where
  written : ∀ p t, Path root p t → ∃ t' ∈ trees.fullTree.nodes, Written isHiddenByDefault t (p.map Node._id) t'
  only_written : ∀ t' ∈ trees.fullTree.nodes, ∃ p t, Path root p t ∧ Written isHiddenByDefault t (p.map Node._id) t'
  hiddenNodes_nodup : trees.hiddenNodes.Nodup
  mem_hiddenNodes : ∀ id, id ∈ trees.hiddenNodes ↔
    ∃ t ∈ root.nodes, IsHidden isHiddenByDefault t.value ∧ t.value._id = id
  idToMeshes : ∀ t ∈ root.nodes, ∃ meshes, trees.idToMeshes t.value._id = some meshes ∧ meshes.Nodup ∧
    ∀ id, id ∈ meshes ↔ ∃ d ∈ t.nodes, d.value.type = .MESH ∧ d.value._id = id
  idToPath : ∀ p t, Path root p t → trees.idToPath t.value._id = some (p.map Node._id)

private theorem mem_idsWhere {keep : Node U → Bool} {id : U} :
    id ∈ idsWhere keep t ↔ ∃ d ∈ t.nodes, keep d.value = true ∧ d.value._id = id := by
  simp [idsWhere, RoseTree.values, and_assoc]

private theorem nodup_idsWhere (keep : Node U → Bool) (h : (ids t).Nodup) : (idsWhere keep t).Nodup :=
  h.sublist (List.filter_sublist.map _)

private theorem nodup_ids_of_mem {root : RoseTree (Node U)} (h : (ids root).Nodup) (ht : t ∈ root.nodes) : (ids t).Nodup := by
  induction root using RoseTree.rec_children with
  | h a ts ih =>
    rw [RoseTree.nodes_node] at ht
    obtain rfl | ht := List.mem_cons.1 ht
    · exact h
    · obtain ⟨c, hc, ht⟩ := List.mem_flatMap.1 ht
      rw [ids_node, List.nodup_cons] at h
      exact ih c hc ((List.nodup_flatMap.1 h.2).1 c hc) ht

private theorem eq_of_id_eq (h : (ids t).Nodup) {s s' : RoseTree (Node U)} (hs : s ∈ t.nodes) (hs' : s' ∈ t.nodes)
    (hid : s.value._id = s'.value._id) : s = s' := by
  rw [ids, RoseTree.values, List.map_map] at h
  exact List.inj_on_of_nodup_map h hs hs' hid

/-- **The selection tree is faithful**, for every node tree in which no id occurs twice. -/
theorem generateSelectionTrees_faithful [DecidableEq U] (sort : Sorter) (isHiddenByDefault : U → Bool)
    (root : RoseTree (Node U)) (hids : (ids root).Nodup) :
    Faithful isHiddenByDefault root (generateSelectionTrees sort isHiddenByDefault root) := by
  have h := traversed_traversePtree sort isHiddenByDefault root hids []
    { idToPath := fun _ => none, idToMeshes := fun _ => none, idToName := fun _ => none, idMap := fun _ => none
      hiddenNodes := [] }
  have hroot : root ∈ [root] := List.mem_singleton_self root
  have hresult : (ids (generateSelectionTrees sort isHiddenByDefault root).fullTree).Perm (ids root) := by
    have hperm := h.ids
    simpa [Traversal.singleton, generateSelectionTrees] using hperm
  have hwritten : ∀ p t, Path root p t → ∃ t' ∈ (generateSelectionTrees sort isHiddenByDefault root).fullTree.nodes,
      Written isHiddenByDefault t (p.map Node._id) t' := by
    intro p t ht
    obtain ⟨r, hr, t', ht', hw⟩ := h.written root hroot p t ht
    obtain rfl := List.mem_singleton.1 hr
    exact ⟨t', ht', hw⟩
  have hhidden : (generateSelectionTrees sort isHiddenByDefault root).hiddenNodes.Perm
      (hiddenIds isHiddenByDefault root) := by
    have hperm := h.hiddenNodes
    simpa [Traversal.singleton, generateSelectionTrees] using hperm
  refine ⟨hwritten, ?_, ?_, ?_, ?_, h.idToPath root hroot⟩
  · intro t' ht'
    obtain ⟨n, hn, hid⟩ := List.mem_map.1 (hresult.mem_iff.1 (id_mem_ids ht'))
    obtain ⟨t, ht, rfl⟩ := List.mem_map.1 hn
    obtain ⟨p, hp⟩ := RoseTree.exists_path ht
    obtain ⟨s', hs', hw⟩ := hwritten p t hp
    have hsame : s'.value._id = t'.value._id := by
      rw [hw.value]
      exact hid
    obtain rfl := eq_of_id_eq (hresult.nodup_iff.2 hids) hs' ht' hsame
    exact ⟨p, t, hp, hw⟩
  · exact hhidden.nodup_iff.2 (nodup_idsWhere _ hids)
  · intro id
    rw [hhidden.mem_iff, hiddenIds, mem_idsWhere]
    simp only [decide_eq_true_eq]
  · intro t ht
    obtain ⟨l, hl, hperm⟩ := h.idToMeshes root hroot t ht
    refine ⟨l, hl, hperm.nodup_iff.2 (nodup_idsWhere _ (nodup_ids_of_mem hids ht)), ?_⟩
    intro id
    rw [hperm.mem_iff, meshes, mem_idsWhere]
    simp only [decide_eq_true_eq]

private theorem not_less_trans {α : Type} {less : α → α → Bool} [h : IsStrictWeakOrder α fun a b => less a b = true]
    {a b c : α} (hab : less b a = false) (hbc : less c b = false) : less c a = false := by
  by_contra hca
  rw [Bool.not_eq_false] at hca
  have hab' : ¬ less a b = true := fun hlt => Bool.false_ne_true (hbc.symm.trans (h.trans c a b hca hlt))
  have hbc' : ¬ less b c = true := fun hlt => Bool.false_ne_true (hab.symm.trans (h.trans b c a hlt hca))
  exact (h.incomp_trans a b c ⟨hab', by simp [hab]⟩ ⟨hbc', by simp [hbc]⟩).2 hca

private theorem mergeSort_less_perm {α : Type} (less : α → α → Bool) (l : List α) :
    (l.mergeSort fun a b => !less b a).Perm l :=
  l.mergeSort_perm _

/-- A stable sort is one of the sorts that the standard allows. -/
def Sorter.stable : Sorter where
  sort less l := l.mergeSort fun a b => !less b a
  perm := mergeSort_less_perm
  sorted less h l := by
    have htotal : ∀ a b, ((!less b a) || (!less a b)) = true := by
      intro a b
      cases hab : less a b with
      | false => simp
      | true =>
        have hba : ¬ less b a = true := fun hlt => h.irrefl a (h.trans a b a hab hlt)
        simp [hba]
    have hpairwise : (l.mergeSort fun a b => !less b a).Pairwise fun a b => (!less b a) = true :=
      List.pairwise_mergeSort (fun a b c hab hbc => by
        simp only [Bool.not_eq_true'] at hab hbc ⊢
        exact not_less_trans hab hbc) htotal l
    exact hpairwise.imp fun hab => by simpa using hab

def house : RoseTree (Node ℕ) :=
  .node ⟨.TRANSFORMATION, "House", 0, 10, [], .SHOW⟩
    [.node ⟨.MESH, "Wall", 1, 11, [], .SHOW⟩ [],
     .node ⟨.TRANSFORMATION, "Storey", 2, 12, [], .SHOW⟩ [.node ⟨.MESH, "Roof", 3, 13, [], .SHOW⟩ []],
     .node ⟨.MESH, "Room (IFC Space)", 4, 14, [], .SHOW⟩ []]

theorem generateSelectionTrees_faithful_house :
    Faithful (fun id => id = 3) house (generateSelectionTrees Sorter.stable (fun id => id = 3) house) :=
  generateSelectionTrees_faithful Sorter.stable (fun id => id = 3) house (by decide)

end Faithful

end Bouncer.SelectionTree
