import Mathlib.Data.List.Perm.Basic
import Bouncer.Core.RepoNode

/-!
# The scene graph

`RepoScene` stores the relation between parents and children twice: a node holds the shared ids of its parents, and
`parentToChildren` maps a shared id to pointers to the children.  Beside them there are the maps from unique ids to
pointers and from shared ids to unique ids.  `Consistent` says that all of them agree, and each operation is shown to
keep it when it is used as its documentation asks.
-/

namespace Bouncer

/-- A scene with its default graph.  `heap` is what the pointers point to, for nodes inside and outside of the
scene. -/
structure RepoScene (P U : Type) where
  heap : P → RepoNode U
  materials : List P
  meshes : List P
  metadata : List P
  textures : List P
  transformations : List P
  unknowns : List P
  rootNode : Option P
  nodesByUniqueID : U → Option P
  sharedIDtoUniqueID : U → Option U
  parentToChildren : U → Option (List P)
  newAdded : List U
  newCurrent : List U
  newModified : List U
  newRemoved : List U
  toRemove : List P

namespace RepoScene

open Function (update update_of_ne update_self update_eq_self)

variable {P U : Type}

section Operations

variable [DecidableEq P] [DecidableEq U]

def getNodeByUniqueID (s : RepoScene P U) (uniqueID : U) : Option P := s.nodesByUniqueID uniqueID

def getNodeBySharedID (s : RepoScene P U) (sharedID : U) : Option P :=
  (s.sharedIDtoUniqueID sharedID).bind s.getNodeByUniqueID

def getChildrenAsNodes (s : RepoScene P U) (parent : U) : List P := (s.parentToChildren parent).getD []

/-- Equivalent in the order of `RepoNodeSet`. -/
def equivalent (s : RepoScene P U) (a b : P) : Bool :=
  decide ((s.heap a).sharedId = (s.heap b).sharedId ∧ (s.heap a).uniqueId = (s.heap b).uniqueId)

/-- `insert` of a `RepoNodeSet`. -/
def insertNode (s : RepoScene P U) (set : List P) (node : P) : List P :=
  if set.any (s.equivalent node) then set else set ++ [node]

/-- `erase` of a `RepoNodeSet`. -/
def eraseNode (s : RepoScene P U) (set : List P) (node : P) : List P :=
  set.filter fun other => !s.equivalent node other

/-- `parentToChildren[parent].push_back(child)`, with a new entry if there is none. -/
def pushChild (map : U → Option (List P)) (child : P) (parent : U) : U → Option (List P) :=
  match map parent with
  | some children => update map parent (some (children ++ [child]))
  | none => update map parent (some [child])

/-- The same unless the child is in the entry. -/
def listChild (map : U → Option (List P)) (child : P) (parent : U) : U → Option (List P) :=
  match map parent with
  | some children =>
    if child ∈ children then map else update map parent (some (children ++ [child]))
  | none => update map parent (some [child])

def abandonChild (s : RepoScene P U) (parent : U) (child : Option P) (modifyParent modifyChild : Bool) :
    RepoScene P U :=
  match child with
  | none => s
  | some child =>
    let s :=
      if modifyParent then
        match s.parentToChildren parent with
        | some children =>
          if child ∈ children then
            { s with parentToChildren := update s.parentToChildren parent (some (children.erase child)) }
          else s
        | none => s
      else s
    if modifyChild then { s with heap := update s.heap child ((s.heap child).removeParent parent) } else s

/-- `addInheritance` for one parent. -/
def addInheritance (s : RepoScene P U) (parentNode childNode : Option P) : RepoScene P U :=
  match parentNode, childNode with
  | some parentNode, some childNode =>
    let parentShareID := (s.heap parentNode).sharedId
    { s with
      parentToChildren := listChild s.parentToChildren childNode parentShareID
      heap := update s.heap childNode ((s.heap childNode).addParent parentShareID) }
  | _, _ => s

/-- `addInheritance` for a set of parents. -/
def addInheritances (s : RepoScene P U) (parentNodes : List P) (childNode : Option P) : RepoScene P U :=
  match childNode with
  | none => s
  | some childNode =>
    let currentParents := (s.heap childNode).parentIds
    let parentShareIDs := (parentNodes.map fun parent => (s.heap parent).sharedId).filter (· ∉ currentParents)
    { s with
      parentToChildren := parentShareIDs.foldl (fun map id => listChild map childNode id) s.parentToChildren
      heap := update s.heap childNode ((s.heap childNode).addParents parentShareIDs) }

/-- The root node after a node without parents has come. -/
def newRoot (s : RepoScene P U) (node : P) : Except String (Option P) :=
  let isTransformation := (s.heap node).type = .TRANSFORMATION
  match s.rootNode with
  | none => .ok (if isTransformation then some node else none)
  | some root =>
    if s.equivalent root node ∧ (s.heap root).parentIds.Perm (s.heap node).parentIds then .ok (some root)
    else if isTransformation ∧ (s.heap root).type = .TRANSFORMATION then
      .error "2 candidate for root node found. This is possibly an invalid Scene Graph."
    else if isTransformation then .ok (some node)
    else .ok (some root)

/-- For the default graph. -/
def addNodeToMaps (s : RepoScene P U) (node : P) : Except String (RepoScene P U) :=
  let parentIDs := (s.heap node).parentIds
  let rootNode := if parentIDs.isEmpty then s.newRoot node else .ok s.rootNode
  rootNode.map fun rootNode =>
    { s with
      rootNode := rootNode
      parentToChildren := parentIDs.foldl (fun map id => pushChild map node id) s.parentToChildren
      nodesByUniqueID := update s.nodesByUniqueID (s.heap node).uniqueId (some node)
      sharedIDtoUniqueID := update s.sharedIDtoUniqueID (s.heap node).sharedId (some (s.heap node).uniqueId) }

/-- The recursion is at most `fuel` calls deep. -/
def getAllDescendantsByType (s : RepoScene P U) (type : NodeType) : ℕ → U → Option (List P)
  | 0, _ => none
  | fuel + 1, sharedID =>
    (s.getChildrenAsNodes sharedID).foldlM (fun res child => do
      let grandChildrenRes ← s.getAllDescendantsByType type fuel (s.heap child).sharedId
      let res := res ++ grandChildrenRes
      pure (if (s.heap child).type = type then res ++ [child] else res)) []

def toUpper (name : String) : String := String.ofList (name.toList.map Char.toUpper)

/-- The name under which `addMetadata` looks for a node. -/
def metadataKey (exactMatch : Bool) (name : String) : String :=
  if exactMatch then name else toUpper (String.ofList (name.toList.takeWhile (· ≠ ' ')))

/-- What `namesMap` has for a name. -/
def namesMap (s : RepoScene P U) (exactMatch : Bool) (name : String) : List P :=
  (s.transformations ++ s.meshes).filter fun node => decide (metadataKey exactMatch (s.heap node).name = name)

/-- The nodes that get the metadata of a node: the node itself, or the meshes below it. -/
def metadataTargets (s : RepoScene P U) (propagateData : Bool) (fuel : ℕ) (node : P) : Option (List P) := do
  let meshes ← s.getAllDescendantsByType .MESH fuel (s.heap node).sharedId
  pure (if propagateData ∧ (s.heap node).type = .TRANSFORMATION ∧ meshes ≠ [] then meshes else [node])

/-- One node with the name of a metadata node. -/
def attachTo (propagateData : Bool) (fuel : ℕ) (node «meta» : P) (st : RepoScene P U × List U) :
    Option (RepoScene P U × List U) := do
  let (s, parents) := st
  let targets ← s.metadataTargets propagateData fuel node
  let parentSharedIDs := targets.map fun target => (s.heap target).sharedId
  pure
    ({ s with parentToChildren := parentSharedIDs.foldl (fun map id => pushChild map «meta» id) s.parentToChildren },
      parents ++ parentSharedIDs)

/-- The body of the loop of `addMetadata` when there are nodes with the name of the metadata node. -/
def attachMetadata (propagateData : Bool) (fuel : ℕ) (s : RepoScene P U) (nodes : List P) («meta» : P) :
    Option (RepoScene P U × List U) := do
  let (s, parents) ← nodes.foldlM (fun st node => attachTo propagateData fuel node «meta» st) (s, [])
  let metaUniqueID := (s.heap «meta»).uniqueId
  let metaSharedID := (s.heap «meta»).sharedId
  let s := { s with heap := update s.heap «meta» ((s.heap «meta»).addParents parents) }
  pure
    ({ s with
        nodesByUniqueID := update s.nodesByUniqueID metaUniqueID (some «meta»)
        sharedIDtoUniqueID := update s.sharedIDtoUniqueID metaSharedID (some metaUniqueID)
        newAdded := s.newAdded.insert metaSharedID
        newCurrent := s.newCurrent.insert metaUniqueID
        metadata := s.insertNode s.metadata «meta» },
      parents)

/-- The name that `addMetadata` looks up. -/
def metaName (s : RepoScene P U) (exactMatch : Bool) («meta» : P) : String :=
  if exactMatch then (s.heap «meta»).name else toUpper (s.heap «meta»).name

/-- The loop of `addMetadata`; `names` is what `namesMap` has at its beginning. -/
def addMetadataLoop (exactMatch propagateData : Bool) (fuel : ℕ) (names : String → List P) :
    List P → RepoScene P U → Option (RepoScene P U)
  | [], s => some s
  | «meta» :: rest, s =>
    match names (s.metaName exactMatch «meta») with
    | [] => addMetadataLoop exactMatch propagateData fuel names rest s
    | node :: nodes => do
      let (s, _) ← attachMetadata propagateData fuel s (node :: nodes) «meta»
      addMetadataLoop exactMatch propagateData fuel names rest s

def addMetadata (s : RepoScene P U) (metadata : List P) (exactMatch propagateData : Bool) (fuel : ℕ) :
    Option (RepoScene P U) :=
  addMetadataLoop exactMatch propagateData fuel (s.namesMap exactMatch) metadata s

/-- The node sets without a node. -/
def eraseFromSets (s : RepoScene P U) (node : P) : RepoScene P U :=
  match (s.heap node).type with
  | .MATERIAL => { s with materials := s.eraseNode s.materials node }
  | .MESH => { s with meshes := s.eraseNode s.meshes node }
  | .METADATA => { s with metadata := s.eraseNode s.metadata node }
  | .TEXTURE => { s with textures := s.eraseNode s.textures node }
  | .TRANSFORMATION => { s with transformations := s.eraseNode s.transformations node }
  | .UNKNOWN => { s with unknowns := s.eraseNode s.unknowns node }
  | .REVISION => s

/-- For the default graph.  A node that is not kept for the commit is deleted. -/
def removeNode (s : RepoScene P U) (sharedID : U) : RepoScene P U :=
  match s.getNodeBySharedID sharedID with
  | none => s
  | some node =>
    let keepNode := decide (sharedID ∉ s.newAdded)
    let s :=
      { s with
        nodesByUniqueID := update s.nodesByUniqueID (s.heap node).uniqueId none
        sharedIDtoUniqueID := update s.sharedIDtoUniqueID sharedID none
        parentToChildren := update s.parentToChildren sharedID none
        newAdded := s.newAdded.erase sharedID
        newModified := if keepNode then s.newModified.erase sharedID else s.newModified
        newRemoved := if keepNode then s.newRemoved.insert sharedID else s.newRemoved
        toRemove := if keepNode then s.toRemove ++ [node] else s.toRemove }
    s.eraseFromSets node

/-- The operations on a scene.  `setNode` is what happens to a node outside of the scene: a new one is made, one that
was removed is deleted and its memory used again, or its owner changes it. -/
inductive Operation (P U : Type) where
  | setNode (node : P) (value : RepoNode U)
  | addNode (node : P)
  | addInheritance (parentNode childNode : Option P)
  | addInheritances (parentNodes : List P) (childNode : Option P)
  | addMetadata (metadata : List P) (exactMatch propagateData : Bool)
  | abandonChild (parent : U) (child : Option P)
  | removeNode (sharedID : U)

/-- The scene after an operation.  An exception leaves it as it is; there is none if a recursion does not end. -/
def apply (s : RepoScene P U) (fuel : ℕ) : Operation P U → Option (RepoScene P U)
  | .setNode node value => some { s with heap := update s.heap node value }
  | .addNode node =>
    match s.addNodeToMaps node with
    | .ok s' => some s'
    | .error _ => some s
  | .addInheritance parentNode childNode => some (s.addInheritance parentNode childNode)
  | .addInheritances parentNodes childNode => some (s.addInheritances parentNodes childNode)
  | .addMetadata metadata exactMatch propagateData => s.addMetadata metadata exactMatch propagateData fuel
  | .abandonChild parent child => some (s.abandonChild parent child true true)
  | .removeNode sharedID => some (s.removeNode sharedID)

/-- Operations one after the other. -/
def applyAll (fuel : ℕ) (operations : List (Operation P U)) (s : RepoScene P U) : Option (RepoScene P U) :=
  operations.foldlM (fun s operation => s.apply fuel operation) s

end Operations

/-! ### Consistency -/

/-- The node is in the maps from unique ids and from shared ids. -/
def Live (s : RepoScene P U) (c : P) : Prop :=
  s.nodesByUniqueID (s.heap c).uniqueId = some c ∧ s.sharedIDtoUniqueID (s.heap c).sharedId = some (s.heap c).uniqueId

section Consistency

variable [DecidableEq P] [DecidableEq U]

/-- The id maps agree with the nodes, a node of the scene is listed under the ids of its parents, once under each, and
under no other id, and what is listed is in the scene. -/
structure Consistent (s : RepoScene P U) : Prop where
  nodes : ∀ u c, s.nodesByUniqueID u = some c → (s.heap c).uniqueId = u ∧ s.Live c
  sharedIds : ∀ id u, s.sharedIDtoUniqueID id = some u → ∃ c, s.nodesByUniqueID u = some c ∧ (s.heap c).sharedId = id
  count : ∀ p c, s.Live c → (s.getChildrenAsNodes p).count c = if p ∈ (s.heap c).parentIds then 1 else 0
  live : ∀ p, ∀ c ∈ s.getChildrenAsNodes p, s.Live c

variable {s s' : RepoScene P U} {c node : P} {map : U → Option (List P)} {parents : List U} {p q : U}

omit [DecidableEq P] in
private theorem children_pushChild : (pushChild map c p q).getD [] = (map q).getD [] ++ List.replicate ([p].count q) c := by
  unfold pushChild
  by_cases hq : q = p
  · subst hq
    cases hmap : map q <;> simp
  · have hcount : [p].count q = 0 := List.count_eq_zero.2 (by simpa using hq)
    cases hmap : map p <;> simp [hcount, hq]

omit [DecidableEq P] in
private theorem children_foldl_pushChild :
    (parents.foldl (fun map id => pushChild map c id) map q).getD [] =
      (map q).getD [] ++ List.replicate (parents.count q) c := by
  induction parents generalizing map with
  | nil => simp
  | cons p parents ih =>
    rw [List.foldl_cons, ih, children_pushChild, List.append_assoc, List.replicate_append_replicate,
      ← List.count_append]
    rfl

private theorem children_listChild :
    (listChild map c p q).getD [] =
      if q = p ∧ c ∉ (map q).getD [] then (map q).getD [] ++ [c] else (map q).getD [] := by
  unfold listChild
  by_cases hq : q = p
  · subst hq
    cases hmap : map q with
    | none => simp
    | some children =>
      by_cases hc : c ∈ children <;> simp [hc, hmap]
  · cases hmap : map p with
    | none => simp [hq]
    | some children =>
      by_cases hc : c ∈ children <;> simp [hc, hq]

private theorem children_foldl_listChild :
    (parents.foldl (fun map id => listChild map c id) map q).getD [] =
      if q ∈ parents ∧ c ∉ (map q).getD [] then (map q).getD [] ++ [c] else (map q).getD [] := by
  induction parents generalizing map with
  | nil => simp
  | cons p parents ih =>
    rw [List.foldl_cons, ih, children_listChild]
    by_cases hc : c ∈ (map q).getD []
    · simp [hc]
    · by_cases hq : q = p
      · subst hq
        simp [hc]
      · simp [hc, hq]

private theorem Consistent.relist (h : s.Consistent) (hunique : ∀ c, (s'.heap c).uniqueId = (s.heap c).uniqueId)
    (hsharedId : ∀ c, (s'.heap c).sharedId = (s.heap c).sharedId) (hnodes : s'.nodesByUniqueID = s.nodesByUniqueID)
    (hshared : s'.sharedIDtoUniqueID = s.sharedIDtoUniqueID)
    (hcount : ∀ p c, s.Live c → (s'.getChildrenAsNodes p).count c = if p ∈ (s'.heap c).parentIds then 1 else 0)
    (hlive : ∀ p, ∀ c ∈ s'.getChildrenAsNodes p, s.Live c) : s'.Consistent := by
  have hiff : ∀ c, s'.Live c ↔ s.Live c := fun c => by
    simp only [Live, hunique, hsharedId, hnodes, hshared]
  refine ⟨?_, ?_, ?_, ?_⟩
  · intro u c hc
    rw [hunique, hiff]
    exact h.nodes u c (hnodes ▸ hc)
  · intro id u hu
    simp only [hsharedId, hnodes]
    exact h.sharedIds id u (hshared ▸ hu)
  · intro p c hc
    exact hcount p c ((hiff c).1 hc)
  · intro p c hc
    exact (hiff c).2 (hlive p c hc)

/-- A child gets parents: what `addInheritance` does. -/
theorem Consistent.inherit (h : s.Consistent) (hc : s.Live c) (parents : List U) :
    Consistent { s with
      parentToChildren := parents.foldl (fun map id => listChild map c id) s.parentToChildren
      heap := update s.heap c ((s.heap c).addParents parents) } := by
  have hheap : ∀ d, d ≠ c → update s.heap c ((s.heap c).addParents parents) d = s.heap d := fun d hd =>
    update_of_ne hd _ _
  refine h.relist ?_ ?_ rfl rfl ?_ ?_
  · intro d
    by_cases hd : d = c
    · subst hd; simp
    · simp [hheap d hd]
  · intro d
    by_cases hd : d = c
    · subst hd; simp
    · simp [hheap d hd]
  · intro p d hd
    have hbefore := h.count p d hd
    simp only [getChildrenAsNodes] at hbefore ⊢
    rw [children_foldl_listChild]
    by_cases hdc : d = c
    · subst hdc
      -- the node is in the list exactly if the id was among its parents
      have hmem : d ∈ (s.parentToChildren p).getD [] ↔ p ∈ (s.heap d).parentIds := by
        rw [← List.count_pos_iff, hbefore]
        split <;> simp [*]
      simp only [update_self, RepoNode.mem_addParents, hmem]
      by_cases hp : p ∈ (s.heap d).parentIds
      · simp [hp, hbefore]
      · by_cases hnew : p ∈ parents <;> simp [hp, hnew, hbefore]
    · show _ = if p ∈ (update s.heap c _ d).parentIds then 1 else 0
      rw [hheap d hdc, ← hbefore]
      split
      · rw [List.count_append, List.count_singleton, if_neg (by simpa using Ne.symm hdc), Nat.add_zero]
      · rfl
  · intro p d hd
    simp only [getChildrenAsNodes] at hd
    rw [children_foldl_listChild] at hd
    split at hd
    · obtain hd | hd := List.mem_append.1 hd
      · exact h.live p d hd
      · exact List.mem_singleton.1 hd ▸ hc
    · exact h.live p d hd

theorem Consistent.addInheritance (h : s.Consistent) {parentNode childNode : Option P}
    (hchild : ∀ c, childNode = some c → s.Live c) : (s.addInheritance parentNode childNode).Consistent := by
  cases parentNode with
  | none => exact h
  | some parentNode =>
    cases childNode with
    | none => exact h
    | some childNode => exact h.inherit (hchild childNode rfl) [(s.heap parentNode).sharedId]

theorem Consistent.addInheritances (h : s.Consistent) (parentNodes : List P) {childNode : Option P}
    (hchild : ∀ c, childNode = some c → s.Live c) : (s.addInheritances parentNodes childNode).Consistent := by
  cases childNode with
  | none => exact h
  | some childNode => exact h.inherit (hchild childNode rfl) _

/-- A child and a parent part in both directions. -/
theorem Consistent.abandon (h : s.Consistent) (parent : U) (c : P) (lists : U → Option (List P))
    (hlists : ∀ q, (lists q).getD [] =
      if q = parent then (s.getChildrenAsNodes q).erase c else s.getChildrenAsNodes q) :
    Consistent { s with
      parentToChildren := lists
      heap := update s.heap c ((s.heap c).removeParent parent) } := by
  have hheap : ∀ d, d ≠ c → update s.heap c ((s.heap c).removeParent parent) d = s.heap d := fun d hd =>
    update_of_ne hd _ _
  refine h.relist ?_ ?_ rfl rfl ?_ ?_
  · intro d
    by_cases hd : d = c
    · subst hd; simp [RepoNode.removeParent]
    · simp [hheap d hd]
  · intro d
    by_cases hd : d = c
    · subst hd; simp [RepoNode.removeParent]
    · simp [hheap d hd]
  · intro p d hd
    have hbefore := h.count p d hd
    show ((lists p).getD []).count d = _
    rw [hlists]
    by_cases hdc : d = c
    · subst hdc
      by_cases hp : p = parent
      · subst hp
        rw [if_pos rfl, List.count_erase_self, hbefore]
        split <;> simp
      · simp [hp, hbefore]
    · show _ = if p ∈ (update s.heap c _ d).parentIds then 1 else 0
      rw [hheap d hdc, ← hbefore]
      split
      · exact List.count_erase_of_ne hdc
      · rfl
  · intro p d hd
    have hmem : d ∈ (lists p).getD [] := hd
    rw [hlists] at hmem
    split at hmem
    · exact h.live p d (List.mem_of_mem_erase hmem)
    · exact h.live p d hmem

theorem Consistent.abandonChild (h : s.Consistent) (parent : U) (child : Option P) :
    (s.abandonChild parent child true true).Consistent := by
  cases child with
  | none => exact h
  | some c =>
    simp only [RepoScene.abandonChild, if_true]
    cases hlist : s.parentToChildren parent with
    | none =>
      refine h.abandon parent c s.parentToChildren ?_
      intro q
      by_cases hq : q = parent
      · subst hq; simp [getChildrenAsNodes, hlist]
      · simp [hq, getChildrenAsNodes]
    | some children =>
      by_cases hc : c ∈ children
      · simp only [hc, if_true]
        refine h.abandon parent c _ ?_
        intro q
        by_cases hq : q = parent
        · subst hq; simp [getChildrenAsNodes, hlist]
        · simp [hq, getChildrenAsNodes]
      · simp only [hc, if_false]
        refine h.abandon parent c s.parentToChildren ?_
        intro q
        by_cases hq : q = parent
        · subst hq; simp [getChildrenAsNodes, hlist, List.erase_of_not_mem hc]
        · simp [hq, getChildrenAsNodes]

/-- The ids of a node are not used in the scene. -/
def New (s : RepoScene P U) (node : P) : Prop :=
  s.nodesByUniqueID (s.heap node).uniqueId = none ∧ s.sharedIDtoUniqueID (s.heap node).sharedId = none

omit [DecidableEq P] [DecidableEq U] in
theorem New.not_live (h : s.New c) : ¬ s.Live c := fun hlive => by
  have := hlive.1.symm.trans h.1
  cases this

/-- A new node comes into the scene and is listed under its parents. -/
theorem Consistent.enter (h : s.Consistent) (hnew : s.New c) (value : RepoNode U) {parents : List U}
    (hnodup : parents.Nodup) (hunique : value.uniqueId = (s.heap c).uniqueId)
    (hshared : value.sharedId = (s.heap c).sharedId) (hparents : ∀ p, p ∈ value.parentIds ↔ p ∈ parents)
    {s' : RepoScene P U} (hheap : s'.heap = update s.heap c value)
    (hlists : s'.parentToChildren = parents.foldl (fun map id => pushChild map c id) s.parentToChildren)
    (hnodes : s'.nodesByUniqueID = update s.nodesByUniqueID (s.heap c).uniqueId (some c))
    (hids : s'.sharedIDtoUniqueID =
      update s.sharedIDtoUniqueID (s.heap c).sharedId (some (s.heap c).uniqueId)) : s'.Consistent := by
  have hself : s'.heap c = value := by rw [hheap, update_self]
  have hother : ∀ d, d ≠ c → s'.heap d = s.heap d := fun d hd => by rw [hheap, update_of_ne hd]
  have hlivec : s'.Live c := by simp [Live, hself, hunique, hshared, hnodes, hids]
  -- the ids of the nodes of the scene are not those of the new one
  have hne : ∀ d, s.Live d → d ≠ c ∧ (s.heap d).uniqueId ≠ (s.heap c).uniqueId ∧
      (s.heap d).sharedId ≠ (s.heap c).sharedId := by
    intro d hd
    refine ⟨fun he => hnew.not_live (he ▸ hd), fun he => ?_, fun he => ?_⟩
    · have := hd.1
      rw [he, hnew.1] at this
      cases this
    · have := hd.2
      rw [he, hnew.2] at this
      cases this
  have hlive : ∀ d, s.Live d → s'.Live d := by
    intro d hd
    obtain ⟨hdc, hu, hi⟩ := hne d hd
    simp only [Live, hother d hdc, hnodes, hids, update_of_ne hu, update_of_ne hi]
    exact hd
  have hchildren : ∀ p, s'.getChildrenAsNodes p = s.getChildrenAsNodes p ++ List.replicate (parents.count p) c := by
    intro p
    show (s'.parentToChildren p).getD [] = _
    rw [hlists, children_foldl_pushChild]
    rfl
  have hunlisted : ∀ p, (s.getChildrenAsNodes p).count c = 0 := fun p =>
    List.count_eq_zero.2 fun hmem => hnew.not_live (h.live p c hmem)
  refine ⟨?_, ?_, ?_, ?_⟩
  · intro u d hd
    rw [hnodes] at hd
    by_cases hu : u = (s.heap c).uniqueId
    · subst hu
      rw [update_self, Option.some_inj] at hd
      subst hd
      exact ⟨hself ▸ hunique, hlivec⟩
    · rw [update_of_ne hu] at hd
      obtain ⟨hdu, hdlive⟩ := h.nodes u d hd
      rw [hother d (hne d hdlive).1]
      exact ⟨hdu, hlive d hdlive⟩
  · intro id u hu
    rw [hids] at hu
    by_cases hid : id = (s.heap c).sharedId
    · subst hid
      rw [update_self, Option.some_inj] at hu
      subst hu
      exact ⟨c, by rw [hnodes, update_self], hself ▸ hshared⟩
    · rw [update_of_ne hid] at hu
      obtain ⟨d, hd, hdid⟩ := h.sharedIds id u hu
      obtain ⟨hdu, hdlive⟩ := h.nodes u d hd
      obtain ⟨hdc, huc, -⟩ := hne d hdlive
      refine ⟨d, ?_, by rw [hother d hdc, hdid]⟩
      rw [hnodes, update_of_ne (hdu ▸ huc), hd]
  · intro p d hd
    rw [hchildren, List.count_append, List.count_replicate]
    by_cases hdc : d = c
    · subst hdc
      rw [hunlisted]
      simp only [hself, hparents, beq_self_eq_true, if_true, Nat.zero_add]
      exact List.Nodup.count hnodup
    · -- the other nodes were in the scene before
      have hdlive : s.Live d := by
        have h₁ := hd.1
        rw [hnodes, hother d hdc] at h₁
        by_cases hu : (s.heap d).uniqueId = (s.heap c).uniqueId
        · rw [hu, update_self, Option.some_inj] at h₁
          exact absurd h₁.symm hdc
        · rw [update_of_ne hu] at h₁
          exact (h.nodes _ d h₁).2
      have hcd : (c == d) = false := beq_false_of_ne (Ne.symm hdc)
      simp only [hother d hdc, h.count p d hdlive, hcd, Bool.false_eq_true, if_false, Nat.add_zero]
  · intro p d hd
    rw [hchildren] at hd
    obtain hd | hd := List.mem_append.1 hd
    · exact hlive d (h.live p d hd)
    · rw [(List.mem_replicate.1 hd).2]
      exact hlivec

theorem Consistent.addNodeToMaps (h : s.Consistent) (hnew : s.New c) (hs : s.addNodeToMaps c = .ok s') :
    s'.Consistent := by
  obtain ⟨root, rfl⟩ : ∃ root, s' = { s with
      rootNode := root
      parentToChildren := (s.heap c).parentIds.foldl (fun map id => pushChild map c id) s.parentToChildren
      nodesByUniqueID := update s.nodesByUniqueID (s.heap c).uniqueId (some c)
      sharedIDtoUniqueID := update s.sharedIDtoUniqueID (s.heap c).sharedId (some (s.heap c).uniqueId) } := by
    simp only [RepoScene.addNodeToMaps] at hs
    generalize (if (s.heap c).parentIds.isEmpty then s.newRoot c else .ok s.rootNode) = root at hs
    cases root with
    | error e => cases hs
    | ok root => exact ⟨root, (Except.ok.inj hs).symm⟩
  exact h.enter hnew (s.heap c) (s.heap c).nodup rfl rfl (fun _ => Iff.rfl) (update_eq_self c s.heap).symm rfl rfl rfl

/-! ### Metadata -/

/-- The node is no mesh and has no mesh below. -/
def Meshless (s : RepoScene P U) (node : P) : Prop :=
  (s.heap node).type ≠ .MESH ∧
    ∀ fuel meshes, s.getAllDescendantsByType .MESH fuel (s.heap node).sharedId = some meshes → meshes = []

/-- A scene in the course of `addMetadata`, which began with `s`: nodes got parents, and nodes without meshes were
listed. -/
structure Attaching (s s' : RepoScene P U) : Prop where
  type : ∀ c, (s'.heap c).type = (s.heap c).type
  name : ∀ c, (s'.heap c).name = (s.heap c).name
  sharedId : ∀ c, (s'.heap c).sharedId = (s.heap c).sharedId
  children : ∀ p, ∃ nodes, s'.getChildrenAsNodes p = s.getChildrenAsNodes p ++ nodes ∧ ∀ c ∈ nodes, s.Meshless c

omit [DecidableEq P] [DecidableEq U] in
private theorem Attaching.refl (s : RepoScene P U) : s.Attaching s :=
  ⟨fun _ => rfl, fun _ => rfl, fun _ => rfl, fun _ => ⟨[], by simp⟩⟩

omit [DecidableEq P] in
private theorem Attaching.push (h : s.Attaching s') (hc : s.Meshless c) (ids : List U) :
    s.Attaching { s' with parentToChildren := ids.foldl (fun map id => pushChild map c id) s'.parentToChildren } := by
  refine ⟨h.type, h.name, h.sharedId, ?_⟩
  intro p
  obtain ⟨nodes, hnodes, hmeshless⟩ := h.children p
  refine ⟨nodes ++ List.replicate (ids.count p) c, ?_, ?_⟩
  · rw [← List.append_assoc, ← hnodes]
    exact children_foldl_pushChild
  · intro d hd
    obtain hd | hd := List.mem_append.1 hd
    · exact hmeshless d hd
    · exact List.eq_of_mem_replicate hd ▸ hc

private theorem foldlM_eq_of_forall {α β : Type} {f g : β → α → Option β}
    (h : ∀ b a b', f b a = some b' → g b a = some b') {l : List α} {b b' : β} (hf : l.foldlM f b = some b') :
    l.foldlM g b = some b' := by
  induction l generalizing b with
  | nil => exact hf
  | cons a l ih =>
    rw [List.foldlM_cons] at hf ⊢
    obtain ⟨b₁, hb₁, hf⟩ := Option.bind_eq_some_iff.1 hf
    exact Option.bind_eq_some_iff.2 ⟨b₁, h b a b₁ hb₁, ih hf⟩

private theorem foldlM_eq_self {α β : Type} {f : β → α → Option β} {l : List α}
    (h : ∀ a ∈ l, ∀ b b', f b a = some b' → b' = b) {b b' : β} (hf : l.foldlM f b = some b') : b' = b := by
  induction l generalizing b with
  | nil => exact (Option.some.inj hf).symm
  | cons a l ih =>
    obtain ⟨ha, hl⟩ := List.forall_mem_cons.1 h
    rw [List.foldlM_cons] at hf
    obtain ⟨b₁, hb₁, hf⟩ := Option.bind_eq_some_iff.1 hf
    exact (ih hl hf).trans (ha b b₁ hb₁)

variable {fuel : ℕ}

omit [DecidableEq P] [DecidableEq U] in
/-- The meshes below a node stay the same. -/
private theorem Attaching.descendants (h : s.Attaching s') {id : U} {meshes : List P}
    (hs : s'.getAllDescendantsByType .MESH fuel id = some meshes) :
    s.getAllDescendantsByType .MESH fuel id = some meshes := by
  induction fuel generalizing id meshes with
  | zero => cases hs
  | succ fuel ih =>
    obtain ⟨nodes, hnodes, hmeshless⟩ := h.children id
    rw [getAllDescendantsByType] at hs ⊢
    rw [hnodes, List.foldlM_append] at hs
    obtain ⟨res, hres, hs⟩ := Option.bind_eq_some_iff.1 hs
    -- what was listed adds no mesh
    obtain rfl : meshes = res := by
      refine foldlM_eq_self ?_ hs
      intro c hc res res' hstep
      obtain ⟨below, hbelow, hstep⟩ := Option.bind_eq_some_iff.1 hstep
      rw [h.sharedId] at hbelow
      obtain rfl := (hmeshless c hc).2 fuel below (ih hbelow)
      simpa [h.type, (hmeshless c hc).1] using hstep.symm
    refine foldlM_eq_of_forall ?_ hres
    intro res c res' hstep
    obtain ⟨below, hbelow, hstep⟩ := Option.bind_eq_some_iff.1 hstep
    rw [h.sharedId] at hbelow
    rw [h.type] at hstep
    exact Option.bind_eq_some_iff.2 ⟨below, ih hbelow, hstep⟩

variable {propagateData : Bool}

omit [DecidableEq P] [DecidableEq U] in
private theorem Attaching.targets (h : s.Attaching s') {targets : List P}
    (hs : s'.metadataTargets propagateData fuel node = some targets) :
    s.metadataTargets propagateData fuel node = some targets := by
  obtain ⟨meshes, hmeshes, hs⟩ := Option.bind_eq_some_iff.1 hs
  rw [h.sharedId] at hmeshes
  rw [h.type] at hs
  exact Option.bind_eq_some_iff.2 ⟨meshes, h.descendants hmeshes, hs⟩

variable {s₀ : RepoScene P U}

omit [DecidableEq P] in
/-- All nodes with the name: the metadata node is listed under the ids that are collected, those of the targets. -/
private theorem Attaching.foldlM_attachTo {nodes : List P}
    {st st' : RepoScene P U × List U} (h₀ : s₀.Attaching st.1) (hc : s₀.Meshless c)
    (h : nodes.foldlM (fun st node => attachTo propagateData fuel node c st) st = some st') :
    ∃ targets, nodes.mapM (s₀.metadataTargets propagateData fuel) = some targets ∧ s₀.Attaching st'.1 ∧
      let ids := targets.flatten.map fun target => (s₀.heap target).sharedId
      st' = ({ st.1 with parentToChildren := ids.foldl (fun map id => pushChild map c id) st.1.parentToChildren },
        st.2 ++ ids) := by
  induction nodes generalizing st with
  | nil =>
    obtain rfl := Option.some.inj h
    exact ⟨[], by simp [h₀]⟩
  | cons node nodes ih =>
    rw [List.foldlM_cons] at h
    obtain ⟨st₁, h₁, h⟩ := Option.bind_eq_some_iff.1 h
    obtain ⟨targets, htargets, h₁⟩ := Option.bind_eq_some_iff.1 h₁
    obtain rfl := Option.some.inj h₁
    obtain ⟨rest, hrest, hattaching, rfl⟩ := ih (h₀.push hc _) h
    refine ⟨targets :: rest, ?_, hattaching, ?_⟩
    · simp [List.mapM_cons, h₀.targets htargets, hrest]
    · simp [h₀.sharedId]

/-- A metadata node of the call. -/
private theorem Attaching.attachMetadata (h₀ : s₀.Attaching s) (hc : s₀.Meshless c)
    {nodes : List P} {parents : List U}
    (hs : RepoScene.attachMetadata propagateData fuel s nodes c = some (s', parents)) :
    s₀.Attaching s' ∧
      (∃ targets, nodes.mapM (s₀.metadataTargets propagateData fuel) = some targets ∧
        parents = targets.flatten.map fun target => (s₀.heap target).sharedId) ∧
      s'.heap = update s.heap c ((s.heap c).addParents parents) ∧
      s'.parentToChildren = parents.foldl (fun map id => pushChild map c id) s.parentToChildren ∧
      s'.nodesByUniqueID = update s.nodesByUniqueID (s.heap c).uniqueId (some c) ∧
      s'.sharedIDtoUniqueID =
        update s.sharedIDtoUniqueID (s.heap c).sharedId (some (s.heap c).uniqueId) := by
  unfold RepoScene.attachMetadata at hs
  obtain ⟨st, hst, hs⟩ := Option.bind_eq_some_iff.1 hs
  obtain ⟨targets, htargets, hattaching, rfl⟩ := Attaching.foldlM_attachTo h₀ hc hst
  obtain ⟨rfl, rfl⟩ := Prod.ext_iff.1 (Option.some.inj hs)
  refine ⟨⟨?_, ?_, ?_, hattaching.children⟩, ⟨targets, htargets, List.nil_append _⟩, rfl, rfl, rfl, rfl⟩
  all_goals
    intro d
    by_cases hd : d = c
    · subst hd; simp [h₀.type, h₀.name, h₀.sharedId]
    · simp [update_of_ne hd, h₀.type, h₀.name, h₀.sharedId]

/-- The metadata nodes of a call for which there are nodes with the name. -/
def matched (s : RepoScene P U) (exactMatch : Bool) (metadata : List P) : List P :=
  metadata.filter fun «meta» => s.namesMap exactMatch (s.metaName exactMatch «meta») ≠ []

/-- How `addMetadata` is meant to be used, in terms of the scene before the call: the metadata nodes are new, with ids
of their own, have no parents yet, are no meshes and have none below, and none reaches a node twice. -/
structure MetadataAllowed (s : RepoScene P U) (exactMatch propagateData : Bool) (fuel : ℕ) (metadata : List P) :
    Prop where
  new : ∀ c ∈ s.matched exactMatch metadata, s.New c ∧ (s.heap c).parentIds = [] ∧ s.Meshless c
  distinct : (s.matched exactMatch metadata).Pairwise fun a b =>
    (s.heap a).uniqueId ≠ (s.heap b).uniqueId ∧ (s.heap a).sharedId ≠ (s.heap b).sharedId
  once : ∀ c ∈ s.matched exactMatch metadata, ∀ targets,
    (s.namesMap exactMatch (s.metaName exactMatch c)).mapM (s.metadataTargets propagateData fuel) = some targets →
      (targets.flatten.map fun target => (s.heap target).sharedId).Nodup

/-- The loop of a call on `s₀`, in a scene `s` in the course of it. -/
private theorem Consistent.addMetadataLoop {exactMatch propagateData : Bool}
    {metadata : List P} (hallowed : s₀.MetadataAllowed exactMatch propagateData fuel metadata) (h₀ : s₀.Attaching s)
    (h : s.Consistent) (hnew : ∀ c ∈ s₀.matched exactMatch metadata, s.New c ∧ (s.heap c).parentIds = [])
    (hunique : ∀ c ∈ s₀.matched exactMatch metadata, (s.heap c).uniqueId = (s₀.heap c).uniqueId)
    (hs : RepoScene.addMetadataLoop exactMatch propagateData fuel (s₀.namesMap exactMatch) metadata s = some s') :
    s'.Consistent := by
  induction metadata generalizing s with
  | nil => exact Option.some.inj hs ▸ h
  | cons c rest ih =>
    have hname : s.metaName exactMatch c = s₀.metaName exactMatch c := by simp [metaName, h₀.name]
    obtain ⟨hnews, hdistinct, honce⟩ := hallowed
    rw [RepoScene.addMetadataLoop, hname] at hs
    cases hnames : s₀.namesMap exactMatch (s₀.metaName exactMatch c) with
    | nil =>
      have hskip : s₀.matched exactMatch (c :: rest) = s₀.matched exactMatch rest := by
        simp [matched, hnames]
      rw [hskip] at hnews hdistinct honce hnew hunique
      simp only [hnames] at hs
      exact ih ⟨hnews, hdistinct, honce⟩ h₀ h hnew hunique hs
    | cons node nodes =>
      have hmatched : s₀.matched exactMatch (c :: rest) = c :: s₀.matched exactMatch rest := by
        simp [matched, hnames]
      rw [hmatched] at hnews hdistinct honce hnew hunique
      simp only [hnames] at hs
      obtain ⟨⟨s₁, parents⟩, h₁, hs⟩ := Option.bind_eq_some_iff.1 hs
      obtain ⟨hc, hrest⟩ := List.forall_mem_cons.1 hnew
      obtain ⟨hattaching, ⟨targets, htargets, hparents⟩, hheap, hlists, hnodes, hids⟩ :=
        h₀.attachMetadata (hnews c List.mem_cons_self).2.2 h₁
      have hnodup : parents.Nodup :=
        hparents ▸ honce c List.mem_cons_self targets (hnames ▸ htargets)
      -- the other metadata nodes are not touched
      have hother : ∀ d ∈ s₀.matched exactMatch rest, s₁.heap d = s.heap d := by
        intro d hd
        rw [hheap, update_of_ne]
        rintro rfl
        exact ((List.pairwise_cons.1 hdistinct).1 d hd).1 rfl
      refine ih ⟨fun d hd => hnews d (List.mem_cons_of_mem c hd), (List.pairwise_cons.1 hdistinct).2,
        fun d hd => honce d (List.mem_cons_of_mem c hd)⟩ hattaching ?_ ?_ ?_ hs
      · exact h.enter hc.1 _ hnodup (by simp) (by simp) (by simp [hc.2]) hheap hlists hnodes hids
      · intro d hd
        obtain ⟨hu, hi⟩ := (List.pairwise_cons.1 hdistinct).1 d hd
        obtain ⟨⟨hdu, hdi⟩, hfree⟩ := hrest d hd
        rw [← hunique c List.mem_cons_self, ← hunique d (List.mem_cons_of_mem c hd)] at hu
        rw [← h₀.sharedId, ← h₀.sharedId] at hi
        rw [New, hother d hd, hnodes, hids, update_of_ne (Ne.symm hu), update_of_ne (Ne.symm hi)]
        exact ⟨⟨hdu, hdi⟩, hfree⟩
      · intro d hd
        rw [hother d hd, hunique d (List.mem_cons_of_mem c hd)]

theorem Consistent.addMetadata (h : s.Consistent) {exactMatch propagateData : Bool} {metadata : List P}
    (hallowed : s.MetadataAllowed exactMatch propagateData fuel metadata)
    (hs : s.addMetadata metadata exactMatch propagateData fuel = some s') : s'.Consistent :=
  Consistent.addMetadataLoop hallowed (Attaching.refl s) h
    (fun c hc => ⟨(hallowed.new c hc).1, (hallowed.new c hc).2.1⟩) (fun _ _ => rfl) hs

/-! ### Removal -/

/-- The relationships of the node have been patched up: it has no parents and is nobody's parent. -/
def Detached (s : RepoScene P U) (sharedID : U) : Prop :=
  ∀ node, s.getNodeBySharedID sharedID = some node →
    (s.heap node).parentIds = [] ∧ ∀ c, s.Live c → sharedID ∉ (s.heap c).parentIds

/-- A node without relationships leaves the scene. -/
theorem Consistent.leave (h : s.Consistent) {sharedID : U} (hnode : s.getNodeBySharedID sharedID = some node)
    (hdetached : s.Detached sharedID) (hheap : s'.heap = s.heap)
    (hlists : s'.parentToChildren = update s.parentToChildren sharedID none)
    (hnodes : s'.nodesByUniqueID = update s.nodesByUniqueID (s.heap node).uniqueId none)
    (hids : s'.sharedIDtoUniqueID = update s.sharedIDtoUniqueID sharedID none) : s'.Consistent := by
  obtain ⟨hparents, hchildren⟩ := hdetached node hnode
  -- the node of the shared id is the one with that id
  obtain ⟨u, hu, hn⟩ := Option.bind_eq_some_iff.1 hnode
  have hnode' : (s.heap node).uniqueId = u ∧ s.Live node := h.nodes u node hn
  have hshared : (s.heap node).sharedId = sharedID := by
    obtain ⟨d, hd, hdid⟩ := h.sharedIds sharedID u hu
    have hsame : some d = some node := hd.symm.trans hn
    obtain rfl := Option.some.inj hsame
    exact hdid
  have hlive : ∀ d, s'.Live d ↔ s.Live d ∧ d ≠ node := by
    intro d
    simp only [Live, hheap, hnodes, hids]
    constructor
    · intro ⟨h₁, h₂⟩
      have hu' : (s.heap d).uniqueId ≠ (s.heap node).uniqueId := by
        intro he
        rw [he, update_self] at h₁
        cases h₁
      have hi' : (s.heap d).sharedId ≠ sharedID := by
        intro he
        rw [he, update_self] at h₂
        cases h₂
      rw [update_of_ne hu'] at h₁
      rw [update_of_ne hi'] at h₂
      exact ⟨⟨h₁, h₂⟩, fun he => hu' (he ▸ rfl)⟩
    · intro ⟨⟨h₁, h₂⟩, hd⟩
      have hu' : (s.heap d).uniqueId ≠ (s.heap node).uniqueId := by
        intro he
        rw [he, hnode'.2.1] at h₁
        exact hd (Option.some.inj h₁).symm
      have hi' : (s.heap d).sharedId ≠ sharedID := by
        intro he
        have h₃ := hnode'.2.2
        rw [hshared, ← he, h₂, Option.some_inj] at h₃
        exact hu' h₃
      rw [update_of_ne hu', update_of_ne hi']
      exact ⟨h₁, h₂⟩
  have hlist : ∀ p, s'.getChildrenAsNodes p = if p = sharedID then [] else s.getChildrenAsNodes p := by
    intro p
    simp only [getChildrenAsNodes, hlists]
    by_cases hp : p = sharedID
    · subst hp; simp
    · simp [hp]
  refine ⟨?_, ?_, ?_, ?_⟩
  · intro u' d hd
    rw [hnodes] at hd
    have hu' : u' ≠ (s.heap node).uniqueId := by
      rintro rfl
      rw [update_self] at hd
      cases hd
    rw [update_of_ne hu'] at hd
    obtain ⟨hdu, hdlive⟩ := h.nodes u' d hd
    rw [hheap, hlive]
    exact ⟨hdu, hdlive, fun he => hu' (hdu.symm.trans (he ▸ rfl))⟩
  · intro id u' hu'
    rw [hids] at hu'
    have hid : id ≠ sharedID := by
      rintro rfl
      rw [update_self] at hu'
      cases hu'
    rw [update_of_ne hid] at hu'
    obtain ⟨d, hd, hdid⟩ := h.sharedIds id u' hu'
    refine ⟨d, ?_, by rw [hheap, hdid]⟩
    have hne : u' ≠ (s.heap node).uniqueId := by
      rintro rfl
      rw [hnode'.2.1] at hd
      obtain rfl := Option.some.inj hd
      exact hid (hdid.symm.trans hshared)
    rw [hnodes, update_of_ne hne, hd]
  · intro p d hd
    obtain ⟨hdlive, -⟩ := (hlive d).1 hd
    rw [hlist, hheap]
    by_cases hp : p = sharedID
    · subst hp
      rw [if_pos rfl, if_neg (hchildren d hdlive)]
      rfl
    · rw [if_neg hp]
      exact h.count p d hdlive
  · intro p d hd
    rw [hlist] at hd
    by_cases hp : p = sharedID
    · rw [if_pos hp] at hd
      cases hd
    · rw [if_neg hp] at hd
      refine (hlive d).2 ⟨h.live p d hd, ?_⟩
      rintro rfl
      have hcount := h.count p d hnode'.2
      rw [hparents, if_neg List.not_mem_nil] at hcount
      exact List.count_eq_zero.1 hcount hd

omit [DecidableEq P] in
private theorem eraseFromSets_eq (s : RepoScene P U) (node : P) :
    (s.eraseFromSets node).heap = s.heap ∧ (s.eraseFromSets node).nodesByUniqueID = s.nodesByUniqueID ∧
      (s.eraseFromSets node).sharedIDtoUniqueID = s.sharedIDtoUniqueID ∧
      (s.eraseFromSets node).parentToChildren = s.parentToChildren := by
  unfold eraseFromSets
  split <;> exact ⟨rfl, rfl, rfl, rfl⟩

theorem Consistent.removeNode (h : s.Consistent) {sharedID : U} (hdetached : s.Detached sharedID) :
    (s.removeNode sharedID).Consistent := by
  unfold RepoScene.removeNode
  cases hnode : s.getNodeBySharedID sharedID with
  | none => exact h
  | some node =>
    obtain ⟨h₁, h₂, h₃, h₄⟩ := eraseFromSets_eq { s with
      nodesByUniqueID := update s.nodesByUniqueID (s.heap node).uniqueId none
      sharedIDtoUniqueID := update s.sharedIDtoUniqueID sharedID none
      parentToChildren := update s.parentToChildren sharedID none
      newAdded := s.newAdded.erase sharedID
      newModified := if decide (sharedID ∉ s.newAdded) then s.newModified.erase sharedID else s.newModified
      newRemoved := if decide (sharedID ∉ s.newAdded) then s.newRemoved.insert sharedID else s.newRemoved
      toRemove := if decide (sharedID ∉ s.newAdded) then s.toRemove ++ [node] else s.toRemove } node
    exact h.leave hnode hdetached h₁ h₄ h₂ h₃

/-! ### Runs -/

/-- A node outside of the scene may become anything. -/
theorem Consistent.setNode (h : s.Consistent) (hc : ¬ s.Live c) (value : RepoNode U) :
    Consistent { s with heap := update s.heap c value } := by
  have hother : ∀ d, d ≠ c → update s.heap c value d = s.heap d := fun d hd => update_of_ne hd _ _
  have hne : ∀ u d, s.nodesByUniqueID u = some d → d ≠ c := fun u d hd he => hc (he ▸ (h.nodes u d hd).2)
  have hlive : ∀ d, Live { s with heap := update s.heap c value } d ↔ s.Live d := by
    intro d
    by_cases hd : d = c
    · subst hd
      exact ⟨fun hd => absurd rfl (hne _ _ hd.1), fun hd => absurd hd hc⟩
    · simp only [Live, hother d hd]
  refine ⟨?_, ?_, ?_, ?_⟩
  · intro u d hd
    rw [hlive]
    simp only [hother d (hne u d hd)]
    exact h.nodes u d hd
  · intro id u hu
    obtain ⟨d, hd, hdid⟩ := h.sharedIds id u hu
    refine ⟨d, hd, ?_⟩
    simp only [hother d (hne u d hd)]
    exact hdid
  · intro p d hd
    have hd' := (hlive d).1 hd
    have hdc : d ≠ c := fun he => hc (he ▸ hd')
    simp only [hother d hdc]
    exact h.count p d hd'
  · intro p d hd
    exact (hlive d).2 (h.live p d hd)

/-- What the documentation of an operation asks of its caller. -/
def Allowed (s : RepoScene P U) (fuel : ℕ) : Operation P U → Prop
  | .setNode node _ => ¬ s.Live node
  | .addNode node => s.New node
  | .addInheritance _ childNode => ∀ c, childNode = some c → s.Live c
  | .addInheritances _ childNode => ∀ c, childNode = some c → s.Live c
  | .addMetadata metadata exactMatch propagateData =>
    s.MetadataAllowed exactMatch propagateData fuel metadata
  | .abandonChild _ _ => True
  | .removeNode sharedID => s.Detached sharedID

private theorem Consistent.apply (h : s.Consistent) {operation : Operation P U} (hallowed : s.Allowed fuel operation)
    (hs : s.apply fuel operation = some s') : s'.Consistent := by
  cases operation with
  | setNode node value => exact Option.some.inj hs ▸ h.setNode hallowed value
  | addNode node =>
    rw [RepoScene.apply] at hs
    cases hadd : s.addNodeToMaps node with
    | ok s₁ =>
      rw [hadd] at hs
      exact Option.some.inj hs ▸ h.addNodeToMaps hallowed hadd
    | error e =>
      rw [hadd] at hs
      exact Option.some.inj hs ▸ h
  | addInheritance parentNode childNode => exact Option.some.inj hs ▸ h.addInheritance hallowed
  | addInheritances parentNodes childNode => exact Option.some.inj hs ▸ h.addInheritances parentNodes hallowed
  | addMetadata metadata exactMatch propagateData => exact h.addMetadata hallowed hs
  | abandonChild parent child => exact Option.some.inj hs ▸ h.abandonChild parent child
  | removeNode sharedID => exact Option.some.inj hs ▸ h.removeNode hallowed

/-- Scenes that come from `s₀` by operations that are used as they should be. -/
inductive Reaches (s₀ : RepoScene P U) : RepoScene P U → Prop
  | start : Reaches s₀ s₀
  | step (s s' : RepoScene P U) (fuel : ℕ) (operation : Operation P U) : Reaches s₀ s → s.Allowed fuel operation →
      s.apply fuel operation = some s' → Reaches s₀ s'

/-- **The two directions of the relation between parents and children stay consistent.** -/
theorem consistent_of_reaches {s₀ s : RepoScene P U} (h₀ : s₀.Consistent) (h : Reaches s₀ s) : s.Consistent := by
  induction h with
  | start => exact h₀
  | step s s' fuel operation _ hallowed hs ih => exact ih.apply hallowed hs

end Consistency

section Instance

/-- A root and a mesh below it that are in the sets of nodes, but not in the graph yet. -/
def newScene : RepoScene ℕ ℕ where
  heap node :=
    if node = 0 then ⟨.TRANSFORMATION, "root", 0, 10, [], List.nodup_nil⟩
    else ⟨.MESH, "mesh", node, 10 + node, [10], List.nodup_singleton 10⟩
  materials := []
  meshes := [1]
  metadata := []
  textures := []
  transformations := [0]
  unknowns := []
  rootNode := none
  nodesByUniqueID _ := none
  sharedIDtoUniqueID _ := none
  parentToChildren _ := none
  newAdded := []
  newCurrent := []
  newModified := []
  newRemoved := []
  toRemove := []

private theorem consistent_newScene : newScene.Consistent where
  nodes := nofun
  sharedIds := nofun
  count _ _ h := by cases h.1
  live := nofun

/-- A mesh that is removed while it has a parent stays in the list of its children. -/
theorem not_consistent_removeNode : newScene.Consistent ∧
    ∃ s, applyAll 0 [.addNode 0, .addNode 1, .removeNode 11] newScene = some s ∧ ¬ s.Consistent := by
  refine ⟨consistent_newScene, _, rfl, ?_⟩
  intro h
  have hlisted := h.live 10 1 (by decide)
  have hgone := hlisted.1
  revert hgone
  decide

/-- The mesh gets the metadata of the root, and is removed once both have been abandoned. -/
theorem consistent_of_reaches_newScene :
    ∃ s, applyAll 2 [.addNode 0, .addNode 1, .setNode 2 ⟨.METADATA, "root", 2, 12, [], List.nodup_nil⟩,
        .addMetadata [2] true true, .abandonChild 11 (some 2), .abandonChild 10 (some 1), .removeNode 11] newScene =
      some s ∧ s.Consistent := by
  refine ⟨_, rfl, consistent_of_reaches consistent_newScene ?_⟩
  have hroot := Reaches.start.step newScene _ 2 (.addNode 0) ⟨rfl, rfl⟩ rfl
  have hmesh := hroot.step _ _ 2 (.addNode 1) ⟨rfl, rfl⟩ rfl
  have hset := hmesh.step _ _ 2 (.setNode 2 ⟨.METADATA, "root", 2, 12, [], List.nodup_nil⟩)
    (fun hlive => nomatch hlive.1) rfl
  have hattach := hset.step _ _ 2 (.addMetadata [2] true true) ?_ rfl
  · have hfree := hattach.step _ _ 2 (.abandonChild 11 (some 2)) trivial rfl
    have habandon := hfree.step _ _ 2 (.abandonChild 10 (some 1)) trivial rfl
    refine habandon.step _ _ 2 (.removeNode 11) ?_ rfl
    intro node hnode
    have hone : node = 1 := (Option.some.inj hnode).symm
    subst hone
    refine ⟨rfl, ?_⟩
    intro c _ hmem
    by_cases h₁ : c = 1
    · subst h₁
      exact List.not_mem_nil hmem
    by_cases h₂ : c = 2
    · subst h₂
      exact List.not_mem_nil hmem
    change 11 ∈ (update (update (update (update newScene.heap 2 _) 2 _) 2 _) 1 _ c
      ).parentIds at hmem
    simp only [update_of_ne h₁, update_of_ne h₂] at hmem
    -- a parent is the root or nobody
    revert hmem
    unfold newScene
    by_cases h : c = 0 <;> simp [h]
  · refine ⟨?_, ?_, ?_⟩
    · intro c hc
      obtain rfl := List.mem_singleton.1 (List.mem_of_mem_filter hc)
      refine ⟨⟨rfl, rfl⟩, rfl, nofun, ?_⟩
      intro fuel meshes hmeshes
      cases fuel with
      | zero => cases hmeshes
      | succ fuel => exact (Option.some.inj hmeshes).symm
    · exact List.pairwise_singleton _ _
    · intro c hc targets htargets
      obtain rfl := List.mem_singleton.1 (List.mem_of_mem_filter hc)
      have h : targets = [[1]] := (Option.some.inj htargets).symm
      subst h
      exact List.nodup_singleton _

end Instance

end RepoScene

end Bouncer
