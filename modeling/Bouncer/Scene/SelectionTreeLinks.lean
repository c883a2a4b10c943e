import Bouncer.Library.Fallible
import Bouncer.Library.Lineage
import Bouncer.Scene.SelectionTree
import Mathlib.Data.List.AList

/-!
# The nodes of the selection tree

`generateSelectionTrees` reads the nodes of a revision in the order of the cursor, and then resolves the parents by their
shared ids: a node becomes a child of its first parent, or the root if there is no such node, and the ids of metadata are
listed at all of their parents.

Every node that is not resolved becomes the root, so that the last one remains, and a parent of metadata is not looked for
but taken from the map.  The tree is complete exactly if the node without parents is the last that is not resolved and all
parents of metadata are there (`keepsNodes_iff`).
-/

namespace Bouncer.SelectionTree

open Library
open Library.Fallible

variable {U : Type} [DecidableEq U]

/-! ### Reading -/

/-- What the loop over the cursor has collected. -/
structure Reading (U : Type) where
  nodes : List (Node U)
  uniqueIdToParentSharedId : U → Option U
  metadataUniqueIdToParentsSharedIds : AList fun _ : U => List U

namespace Reading

def empty : Reading U := ⟨[], fun _ => none, ∅⟩

/-- The nodes that become nodes of the tree. -/
def IsNode (repo : RepoNode U) : Prop := repo.type = .MESH ∨ repo.type = .TRANSFORMATION

instance (repo : RepoNode U) : Decidable (IsNode repo) := inferInstanceAs (Decidable (_ ∨ _))

def node (repo : RepoNode U) : Node U := ⟨repo.type, repo.name, repo.uniqueId, repo.sharedId, [], .SHOW⟩

def read (s : Reading U) (repo : RepoNode U) : Reading U :=
  if IsNode repo then
    { s with
      nodes := s.nodes ++ [node repo]
      uniqueIdToParentSharedId :=
        match repo.parentIds with
        | [] => s.uniqueIdToParentSharedId
        | parent :: _ => Function.update s.uniqueIdToParentSharedId repo.uniqueId (some parent) }
  else if repo.type = .METADATA then
    { s with
      metadataUniqueIdToParentsSharedIds := s.metadataUniqueIdToParentsSharedIds.insert repo.uniqueId repo.parentIds }
  else s

def readAll (documents : List (RepoNode U)) : Reading U := documents.foldl read empty

end Reading

/-! ### Linking -/

/-- Pointers to nodes are indices. -/
def sharedIdToNode (nodes : List (Node U)) : U → Option ℕ :=
  nodes.zipIdx.foldl (fun m x => Function.update m x.1.shared_id (some x.2)) fun _ => none

structure Links where
  children : ℕ → List ℕ
  root : Option ℕ

/-- The node that is found for a node of the tree, by `key`. -/
def Links.link (parent : Node U → Option ℕ) (l : Links) (x : Node U × ℕ) : Links :=
  match parent x.1 with
  | some p => { l with children := Function.update l.children p (l.children p ++ [x.2]) }
  | none => { l with root := some x.2 }

def links (parent : Node U → Option ℕ) (nodes : List (Node U)) : Links :=
  nodes.zipIdx.foldl (Links.link parent) ⟨fun _ => [], none⟩

/-- The lists `meta` of the nodes when an id of metadata is added at its parents; it fails without a node for one of them. -/
def listMetadata (find : U → Option ℕ) (lists : ℕ → List U) (entry : Sigma fun _ : U => List U) : Option (ℕ → List U) :=
  entry.2.foldlM
    (fun lists parent => (find parent).map fun i => Function.update lists i (lists i ++ [entry.1])) lists

/-- The order in which a hash map gives back its entries. -/
structure HashOrder where
  entries : ∀ {α : Type}, List α → List α
  perm : ∀ {α : Type} (l : List α), (entries l).Perm l

/-- The nodes as they were read, the lists `meta` of them, and what comes of the tree. -/
structure LinkedTrees (U : Type) where
  nodes : List (Node U)
  metadata : ℕ → List U
  set : SelectionTreesSet U

section Generate

variable (sort : Sorter) (order : HashOrder) (isHiddenByDefault : U → Bool) (defaultValue : U)

/-- A default-constructed id stands for the first parent of a node without parents. -/
def parentIndex (reading : Reading U) (x : Node U) : Option ℕ :=
  sharedIdToNode reading.nodes ((reading.uniqueIdToParentSharedId x._id).getD defaultValue)

/-- A default-constructed node stands for one that is not there. -/
def nodeAt (nodes : List (Node U)) (i : ℕ) : Node U :=
  nodes.getD i ⟨.UNKNOWN, "", defaultValue, defaultValue, [], .SHOW⟩

/-- `generateSelectionTrees`, which fails if a missing node is dereferenced. -/
def generateLinkedTrees (documents : List (RepoNode U)) : Option (LinkedTrees U) := do
  let reading := Reading.readAll documents
  let links := links (parentIndex defaultValue reading) reading.nodes
  let metadata ← (order.entries reading.metadataUniqueIdToParentsSharedIds.entries).foldlM
    (listMetadata (sharedIdToNode reading.nodes)) fun _ => []
  let root ← links.root
  let tree ← grow links.children reading.nodes.length root
  some
    { nodes := reading.nodes
      metadata := metadata
      set := generateSelectionTrees sort isHiddenByDefault (tree.map (nodeAt defaultValue reading.nodes)) }

end Generate

/-! ### What the tree should have -/

/-- The documents of a revision. -/
structure Revision (U : Type) where
  documents : List (RepoNode U)
  nodup : (documents.map RepoNode.uniqueId).Nodup
  nodup_shared : ((documents.filter fun repo => Reading.IsNode repo).map RepoNode.sharedId).Nodup

/-- The only transformation without parents. -/
structure IsRoot (documents : List (RepoNode U)) (r : RepoNode U) : Prop where
  mem : r ∈ documents
  type : r.type = .TRANSFORMATION
  parentIds : r.parentIds = []
  unique : ∀ n ∈ documents, n.type = .TRANSFORMATION → n.parentIds = [] → n = r

/-- The ids from `r` down to a node, by the first parents. -/
inductive Chain (documents : List (RepoNode U)) (r : RepoNode U) : List U → RepoNode U → Prop
  | root : Chain documents r [r.uniqueId] r
  | child {path : List U} {p n : RepoNode U} : Chain documents r path p → n ∈ documents → Reading.IsNode n →
      n.parentIds.head? = some p.sharedId → Chain documents r (path ++ [n.uniqueId]) n

/-- No node below `r` and no metadata of a node is lost. -/
structure KeepsNodes (documents : List (RepoNode U)) (r : RepoNode U) (trees : LinkedTrees U) : Prop where
  idToPath : ∀ path n, Chain documents r path n → trees.set.idToPath n.uniqueId = some path
  metadata : ∀ m ∈ documents, m.type = .METADATA → ∀ n ∈ documents, Reading.IsNode n → n.sharedId ∈ m.parentIds →
    ∃ i x, trees.nodes[i]? = some x ∧ x._id = n.uniqueId ∧ m.uniqueId ∈ trees.metadata i

/-- No node has the id of the first parent, where a node without parents has the default id for it. -/
def Unresolved (defaultValue : U) (documents : List (RepoNode U)) (n : RepoNode U) : Prop :=
  Reading.IsNode n ∧ ∀ p ∈ documents, Reading.IsNode p → p.sharedId ≠ n.parentIds.head?.getD defaultValue

instance (defaultValue : U) (documents : List (RepoNode U)) (n : RepoNode U) :
    Decidable (Unresolved defaultValue documents n) := inferInstanceAs (Decidable (_ ∧ _))

/-! ### What is read -/

section Read

open Reading

private theorem readAll_concat (documents : List (RepoNode U)) (repo : RepoNode U) :
    readAll (documents ++ [repo]) = (readAll documents).read repo := List.foldl_concat ..

variable {repo : RepoNode U} {documents : List (RepoNode U)}

omit [DecidableEq U] in
private theorem not_isNode_of_metadata (h : repo.type = .METADATA) : ¬ IsNode repo := by
  rintro (hmesh | htransformation)
  · exact absurd (h.symm.trans hmesh) (by decide)
  · exact absurd (h.symm.trans htransformation) (by decide)

private theorem nodes_readAll (documents : List (RepoNode U)) :
    (readAll documents).nodes = (documents.filter fun repo => IsNode repo).map node := by
  induction documents using List.reverseRecOn with
  | nil => rfl
  | append_singleton documents repo ih =>
    rw [readAll_concat, Reading.read, List.filter_append, List.map_append, ← ih]
    by_cases hnode : IsNode repo
    · simp [hnode]
    · by_cases htype : repo.type = .METADATA
      · simp [hnode, htype]
      · simp [hnode, htype]

private theorem uniqueIdToParentSharedId_read (s : Reading U) (repo : RepoNode U)
    (hnone : s.uniqueIdToParentSharedId repo.uniqueId = none) (id : U) : (s.read repo).uniqueIdToParentSharedId id =
      if IsNode repo ∧ id = repo.uniqueId then repo.parentIds.head? else s.uniqueIdToParentSharedId id := by
  unfold Reading.read
  by_cases hnode : IsNode repo
  · rw [if_pos hnode]
    by_cases hid : id = repo.uniqueId
    · subst hid
      rw [if_pos ⟨hnode, rfl⟩]
      cases hparents : repo.parentIds with
      | nil => simpa using hnone
      | cons parent parents => simp
    · rw [if_neg fun h => hid h.2]
      cases hparents : repo.parentIds with
      | nil => rfl
      | cons parent parents => simp [hid]
  · have hnot : ¬ (IsNode repo ∧ id = repo.uniqueId) := fun h => hnode h.1
    rw [if_neg hnode, if_neg hnot]
    split <;> rfl

/-- The first parent of every node is known, and nothing of other ids. -/
theorem uniqueIdToParentSharedId_readAll (hnodup : (documents.map RepoNode.uniqueId).Nodup) :
    (∀ n ∈ documents, IsNode n → (readAll documents).uniqueIdToParentSharedId n.uniqueId = n.parentIds.head?) ∧
      ∀ id ∉ documents.map RepoNode.uniqueId, (readAll documents).uniqueIdToParentSharedId id = none := by
  induction documents using List.reverseRecOn with
  | nil => exact ⟨fun n hn => absurd hn List.not_mem_nil, fun _ _ => rfl⟩
  | append_singleton documents repo ih =>
    rw [List.map_append, List.map_singleton, List.nodup_append] at hnodup
    obtain ⟨hnodup, -, hnew⟩ := hnodup
    obtain ⟨hknown, hnone⟩ := ih hnodup
    have hrepo : repo.uniqueId ∉ documents.map RepoNode.uniqueId :=
      fun hmem => hnew _ hmem _ (List.mem_singleton_self _) rfl
    simp only [readAll_concat, uniqueIdToParentSharedId_read _ repo (hnone _ hrepo)]
    constructor
    · intro n hn hnode
      rcases List.mem_append.1 hn with hn | hn
      · have hne : n.uniqueId ≠ repo.uniqueId := fun heq => hrepo (heq ▸ List.mem_map_of_mem hn)
        rw [if_neg fun h => hne h.2]
        exact hknown n hn hnode
      · obtain rfl := List.mem_singleton.1 hn
        rw [if_pos ⟨hnode, rfl⟩]
    · intro id hid
      rw [List.map_append, List.mem_append, not_or] at hid
      rw [if_neg fun h => hid.2 (List.mem_singleton.2 h.2)]
      exact hnone id hid.1

/-- The metadata are read with their parents. -/
theorem lookup_readAll (hnodup : (documents.map RepoNode.uniqueId).Nodup) (id : U) (parents : List U) :
    (readAll documents).metadataUniqueIdToParentsSharedIds.lookup id = some parents ↔
      ∃ m ∈ documents, m.type = .METADATA ∧ m.uniqueId = id ∧ m.parentIds = parents := by
  induction documents using List.reverseRecOn with
  | nil => simp [readAll, Reading.empty]
  | append_singleton documents repo ih =>
    rw [List.map_append, List.map_singleton, List.nodup_append] at hnodup
    obtain ⟨hnodup, -, hnew⟩ := hnodup
    have hrepo : ∀ m ∈ documents, m.uniqueId ≠ repo.uniqueId :=
      fun m hm => hnew _ (List.mem_map_of_mem hm) _ (List.mem_singleton_self _)
    rw [readAll_concat, Reading.read]
    by_cases hmetadata : repo.type = .METADATA
    · rw [if_neg (not_isNode_of_metadata hmetadata), if_pos hmetadata]
      by_cases hid : id = repo.uniqueId
      · subst hid
        rw [AList.lookup_insert, Option.some.injEq]
        constructor
        · intro h
          exact ⟨repo, by simp, hmetadata, rfl, h⟩
        · rintro ⟨m, hm, -, hid, rfl⟩
          rcases List.mem_append.1 hm with hm | hm
          · exact absurd hid (hrepo m hm)
          · rw [List.mem_singleton.1 hm]
      · have hlast : ∀ P : RepoNode U → Prop, (∃ m ∈ documents ++ [repo], m.type = .METADATA ∧ m.uniqueId = id ∧ P m) ↔
            ∃ m ∈ documents, m.type = .METADATA ∧ m.uniqueId = id ∧ P m := by
          intro P
          simp [or_and_right, exists_or, Ne.symm hid]
        rw [AList.lookup_insert_ne hid, ih hnodup, hlast]
    · have hlast : ∀ P : RepoNode U → Prop, (∃ m ∈ documents ++ [repo], m.type = .METADATA ∧ P m) ↔
          ∃ m ∈ documents, m.type = .METADATA ∧ P m := by
        intro P
        simp [or_and_right, exists_or, hmetadata]
      rw [if_neg hmetadata, hlast, ← ih hnodup]
      split <;> rfl

end Read

/-! ### What is linked -/

section Link

private theorem foldl_update_eq_some {l : List (Node U × ℕ)} (hnodup : (l.map fun x => x.1.shared_id).Nodup) (id : U) (i : ℕ) :
    l.foldl (fun (m : U → Option ℕ) x => Function.update m x.1.shared_id (some x.2)) (fun _ => none) id = some i ↔
      ∃ x, (x, i) ∈ l ∧ x.shared_id = id := by
  induction l using List.reverseRecOn with
  | nil => simp
  | append_singleton l y ih =>
    rw [List.map_append, List.map_singleton, List.nodup_append] at hnodup
    obtain ⟨hnodup, -, hnew⟩ := hnodup
    rw [List.foldl_concat]
    by_cases hid : id = y.1.shared_id
    · subst hid
      rw [Function.update_self, Option.some.injEq]
      constructor
      · rintro rfl
        exact ⟨y.1, by simp, rfl⟩
      · rintro ⟨x, hx, hid⟩
        rcases List.mem_append.1 hx with hx | hx
        · exact absurd hid (hnew _ (List.mem_map_of_mem hx) _ (List.mem_singleton_self _))
        · rw [← List.mem_singleton.1 hx]
    · have hne : ∀ x : Node U, x.shared_id = id → (x, i) ≠ y := by
        rintro x rfl rfl
        exact hid rfl
      rw [Function.update_of_ne hid, ih hnodup]
      simp only [List.mem_append, List.mem_singleton]
      constructor
      · rintro ⟨x, hx, hid⟩
        exact ⟨x, .inl hx, hid⟩
      · rintro ⟨x, hx, hid⟩
        exact ⟨x, hx.resolve_right (hne x hid), hid⟩

private theorem sharedIdToNode_eq_some {nodes : List (Node U)} (hnodup : (nodes.map Node.shared_id).Nodup) {id : U} {i : ℕ} :
    sharedIdToNode nodes id = some i ↔ ∃ x, nodes[i]? = some x ∧ x.shared_id = id := by
  have hmap : (nodes.zipIdx.map fun x => x.1.shared_id) = nodes.map Node.shared_id := by
    conv_rhs => rw [← List.zipIdx_map_fst 0 nodes, List.map_map]
    rfl
  rw [sharedIdToNode, foldl_update_eq_some (by rwa [hmap])]
  simp only [List.mk_mem_zipIdx_iff_getElem?]

section Children

omit [DecidableEq U]

variable (parent : Node U → Option ℕ)

private theorem foldl_link (l : List (Node U × ℕ)) :
    (∀ p, (l.foldl (Links.link parent) ⟨fun _ => [], none⟩).children p =
      (l.filter fun x => parent x.1 = some p).map Prod.snd) ∧
    (l.foldl (Links.link parent) ⟨fun _ => [], none⟩).root =
      (l.filter fun x => parent x.1 = none).getLast?.map Prod.snd := by
  induction l using List.reverseRecOn with
  | nil => exact ⟨fun _ => rfl, rfl⟩
  | append_singleton l y ih =>
    rw [List.foldl_concat, Links.link]
    cases hparent : parent y.1 with
    | none =>
      refine ⟨fun p => ?_, ?_⟩
      · simp [ih.1, hparent]
      · simp [hparent]
    | some q =>
      refine ⟨fun p => ?_, ?_⟩
      · by_cases hp : p = q
        · subst hp
          simp [ih.1, hparent]
        · simp [ih.1, hparent, hp, Ne.symm hp]
      · simp [ih.2, hparent]

variable {parent} {nodes : List (Node U)}

private theorem mem_children_links (p i : ℕ) :
    i ∈ (links parent nodes).children p ↔ (nodes[i]?).bind parent = some p := by
  rw [links, (foldl_link parent _).1, Option.bind_eq_some_iff]
  simp [List.mk_mem_zipIdx_iff_getElem?]

private theorem nodup_children_links (p : ℕ) : ((links parent nodes).children p).Nodup := by
  rw [links, (foldl_link parent _).1]
  refine List.Nodup.sublist (List.filter_sublist.map Prod.snd) ?_
  rw [List.zipIdx_map_snd]
  exact List.nodup_range'

private theorem root_links : ((links parent nodes).root).bind (fun i => nodes[i]?) =
    (nodes.filter fun x => parent x = none).getLast? := by
  have hfst : (nodes.filter fun x => parent x = none) =
      (nodes.zipIdx.filter fun x => parent x.1 = none).map Prod.fst := by
    conv_lhs => rw [← List.zipIdx_map_fst 0 nodes, List.filter_map]
    rfl
  rw [links, (foldl_link parent _).2, hfst, List.getLast?_map]
  cases hlast : (nodes.zipIdx.filter fun x => parent x.1 = none).getLast? with
  | none => rfl
  | some x =>
    have hx : x ∈ nodes.zipIdx := (List.mem_filter.1 (List.mem_of_getLast? hlast)).1
    exact List.mem_zipIdx_iff_getElem?.1 hx

private theorem exists_of_root_links {i : ℕ} (h : (links parent nodes).root = some i) :
    ∃ x, nodes[i]? = some x ∧ parent x = none := by
  rw [links, (foldl_link parent _).2, Option.map_eq_some_iff] at h
  obtain ⟨x, hlast, rfl⟩ := h
  obtain ⟨hx, hparent⟩ := List.mem_filter.1 (List.mem_of_getLast? hlast)
  exact ⟨x.1, List.mem_zipIdx_iff_getElem?.1 hx, by simpa using hparent⟩

end Children

section Lists

variable {find : U → Option ℕ} {entries : List (Sigma fun _ : U => List U)} {lists lists' : ℕ → List U}
  {entry : Sigma fun _ : U => List U}

omit [DecidableEq U]

private theorem exists_listMetadata_iff (entries : List (Sigma fun _ : U => List U)) (lists : ℕ → List U) :
    (∃ lists', entries.foldlM (listMetadata find) lists = some lists') ↔
      ∀ entry ∈ entries, ∀ parent ∈ entry.2, ∃ i, find parent = some i := by
  refine exists_foldlM_iff (fun lists entry => ?_) entries lists
  refine exists_foldlM_iff (fun lists parent => ?_) entry.2 lists
  simp [Option.map_eq_some_iff]

private theorem mem_of_listMetadata {id : U} {i : ℕ} (h : listMetadata find lists entry = some lists') (hid : id ∈ lists i) :
    id ∈ lists' i := by
  refine foldlM_keeps (Q := fun lists => id ∈ lists i) ?_ h hid
  intro lists parent lists' hparent hid
  obtain ⟨j, -, rfl⟩ := Option.map_eq_some_iff.1 hparent
  by_cases hij : i = j
  · subst hij
    simp [hid]
  · simpa [Function.update_of_ne hij] using hid

private theorem mem_listMetadata (h : listMetadata find lists entry = some lists') :
    ∀ parent ∈ entry.2, ∀ i, find parent = some i → entry.1 ∈ lists' i := by
  refine forall_of_foldlM (Q := fun parent lists => ∀ i, find parent = some i → entry.1 ∈ lists i) ?_ ?_ h
  · intro parent lists other lists' hother hlisted i hi
    obtain ⟨j, -, rfl⟩ := Option.map_eq_some_iff.1 hother
    by_cases hij : i = j
    · subst hij
      simp
    · simpa [Function.update_of_ne hij] using hlisted i hi
  · intro lists parent lists' hparent i hi
    obtain ⟨j, hj, rfl⟩ := Option.map_eq_some_iff.1 hparent
    obtain rfl := Option.some.inj (hi.symm.trans hj)
    simp

private theorem mem_foldlM_listMetadata (h : entries.foldlM (listMetadata find) lists = some lists') :
    ∀ entry ∈ entries, ∀ parent ∈ entry.2, ∀ i, find parent = some i → entry.1 ∈ lists' i := by
  refine forall_of_foldlM
    (Q := fun entry lists => ∀ parent ∈ entry.2, ∀ i, find parent = some i → entry.1 ∈ lists i) ?_ ?_ h
  · intro entry lists other lists' hother hlisted parent hparent i hi
    exact mem_of_listMetadata hother (hlisted parent hparent i hi)
  · intro lists entry lists' hentry
    exact mem_listMetadata hentry

end Lists

end Link

/-! ### The paths that are written -/

private theorem head?_of_path {α : Type} {t s : RoseTree α} {p : List α} (h : RoseTree.Path t p s) : p.head? = some t.value := by
  rcases RoseTree.path_iff.1 h with ⟨rfl, -⟩ | ⟨-, -, q, rfl, -⟩ <;> rfl

private theorem idToPath_eq_some_iff (sort : Sorter) (isHiddenByDefault : U → Bool) {t : RoseTree (Node U)} (hids : (ids t).Nodup)
    {id : U} {path : List U} : (generateSelectionTrees sort isHiddenByDefault t).idToPath id = some path ↔
      ∃ p s, RoseTree.Path t p s ∧ s.value._id = id ∧ p.map Node._id = path := by
  have h := traversed_traversePtree sort isHiddenByDefault t hids []
    { idToPath := fun _ => none, idToMeshes := fun _ => none, idToName := fun _ => none, idMap := fun _ => none
      hiddenNodes := [] }
  have hwritten : ∀ p s, RoseTree.Path t p s →
      (generateSelectionTrees sort isHiddenByDefault t).idToPath s.value._id = some (p.map Node._id) :=
    h.idToPath t (List.mem_singleton_self t)
  constructor
  · intro hpath
    by_cases hid : id ∈ ids t
    · obtain ⟨n, hn, rfl⟩ := List.mem_map.1 hid
      obtain ⟨s, hs, rfl⟩ := List.mem_map.1 hn
      obtain ⟨p, hp⟩ := RoseTree.exists_path hs
      exact ⟨p, s, hp, rfl, Option.some.inj ((hwritten p s hp).symm.trans hpath)⟩
    · have hnone : (generateSelectionTrees sort isHiddenByDefault t).idToPath id = none :=
        (h.outside id (by simpa using hid)).1
      rw [hnone] at hpath
      cases hpath
  · rintro ⟨p, s, hp, rfl, rfl⟩
    exact hwritten p s hp

/-! ### The nodes of a revision -/

namespace Revision

open Reading

variable (rev : Revision U) (defaultValue : U)

def nodes : List (Node U) := (readAll rev.documents).nodes

def parent : Node U → Option ℕ := parentIndex defaultValue (readAll rev.documents)

variable {rev defaultValue} {i : ℕ} {x : Node U} {n r : RepoNode U}

omit [DecidableEq U] in
private theorem eq_of_uniqueId (hn : n ∈ rev.documents) (hr : r ∈ rev.documents) (h : n.uniqueId = r.uniqueId) : n = r :=
  List.inj_on_of_nodup_map rev.nodup hn hr h

private theorem mem_nodes : x ∈ rev.nodes ↔ ∃ n ∈ rev.documents, IsNode n ∧ node n = x := by
  rw [nodes, nodes_readAll]
  simp [and_assoc]

private theorem nodup_shared_nodes : (rev.nodes.map Node.shared_id).Nodup := by
  rw [nodes, nodes_readAll, List.map_map]
  exact rev.nodup_shared

private theorem nodup_id_nodes : (rev.nodes.map Node._id).Nodup := by
  rw [nodes, nodes_readAll, List.map_map]
  exact rev.nodup.sublist (List.filter_sublist.map _)

private theorem exists_getElem? (hn : n ∈ rev.documents) (hnode : IsNode n) : ∃ i : ℕ, rev.nodes[i]? = some (node n) :=
  List.mem_iff_getElem?.1 (mem_nodes.2 ⟨n, hn, hnode, rfl⟩)

private theorem find_eq_some {id : U} : sharedIdToNode rev.nodes id = some i ↔
    ∃ n ∈ rev.documents, IsNode n ∧ n.sharedId = id ∧ rev.nodes[i]? = some (node n) := by
  rw [sharedIdToNode_eq_some nodup_shared_nodes]
  constructor
  · rintro ⟨x, hx, hid⟩
    obtain ⟨n, hn, hnode, rfl⟩ := mem_nodes.1 (List.mem_of_getElem? hx)
    exact ⟨n, hn, hnode, hid, hx⟩
  · rintro ⟨n, -, -, hid, hx⟩
    exact ⟨node n, hx, hid⟩

private theorem find_eq_none {id : U} : sharedIdToNode rev.nodes id = none ↔
    ∀ p ∈ rev.documents, IsNode p → p.sharedId ≠ id := by
  rw [Option.eq_none_iff_forall_ne_some]
  constructor
  · intro h p hp hnode hid
    obtain ⟨i, hi⟩ := exists_getElem? hp hnode
    exact h i (find_eq_some.2 ⟨p, hp, hnode, hid, hi⟩)
  · intro h i hi
    obtain ⟨p, hp, hnode, hid, -⟩ := find_eq_some.1 hi
    exact h p hp hnode hid

private theorem parent_node (hn : n ∈ rev.documents) (hnode : IsNode n) :
    rev.parent defaultValue (node n) = sharedIdToNode rev.nodes (n.parentIds.head?.getD defaultValue) := by
  have hknown := (uniqueIdToParentSharedId_readAll rev.nodup).1 n hn hnode
  rw [parent, parentIndex, ← hknown]
  rfl

private theorem filter_parent : (rev.nodes.filter fun x => rev.parent defaultValue x = none) =
    (rev.documents.filter fun n => Unresolved defaultValue rev.documents n).map node := by
  conv_lhs => rw [nodes, nodes_readAll, List.filter_map, List.filter_filter]
  congr 1
  refine List.filter_congr fun n hn => ?_
  rw [Bool.eq_iff_iff]
  simp only [Function.comp_apply, Bool.and_eq_true, decide_eq_true_eq]
  constructor
  · rintro ⟨hparent, hnode⟩
    exact ⟨hnode, find_eq_none.1 (parent_node hn hnode ▸ hparent)⟩
  · rintro ⟨hnode, hall⟩
    exact ⟨(parent_node hn hnode).trans (find_eq_none.2 hall), hnode⟩

/-! ### The tree below the root -/

variable (rev defaultValue) in
/-- The node above a node, if it is found. -/
def above (i : ℕ) : Option ℕ := (rev.nodes[i]?).bind (rev.parent defaultValue)

variable (rev defaultValue) in
def links : Links := SelectionTree.links (rev.parent defaultValue) rev.nodes

private theorem lt_of_above {i j : ℕ} (h : rev.above defaultValue i = some j) : i ∈ List.range rev.nodes.length := by
  obtain ⟨x, hx, -⟩ := Option.bind_eq_some_iff.1 h
  exact List.mem_range.2 (List.getElem?_eq_some_iff.1 hx).1

private theorem mem_children (p i : ℕ) : i ∈ (rev.links defaultValue).children p ↔ rev.above defaultValue i = some p :=
  mem_children_links p i

variable {root : ℕ}

private theorem root_spec (h : (rev.links defaultValue).root = some root) :
    root ∈ List.range rev.nodes.length ∧ rev.above defaultValue root = none := by
  obtain ⟨x, hx, hparent⟩ := exists_of_root_links h
  refine ⟨List.mem_range.2 (List.getElem?_eq_some_iff.1 hx).1, ?_⟩
  rw [above, hx]
  exact hparent

private theorem exists_tree (h : (rev.links defaultValue).root = some root) :
    ∃ t, grow (rev.links defaultValue).children rev.nodes.length root = some t := by
  obtain ⟨hmem, hroot⟩ := root_spec h
  refine exists_grow_of_lineage mem_children hmem (fun c a hc => lt_of_above hc) hroot .root ?_
  rw [List.length_range, List.length_singleton]
  omega

private theorem nodeAt_of_getElem? (h : rev.nodes[i]? = some x) : nodeAt defaultValue rev.nodes i = x := by
  rw [nodeAt, List.getD_eq_getElem?_getD, h, Option.getD_some]

variable {t : RoseTree ℕ}

private theorem nodup_ids_tree (h : (rev.links defaultValue).root = some root)
    (hgrow : grow (rev.links defaultValue).children rev.nodes.length root = some t) :
    (ids (t.map (nodeAt defaultValue rev.nodes))).Nodup := by
  obtain ⟨hmem, hroot⟩ := root_spec h
  have hvalues : t.values.Nodup :=
    nodup_values_of_lineage mem_children hroot nodup_children_links .root hgrow
  have hstart : Lineage (rev.above defaultValue) root [root] root := .root
  have hlt : ∀ i ∈ t.values, i < rev.nodes.length := by
    intro i hi
    obtain ⟨rest, hline⟩ := hstart.extend mem_children ((mem_values_grow hgrow).1 hi)
    exact List.mem_range.1 (hline.subset hmem (fun c a hc => lt_of_above hc) hline.mem)
  rw [ids, RoseTree.values_map, List.map_map]
  refine hvalues.map_on fun i hi j hj heq => ?_
  have hi := List.getElem?_eq_getElem (hlt i hi)
  have hj := List.getElem?_eq_getElem (hlt j hj)
  rw [Function.comp_apply, Function.comp_apply, nodeAt_of_getElem? hi, nodeAt_of_getElem? hj] at heq
  refine (List.getElem?_inj (by simpa using hlt i ‹_›) nodup_id_nodes).1 ?_
  rw [List.getElem?_map, List.getElem?_map, hi, hj, Option.map_some, Option.map_some, heq]

private theorem exists_lineage_of_chain {path : List U} (hr : rev.nodes[root]? = some (node r))
    (hroot : r ∈ rev.documents ∧ IsNode r) (h : Chain rev.documents r path n) :
    ∃ line i, Lineage (rev.above defaultValue) root line i ∧ rev.nodes[i]? = some (node n) ∧
      line.map (fun j => (nodeAt defaultValue rev.nodes j)._id) = path ∧ n ∈ rev.documents ∧ IsNode n := by
  induction h with
  | root => exact ⟨[root], root, .root, hr, by rw [List.map_singleton, nodeAt_of_getElem? hr]; rfl, hroot⟩
  | @child path p n _ hn hnode hparent ih =>
    obtain ⟨line, j, hline, hj, hpath, hp, hpnode⟩ := ih
    obtain ⟨i, hi⟩ := exists_getElem? hn hnode
    have habove : rev.above defaultValue i = some j := by
      rw [above, hi, Option.bind_some, parent_node hn hnode, hparent]
      exact find_eq_some.2 ⟨p, hp, hpnode, rfl, hj⟩
    refine ⟨line ++ [i], i, hline.child habove, hi, ?_, hn, hnode⟩
    rw [List.map_append, hpath, List.map_singleton, nodeAt_of_getElem? hi]
    rfl

end Revision

/-! ### The tree keeps its nodes -/

section Keeps

open Reading

variable (sort : Sorter) (order : HashOrder) (isHiddenByDefault : U → Bool) (defaultValue : U)

private theorem generateLinkedTrees_eq_some (rev : Revision U) {trees : LinkedTrees U} :
    generateLinkedTrees sort order isHiddenByDefault defaultValue rev.documents = some trees ↔ ∃ lists root t,
      (order.entries (readAll rev.documents).metadataUniqueIdToParentsSharedIds.entries).foldlM
        (listMetadata (sharedIdToNode rev.nodes)) (fun _ => []) = some lists ∧
      (rev.links defaultValue).root = some root ∧
      grow (rev.links defaultValue).children rev.nodes.length root = some t ∧
      ⟨rev.nodes, lists, generateSelectionTrees sort isHiddenByDefault (t.map (nodeAt defaultValue rev.nodes))⟩ = trees := by
  simp only [generateLinkedTrees, Option.bind_eq_bind, Option.bind_eq_some_iff, Option.some.injEq]
  constructor
  · rintro ⟨lists, hlists, root, hroot, t, ht, rfl⟩
    exact ⟨lists, root, t, hlists, hroot, ht, rfl⟩
  · rintro ⟨lists, root, t, hlists, hroot, ht, rfl⟩
    exact ⟨lists, hlists, root, hroot, t, ht, rfl⟩

private theorem mem_entries_readAll (rev : Revision U) {entry : Sigma fun _ : U => List U} :
    entry ∈ order.entries (readAll rev.documents).metadataUniqueIdToParentsSharedIds.entries ↔
      ∃ m ∈ rev.documents, m.type = .METADATA ∧ m.uniqueId = entry.1 ∧ m.parentIds = entry.2 := by
  rw [(order.perm _).mem_iff, ← lookup_readAll rev.nodup, ← Option.mem_def, AList.mem_lookup_iff]

variable {sort order isHiddenByDefault defaultValue} {rev : Revision U} {r : RepoNode U} {trees : LinkedTrees U}

private theorem bind_root_links (defaultValue : U) (rev : Revision U) : ((rev.links defaultValue).root).bind (fun i => rev.nodes[i]?) =
    (rev.documents.filter fun n => Unresolved defaultValue rev.documents n).getLast?.map node := by
  rw [← List.getLast?_map, ← Revision.filter_parent]
  exact root_links

private theorem getLast?_of_keepsNodes (hr : r ∈ rev.documents)
    (htrees : generateLinkedTrees sort order isHiddenByDefault defaultValue rev.documents = some trees)
    (hkeeps : KeepsNodes rev.documents r trees) :
    (rev.documents.filter fun n => Unresolved defaultValue rev.documents n).getLast? = some r := by
  obtain ⟨lists, root, t, -, hroot, hgrow, rfl⟩ :=
    (generateLinkedTrees_eq_some sort order isHiddenByDefault defaultValue rev).1 htrees
  obtain ⟨x, hx, -⟩ := exists_of_root_links hroot
  -- the path of `r` starts at the root of the tree
  obtain ⟨p, s, hpath, -, hp⟩ := (idToPath_eq_some_iff sort isHiddenByDefault
    (Revision.nodup_ids_tree hroot hgrow)).1 (hkeeps.idToPath _ _ .root)
  have hhead := congrArg List.head? hp
  rw [List.head?_map, head?_of_path hpath, RoseTree.value_map, value_of_grow hgrow,
    Revision.nodeAt_of_getElem? hx] at hhead
  have hid : x._id = r.uniqueId := Option.some.inj hhead
  have hlast := bind_root_links defaultValue rev
  rw [hroot, Option.bind_some, hx] at hlast
  obtain ⟨n, hn, rfl⟩ := Option.map_eq_some_iff.1 hlast.symm
  have hmem : n ∈ rev.documents := (List.mem_filter.1 (List.mem_of_getLast? hn)).1
  rwa [Revision.eq_of_uniqueId hmem hr hid] at hn

private theorem parents_of_generateLinkedTrees
    (htrees : generateLinkedTrees sort order isHiddenByDefault defaultValue rev.documents = some trees) :
    ∀ m ∈ rev.documents, m.type = .METADATA → ∀ s ∈ m.parentIds, ∃ n ∈ rev.documents, IsNode n ∧ n.sharedId = s := by
  intro m hm hmetadata s hs
  obtain ⟨lists, -, -, hlists, -⟩ :=
    (generateLinkedTrees_eq_some sort order isHiddenByDefault defaultValue rev).1 htrees
  obtain ⟨i, hi⟩ := (exists_listMetadata_iff _ _).1 ⟨lists, hlists⟩ ⟨m.uniqueId, m.parentIds⟩
    ((mem_entries_readAll order rev).2 ⟨m, hm, hmetadata, rfl, rfl⟩) s hs
  obtain ⟨n, hn, hnode, hid, -⟩ := Revision.find_eq_some.1 hi
  exact ⟨n, hn, hnode, hid⟩

private theorem exists_keepsNodes (hr : IsRoot rev.documents r)
    (hlast : (rev.documents.filter fun n => Unresolved defaultValue rev.documents n).getLast? = some r)
    (hparents : ∀ m ∈ rev.documents, m.type = .METADATA → ∀ s ∈ m.parentIds,
      ∃ n ∈ rev.documents, IsNode n ∧ n.sharedId = s) :
    ∃ trees, generateLinkedTrees sort order isHiddenByDefault defaultValue rev.documents = some trees ∧
      KeepsNodes rev.documents r trees := by
  obtain ⟨lists, hlists⟩ : ∃ lists,
      (order.entries (readAll rev.documents).metadataUniqueIdToParentsSharedIds.entries).foldlM
        (listMetadata (sharedIdToNode rev.nodes)) (fun _ => []) = some lists := by
    refine (exists_listMetadata_iff _ _).2 fun entry hentry parent hparent => ?_
    obtain ⟨m, hm, hmetadata, -, hids⟩ := (mem_entries_readAll order rev).1 hentry
    obtain ⟨n, hn, hnode, hid⟩ := hparents m hm hmetadata parent (hids ▸ hparent)
    obtain ⟨i, hi⟩ := Revision.exists_getElem? hn hnode
    exact ⟨i, Revision.find_eq_some.2 ⟨n, hn, hnode, hid, hi⟩⟩
  have hroots := bind_root_links defaultValue rev
  rw [hlast, Option.map_some] at hroots
  obtain ⟨root, hroot, hx⟩ := Option.bind_eq_some_iff.1 hroots
  obtain ⟨t, hgrow⟩ := Revision.exists_tree hroot
  refine ⟨_, (generateLinkedTrees_eq_some sort order isHiddenByDefault defaultValue rev).2
    ⟨lists, root, t, hlists, hroot, hgrow, rfl⟩, ?_, ?_⟩
  · intro path n hchain
    obtain ⟨line, i, hline, hi, hids, -⟩ := Revision.exists_lineage_of_chain hx ⟨hr.mem, .inr hr.type⟩ hchain
    obtain ⟨s, hs, rfl⟩ := exists_path_of_lineage Revision.mem_children hgrow hline
    refine (idToPath_eq_some_iff sort isHiddenByDefault (Revision.nodup_ids_tree hroot hgrow)).2
      ⟨_, _, hs.map _, ?_, ?_⟩
    · rw [RoseTree.value_map, Revision.nodeAt_of_getElem? hi]
      rfl
    · rw [List.map_map]
      exact hids
  · intro m hm hmetadata n hn hnode hparent
    obtain ⟨i, hi⟩ := Revision.exists_getElem? hn hnode
    refine ⟨i, node n, hi, rfl, ?_⟩
    exact mem_foldlM_listMetadata hlists ⟨m.uniqueId, m.parentIds⟩
      ((mem_entries_readAll order rev).2 ⟨m, hm, hmetadata, rfl, rfl⟩) n.sharedId hparent i
      (Revision.find_eq_some.2 ⟨n, hn, hnode, rfl, hi⟩)

variable (sort order isHiddenByDefault defaultValue)

/-- The tree is complete exactly if `r` is the last node without a parent in the collection and every parent of metadata is a
node of it. -/
theorem keepsNodes_iff (rev : Revision U) {r : RepoNode U} (hr : IsRoot rev.documents r) :
    (∃ trees, generateLinkedTrees sort order isHiddenByDefault defaultValue rev.documents = some trees ∧
      KeepsNodes rev.documents r trees) ↔
    (rev.documents.filter fun n => Unresolved defaultValue rev.documents n).getLast? = some r ∧
      ∀ m ∈ rev.documents, m.type = .METADATA → ∀ s ∈ m.parentIds, ∃ n ∈ rev.documents, IsNode n ∧ n.sharedId = s := by
  constructor
  · rintro ⟨trees, htrees, hkeeps⟩
    exact ⟨getLast?_of_keepsNodes hr.mem htrees hkeeps, parents_of_generateLinkedTrees htrees⟩
  · rintro ⟨hlast, hparents⟩
    exact exists_keepsNodes hr hlast hparents

end Keeps

/-! ### A site -/

section Site

deriving instance DecidableEq for RepoNode

def site : RepoNode ℕ := ⟨.TRANSFORMATION, "Site", 1, 11, [], List.nodup_nil⟩

def wall : RepoNode ℕ := ⟨.MESH, "Wall", 2, 12, [11], by decide⟩

/-- A mesh whose parent is not there. -/
def orphan : RepoNode ℕ := ⟨.MESH, "Orphan", 3, 13, [19], by decide⟩

/-- Metadata of the wall and of something that is not there. -/
def notes : RepoNode ℕ := ⟨.METADATA, "Notes", 4, 14, [12, 19], by decide⟩

def HashOrder.inOrder : HashOrder := ⟨fun l => l, fun l => .refl l⟩

/-- The wall with an orphan before the site. -/
def orphanFirst : Revision ℕ := ⟨[orphan, wall, site], by decide, by decide⟩

private theorem isRoot_orphanFirst : IsRoot orphanFirst.documents site := ⟨by decide, rfl, rfl, by decide⟩

theorem keepsNodes_iff_orphanFirst :
    (∃ trees, generateLinkedTrees .stable .inOrder (fun _ => false) 0 orphanFirst.documents = some trees ∧
      KeepsNodes orphanFirst.documents site trees) ↔
    (orphanFirst.documents.filter fun n => Unresolved 0 orphanFirst.documents n).getLast? = some site ∧
      ∀ m ∈ orphanFirst.documents, m.type = .METADATA → ∀ s ∈ m.parentIds,
        ∃ n ∈ orphanFirst.documents, Reading.IsNode n ∧ n.sharedId = s :=
  keepsNodes_iff .stable .inOrder (fun _ => false) 0 orphanFirst isRoot_orphanFirst

/-- The wall with an orphan after the site. -/
def orphanLast : Revision ℕ := ⟨[site, wall, orphan], by decide, by decide⟩

def withNotes : Revision ℕ := ⟨[site, wall, notes], by decide, by decide⟩

/-- Neither tree is complete: the first one is that of the orphan, and the second one is not made. -/
theorem not_keepsNodes_site : IsRoot orphanLast.documents site ∧ IsRoot withNotes.documents site ∧
    (¬ ∃ trees, generateLinkedTrees .stable .inOrder (fun _ => false) 0 orphanLast.documents = some trees ∧
      KeepsNodes orphanLast.documents site trees) ∧
    ¬ ∃ trees, generateLinkedTrees .stable .inOrder (fun _ => false) 0 withNotes.documents = some trees ∧
      KeepsNodes withNotes.documents site trees := by
  refine ⟨⟨by decide, rfl, rfl, by decide⟩, ⟨by decide, rfl, rfl, by decide⟩, ?_, ?_⟩
  · rintro ⟨trees, htrees, hkeeps⟩
    exact absurd (getLast?_of_keepsNodes List.mem_cons_self htrees hkeeps) (by decide)
  · rintro ⟨trees, htrees, -⟩
    obtain ⟨n, hn, hnode, hid⟩ := parents_of_generateLinkedTrees htrees notes (by decide) rfl 19 (by decide)
    revert n
    decide

end Site

end Bouncer.SelectionTree
