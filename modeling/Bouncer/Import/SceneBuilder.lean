import Bouncer.Library.Amendments

/-!
# Sharing materials between meshes

`RepoSceneBuilder` makes one material node for all meshes with the same material, up to a number of meshes, after which it
makes another one.  The meshes are added to the parents of the material node after it was written, and these updates are
put together in a map, which is written when it gets large.

However the updates are put together, a node has the parents that it was given, and those that were added to it
(`Updates.Follows.records_commit`).
-/

namespace Bouncer

open Library (Write Amendable inserted added)

/-- UUIDs: those of the nodes that are given, and those that are created along with new nodes. -/
inductive NodeId (U : Type) where
  | given (u : U)
  | created (n : ℕ)
  deriving DecidableEq

/-- What the builder uses of a `repo_material_t`. -/
structure MaterialFields (M : Type) where
  checksum : M → ℕ
  texturePath : M → String

inductive NodeContent (U M : Type) where
  | mesh (material : M) (textureId : Option (NodeId U))
  | material (m : M)
  | texture (path : String)
  | other

structure SceneNode (U M : Type) where
  uniqueId : NodeId U
  sharedId : NodeId U
  parents : Finset (NodeId U)
  content : NodeContent U M

/-- What is pushed: nodes, and `AddParent` updates. -/
abbrev Item (U M : Type) := Write (SceneNode U M) (NodeId U) (NodeId U)

/-- The order in which an unordered map is gone through. -/
structure Iteration (α : Type) where
  order : List α → List α
  perm : ∀ l, (order l).Perm l

def maxMaterialNodeUsage : ℕ := 500000

namespace RepoSceneBuilder

variable {U M : Type}

/-! ### The references -/

/-- The maps of materials and of textures, and how many UUIDs have been created. -/
structure References (U : Type) where
  materialToUniqueId : ℕ → Option (NodeId U × ℕ)
  textureToUniqueId : String → Option (NodeId U)
  created : ℕ
  isMissingTextures : Bool

/-- A call of `queueNode` or of `addParent`. -/
inductive Request (U M : Type) where
  | queueNode (node : SceneNode U M)
  | addParent (nodeUniqueId parentSharedId : NodeId U)

variable (fields : MaterialFields M) (isOpen : String → Bool)

/-- `addTextureReference`, where `isOpen` says which files can be opened, and the requests that it makes. -/
def addTextureReference (r : References U) (texture : String) (parentId : NodeId U) :
    References U × List (Request U M) :=
  match r.textureToUniqueId texture with
  | none =>
    if isOpen texture then
      let node : SceneNode U M := ⟨.created (r.created + 1), .created r.created, {parentId}, .texture texture⟩
      ({ r with
        textureToUniqueId := Function.update r.textureToUniqueId texture (some node.uniqueId)
        created := r.created + 2 }, [.queueNode node])
    else ({ r with isMissingTextures := true }, [])
  | some uniqueId => (r, [.addParent uniqueId parentId])

def makeMaterialNode (r : References U) (key : ℕ) (m : M) (parentId : NodeId U) : References U × List (Request U M) :=
  let node : SceneNode U M := ⟨.created (r.created + 1), .created r.created, {parentId}, .material m⟩
  let r' := { r with
    materialToUniqueId := Function.update r.materialToUniqueId key (some (node.uniqueId, 1))
    created := r.created + 2 }
  if fields.texturePath m ≠ "" then
    let texture := addTextureReference isOpen r' (fields.texturePath m) node.sharedId
    (texture.1, .queueNode node :: texture.2)
  else (r', [.queueNode node])

def addMaterialReference (r : References U) (m : M) (parentId : NodeId U) : References U × List (Request U M) :=
  let key := fields.checksum m
  match r.materialToUniqueId key with
  | none => makeMaterialNode fields isOpen r key m parentId
  | some (uniqueId, usage) =>
    if usage ≥ maxMaterialNodeUsage then makeMaterialNode fields isOpen r key m parentId
    else
      ({ r with materialToUniqueId := Function.update r.materialToUniqueId key (some (uniqueId, usage + 1)) },
        [.addParent uniqueId parentId])

/-- A node that is given to the builder: a mesh with its material, or any other node but a material. -/
structure GivenNode (U M : Type) where
  uniqueId : U
  sharedId : U
  parents : Finset (NodeId U)
  material : Option M

def addNode (r : References U) (node : GivenNode U M) : References U × List (Request U M) :=
  match node.material with
  | none => (r, [.queueNode ⟨.given node.uniqueId, .given node.sharedId, node.parents, .other⟩])
  | some material =>
    let reference := addMaterialReference fields isOpen r material (.given node.sharedId)
    let textureId :=
      if fields.texturePath material ≠ "" then reference.1.textureToUniqueId (fields.texturePath material) else none
    (reference.1, reference.2 ++
      [.queueNode ⟨.given node.uniqueId, .given node.sharedId, node.parents, .mesh material textureId⟩])

/-! ### The updates -/

section Updates

variable [DecidableEq U]

/-- The updates that are kept, and what has been pushed to the queue. -/
structure Updates (U M : Type) where
  parentUpdates : List (NodeId U × Finset (NodeId U))
  queue : List (Item U M)

variable (iteration : Iteration (NodeId U × Finset (NodeId U)))

def commit (updates : Updates U M) : Updates U M :=
  ⟨[], updates.queue ++ (iteration.order updates.parentUpdates).map fun u => .update u.1 u.2⟩

def queueNode (updates : Updates U M) (node : SceneNode U M) : Updates U M :=
  { updates with queue := updates.queue ++ [.insert node] }

/-- The entry for a node gets another parent. -/
def insertParent (parentUpdates : List (NodeId U × Finset (NodeId U))) (nodeUniqueId parentSharedId : NodeId U) :
    List (NodeId U × Finset (NodeId U)) :=
  if nodeUniqueId ∈ parentUpdates.map Prod.fst then
    parentUpdates.map fun u => if u.1 = nodeUniqueId then (u.1, insert parentSharedId u.2) else u
  else parentUpdates ++ [(nodeUniqueId, {parentSharedId})]

def addParent (updates : Updates U M) (nodeUniqueId parentSharedId : NodeId U) : Updates U M :=
  let updates := { updates with
    parentUpdates := insertParent updates.parentUpdates nodeUniqueId parentSharedId }
  if updates.parentUpdates.length > 10000 then commit iteration updates else updates

def perform (updates : Updates U M) : Request U M → Updates U M
  | .queueNode node => queueNode updates node
  | .addParent nodeUniqueId parentSharedId => addParent iteration updates nodeUniqueId parentSharedId

end Updates

/-! ### Runs -/

/-- What is called before `finalise`. -/
inductive Call (U M : Type) where
  | addNode (node : GivenNode U M)
  | addParent (nodeUniqueId : U) (parentSharedId : NodeId U)

/-- The requests of a call. -/
def requests (r : References U) : Call U M → References U × List (Request U M)
  | .addNode node => addNode fields isOpen r node
  | .addParent nodeUniqueId parentSharedId => (r, [.addParent (.given nodeUniqueId) parentSharedId])

section Runs

variable [DecidableEq U] (iteration : Iteration (NodeId U × Finset (NodeId U)))

/-- One call, after others. -/
def call (b : References U × Updates U M) (c : Call U M) : References U × Updates U M :=
  let result := requests fields isOpen b.1 c
  (result.1, result.2.foldl (perform iteration) b.2)

/-- A `RepoSceneBuilder` that is new. -/
def start : References U × Updates U M := (⟨fun _ => none, fun _ => none, 0, false⟩, ⟨[], []⟩)

/-- `addToSet` of the database. -/
def parentsSet : Amendable (SceneNode U M) (NodeId U) (NodeId U) where
  key := SceneNode.uniqueId
  amend n ps := { n with parents := n.parents ∪ ps }
  key_amend _ _ := rfl
  amend_empty n := by rw [Finset.union_empty]
  amend_amend n ps qs := by rw [Finset.union_assoc]

/-- What is in the database after the calls and `finalise`. -/
def committed (calls : List (Call U M)) : List (SceneNode U M) :=
  parentsSet.records (commit iteration (calls.foldl (call fields isOpen iteration) start).2).queue

end Runs

/-! ### Writing at once -/

/-- The write that a request asks for. -/
def Request.write : Request U M → Item U M
  | .queueNode node => .insert node
  | .addParent nodeUniqueId parentSharedId => .update nodeUniqueId {parentSharedId}

/-- The references after the calls, and all requests in their order. -/
def requested (calls : List (Call U M)) : References U × List (Item U M) :=
  calls.foldl (fun state c =>
    let result := requests fields isOpen state.1 c
    (result.1, state.2 ++ result.2.map Request.write)) (⟨fun _ => none, fun _ => none, 0, false⟩, [])

section Follows

variable [DecidableEq U] {iteration : Iteration (NodeId U × Finset (NodeId U))}

/-- The updates that are kept, as writes. -/
def kept (parentUpdates : List (NodeId U × Finset (NodeId U))) : List (Item U M) :=
  parentUpdates.map fun u => .update u.1 u.2

/-- The queue is behind the requests by the updates that are kept. -/
structure Updates.Follows (updates : Updates U M) (log : List (Item U M)) : Prop where
  inserted_eq : inserted updates.queue = inserted log
  added_eq : ∀ k, added k (updates.queue ++ kept updates.parentUpdates) = added k log
  preceded : parentsSet.Preceded updates.queue
  keys : ∀ u ∈ updates.parentUpdates, u.1 ∈ (inserted updates.queue).map SceneNode.uniqueId

omit [DecidableEq U] in
private theorem inserted_kept (parentUpdates : List (NodeId U × Finset (NodeId U))) :
    inserted (kept parentUpdates : List (Item U M)) = [] := by
  induction parentUpdates with
  | nil => rfl
  | cons u rest ih => exact ih

private theorem mem_added_kept {k p : NodeId U} {parentUpdates : List (NodeId U × Finset (NodeId U))} :
    p ∈ added k (kept parentUpdates : List (Item U M)) ↔ ∃ u ∈ parentUpdates, u.1 = k ∧ p ∈ u.2 := by
  rw [Library.mem_added]
  unfold kept
  simp only [List.mem_map, Write.update.injEq]
  constructor
  · rintro ⟨_, ⟨u, hu, rfl, rfl⟩, hp⟩
    exact ⟨u, hu, rfl, hp⟩
  · rintro ⟨u, hu, rfl, hp⟩
    exact ⟨u.2, ⟨u, hu, rfl, rfl⟩, hp⟩

private theorem preceded_kept {queue : List (Item U M)} (h : parentsSet.Preceded queue)
    {parentUpdates : List (NodeId U × Finset (NodeId U))}
    (hkeys : ∀ u ∈ parentUpdates, u.1 ∈ (inserted queue).map SceneNode.uniqueId) :
    parentsSet.Preceded (queue ++ kept parentUpdates) := by
  induction parentUpdates generalizing queue with
  | nil => rwa [kept, List.map_nil, List.append_nil]
  | cons u rest ih =>
    have hfirst := h.update (hkeys u List.mem_cons_self) u.2
    have hrest := ih hfirst fun u' hu' => by
      rw [Library.inserted_append, List.map_append]
      exact List.mem_append_left _ (hkeys u' (List.mem_cons_of_mem _ hu'))
    rwa [List.append_assoc] at hrest

variable (iteration) in
theorem Updates.Follows.commit {updates : Updates U M} {log : List (Item U M)} (h : updates.Follows log) :
    (RepoSceneBuilder.commit iteration updates).Follows log where
  inserted_eq := by
    change inserted (updates.queue ++ kept _) = _
    rw [Library.inserted_append, inserted_kept, List.append_nil, h.inserted_eq]
  added_eq k := by
    rw [← h.added_eq k]
    change added k (updates.queue ++ kept _ ++ []) = _
    rw [List.append_nil, Library.added_append, Library.added_append]
    congr 1
    ext p
    rw [mem_added_kept, mem_added_kept]
    simp only [(iteration.perm updates.parentUpdates).mem_iff]
  preceded := preceded_kept h.preceded fun u hu => h.keys u ((iteration.perm _).mem_iff.mp hu)
  keys := nofun

theorem Updates.Follows.queueNode {updates : Updates U M} {log : List (Item U M)} (h : updates.Follows log)
    (node : SceneNode U M) : (RepoSceneBuilder.queueNode updates node).Follows (log ++ [.insert node]) where
  inserted_eq := by
    change inserted (updates.queue ++ [.insert node]) = _
    rw [Library.inserted_append, Library.inserted_append, h.inserted_eq]
  added_eq k := by
    have hadded := h.added_eq k
    change added k (updates.queue ++ [.insert node] ++ kept updates.parentUpdates) = _
    rw [Library.added_append] at hadded
    rw [Library.added_append, Library.added_append, Library.added_append, ← hadded]
    simp [added]
  preceded := h.preceded.insert node
  keys u hu := by
    change u.1 ∈ (inserted (updates.queue ++ [.insert node])).map SceneNode.uniqueId
    rw [Library.inserted_append, List.map_append]
    exact List.mem_append_left _ (h.keys u hu)

private theorem mem_insertParent {parentUpdates : List (NodeId U × Finset (NodeId U))} {uniqueId parent k p : NodeId U} :
    (∃ u ∈ insertParent parentUpdates uniqueId parent, u.1 = k ∧ p ∈ u.2) ↔
      (∃ u ∈ parentUpdates, u.1 = k ∧ p ∈ u.2) ∨ (uniqueId = k ∧ p = parent) := by
  unfold insertParent
  split
  · rename_i hmem
    obtain ⟨old, hold, rfl⟩ := List.mem_map.mp hmem
    simp only [List.mem_map]
    constructor
    · rintro ⟨_, ⟨u, hu, rfl⟩, hk, hp⟩
      split at hk
      · rename_i hu'
        rw [if_pos hu', Finset.mem_insert] at hp
        rcases hp with rfl | hp
        · exact .inr ⟨hu'.symm.trans hk, rfl⟩
        · exact .inl ⟨u, hu, hk, hp⟩
      · rename_i hu'
        rw [if_neg hu'] at hp
        exact .inl ⟨u, hu, hk, hp⟩
    · rintro (⟨u, hu, hk, hp⟩ | ⟨hk, rfl⟩)
      · refine ⟨_, ⟨u, hu, rfl⟩, ?_⟩
        split
        · exact ⟨hk, Finset.mem_insert_of_mem hp⟩
        · exact ⟨hk, hp⟩
      · exact ⟨_, ⟨old, hold, rfl⟩, by rw [if_pos rfl]; exact ⟨hk, Finset.mem_insert_self _ _⟩⟩
  · simp only [List.mem_append, List.mem_singleton]
    constructor
    · rintro ⟨u, hu | rfl, hk, hp⟩
      · exact .inl ⟨u, hu, hk, hp⟩
      · exact .inr ⟨hk, Finset.mem_singleton.mp hp⟩
    · rintro (⟨u, hu, hk, hp⟩ | ⟨hk, rfl⟩)
      · exact ⟨u, .inl hu, hk, hp⟩
      · exact ⟨_, .inr rfl, hk, Finset.mem_singleton_self _⟩

private theorem fst_of_mem_insertParent {parentUpdates : List (NodeId U × Finset (NodeId U))} {uniqueId parent : NodeId U}
    {u : NodeId U × Finset (NodeId U)} (h : u ∈ insertParent parentUpdates uniqueId parent) :
    u.1 = uniqueId ∨ u.1 ∈ parentUpdates.map Prod.fst := by
  unfold insertParent at h
  split at h
  · obtain ⟨u', hu', rfl⟩ := List.mem_map.mp h
    right
    split <;> exact List.mem_map.mpr ⟨u', hu', rfl⟩
  · rcases List.mem_append.mp h with h | h
    · exact .inr (List.mem_map_of_mem h)
    · rw [List.mem_singleton.mp h]
      exact .inl rfl

theorem Updates.Follows.addParent {updates : Updates U M} {log : List (Item U M)} (h : updates.Follows log)
    {nodeUniqueId : NodeId U} (hkey : nodeUniqueId ∈ (inserted log).map SceneNode.uniqueId) (parentSharedId : NodeId U) :
    (RepoSceneBuilder.addParent iteration updates nodeUniqueId parentSharedId).Follows
      (log ++ [.update nodeUniqueId {parentSharedId}]) := by
  have hkept : Updates.Follows ⟨insertParent updates.parentUpdates nodeUniqueId parentSharedId, updates.queue⟩
      (log ++ [.update nodeUniqueId {parentSharedId}]) := by
    constructor
    · rw [Library.inserted_append, h.inserted_eq]
      exact (List.append_nil _).symm
    · intro k
      have hadded := h.added_eq k
      rw [Library.added_append] at hadded
      rw [Library.added_append, Library.added_append, ← hadded, Finset.union_assoc]
      congr 1
      ext p
      rw [mem_added_kept, mem_insertParent, Finset.mem_union, mem_added_kept, Library.mem_added]
      simp [and_comm, eq_comm]
    · exact h.preceded
    · intro u hu
      rcases fst_of_mem_insertParent hu with he | hmem
      · rw [he, h.inserted_eq]
        exact hkey
      · obtain ⟨u', hu', he⟩ := List.mem_map.mp hmem
        exact he ▸ h.keys u' hu'
  unfold RepoSceneBuilder.addParent
  simp only
  split
  · exact hkept.commit iteration
  · exact hkept

/-- The requests are followed, if every node is queued before it gets parents. -/
theorem Updates.Follows.foldl {updates : Updates U M} {log : List (Item U M)} (h : updates.Follows log)
    {reqs : List (Request U M)} (hpreceded : parentsSet.Preceded (log ++ reqs.map Request.write)) :
    (reqs.foldl (perform iteration) updates).Follows (log ++ reqs.map Request.write) := by
  induction reqs generalizing updates log with
  | nil => simpa using h
  | cons request reqs ih =>
    have hsplit : log ++ (request :: reqs).map Request.write = log ++ [request.write] ++ reqs.map Request.write := by simp
    rw [hsplit] at hpreceded ⊢
    refine ih ?_ hpreceded
    cases request with
    | queueNode node => exact h.queueNode node
    | addParent nodeUniqueId parentSharedId =>
      refine h.addParent ?_ parentSharedId
      exact hpreceded.of_append log nodeUniqueId _ [] rfl

variable (iteration) in
/-- After `finalise`, all requests have been written. -/
theorem Updates.Follows.records_commit {updates : Updates U M} {log : List (Item U M)} (h : updates.Follows log)
    (hnodup : ((inserted log).map SceneNode.uniqueId).Nodup) :
    parentsSet.records (RepoSceneBuilder.commit iteration updates).queue =
      (inserted log).map fun n => parentsSet.amend n (added n.uniqueId log) := by
  have hcommit := h.commit iteration
  rw [Library.Amendable.records_eq (by rw [hcommit.inserted_eq]; exact hnodup) hcommit.preceded, hcommit.inserted_eq]
  apply List.map_congr_left
  intro n _
  have hadded := hcommit.added_eq n.uniqueId
  change added _ (_ ++ []) = _ at hadded
  rw [List.append_nil] at hadded
  exact congrArg _ hadded

end Follows

end RepoSceneBuilder

end Bouncer
