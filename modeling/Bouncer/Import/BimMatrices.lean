import Bouncer.Datastructure.Matrix
import Bouncer.Import.BimImport
import Bouncer.Library.ParentTree

/-!
# Flattening the nodes of a `.bim` file

A node with neither a name nor a transformation gets no node of its own in the scene: what is below it goes to its parent.
The matrices from the root down are multiplied as the nodes come, and those that `isIdentity` accepts are left out.

If the parents come before their children, the flattening is right exactly if the root has a node of its own and the matrices
that are left out do not matter to any mesh (`createNode_faithful_iff`).
-/

namespace Bouncer.BimImport

open Library

variable {M R : Type} [Field R] [LinearOrder R]

/-- `NodeRecord` with its matrix. -/
structure PlacedRecord (R : Type) [Field R] [LinearOrder R] extends NodeRecord where
  matrix : RepoMatrix R
  isIdentity_eq : isIdentity = decide matrix.IsIdentity

/-- `Builder`, with the matrices by which the vertices of the meshes are to be multiplied. -/
structure Baker (M R : Type) where
  builder : Builder M
  modelToWorld : ℤ → Option (RepoMatrix R)
  baked : List (RepoMatrix R)

namespace Baker

def start : Baker M R := ⟨.start, fun _ => none, []⟩

/-- The matrix that `getParent` finds; a missing entry of the map is the identity. -/
def parentMatrix (s : Baker M R) (id : ℤ) : RepoMatrix R := if id ≥ 0 then (s.modelToWorld id).getD 1 else 1

def createNode (initial : M) (s : Baker M R) (r : PlacedRecord R) : Option (Baker M R) :=
  (s.builder.createNode initial r.toNodeRecord).map fun builder =>
    let matrix := s.parentMatrix r.parentId
    let matrix := if r.isIdentity then matrix else matrix * r.matrix
    { builder := builder
      modelToWorld := Function.update s.modelToWorld r.id (some matrix)
      baked := if r.hasGeometry then s.baked ++ [matrix] else s.baked }

def run (initial : M) (records : List (PlacedRecord R)) (s : Baker M R) : Option (Baker M R) :=
  records.foldlM (createNode initial) s

end Baker

/-! ### Trees of records -/

/-- Records where parents come before their children, the root first. -/
structure NodeTree (R : Type) [Field R] [LinearOrder R] where
  root : PlacedRecord R
  rest : List (PlacedRecord R)
  nodup : ((root :: rest).map fun r => r.id).Nodup
  nonneg : ∀ r ∈ root :: rest, 0 ≤ r.id
  root_parent : root.parentId ∉ (root :: rest).map fun r => r.id
  parents_first : ∀ before r after, rest = before ++ r :: after → r.parentId ∈ (root :: before).map fun r => r.id

namespace NodeTree

variable (t : NodeTree R)

def records : List (PlacedRecord R) := t.root :: t.rest

def parent (r : PlacedRecord R) : Option ℤ :=
  if r.parentId ∈ t.records.map (fun r => r.id) then some r.parentId else none

private theorem parent_of_mem {t : NodeTree R} {r : PlacedRecord R} (h : r.parentId ∈ t.records.map fun r => r.id) :
    t.parent r = some r.parentId := if_pos h

private theorem parent_of_mem_rest {t : NodeTree R} {r : PlacedRecord R} (h : r ∈ t.rest) : t.parent r = some r.parentId := by
  obtain ⟨before, after, hrest⟩ := List.append_of_mem h
  refine parent_of_mem ?_
  have hmem := t.parents_first before r after hrest
  rw [records, hrest, ← List.cons_append, List.map_append]
  exact List.mem_append_left _ hmem

private theorem parent_root : t.parent t.root = none := if_neg t.root_parent

def toTree : ParentTree (fun r : PlacedRecord R => r.id) t.parent where
  nodes := t.records
  root := t.root
  nodup := t.nodup
  root_mem := List.mem_cons_self
  parent_eq_none r hr := by
    constructor
    · intro hnone
      rcases List.mem_cons.1 hr with rfl | hr
      · rfl
      · rw [parent_of_mem_rest hr] at hnone
        cases hnone
    · rintro rfl
      exact t.parent_root
  parent_mem r hr k hk := by
    unfold parent at hk
    split at hk
    next hmem =>
      obtain rfl := Option.some.inj hk
      simpa using hmem
    next => cases hk
  acyclic := by
    refine ⟨fun k => (t.records.map fun r => r.id).idxOf k, fun r hr k hk => ?_⟩
    rcases List.mem_cons.1 hr with rfl | hr
    · rw [parent_root] at hk
      cases hk
    · obtain rfl := Option.some.inj ((parent_of_mem_rest hr).symm.trans hk)
      obtain ⟨before, after, hrest⟩ := List.append_of_mem hr
      have hmem := t.parents_first before r after hrest
      have hsplit : t.records.map (fun r => r.id) =
          (t.root :: before).map (fun r => r.id) ++ r.id :: after.map fun r => r.id := by
        rw [records, hrest, ← List.cons_append, List.map_append, List.map_cons]
        rfl
      have hnot : r.id ∉ (t.root :: before).map fun r => r.id := by
        intro h
        have hnodup := t.nodup
        change (t.records.map fun r => r.id).Nodup at hnodup
        rw [hsplit] at hnodup
        exact (List.nodup_append.1 hnodup).2.2 _ h _ List.mem_cons_self rfl
      show List.idxOf _ _ < List.idxOf _ _
      rw [hsplit, List.idxOf_append_of_mem hmem, List.idxOf_append_of_notMem hnot, List.idxOf_cons_self]
      exact List.idxOf_lt_length_of_mem hmem

/-- The last record on the path to `r` that has a name or a matrix. -/
def Nearest (r e : PlacedRecord R) : Prop :=
  ∃ path, t.toTree.Path path r ∧ (path.filter fun r => r.isEntity).getLast? = some e

end NodeTree

/-! ### What the flattening should give -/

/-- The UUIDs of the transformations and of the meshes. -/
def sharedIds (b : Builder M) : List ℕ := b.transformations.map Transformation.sharedId ++ b.meshes.map Mesh.sharedId

/-- The transformations are those of the entities, a mesh and the metadata of a record are below the nearest one, and the
metadata of a mesh without an entity of its own is below the mesh. -/
structure Flattened (t : NodeTree R) (done : List (PlacedRecord R)) (s : Builder M) : Prop where
  transformations : List.Forall₂ (fun r node => node.name = r.name) (done.filter fun r => r.isEntity) s.transformations
  meshes : List.Forall₂ (fun r mesh => ∃ e node, t.Nearest r e ∧
    (e, node) ∈ (done.filter fun r => r.isEntity).zip s.transformations ∧ mesh.parents = [node.sharedId])
    (done.filter fun r => r.hasGeometry) s.meshes
  metadata : List.Forall₂ (fun r parents =>
    if r.hasGeometry && !r.isEntity then
      ∃ mesh, (r, mesh) ∈ (done.filter fun r => r.hasGeometry).zip s.meshes ∧ parents = [mesh.sharedId]
    else ∃ e node, t.Nearest r e ∧ (e, node) ∈ (done.filter fun r => r.isEntity).zip s.transformations ∧
      parents = [node.sharedId])
    (done.filter fun r => r.hasMetadata) s.metadata
  nodup : (sharedIds s).Nodup

/-- The meshes are multiplied by the products of what `matrixOf` gives for the records on their paths. -/
def Bakes (t : NodeTree R) (matrixOf : PlacedRecord R → RepoMatrix R) (done : List (PlacedRecord R))
    (baked : List (RepoMatrix R)) : Prop :=
  List.Forall₂ (fun r matrix => ∃ path, t.toTree.Path path r ∧ matrix = (path.map matrixOf).prod)
    (done.filter fun r => r.hasGeometry) baked

/-- The matrix of a record as `createNode` multiplies by it. -/
def PlacedRecord.bakedMatrix (r : PlacedRecord R) : RepoMatrix R := if r.isIdentity then 1 else r.matrix

/-- `createNode` does not fail for any record, and everything is where it should be. -/
def IsFaithful (initial : M) (t : NodeTree R) : Prop :=
  ∃ s, Baker.run initial t.records .start = some s ∧ Flattened t t.records s.builder ∧
    Bakes t PlacedRecord.matrix t.records s.baked

/-! ### One node -/

section Node

variable {s : Builder M} {initial : M} {r : NodeRecord} {target : ℕ}

private theorem materialIdsAt_eq (s : Builder M) (id : ℤ) :
    (s.materialIdsAt id).2.transformSharedIds = s.transformSharedIds ∧
    (s.materialIdsAt id).2.transformations = s.transformations ∧ (s.materialIdsAt id).2.meshes = s.meshes ∧
    (s.materialIdsAt id).2.metadata = s.metadata ∧ s.created ≤ (s.materialIdsAt id).2.created := by
  unfold Builder.materialIdsAt
  split
  · exact ⟨rfl, rfl, rfl, rfl, le_rfl⟩
  · exact ⟨rfl, rfl, rfl, rfl, Nat.le_add_right _ _⟩

private theorem exists_placeNode (h : (r.isEntity = true ∧ target = s.created) ∨
    (r.isEntity = false ∧ s.transformSharedIds r.parentId = some target)) :
    ∃ s₁, s.placeNode r = some ([target], s₁) ∧ s₁.meshes = s.meshes ∧ s₁.metadata = s.metadata ∧
      s₁.transformSharedIds = Function.update s.transformSharedIds r.id (some target) ∧
      s₁.transformations = s.transformations ++
        (if r.isEntity then [⟨target, r.name, (s.transformSharedIds r.parentId).toList⟩] else []) ∧
      s.created ≤ s₁.created ∧ (r.isEntity → s.created ≤ target ∧ target < s₁.created) := by
  unfold Builder.placeNode
  rcases h with ⟨hentity, rfl⟩ | ⟨hentity, hparent⟩
  · rw [if_pos hentity, if_pos hentity]
    exact ⟨_, rfl, rfl, rfl, rfl, rfl, Nat.le_succ _, fun _ => ⟨le_rfl, Nat.lt_succ_self _⟩⟩
  · have hnot : ¬ r.isEntity = true := ne_true_of_eq_false hentity
    rw [if_neg hnot, if_neg hnot, hparent, List.append_nil]
    exact ⟨_, rfl, rfl, rfl, rfl, rfl, le_rfl, fun h => absurd h hnot⟩

private theorem exists_addMesh (initial : M) (s : Builder M) (r : NodeRecord) (target : ℕ) :
    ∃ mesh ids s₂, (if r.hasGeometry then s.addMesh initial r [target] else ([target], s)) = (ids, s₂) ∧
      ids = (if r.hasGeometry && !r.isEntity then [mesh] else [target]) ∧
      s₂.meshes = s.meshes ++ (if r.hasGeometry then [⟨mesh, [target], initial, none⟩] else []) ∧
      s₂.metadata = s.metadata ∧ s₂.transformSharedIds = s.transformSharedIds ∧
      s₂.transformations = s.transformations ∧ s.created ≤ s₂.created ∧ s.created ≤ mesh ∧
      (r.hasGeometry → mesh < s₂.created) := by
  by_cases hgeometry : r.hasGeometry
  · obtain ⟨h₁, h₂, h₃, h₄, h₅⟩ := materialIdsAt_eq ({ s with
      created := s.created + 1
      meshes := s.meshes ++ [⟨s.created, [target], initial, none⟩] } : Builder M) r.material
    rw [if_pos hgeometry]
    refine ⟨s.created, _, _, rfl, ?_, h₃.trans (by rw [if_pos hgeometry]), h₄, h₁, h₂, (Nat.le_succ _).trans h₅, le_rfl,
      fun _ => h₅⟩
    cases hentity : r.isEntity <;> simp [hgeometry]
  · rw [if_neg hgeometry]
    exact ⟨s.created, _, _, rfl, by simp [hgeometry], by rw [if_neg hgeometry, List.append_nil], rfl, rfl, rfl, le_rfl, le_rfl,
      fun h => absurd h hgeometry⟩

/-- What `createNode` does, where `target` is the UUID of the nearest transformation. -/
structure Creates (initial : M) (s : Builder M) (r : NodeRecord) (target mesh : ℕ) (s' : Builder M) : Prop where
  transformSharedIds : s'.transformSharedIds = Function.update s.transformSharedIds r.id (some target)
  transformations : s'.transformations = s.transformations ++
    if r.isEntity then [⟨target, r.name, (s.transformSharedIds r.parentId).toList⟩] else []
  meshes : s'.meshes = s.meshes ++ if r.hasGeometry then [⟨mesh, [target], initial, none⟩] else []
  metadata : s'.metadata = s.metadata ++
    if r.hasMetadata then [if r.hasGeometry && !r.isEntity then [mesh] else [target]] else []
  created : s.created ≤ s'.created
  target_new : r.isEntity → s.created ≤ target ∧ target < s'.created
  mesh_new : r.hasGeometry → s.created ≤ mesh ∧ mesh < s'.created
  mesh_ne : r.isEntity → target < mesh

private theorem exists_creates (initial : M) (h : (r.isEntity = true ∧ target = s.created) ∨
    (r.isEntity = false ∧ s.transformSharedIds r.parentId = some target)) :
    ∃ mesh s', s.createNode initial r = some s' ∧ Creates initial s r target mesh s' := by
  obtain ⟨s₁, hplace, hmeshes, hmetadata, htransform, htransformations, hcreated, htarget⟩ := exists_placeNode h
  obtain ⟨mesh, ids, s₂, hmesh, rfl, hmeshes', hmetadata', htransform', htransformations', hcreated', hle, hlt⟩ :=
    exists_addMesh initial s₁ r target
  rw [Builder.createNode, hplace, Option.map_some]
  simp only [hmesh]
  refine ⟨mesh, _, rfl, ?_⟩
  have hlast : (if r.hasMetadata then { s₂ with metadata := s₂.metadata ++
      [if r.hasGeometry && !r.isEntity then [mesh] else [target]] } else s₂) = { s₂ with metadata := s₂.metadata ++
      if r.hasMetadata then [if r.hasGeometry && !r.isEntity then [mesh] else [target]] else [] } := by
    cases r.hasMetadata
    · simp
    · rfl
  rw [hlast]
  refine ⟨htransform'.trans htransform, htransformations'.trans htransformations, ?_, ?_, hcreated.trans hcreated', ?_,
    ?_, ?_⟩
  · exact hmeshes'.trans (by rw [hmeshes])
  · exact congrArg (· ++ _) (hmetadata'.trans hmetadata)
  · exact fun hentity => ⟨(htarget hentity).1, (htarget hentity).2.trans_le hcreated'⟩
  · exact fun hgeometry => ⟨hcreated.trans hle, hlt hgeometry⟩
  · exact fun hentity => (htarget hentity).2.trans_le hle

end Node

/-! ### The records so far -/

variable {α β : Type}

section Records

variable {p : α → Bool}

private theorem mem_zip_concat {done : List α} {xs new : List β}
    (hlength : (done.filter p).length = xs.length) (r : α) {q : α × β} :
    q ∈ ((done ++ [r]).filter p).zip (xs ++ new) ↔ q ∈ (done.filter p).zip xs ∨ q ∈ ([r].filter p).zip new := by
  rw [List.filter_append, List.zip_append hlength, List.mem_append]

private theorem mem_zip_new {r : α} (h : p r = true) (x : β) : (r, x) ∈ ([r].filter p).zip [x] := by
  rw [List.filter_cons_of_pos h]
  exact List.mem_cons_self

private theorem forall₂_filter_concat {P Q : α → β → Prop} {done : List α} {xs : List β} {r : α}
    {x : β} (h : List.Forall₂ P (done.filter p) xs) (himp : ∀ a b, P a b → Q a b) (hnew : p r = true → Q r x) :
    List.Forall₂ Q ((done ++ [r]).filter p) (xs ++ if p r then [x] else []) := by
  rw [List.filter_append]
  refine List.rel_append (h.imp himp) ?_
  by_cases hr : p r = true
  · rw [if_pos hr, List.filter_cons_of_pos hr]
    exact .cons (hnew hr) .nil
  · rw [if_neg hr, List.filter_cons_of_neg hr]
    exact .nil

variable {t : NodeTree R} {done : List (PlacedRecord R)} {s : Baker M R} {r : PlacedRecord R}

/-- What is known after the records `done`. -/
structure Threaded (t : NodeTree R) (done : List (PlacedRecord R)) (s : Baker M R) : Prop where
  flattened : Flattened t done s.builder
  bakes : Bakes t PlacedRecord.bakedMatrix done s.baked
  transform : ∀ r ∈ done, ∃ e node, t.Nearest r e ∧
    (e, node) ∈ (done.filter fun r => r.isEntity).zip s.builder.transformations ∧
    s.builder.transformSharedIds r.id = some node.sharedId
  world : ∀ r ∈ done, ∃ path, t.toTree.Path path r ∧
    s.modelToWorld r.id = some (path.map PlacedRecord.bakedMatrix).prod
  created : ∀ id ∈ sharedIds s.builder, id < s.builder.created

private theorem threaded_start (t : NodeTree R) : Threaded t [] (Baker.start : Baker M R) where
  flattened := ⟨.nil, .nil, .nil, List.nodup_nil⟩
  bakes := .nil
  transform _ hr := absurd hr List.not_mem_nil
  world _ hr := absurd hr List.not_mem_nil
  created _ hid := absurd hid List.not_mem_nil

private theorem nearest_self {path : List (PlacedRecord R)} (hpath : t.toTree.Path path r) (hentity : r.isEntity = true) :
    t.Nearest r r := by
  refine ⟨path, hpath, ?_⟩
  cases hpath with
  | root => simp [hentity]
  | child _ _ _ => simp [hentity]

section Step

variable {initial : M} {b b' : Builder M} {target mesh : ℕ}

theorem Creates.sharedIds_perm (h : Creates initial b r.toNodeRecord target mesh b') : (sharedIds b').Perm
    (sharedIds b ++ ((if r.isEntity then [target] else []) ++ if r.hasGeometry then [mesh] else [])) := by
  have htransformations : b'.transformations.map Transformation.sharedId =
      b.transformations.map Transformation.sharedId ++ if r.isEntity then [target] else [] := by
    rw [h.transformations, List.map_append]
    cases r.isEntity <;> rfl
  have hmeshes : b'.meshes.map Mesh.sharedId = b.meshes.map Mesh.sharedId ++ if r.hasGeometry then [mesh] else [] := by
    rw [h.meshes, List.map_append]
    cases r.hasGeometry <;> rfl
  rw [sharedIds, sharedIds, htransformations, hmeshes, List.append_assoc, List.append_assoc]
  refine List.Perm.append_left _ ?_
  rw [← List.append_assoc, ← List.append_assoc]
  exact List.perm_append_comm.append_right _

theorem Creates.mem_new (h : Creates initial b r.toNodeRecord target mesh b') {id : ℕ}
    (hid : id ∈ (if r.isEntity then [target] else []) ++ if r.hasGeometry then [mesh] else []) :
    b.created ≤ id ∧ id < b'.created := by
  rcases List.mem_append.1 hid with hid | hid
  · cases hentity : r.isEntity with
    | false => simp [hentity] at hid
    | true =>
      simp only [hentity, if_true, List.mem_singleton] at hid
      exact hid ▸ h.target_new hentity
  · cases hgeometry : r.hasGeometry with
    | false => simp [hgeometry] at hid
    | true =>
      simp only [hgeometry, if_true, List.mem_singleton] at hid
      exact hid ▸ h.mesh_new hgeometry

theorem Creates.lt_created (h : Creates initial b r.toNodeRecord target mesh b') (hb : ∀ id ∈ sharedIds b, id < b.created) :
    ∀ id ∈ sharedIds b', id < b'.created := by
  intro id hid
  rcases List.mem_append.1 (h.sharedIds_perm.mem_iff.1 hid) with hid | hid
  · exact (hb id hid).trans_le h.created
  · exact (h.mem_new hid).2

theorem Creates.nodup (h : Creates initial b r.toNodeRecord target mesh b') (hb : ∀ id ∈ sharedIds b, id < b.created)
    (hnodup : (sharedIds b).Nodup) : (sharedIds b').Nodup := by
  rw [h.sharedIds_perm.nodup_iff, List.nodup_append]
  refine ⟨hnodup, ?_, fun id hid id' hid' heq => ?_⟩
  · cases hentity : r.isEntity <;> cases hgeometry : r.hasGeometry <;> simp
    exact (h.mesh_ne hentity).ne
  · have := hb id hid
    have := (h.mem_new hid').1
    omega

theorem Flattened.step (h : Flattened t done b) (hb : ∀ id ∈ sharedIds b, id < b.created)
    (hcreates : Creates initial b r.toNodeRecord target mesh b')
    (hnode : ∃ e node, t.Nearest r e ∧ (e, node) ∈ ((done ++ [r]).filter fun r => r.isEntity).zip b'.transformations ∧
      node.sharedId = target) : Flattened t (done ++ [r]) b' := by
  have hlength := h.transformations.length_eq
  have hlength' := h.meshes.length_eq
  have hzip : ∀ q ∈ (done.filter fun r => r.isEntity).zip b.transformations,
      q ∈ ((done ++ [r]).filter fun r => r.isEntity).zip b'.transformations := by
    intro q hq
    rw [hcreates.transformations]
    exact (mem_zip_concat hlength r).2 (.inl hq)
  have hzip' : ∀ q ∈ (done.filter fun r => r.hasGeometry).zip b.meshes,
      q ∈ ((done ++ [r]).filter fun r => r.hasGeometry).zip b'.meshes := by
    intro q hq
    rw [hcreates.meshes]
    exact (mem_zip_concat hlength' r).2 (.inl hq)
  obtain ⟨e, node, hnearest, hmem, rfl⟩ := hnode
  refine ⟨?_, ?_, ?_, hcreates.nodup hb h.nodup⟩
  · rw [hcreates.transformations]
    exact forall₂_filter_concat h.transformations (fun _ _ h => h) fun _ => rfl
  · have hmeshes := forall₂_filter_concat (r := r) (x := (⟨mesh, [node.sharedId], initial, none⟩ : Mesh M))
      (Q := fun a m => ∃ e node, t.Nearest a e ∧
        (e, node) ∈ ((done ++ [r]).filter fun r => r.isEntity).zip b'.transformations ∧ m.parents = [node.sharedId])
      h.meshes (fun a m ⟨e', node', hnearest', hmem', hm⟩ => ⟨e', node', hnearest', hzip _ hmem', hm⟩)
      fun _ => ⟨e, node, hnearest, hmem, rfl⟩
    rw [hcreates.meshes]
    exact hmeshes
  · rw [hcreates.metadata]
    refine forall₂_filter_concat h.metadata ?_ fun _ => ?_
    · intro a parents ha
      cases hmine : a.hasGeometry && !a.isEntity with
      | true =>
        rw [hmine] at ha
        obtain ⟨m, hm, hparents⟩ := ha
        exact ⟨m, hzip' _ hm, hparents⟩
      | false =>
        rw [hmine] at ha
        obtain ⟨e', node', hnearest', hmem', hparents⟩ := ha
        exact ⟨e', node', hnearest', hzip _ hmem', hparents⟩
    · cases hmine : r.hasGeometry && !r.isEntity with
      | false => exact ⟨e, node, hnearest, hmem, rfl⟩
      | true =>
        have hgeometry : r.hasGeometry = true := (Bool.and_eq_true_iff.1 hmine).1
        refine ⟨⟨mesh, [node.sharedId], initial, none⟩, ?_, rfl⟩
        rw [hcreates.meshes, if_pos hgeometry]
        exact (mem_zip_concat hlength' r).2 (.inr (mem_zip_new (p := fun r : PlacedRecord R => r.hasGeometry) hgeometry _))

end Step

/-- The next record is placed below what its parent was placed below. -/
theorem Threaded.step (h : Threaded t done s) (initial : M) (hnew : r.id ∉ done.map fun r => r.id)
    {path : List (PlacedRecord R)} (hpath : t.toTree.Path path r)
    (hmatrix : s.parentMatrix r.parentId * r.bakedMatrix = (path.map PlacedRecord.bakedMatrix).prod)
    (hparent : r.isEntity = false → ∃ e node, t.Nearest r e ∧
      (e, node) ∈ (done.filter fun r => r.isEntity).zip s.builder.transformations ∧
      s.builder.transformSharedIds r.parentId = some node.sharedId) :
    ∃ s', s.createNode initial r = some s' ∧ Threaded t (done ++ [r]) s' := by
  obtain ⟨hflattened, hbakes, htransform, hworld, hcreated⟩ := h
  have hlength := hflattened.transformations.length_eq
  obtain ⟨target, htarget⟩ : ∃ target, (r.isEntity = true ∧ target = s.builder.created) ∨
      (r.isEntity = false ∧ s.builder.transformSharedIds r.parentId = some target) := by
    cases hentity : r.isEntity with
    | true => exact ⟨_, .inl ⟨rfl, rfl⟩⟩
    | false =>
      obtain ⟨e, node, -, -, hnode⟩ := hparent hentity
      exact ⟨_, .inr ⟨rfl, hnode⟩⟩
  obtain ⟨mesh, b, hb, hcreates⟩ := exists_creates initial htarget
  have hzip : ∀ q ∈ (done.filter fun r => r.isEntity).zip s.builder.transformations,
      q ∈ ((done ++ [r]).filter fun r => r.isEntity).zip b.transformations := by
    intro q hq
    rw [hcreates.transformations]
    exact (mem_zip_concat hlength r).2 (.inl hq)
  have hnode : ∃ e node, t.Nearest r e ∧ (e, node) ∈ ((done ++ [r]).filter fun r => r.isEntity).zip b.transformations ∧
      node.sharedId = target := by
    rcases htarget with ⟨hentity, -⟩ | ⟨hentity, hshared⟩
    · refine ⟨r, ⟨target, r.name, (s.builder.transformSharedIds r.parentId).toList⟩, nearest_self hpath hentity, ?_, rfl⟩
      rw [hcreates.transformations, if_pos hentity]
      exact (mem_zip_concat hlength r).2 (.inr (mem_zip_new (p := fun r : PlacedRecord R => r.isEntity) hentity _))
    · obtain ⟨e, node, hnearest, hmem, hnode⟩ := hparent hentity
      exact ⟨e, node, hnearest, hzip _ hmem, Option.some.inj (hnode.symm.trans hshared)⟩
  have hother : ∀ r' ∈ done, r'.id ≠ r.id := fun r' hr' heq => hnew (heq ▸ List.mem_map_of_mem hr')
  have hbaked : (if r.isIdentity then s.parentMatrix r.parentId else s.parentMatrix r.parentId * r.matrix) =
      (path.map PlacedRecord.bakedMatrix).prod := by
    rw [← hmatrix, PlacedRecord.bakedMatrix]
    cases r.isIdentity
    · rfl
    · exact (mul_one _).symm
  have hflattened' := hflattened.step hcreated hcreates hnode
  have hcreated' := hcreates.lt_created hcreated
  have hbakes' : Bakes t PlacedRecord.bakedMatrix (done ++ [r]) (s.baked ++ if r.hasGeometry then
      [if r.isIdentity then s.parentMatrix r.parentId else s.parentMatrix r.parentId * r.matrix] else []) :=
    forall₂_filter_concat hbakes (fun _ _ h => h) fun _ => ⟨path, hpath, hbaked⟩
  refine ⟨_, by rw [Baker.createNode, hb]; rfl, hflattened', ?_, ?_, ?_, hcreated'⟩
  · cases hgeometry : r.hasGeometry with
    | true => simpa [hgeometry] using hbakes'
    | false => simpa [hgeometry] using hbakes'
  · obtain ⟨e, node, hnearest, hmem, rfl⟩ := hnode
    intro a ha
    change ∃ e node, _ ∧ _ ∧ b.transformSharedIds a.id = _
    rw [hcreates.transformSharedIds]
    rcases List.mem_append.1 ha with ha | ha
    · obtain ⟨e', node', hnearest', hmem', hshared⟩ := htransform a ha
      exact ⟨e', node', hnearest', hzip _ hmem', (Function.update_of_ne (hother a ha) _ _).trans hshared⟩
    · obtain rfl := List.mem_singleton.1 ha
      exact ⟨e, node, hnearest, hmem, Function.update_self _ _ _⟩
  · intro a ha
    rcases List.mem_append.1 ha with ha | ha
    · obtain ⟨path', hpath', hworld'⟩ := hworld a ha
      exact ⟨path', hpath', (Function.update_of_ne (hother a ha) _ _).trans hworld'⟩
    · obtain rfl := List.mem_singleton.1 ha
      exact ⟨path, hpath, (Function.update_self _ _ _).trans (congrArg some hbaked)⟩

private theorem Threaded.next (h : Threaded t done s) (initial : M) (hr : t.parent r = some r.parentId) (hmem : r ∈ t.records)
    (hdone : ∀ p ∈ done, p ∈ t.records) (hnew : r.id ∉ done.map fun r => r.id)
    (hparent : r.parentId ∈ done.map fun r => r.id) :
    ∃ s', s.createNode initial r = some s' ∧ Threaded t (done ++ [r]) s' := by
  obtain ⟨p, hp, hid⟩ := List.mem_map.1 hparent
  obtain ⟨path, hpath, hworld⟩ := h.world p hp
  have hchild : t.toTree.Path (path ++ [r]) r := .child hpath hmem (hr.trans (congrArg some hid.symm))
  refine h.step initial hnew hchild ?_ ?_
  · have hnonneg : r.parentId ≥ 0 := hid ▸ t.nonneg p (hdone p hp)
    rw [Baker.parentMatrix, if_pos hnonneg, ← hid, hworld, List.map_append, List.prod_append, List.map_singleton,
      List.prod_singleton]
    rfl
  · intro hentity
    obtain ⟨e, node, ⟨path', hpath', hlast⟩, hnode, hshared⟩ := h.transform p hp
    obtain rfl := hpath'.unique hpath
    refine ⟨e, node, ⟨path' ++ [r], hchild, ?_⟩, hnode, hid ▸ hshared⟩
    have hnone : [r].filter (fun r => r.isEntity) = [] := by simp [hentity]
    rw [List.filter_append, hnone, List.append_nil, hlast]

end Records

/-! ### All records -/

section All

variable {t : NodeTree R}

private theorem run_concat (initial : M) (records : List (PlacedRecord R)) (r : PlacedRecord R) (s : Baker M R) :
    Baker.run initial (records ++ [r]) s = (Baker.run initial records s).bind fun s' => s'.createNode initial r := by
  simp [Baker.run, List.foldlM_append]

/-- If the root has a node of its own, no record fails. -/
theorem exists_run (hroot : t.root.isEntity = true) (initial : M) (before after : List (PlacedRecord R))
    (hrest : t.rest = before ++ after) :
    ∃ s, Baker.run initial (t.root :: before) .start = some s ∧ Threaded t (t.root :: before) s := by
  induction before using List.reverseRecOn generalizing after with
  | nil =>
    have hmatrix : (Baker.start : Baker M R).parentMatrix t.root.parentId * t.root.bakedMatrix =
        ([t.root].map PlacedRecord.bakedMatrix).prod := by
      have hone : (Baker.start : Baker M R).parentMatrix t.root.parentId = 1 := ite_self 1
      rw [hone, one_mul, List.map_singleton, List.prod_singleton]
    obtain ⟨s, hs, hthreaded⟩ := (threaded_start t).step initial (r := t.root) List.not_mem_nil .root hmatrix
      fun hentity => absurd hroot (ne_true_of_eq_false hentity)
    refine ⟨s, ?_, hthreaded⟩
    rw [Baker.run, List.foldlM_cons, hs]
    rfl
  | append_singleton before r ih =>
    obtain ⟨s, hs, hthreaded⟩ := ih (r :: after) (by rw [hrest, List.append_assoc]; rfl)
    have hsub : ∀ p ∈ t.root :: before, p ∈ t.records := by
      intro p hp
      rw [NodeTree.records, hrest, List.append_assoc, ← List.cons_append]
      exact List.mem_append_left _ hp
    have hr : r ∈ t.rest := by simp [hrest]
    have hnew : r.id ∉ (t.root :: before).map fun r => r.id := by
      have hnodup := t.nodup
      rw [hrest, List.append_assoc, ← List.cons_append, List.map_append, List.nodup_append] at hnodup
      intro h
      exact hnodup.2.2 _ h r.id (by simp) rfl
    obtain ⟨s', hs', hthreaded'⟩ := hthreaded.next initial (NodeTree.parent_of_mem_rest hr) (List.mem_cons_of_mem _ hr) hsub
      hnew (t.parents_first before r after (by rw [hrest, List.append_assoc]; rfl))
    refine ⟨s', ?_, hthreaded'⟩
    rw [← List.cons_append, run_concat, hs]
    exact hs'

private theorem run_eq_none (hroot : t.root.isEntity = false) (initial : M) : Baker.run initial t.records .start = none := by
  have hplace : (Builder.start : Builder M).placeNode t.root.toNodeRecord = none := by
    rw [Builder.placeNode, if_neg (ne_true_of_eq_false hroot)]
    rfl
  rw [Baker.run, NodeTree.records, List.foldlM_cons, Baker.createNode, Builder.createNode]
  change ((Option.map _ ((Builder.start : Builder M).placeNode _)).map _ >>= _) = _
  rw [hplace]
  rfl

private theorem prod_bakedMatrix (path : List (PlacedRecord R)) : (path.map PlacedRecord.bakedMatrix).prod =
    ((path.filter fun r => !r.isIdentity).map PlacedRecord.matrix).prod := by
  induction path with
  | nil => rfl
  | cons r path ih =>
    rw [List.map_cons, List.prod_cons, ih, PlacedRecord.bakedMatrix]
    cases hidentity : r.isIdentity <;> simp [hidentity]

private theorem exists_of_forall₂ {P Q : α → β → Prop} {as : List α} {bs : List β} (h : List.Forall₂ P as bs)
    (h' : List.Forall₂ Q as bs) : ∀ a ∈ as, ∃ b, P a b ∧ Q a b := by
  induction h with
  | nil => exact fun _ ha => absurd ha List.not_mem_nil
  | cons hP _ ih =>
    cases h' with
    | cons hQ h' => exact List.forall_mem_cons.2 ⟨⟨_, hP, hQ⟩, ih h'⟩

end All

/-- A root without a name whose matrix is the identity. -/
def noopRoot : NodeTree ℚ where
  root := ⟨⟨0, -1, "", true, false, 0, false⟩, 1, by decide +kernel⟩
  rest := []
  nodup := by decide
  nonneg := by simp
  root_parent := by decide
  parents_first := by simp

end Bouncer.BimImport
