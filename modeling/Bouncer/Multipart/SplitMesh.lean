import Bouncer.Library.AdvancingFront
import Bouncer.Library.Growth
import Bouncer.Multipart.Assembly
import Mathlib.Data.Finset.Sort

/-!
# Splitting a mesh

A mesh with more vertices than a supermesh may have is split over a hierarchy of its faces.  `splitMesh` collects the
faces and vertices of the leaves and moves them up, branch by branch from the bottom; where two children together have
too many vertices each becomes a supermesh of its own, and what reaches the root becomes the last one.

The supermeshes split the mesh (`Splits`): each face is in one of them, with the corners that it had, and none has too
many vertices.  This is so exactly for the hierarchies of which the root is not a leaf (`splitMesh_splits_iff`):
`branches.back()` of a hierarchy without branches is no node.
-/

namespace Bouncer.MultipartOptimizer

open Library (FullTree map_eq_of_forall₂)

variable {U M R : Type}

/-- How a split can end without a result. -/
inductive SplitFault where
  /-- The loop over the hierarchy does not end. -/
  | unfinished
  /-- An element of a vector is read that it does not have. -/
  | undefined
  | failed (failure : Failure)
  deriving DecidableEq

def readAt {α : Type} (l : List α) (i : ℕ) : Except SplitFault α :=
  match l[i]? with
  | some x => .ok x
  | none => .error .undefined

/-- The vertices and faces of a node at the front: what the two pointers of the node point to.  They are set and reset
together. -/
structure Branch where
  verts : Finset ℕ
  primitives : List ℕ

/-- The lookup table from vertices of the mesh to those of the supermesh. -/
def Branch.globalToLocalIndex (branch : Branch) (index : ℕ) : ℕ :=
  if index ∈ branch.verts then branch.verts.sort.idxOf index else 0

/-- The loop over the vertices, for one of the arrays that they index. -/
def Branch.gather {α : Type} (branch : Branch) (l : List α) : Except SplitFault (List α) :=
  branch.verts.sort.mapM (readAt l)

/-- The same for an array that may be empty. -/
def Branch.gatherPresent {α : Type} (branch : Branch) (l : List α) : Except SplitFault (List α) :=
  if l.isEmpty then pure [] else branch.gather l

section Split

variable [ExactReal R]

/-- What a mesh is split with. -/
structure SplitContext (U M R : Type) where
  node : SceneMeshNode U R
  data : SupermeshingData U R
  matPropMap : U → Option (MaterialNode U M)
  texId : U
  namedGrouping : String

/-- The mapped mesh of `createSupermeshFromBranch`. -/
def SplitContext.mapBranch (context : SplitContext U M R) (branch : Branch) :
    Except SplitFault (MappedMesh U M R) := do
  let faces ← branch.primitives.mapM (readAt context.data.faces)
  let vertices ← branch.gather context.data.vertices
  let normals ← branch.gatherPresent context.data.normals
  let uvChannels ← context.data.channels.mapM branch.gatherPresent
  let bounds := RepoBounds.ofPoints vertices
  let matNode ← (orFail .outOfRange (context.matPropMap context.node.sharedId)).mapError SplitFault.failed
  let mapping : RepoMeshMapping U M R :=
    { min := bounds.bmin
      max := bounds.bmax
      meshId := context.data.uniqueId
      sharedId := context.node.sharedId
      materialId := matNode.uniqueId
      material := matNode.material
      textureId := context.texId
      vertFrom := 0
      vertTo := vertices.length
      triFrom := 0
      triTo := faces.length }
  return { vertices := vertices
           normals := normals
           faces := faces.map fun face => face.reindex branch.globalToLocalIndex
           uvChannels := uvChannels
           meshMapping := [mapping] }

def SplitContext.createSupermeshFromBranch (context : SplitContext U M R) (branch : Branch) :
    Except SplitFault (SupermeshNode U M R) := do
  let mapped ← context.mapBranch branch
  (orFail .nullSupermesh (createSupermeshNode mapped context.namedGrouping)).mapError SplitFault.failed

/-- The front, and the calls of `addSupermesh`. -/
structure SplitState (U M R : Type) where
  front : ℕ → Option Branch
  supermeshes : List (SupermeshNode U M R)

/-- The first loop of `splitMesh`, for one leaf. -/
def SplitContext.leafStep (context : SplitContext U M R) {F : Type} (bvh : Bvh F) (front : ℕ → Option Branch)
    (nodeIndex : ℕ) : Except SplitFault (ℕ → Option Branch) := do
  let primitives := bvh.leafPrimitives nodeIndex
  let faces ← primitives.mapM (readAt context.data.faces)
  return Function.update front nodeIndex (some ⟨(faces.flatMap RepoFace.indices).toFinset, primitives⟩)

/-- The second loop of `splitMesh`, for one branch. -/
def SplitContext.branchStep (context : SplitContext U M R) {F : Type} (bvh : Bvh F) (state : SplitState U M R)
    (nodeIndex : ℕ) : Except SplitFault (SplitState U M R) :=
  let left := (bvh.nodes nodeIndex).firstChildOrPrimitive
  let right := left + 1
  match state.front left, state.front right with
  | none, none => return state
  | some leftBranch, none =>
    if leftBranch.verts.card ≤ maxVertexCount then
      return { state with front := Function.update (Function.update state.front left none) nodeIndex leftBranch }
    else do
      let supermesh ← context.createSupermeshFromBranch leftBranch
      return ⟨Function.update state.front left none, state.supermeshes ++ [supermesh]⟩
  | none, some rightBranch =>
    if rightBranch.verts.card ≤ maxVertexCount then
      return { state with front := Function.update (Function.update state.front right none) nodeIndex rightBranch }
    else do
      let supermesh ← context.createSupermeshFromBranch rightBranch
      return ⟨Function.update state.front right none, state.supermeshes ++ [supermesh]⟩
  | some leftBranch, some rightBranch =>
    let uniqueVertices := leftBranch.verts ∪ rightBranch.verts
    if uniqueVertices.card ≤ maxVertexCount then
      let combined : Branch := ⟨uniqueVertices, leftBranch.primitives ++ rightBranch.primitives⟩
      return { state with
        front := Function.update (Function.update (Function.update state.front left none) right none) nodeIndex combined }
    else do
      let leftSupermesh ← context.createSupermeshFromBranch leftBranch
      let rightSupermesh ← context.createSupermeshFromBranch rightBranch
      return ⟨Function.update (Function.update state.front left none) right none,
        state.supermeshes ++ [leftSupermesh, rightSupermesh]⟩

/-- The end of `splitMesh`: what has reached the last branch. -/
def SplitContext.checkForLeftovers (context : SplitContext U M R) (branches : List ℕ) (state : SplitState U M R) :
    Except SplitFault (List (SupermeshNode U M R)) :=
  match branches.getLast? with
  | none => .error .undefined
  | some rootIndex =>
    match state.front rootIndex with
    | none => .ok state.supermeshes
    | some leftover => do
      let supermesh ← context.createSupermeshFromBranch leftover
      return state.supermeshes ++ [supermesh]

/-- The supermeshes that `splitMesh` adds, for the hierarchy that `buildFacesBvh` returns. -/
def SplitContext.splitMesh (context : SplitContext U M R) {F : Type} (bvh : Bvh F) :
    Except SplitFault (List (SupermeshNode U M R)) :=
  match flattenBvh bvh with
  | some (.ok (leaves, branches)) => do
    let front ← leaves.foldlM (context.leafStep bvh) fun _ => none
    let state ← branches.reverse.foldlM (context.branchStep bvh) ⟨front, []⟩
    context.checkForLeftovers branches.reverse state
  | _ => .error .unfinished

end Split

/-! ### What a split is -/

/-- The supermesh has the faces of the list, with the corners that they have in the mesh. -/
structure Denotes (data : SupermeshingData U R) (part : List ℕ) (node : SupermeshNode U M R) : Prop where
  bounded : node.vertices.length ≤ maxVertexCount
  faces : List.Forall₂ (fun p face' => ∃ face, data.faces[p]? = some face ∧ face'.sides = face.sides ∧
    ∀ j < face.sides, node.buffers.corner (face'.get j) = data.buffers.corner (face.get j)) part node.faces

/-- Every face of the mesh is in exactly one of the supermeshes. -/
def Splits (data : SupermeshingData U R) (supermeshes : List (SupermeshNode U M R)) : Prop :=
  ∃ parts : List (List ℕ), parts.flatten.Perm (List.range data.faces.length) ∧
    List.Forall₂ (Denotes data) parts supermeshes

/-- The vertices of some faces. -/
def vertsOf (faces : List RepoFace) (primitives : List ℕ) : Finset ℕ :=
  (primitives.flatMap fun p => (faces[p]?.map RepoFace.indices).getD []).toFinset

variable {faces : List RepoFace}

private theorem mem_vertsOf {primitives : List ℕ} {index : ℕ} :
    index ∈ vertsOf faces primitives ↔ ∃ p ∈ primitives, ∃ face, faces[p]? = some face ∧ index ∈ face.indices := by
  unfold vertsOf
  rw [List.mem_toFinset, List.mem_flatMap]
  refine exists_congr fun p => and_congr_right fun _ => ?_
  cases faces[p]? with
  | none => simp
  | some face => simp

private theorem vertsOf_append (faces : List RepoFace) (l r : List ℕ) :
    vertsOf faces (l ++ r) = vertsOf faces l ∪ vertsOf faces r := by
  simp [vertsOf]

/-- The branch of a list of faces, small enough for a supermesh. -/
structure Branch.Fine (faces : List RepoFace) (branch : Branch) : Prop where
  verts : branch.verts = vertsOf faces branch.primitives
  bounded : branch.verts.card ≤ maxVertexCount
  inRange : ∀ p ∈ branch.primitives, p < faces.length

/-! ### The supermesh of a branch -/

private theorem readAt_eq_ok {α : Type} {l : List α} {i : ℕ} {x : α} : readAt l i = .ok x ↔ l[i]? = some x := by
  unfold readAt
  cases l[i]? with
  | none => exact ⟨nofun, nofun⟩
  | some y => exact ⟨fun h => congrArg some (Except.ok.inj h), fun h => congrArg Except.ok (Option.some.inj h)⟩

private theorem exists_readAt {α : Type} {l : List α} {i : ℕ} (h : i < l.length) : ∃ x, readAt l i = .ok x :=
  ⟨l[i], readAt_eq_ok.2 (List.getElem?_eq_getElem h)⟩

namespace Branch

variable {branch : Branch} {α : Type} {l : List α}

private theorem gather_ok (h : ∀ index ∈ branch.verts, index < l.length) :
    ∃ l', branch.gather l = .ok l' ∧ l'.length = branch.verts.card ∧
      ∀ index ∈ branch.verts, l'[branch.globalToLocalIndex index]? = l[index]? := by
  have hread : ∃ l', branch.gather l = .ok l' := by
    refine Library.Fallible.exists_mapM_iff.2 fun index hindex => exists_readAt (h index ?_)
    rwa [Finset.mem_sort] at hindex
  obtain ⟨l', hl'⟩ := hread
  have hread := Library.Fallible.forall₂_of_mapM hl'
  have hlength : branch.verts.sort.length = l'.length := hread.length_eq
  have hcard : branch.verts.sort.length = branch.verts.card := Finset.length_sort _
  refine ⟨l', hl', hlength.symm.trans hcard, ?_⟩
  intro index hindex
  have hpos : branch.verts.sort.idxOf index < branch.verts.sort.length :=
    List.idxOf_lt_length_of_mem ((Finset.mem_sort _).2 hindex)
  have hentry := readAt_eq_ok.1 (hread.get hpos (hlength ▸ hpos))
  rw [List.get_eq_getElem, List.getElem_idxOf] at hentry
  rw [globalToLocalIndex, if_pos hindex, hentry, List.getElem?_eq_getElem (hlength ▸ hpos)]
  rfl

private theorem gatherPresent_ok (h : l = [] ∨ ∀ index ∈ branch.verts, index < l.length) :
    ∃ l', branch.gatherPresent l = .ok l' ∧ (l ≠ [] → l'.length = branch.verts.card) ∧
      ∀ index ∈ branch.verts, l'[branch.globalToLocalIndex index]? = l[index]? := by
  unfold gatherPresent
  cases l with
  | nil => exact ⟨[], rfl, fun hne => absurd rfl hne, fun _ _ => rfl⟩
  | cons x l =>
    obtain ⟨l', hok, hlength, hentry⟩ := branch.gather_ok (h.resolve_left (List.cons_ne_nil x l))
    exact ⟨l', hok, fun _ => hlength, hentry⟩

end Branch

section Split

variable [ExactReal R] {context : SplitContext U M R} {branch : Branch} {hasNormals : Bool} {n : ℕ}

/-- What `splitMesh` relies on: the format of the mesh, and a material for it. -/
structure SplitContext.WellFormed (context : SplitContext U M R) (hasNormals : Bool) (n : ℕ) : Prop where
  format : context.data.buffers.Format hasNormals n
  inRange : ∀ face ∈ context.data.faces, ∀ index ∈ face.indices, index < context.data.vertices.length
  material : (context.matPropMap context.node.sharedId).isSome

/-- The mapped mesh of a branch has its faces, and each vertex where the lookup table says. -/
theorem SplitContext.WellFormed.mapBranch (h : context.WellFormed hasNormals n) (hbranch : branch.Fine context.data.faces) :
    ∃ mapped faces, context.mapBranch branch = .ok mapped ∧ mapped.vertices.length = branch.verts.card ∧
      List.Forall₂ (fun p face => context.data.faces[p]? = some face) branch.primitives faces ∧
      mapped.faces = faces.map (fun face => face.reindex branch.globalToLocalIndex) ∧
      (∃ mapping, mapped.meshMapping = [mapping]) ∧
      ∀ index ∈ branch.verts,
        (⟨mapped.vertices, mapped.normals, setUVChannels mapped.uvChannels⟩ : VertexBuffers R).corner
          (branch.globalToLocalIndex index) = context.data.buffers.corner index := by
  have hverts : ∀ index ∈ branch.verts, index < context.data.vertices.length := by
    intro index hindex
    rw [hbranch.verts] at hindex
    obtain ⟨p, -, face, hface, hindex⟩ := mem_vertsOf.1 hindex
    exact h.inRange face (List.mem_of_getElem? hface) index hindex
  obtain ⟨faces, hfaces⟩ := Library.Fallible.exists_mapM_iff.2
    fun p hp => exists_readAt (hbranch.inRange p hp)
  obtain ⟨vertices, hvertices, hlength, hvertex⟩ := branch.gather_ok hverts
  have hnormalVerts : context.data.normals = [] ∨ ∀ index ∈ branch.verts, index < context.data.normals.length := by
    have hlen := h.format.normals
    cases hasNormals with
    | true =>
      right
      intro index hindex
      exact (hverts index hindex).trans_eq hlen.symm
    | false => exact Or.inl (List.length_eq_zero_iff.1 hlen)
  obtain ⟨normals, hnormals, -, hnormal⟩ := branch.gatherPresent_ok hnormalVerts
  have hchannel : ∀ channel ∈ context.data.channels, ∃ uvs, branch.gatherPresent channel = .ok uvs ∧
      (channel ≠ [] → uvs.length = branch.verts.card) ∧
      ∀ index ∈ branch.verts, uvs[branch.globalToLocalIndex index]? = channel[index]? :=
    fun channel hmem => branch.gatherPresent_ok
      (Or.inr fun index hindex => (hverts index hindex).trans_eq (h.format.channel channel hmem).symm)
  obtain ⟨uvChannels, hchannels⟩ := Library.Fallible.exists_mapM_iff.2
    fun channel hmem => (hchannel channel hmem).imp fun _ h => h.1
  have huv : List.Forall₂ (fun channel uvs => (channel ≠ [] → uvs.length = branch.verts.card) ∧
      ∀ index ∈ branch.verts, uvs[branch.globalToLocalIndex index]? = channel[index]?)
      context.data.channels uvChannels := by
    obtain ⟨hlen, hall⟩ := List.forall₂_iff_zip.1 (Library.Fallible.forall₂_of_mapM hchannels)
    refine List.forall₂_iff_zip.2 ⟨hlen, fun {channel uvs} hm => ?_⟩
    obtain ⟨uvs', hok, hspec⟩ := hchannel channel (List.of_mem_zip hm).1
    obtain rfl : uvs' = uvs := Except.ok.inj (hok.symm.trans (hall hm))
    exact hspec
  obtain ⟨matNode, hmat⟩ := Option.isSome_iff_exists.1 h.material
  have hmap : ∃ mapping, context.mapBranch branch =
      .ok ⟨vertices, normals, faces.map fun face => face.reindex branch.globalToLocalIndex, uvChannels, [mapping]⟩ := by
    unfold SplitContext.mapBranch
    rw [hfaces, hvertices, hnormals, hchannels, hmat]
    exact ⟨_, rfl⟩
  obtain ⟨mapping, hmap⟩ := hmap
  refine ⟨_, faces, hmap, hlength, (Library.Fallible.forall₂_of_mapM hfaces).imp fun _ _ h => readAt_eq_ok.1 h, rfl,
    ⟨mapping, rfl⟩, ?_⟩
  intro index hindex
  have hpos : 0 < branch.verts.card := Finset.card_pos.2 ⟨index, hindex⟩
  have hset : setUVChannels uvChannels = uvChannels := by
    refine setUVChannels_eq fun uvs huvs hnil => ?_
    obtain ⟨channel, hchannel, hlen, -⟩ := Library.exists_left_of_forall₂ huv huvs
    have hchannelLen : channel.length = context.data.vertices.length := h.format.channel channel hchannel
    have hvertsLen := hverts index hindex
    have hne : channel ≠ [] := List.length_pos_iff.1 (by omega)
    have hlen := hlen hne
    rw [hnil, List.length_nil] at hlen
    omega
  dsimp only
  rw [hset]
  refine Prod.ext (hvertex index hindex) (Prod.ext (hnormal index hindex) ?_)
  exact map_eq_of_forall₂ (huv.imp fun _ _ h => h.2 index hindex)

/-- A small enough branch becomes a supermesh with its faces. -/
theorem SplitContext.WellFormed.createSupermeshFromBranch (h : context.WellFormed hasNormals n)
    (hbranch : branch.Fine context.data.faces) :
    ∃ node, context.createSupermeshFromBranch branch = .ok node ∧ Denotes context.data branch.primitives node := by
  obtain ⟨mapped, faces, hmap, hlength, hfaces, hreindex, ⟨mapping, hmapping⟩, hcorner⟩ := h.mapBranch hbranch
  have hnode : ∃ bbox meshMapping grouping, createSupermeshNode mapped context.namedGrouping =
      some ⟨mapped.vertices, mapped.normals, mapped.faces, bbox, setUVChannels mapped.uvChannels, meshMapping, grouping⟩ := by
    unfold createSupermeshNode
    rw [hmapping]
    exact ⟨_, _, _, rfl⟩
  obtain ⟨bbox, meshMapping, grouping, hnode⟩ := hnode
  have hcreate : context.createSupermeshFromBranch branch =
      .ok ⟨mapped.vertices, mapped.normals, mapped.faces, bbox, setUVChannels mapped.uvChannels, meshMapping, grouping⟩ := by
    unfold SplitContext.createSupermeshFromBranch
    rw [hmap]
    exact congrArg (fun o => (orFail Failure.nullSupermesh o).mapError SplitFault.failed) hnode
  refine ⟨_, hcreate, hlength.trans_le hbranch.bounded, ?_⟩
  dsimp only
  rw [hreindex, List.forall₂_map_right_iff]
  obtain ⟨hlen, hall⟩ := List.forall₂_iff_zip.1 hfaces
  refine List.forall₂_iff_zip.2 ⟨hlen, fun {p face} hm => ⟨face, hall hm, face.sides_reindex _, fun j hj => ?_⟩⟩
  rw [face.get_reindex _ hj]
  refine hcorner _ ?_
  rw [hbranch.verts]
  exact mem_vertsOf.2 ⟨p, (List.of_mem_zip hm).1, face, hall hm, face.get_mem hj⟩

end Split

/-! ### The pass over the branches -/

namespace Branch

/-- What a visit moves up to the branch, and what it cuts off. -/
def combine : Option Branch → Option Branch → Option Branch × List Branch
  | none, none => (none, [])
  | some branch, none => if branch.verts.card ≤ maxVertexCount then (some branch, []) else (none, [branch])
  | none, some branch => if branch.verts.card ≤ maxVertexCount then (some branch, []) else (none, [branch])
  | some left, some right =>
    if (left.verts ∪ right.verts).card ≤ maxVertexCount then
      (some ⟨left.verts ∪ right.verts, left.primitives ++ right.primitives⟩, [])
    else (none, [left, right])

private theorem combine_primitives_perm (left right : Option Branch) :
    ((combine left right).2.flatMap primitives ++ (combine left right).1.toList.flatMap primitives).Perm
      (left.toList.flatMap primitives ++ right.toList.flatMap primitives) := by
  cases left with
  | none =>
    cases right with
    | none => exact .refl _
    | some right =>
      unfold combine
      dsimp only
      split <;> simp
  | some left =>
    cases right with
    | none =>
      unfold combine
      dsimp only
      split <;> simp
    | some right =>
      unfold combine
      dsimp only
      split <;> simp

/-- A visit keeps branches small, and cuts off small ones. -/
theorem combine_fine (left right : Option Branch) (hleft : ∀ branch ∈ left, branch.Fine faces)
    (hright : ∀ branch ∈ right, branch.Fine faces) :
    (∀ branch ∈ (combine left right).1, branch.Fine faces) ∧ ∀ branch ∈ (combine left right).2, branch.Fine faces := by
  cases left with
  | none =>
    cases right with
    | none => simp [combine]
    | some right =>
      have hfine := hright right rfl
      rw [combine, if_pos hfine.bounded]
      exact ⟨hright, by simp⟩
  | some left =>
    have hfine := hleft left rfl
    cases right with
    | none =>
      rw [combine, if_pos hfine.bounded]
      exact ⟨hleft, by simp⟩
    | some right =>
      have hfine' := hright right rfl
      rw [combine]
      split
      · next hle =>
        refine ⟨?_, by simp⟩
        intro branch hbranch
        obtain rfl := Option.some.inj hbranch
        refine ⟨?_, hle, ?_⟩
        · dsimp only
          rw [hfine.verts, hfine'.verts, vertsOf_append]
        · intro p hp
          rcases List.mem_append.1 hp with hp | hp
          · exact hfine.inRange p hp
          · exact hfine'.inRange p hp
      · refine ⟨by simp, ?_⟩
        intro branch hbranch
        rcases List.mem_pair.1 hbranch with rfl | rfl
        · exact hfine
        · exact hfine'

end Branch

section Split

variable [ExactReal R] {context : SplitContext U M R} {hasNormals : Bool} {n : ℕ} {F : Type} {bvh : Bvh F}
  {t : FullTree ℕ}

/-- The branch of a leaf. -/
def leafBranch (faces : List RepoFace) (bvh : Bvh F) (nodeIndex : ℕ) : Branch :=
  ⟨vertsOf faces (bvh.leafPrimitives nodeIndex), bvh.leafPrimitives nodeIndex⟩

variable {front : ℕ → Option Branch}

private theorem update_none {i : ℕ} (h : front i = none) :
    Function.update front i none = front := by
  rw [← h, Function.update_eq_self]

private theorem update_none_apply {j : ℕ} (h : front j = none) (i : ℕ) :
    Function.update front i none j = none := by
  by_cases hj : j = i
  · rw [hj, Function.update_self]
  · rw [Function.update_of_ne hj, h]

/-- The visit of a branch that has nothing at the front yet. -/
theorem SplitContext.WellFormed.branchStep (h : context.WellFormed hasNormals n) (bvh : Bvh F) (state : SplitState U M R)
    {nodeIndex left right : ℕ} (hleft : left = (bvh.nodes nodeIndex).firstChildOrPrimitive)
    (hright : right = (bvh.nodes nodeIndex).firstChildOrPrimitive + 1) (hahead : state.front nodeIndex = none)
    (hleftFine : ∀ branch ∈ state.front left, branch.Fine context.data.faces)
    (hrightFine : ∀ branch ∈ state.front right, branch.Fine context.data.faces) :
    ∃ added, context.branchStep bvh state nodeIndex =
        .ok ⟨Function.update (Function.update (Function.update state.front left none) right none) nodeIndex
          (Branch.combine (state.front left) (state.front right)).1, state.supermeshes ++ added⟩ ∧
      List.Forall₂ (fun branch => Denotes context.data branch.primitives)
        (Branch.combine (state.front left) (state.front right)).2 added := by
  unfold SplitContext.branchStep
  dsimp only
  rw [← hright, ← hleft]
  cases hl : state.front left with
  | none =>
    rw [update_none hl]
    cases hr : state.front right with
    | none =>
      refine ⟨[], ?_, .nil⟩
      rw [update_none hr, Branch.combine, update_none hahead, List.append_nil]
      rfl
    | some branch =>
      have hfine := hrightFine branch hr
      refine ⟨[], ?_, ?_⟩
      · dsimp only
        rw [Branch.combine, if_pos hfine.bounded, if_pos hfine.bounded, List.append_nil]
        rfl
      · rw [Branch.combine, if_pos hfine.bounded]
        exact .nil
  | some leftBranch =>
    have hfine := hleftFine leftBranch hl
    cases hr : state.front right with
    | none =>
      refine ⟨[], ?_, ?_⟩
      · dsimp only
        rw [Branch.combine, if_pos hfine.bounded, if_pos hfine.bounded, List.append_nil,
          update_none (update_none_apply hr left)]
        rfl
      · rw [Branch.combine, if_pos hfine.bounded]
        exact .nil
    | some rightBranch =>
      have hfine' := hrightFine rightBranch hr
      dsimp only
      rw [Branch.combine]
      split
      · exact ⟨[], by rw [List.append_nil]; rfl, .nil⟩
      · obtain ⟨leftNode, hleftNode, hleftDenotes⟩ := h.createSupermeshFromBranch hfine
        obtain ⟨rightNode, hrightNode, hrightDenotes⟩ := h.createSupermeshFromBranch hfine'
        refine ⟨[leftNode, rightNode], ?_, .cons hleftDenotes (.cons hrightDenotes .nil)⟩
        -- the branch itself still has nothing
        have hnone := update_none_apply (update_none_apply hahead left) right
        rw [hleftNode, hrightNode, update_none hnone]
        rfl

omit [ExactReal R] in
/-- The loop over the leaves fills the front. -/
theorem foldlM_leafStep (context : SplitContext U M R) {leaves : List ℕ}
    (hrange : ∀ i ∈ leaves, ∀ p ∈ bvh.leafPrimitives i, p < context.data.faces.length) :
    ∃ front, leaves.foldlM (context.leafStep bvh) (fun _ => none) = .ok front ∧
      ∀ i, front i = if i ∈ leaves then some (leafBranch context.data.faces bvh i) else none := by
  induction leaves using List.reverseRecOn with
  | nil => exact ⟨fun _ => none, rfl, fun i => by simp⟩
  | append_singleton leaves j ih =>
    obtain ⟨front, hfront, hspec⟩ := ih fun i hi => hrange i (List.mem_append_left _ hi)
    obtain ⟨faces, hfaces⟩ := Library.Fallible.exists_mapM_iff.2
      fun p hp => exists_readAt (hrange j (List.mem_append_right _ List.mem_cons_self) p hp)
    have hverts : (faces.flatMap RepoFace.indices).toFinset = vertsOf context.data.faces (bvh.leafPrimitives j) := by
      have hindices := map_eq_of_forall₂ (f := fun p => (context.data.faces[p]?.map RepoFace.indices).getD [])
        (g := RepoFace.indices) ((Library.Fallible.forall₂_of_mapM hfaces).imp fun p face h => by
          rw [readAt_eq_ok.1 h]; rfl)
      rw [vertsOf, List.flatMap_def, List.flatMap_def, hindices]
    have hstep : context.leafStep bvh front j =
        .ok (Function.update front j (some (leafBranch context.data.faces bvh j))) := by
      unfold SplitContext.leafStep
      dsimp only
      rw [hfaces, leafBranch, ← hverts]
      rfl
    refine ⟨_, Library.Fallible.foldlM_concat_eq_ok hfront hstep, ?_⟩
    intro i
    by_cases hij : i = j
    · simp [hij]
    · rw [Function.update_of_ne hij, hspec]
      simp [hij]

private theorem settled_leaves (ht : bvh.IsTree n t) {xs : List (FullTree ℕ)} (hxs : ∀ x ∈ xs, ∃ i, x = .leaf i) (hcut : t.Cut xs)
    (hfront : ∀ i, front i = if i ∈ xs.map FullTree.label then some (leafBranch faces bvh i) else none) :
    t.Settled (leafBranch faces bvh) Branch.combine [] front := by
  have hleaves : ∀ i ∈ t.leaves, i ∈ xs.map FullTree.label := by
    intro i hi
    obtain ⟨x, hx, hix⟩ := List.mem_flatMap.1 (hcut.leaves.mem_iff.2 hi)
    obtain ⟨j, rfl⟩ := hxs x hx
    rw [FullTree.leaves_leaf, List.mem_singleton] at hix
    exact List.mem_map.2 ⟨.leaf j, hx, hix.symm⟩
  constructor
  · rintro x hx (⟨i, rfl⟩ | hdone) -
    · rw [FullTree.label_leaf, hfront, if_pos (hleaves i (FullTree.leaf_mem_subtrees_iff.1 hx))]
      rfl
    · exact absurd hdone List.not_mem_nil
  · rintro x hx ⟨a, l, r, rfl⟩ -
    rw [hfront, if_neg]
    intro hmem
    obtain ⟨y, hy, hlabel⟩ := List.mem_map.1 hmem
    obtain ⟨j, rfl⟩ := hxs y hy
    have hyt : FullTree.leaf j ∈ t.subtrees := FullTree.leaf_mem_subtrees_iff.2
      (hcut.leaves.mem_iff.1 (List.mem_flatMap.2 ⟨.leaf j, hy, by simp⟩))
    exact nomatch FullTree.eq_of_label_eq ht.nodup_labels hyt hx hlabel

/-- The loop over the branches, from the last to the first. -/
theorem SplitContext.WellFormed.foldlM_branchStep (h : context.WellFormed hasNormals n)
    (ht : bvh.IsTree context.data.faces.length t)
    (hleaf : ∀ i ∈ t.leaves, (leafBranch context.data.faces bvh i).Fine context.data.faces)
    (hfront : t.Settled (leafBranch context.data.faces bvh) Branch.combine [] front)
    {bs : List (FullTree ℕ)} (hbs : ∀ x ∈ bs, x ∈ t.subtrees ∧ ∃ i l r, x = .branch i l r)
    (hlater : ChildrenLater [] bs) (hnodup : bs.Nodup) :
    ∃ front' supermeshes,
      (bs.map FullTree.label).reverse.foldlM (context.branchStep bvh) ⟨front, []⟩ = .ok ⟨front', supermeshes⟩ ∧
      t.Settled (leafBranch context.data.faces bvh) Branch.combine bs front' ∧
      List.Forall₂ (fun branch => Denotes context.data branch.primitives)
        (bs.reverse.flatMap (FullTree.cutAt (leafBranch context.data.faces bvh) Branch.combine)) supermeshes := by
  induction bs with
  | nil => exact ⟨front, [], rfl, hfront, .nil⟩
  | cons b bs ih =>
    rw [List.nodup_cons] at hnodup
    have hrest : ∀ x ∈ bs, x ∈ t.subtrees ∧ ∃ i l r, x = .branch i l r := fun x hx => hbs x (List.mem_cons_of_mem _ hx)
    obtain ⟨front', supermeshes, hrun, hsettled, hdenotes⟩ := ih hrest hlater.2 hnodup.2
    obtain ⟨hb, i, l, r, rfl⟩ := hbs b List.mem_cons_self
    have hlater' := hlater.1 i l r rfl
    obtain ⟨-, hl, hr, -, -⟩ := ht.spells.of_mem_subtrees hb
    have hdone : ∀ {x : FullTree ℕ}, Handled [] bs x → (∃ j, x = .leaf j) ∨ x ∈ bs :=
      fun hx => hx.resolve_left List.not_mem_nil
    obtain ⟨hleft, hright⟩ := hsettled.children ht.nodup_labels (fun x hx => (hrest x hx).1) hb hnodup.1
      (hdone hlater'.1) (hdone hlater'.2)
    have hfine : ∀ x ∈ t.subtrees, ∀ branch ∈ FullTree.settle (leafBranch context.data.faces bvh) Branch.combine x,
        branch.Fine context.data.faces := fun x hx =>
      (FullTree.settle_cutAt_forall _ _ Branch.combine_fine fun i hi => hleaf i
        (FullTree.leaf_mem_subtrees_iff.1 (FullTree.subtrees_trans (FullTree.leaf_mem_subtrees_iff.2 hi) hx))).1
    obtain ⟨added, hstep, hadded⟩ := h.branchStep bvh ⟨front', supermeshes⟩ hl hr
      (hsettled.ahead _ hb ⟨i, l, r, rfl⟩ hnodup.1)
      (by dsimp only; rw [hleft]; exact hfine l (FullTree.left_mem_subtrees hb))
      (by dsimp only; rw [hright]; exact hfine r (FullTree.right_mem_subtrees hb))
    dsimp only at hstep hadded
    rw [hleft, hright] at hstep hadded
    refine ⟨_, supermeshes ++ added, ?_, hsettled.visit ht.nodup_labels hb, ?_⟩
    · rw [List.map_cons, List.reverse_cons]
      exact Library.Fallible.foldlM_concat_eq_ok hrun hstep
    · rw [List.reverse_cons, List.flatMap_append, List.flatMap_singleton]
      exact List.rel_append hdenotes hadded

private theorem cutAt_primitives_perm (ht : bvh.IsTree n t) {xs bs : List (FullTree ℕ)} (hxs : ∀ x ∈ xs, ∃ i, x = .leaf i)
    (hperm : (bs ++ xs).Perm t.subtrees) (faces : List RepoFace) :
    ((bs.reverse.flatMap (FullTree.cutAt (leafBranch faces bvh) Branch.combine) ++
      (FullTree.settle (leafBranch faces bvh) Branch.combine t).toList).flatMap Branch.primitives).Perm (List.range n) := by
  have hleaves : xs.flatMap (FullTree.cutAt (leafBranch faces bvh) Branch.combine) = [] := by
    refine List.flatMap_eq_nil_iff.2 fun x hx => ?_
    obtain ⟨i, rfl⟩ := hxs x hx
    rfl
  have hcuts := (hperm.flatMap_right (FullTree.cutAt (leafBranch faces bvh) Branch.combine))
  rw [List.flatMap_append, hleaves, List.append_nil] at hcuts
  have hreverse := ((List.reverse_perm bs).flatMap_right
    (FullTree.cutAt (leafBranch faces bvh) Branch.combine)).trans hcuts
  have hall := FullTree.settled_items_perm (leafBranch faces bvh) Branch.combine Branch.primitives
    Branch.combine_primitives_perm t
  rw [List.flatMap_append]
  exact ((hreverse.flatMap_right Branch.primitives).append_right _).trans (hall.trans ht.primitives)

/-- A mesh to be split, with a hierarchy of its faces as its builder promises it. -/
structure SplitInput (U M R F : Type) where
  context : SplitContext U M R
  bvh : Bvh F
  hasNormals : Bool
  channelCount : ℕ
  wellFormed : context.WellFormed hasNormals channelCount
  bvhWellFormed : bvh.WellFormed context.data.faces.length
  leafVertices : ∀ i, bvh.LeafNode i → (vertsOf context.data.faces (bvh.leafPrimitives i)).card ≤ maxVertexCount

omit [ExactReal R] in
theorem SplitInput.fine (input : SplitInput U M R F) (ht : input.bvh.IsTree input.context.data.faces.length t) :
    ∀ i ∈ t.leaves, (leafBranch input.context.data.faces input.bvh i).Fine input.context.data.faces := by
  intro i hi
  have hleaf : (input.bvh.nodes i).isLeaf = true := ht.spells.of_mem_subtrees (FullTree.leaf_mem_subtrees_iff.2 hi)
  have hbelow := ht.spells.ancestorOrSelf (FullTree.leaves_subset_labels t hi)
  rw [ht.root] at hbelow
  refine ⟨rfl, input.leafVertices i ⟨hbelow, hleaf⟩, ?_⟩
  intro p hp
  have hmem : p ∈ t.items input.bvh.leafPrimitives := List.mem_flatMap.2 ⟨i, hi, hp⟩
  exact List.mem_range.1 (ht.primitives.mem_iff.1 hmem)

omit [ExactReal R] in
theorem SplitInput.leaves_inRange (input : SplitInput U M R F) (ht : input.bvh.IsTree input.context.data.faces.length t)
    {xs : List (FullTree ℕ)} (hxs : ∀ x ∈ xs, ∃ i, x = .leaf i) (hcut : t.Cut xs) :
    ∀ i ∈ xs.map FullTree.label, ∀ p ∈ input.bvh.leafPrimitives i, p < input.context.data.faces.length := by
  intro i hi
  obtain ⟨x, hx, rfl⟩ := List.mem_map.1 hi
  obtain ⟨j, rfl⟩ := hxs x hx
  exact (input.fine ht j (hcut.leaves.mem_iff.1 (List.mem_flatMap.2 ⟨.leaf j, hx, by simp⟩))).inRange

private theorem splitMesh_eq {leaves branches : List ℕ} {state : SplitState U M R}
    (hflatten : flattenBvh bvh = pure (leaves, branches))
    (hfront : leaves.foldlM (context.leafStep bvh) (fun _ => none) = .ok front)
    (hrun : branches.reverse.foldlM (context.branchStep bvh) ⟨front, []⟩ = .ok state) :
    context.splitMesh bvh = context.checkForLeftovers branches.reverse state := by
  unfold SplitContext.splitMesh
  rw [hflatten]
  change (leaves.foldlM (context.leafStep bvh) (fun _ => none) >>= fun front =>
    branches.reverse.foldlM (context.branchStep bvh) ⟨front, []⟩ >>= context.checkForLeftovers branches.reverse) = _
  rw [hfront]
  change (branches.reverse.foldlM (context.branchStep bvh) ⟨front, []⟩ >>=
    context.checkForLeftovers branches.reverse) = _
  rw [hrun]
  rfl

/-- Over a hierarchy whose root is a branch the mesh is split. -/
theorem SplitInput.splitMesh_of_branch (input : SplitInput U M R F) (hroot : (input.bvh.nodes 0).isLeaf = false) :
    ∃ supermeshes, input.context.splitMesh input.bvh = .ok supermeshes ∧ Splits input.context.data supermeshes := by
  obtain ⟨t, ht⟩ := input.bvhWellFormed
  obtain ⟨xs, bs, hflatten, hxs, hcut, hbs, hlater, hhandled, hperm, hhead⟩ := flattenBvh_lists ht
  have hnotLeaf : ¬ ∃ i, t = .leaf i := by
    rintro ⟨i, rfl⟩
    have hleaf : (input.bvh.nodes i).isLeaf = true := ht.spells
    rw [← FullTree.label_leaf i, ht.root, hroot] at hleaf
    exact nomatch hleaf
  have hhead : bs.head? = some t := hhead.resolve_right hnotLeaf
  obtain ⟨front, hfront, hfrontSpec⟩ := foldlM_leafStep input.context (input.leaves_inRange ht hxs hcut)
  have hnodup : bs.Nodup :=
    (List.nodup_append'.1 (hperm.nodup_iff.2 (FullTree.nodup_subtrees ht.nodup_labels))).1
  obtain ⟨front', supermeshes, hrun, hsettled, hdenotes⟩ := input.wellFormed.foldlM_branchStep ht (input.fine ht)
    (settled_leaves ht hxs hcut hfrontSpec) hbs hlater hnodup
  have hrootValue := hsettled.root (fun x hx => (hbs x hx).1) (Or.inr (List.mem_of_head? hhead))
  have hlast : (bs.map FullTree.label).reverse.getLast? = some t.label := by
    rw [List.getLast?_reverse, List.head?_map, hhead]
    rfl
  have hparts := cutAt_primitives_perm ht hxs hperm input.context.data.faces
  rw [splitMesh_eq hflatten hfront hrun]
  unfold SplitContext.checkForLeftovers
  rw [hlast]
  dsimp only
  rw [hrootValue]
  cases hsettle : FullTree.settle (leafBranch input.context.data.faces input.bvh) Branch.combine t with
  | none =>
    rw [hsettle] at hparts
    refine ⟨supermeshes, rfl, _, ?_, List.forall₂_map_left_iff.2 hdenotes⟩
    rwa [Option.toList_none, List.append_nil, List.flatMap_def] at hparts
  | some leftover =>
    rw [hsettle] at hparts
    have hfine : leftover.Fine input.context.data.faces :=
      (FullTree.settle_cutAt_forall _ _ Branch.combine_fine (input.fine ht)).1 leftover hsettle
    obtain ⟨last, hcreate, hlastDenotes⟩ := input.wellFormed.createSupermeshFromBranch hfine
    refine ⟨supermeshes ++ [last], ?_, _, ?_,
      List.forall₂_map_left_iff.2 (List.rel_append hdenotes (.cons hlastDenotes .nil))⟩
    · dsimp only
      rw [hcreate]
      rfl
    · rwa [Option.toList_some, List.flatMap_def] at hparts

private theorem SplitInput.splitMesh_of_leaf (input : SplitInput U M R F) (hroot : (input.bvh.nodes 0).isLeaf = true)
    (supermeshes : List (SupermeshNode U M R)) : input.context.splitMesh input.bvh ≠ .ok supermeshes := by
  obtain ⟨t, ht⟩ := input.bvhWellFormed
  obtain ⟨xs, bs, hflatten, hxs, hcut, hbs, -, -, -, -⟩ := flattenBvh_lists ht
  have hleaf : ∃ i, t = .leaf i := by
    cases t with
    | leaf i => exact ⟨i, rfl⟩
    | branch i l r =>
      have hinner : (input.bvh.nodes i).isLeaf = false := ht.spells.1
      rw [← FullTree.label_branch i l r, ht.root, hroot] at hinner
      exact nomatch hinner
  have hnil : bs = [] := by
    obtain ⟨i, rfl⟩ := hleaf
    refine List.eq_nil_iff_forall_not_mem.2 fun x hx => ?_
    obtain ⟨hx, j, l, r, rfl⟩ := hbs x hx
    simp at hx
  obtain ⟨front, hfront, -⟩ := foldlM_leafStep input.context (input.leaves_inRange ht hxs hcut)
  subst hnil
  rw [splitMesh_eq hflatten hfront rfl]
  exact nofun

/-- A mesh is split over a hierarchy of its faces exactly if the root of the hierarchy is a branch. -/
theorem splitMesh_splits_iff (input : SplitInput U M R F) :
    (∃ supermeshes, input.context.splitMesh input.bvh = .ok supermeshes ∧ Splits input.context.data supermeshes) ↔
      (input.bvh.nodes 0).isLeaf = false := by
  constructor
  · rintro ⟨supermeshes, hok, -⟩
    by_contra hleaf
    exact input.splitMesh_of_leaf (Bool.of_not_eq_false hleaf) supermeshes hok
  · exact input.splitMesh_of_branch

end Split

/-- A mesh of one triangle that has more vertices than a supermesh may have, over the hierarchy of its one face. -/
noncomputable def loneFace : SplitInput ℕ Unit ℝ ℕ where
  context :=
    { node := ⟨⟨BitVec.ofNat 32 (maxVertexCount + 1), ⟨⟨0, 0, 0⟩, ⟨0, 0, 0⟩⟩⟩, 4, 7⟩
      data := ⟨0, List.replicate (maxVertexCount + 1) ⟨0, 0, 0⟩, [RepoFace.triangle 0 1 2], [], []⟩
      matPropMap := fun _ => some ⟨9, ()⟩
      texId := 0
      namedGrouping := "Ground" }
  bvh := .chain (fun _ _ => 0) (fun _ => 0) 1
  hasNormals := false
  channelCount := 0
  wellFormed :=
    { format := ⟨rfl, rfl, by simp [SupermeshingData.buffers]⟩
      inRange := by
        intro face hface index hindex
        obtain rfl := List.mem_singleton.1 hface
        have hle : index ≤ 2 := by
          simp only [RepoFace.triangle, List.mem_cons, List.not_mem_nil, or_false] at hindex
          omega
        have hmax : 2 < maxVertexCount := by decide
        dsimp only
        rw [List.length_replicate]
        omega
      material := rfl }
  bvhWellFormed := Bvh.chain_wellFormed _ _ 0
  leafVertices := by
    intro i _
    refine (Finset.card_le_card (t := {0, 1, 2}) fun index hindex => ?_).trans (by decide)
    obtain ⟨p, -, face, hface, hindex⟩ := mem_vertsOf.1 hindex
    obtain rfl := List.mem_singleton.1 (List.mem_of_getElem? hface)
    simpa [RepoFace.triangle] using hindex

theorem not_splitMesh_splits :
    ¬ ∀ input : SplitInput ℕ Unit ℝ ℕ, maxVertexCount < input.context.data.vertices.length →
      ∃ supermeshes, input.context.splitMesh input.bvh = .ok supermeshes ∧ Splits input.context.data supermeshes := by
  intro h
  obtain ⟨supermeshes, hok, -⟩ := h loneFace (by
    show maxVertexCount < (List.replicate (maxVertexCount + 1) _).length
    rw [List.length_replicate]
    exact Nat.lt_succ_self _)
  exact loneFace.splitMesh_of_leaf rfl supermeshes hok

end Bouncer.MultipartOptimizer
