import Bouncer.Bvh.Builder
import Bouncer.Library.TreeWalk

/-!
# Cutting a hierarchy over meshes

The functions of `MultipartOptimizer` that work on a hierarchy whose primitives are the meshes of a bin:
`flattenBvh` lists its nodes, `getVertexCounts` adds up the vertices below each of them, `getSupermeshBranchNodes`
chooses the heads of the branches that become supermeshes, and `getBranchPrimitives` lists the meshes of a branch.

On a well-formed hierarchy all of them return: the heads are a cut of the tree (`getSupermeshBranchNodes_cut`), a
branch has the primitives below its head (`getBranchPrimitives_perm`), and every node has the vertices of the meshes
below it (`getVertexCounts_spec`).
-/

namespace Bouncer.MultipartOptimizer

open Library (FullTree Outcome lifo fifo run)

/-- `REPO_MP_MAX_VERTEX_COUNT`. -/
def maxVertexCount : ℕ := 1200000

structure RepoException where
  message : String
  deriving DecidableEq

/-- The fields of a `StreamingMeshNode` that clustering reads. -/
structure StreamingMeshNode (D : Type*) where
  numVertices : BitVec 32
  bounds : RepoBounds D

/-- `meshes[i].getNumVertices()`. -/
def numVerticesAt {D : Type*} (meshes : List (StreamingMeshNode D)) (i : ℕ) : BitVec 32 :=
  (meshes[i]?.map StreamingMeshNode.numVertices).getD 0

/-- Loops over a hierarchy may run out of iterations, and `getVertexCounts` may throw. -/
abbrev Result (α : Type) := ExceptT RepoException Option α

def liftExcept {α : Type} (x : Except RepoException α) : Result α := ExceptT.mk (some x)

section Bvh

variable {F D : Type*}

/-- The loop of `flattenBvh`: leaves and branches, breadth first. -/
def flattenStep (bvh : Bvh F) (index : ℕ) (st : List ℕ × List ℕ) : Outcome ℕ (List ℕ × List ℕ) :=
  let node := bvh.nodes index
  if node.isLeaf then .push [] (st.1 ++ [index], st.2)
  else .push [node.firstChildOrPrimitive, node.firstChildOrPrimitive + 1] (st.1, st.2 ++ [index])

def flattenBvh (bvh : Bvh F) : Result (List ℕ × List ℕ) :=
  (run fifo (flattenStep bvh) bvh.nodeCount [0] ([], [])).map fun r => .ok r.1

/-- The vertices of the primitives of the leaf `nodeIndex`. -/
def leafVertexCount (bvh : Bvh F) (binIndexes : List ℕ) (meshes : List (StreamingMeshNode D)) (nodeIndex : ℕ) :
    Except RepoException ℕ :=
  (bvh.leafPrimitives nodeIndex).foldlM (fun vertexCount primitiveIndex =>
    match binIndexes[primitiveIndex]? with
    | some i => .ok (vertexCount + (numVerticesAt meshes i).toNat)
    | none => .error ⟨"Primitive index out of bounds when calculating vertex counts for BVH nodes. This likely " ++
        "means there is a mismatch between the primitives in the BVH and the input meshes."⟩) 0

/-- The vertices of a branch are those of its children. -/
def addChildren (bvh : Bvh F) (vertexCounts : ℕ → ℕ) (nodeIndex : ℕ) : ℕ → ℕ :=
  let node := bvh.nodes nodeIndex
  Function.update vertexCounts nodeIndex
    (vertexCounts node.firstChildOrPrimitive + vertexCounts (node.firstChildOrPrimitive + 1))

def getVertexCounts (bvh : Bvh F) (binIndexes : List ℕ) (meshes : List (StreamingMeshNode D)) :
    Result (ℕ → ℕ) := do
  let (leaves, flattened) ← flattenBvh bvh
  let vertexCounts ← leaves.foldlM (fun (vertexCounts : ℕ → ℕ) nodeIndex => do
    let vertexCount ← liftExcept (leafVertexCount bvh binIndexes meshes nodeIndex)
    return Function.update vertexCounts nodeIndex vertexCount) fun _ => 0
  return flattened.reverse.foldl (addChildren bvh) vertexCounts

/-- The loop of `getSupermeshBranchNodes`. -/
def branchStep (bvh : Bvh F) (vertexCounts : ℕ → ℕ) (index : ℕ) (branchNodes : List ℕ) : Outcome ℕ (List ℕ) :=
  let node := bvh.nodes index
  let numVertices := vertexCounts index
  if decide (numVertices < maxVertexCount) || node.isLeaf then .push [] (branchNodes ++ [index])
  else .push [node.firstChildOrPrimitive, node.firstChildOrPrimitive + 1] branchNodes

def getSupermeshBranchNodes (bvh : Bvh F) (vertexCounts : ℕ → ℕ) : Result (List ℕ) :=
  (run lifo (branchStep bvh vertexCounts) bvh.nodeCount [0] []).map fun r => .ok r.1

/-- The loop of `getBranchPrimitives`. -/
def primitivesStep (bvh : Bvh F) (index : ℕ) (primitives : List ℕ) : Outcome ℕ (List ℕ) :=
  let node := bvh.nodes index
  if node.isLeaf then .push [] (primitives ++ bvh.leafPrimitives index)
  else .push [node.firstChildOrPrimitive, node.firstChildOrPrimitive + 1] primitives

def getBranchPrimitives (bvh : Bvh F) (head : ℕ) : Result (List ℕ) :=
  (run lifo (primitivesStep bvh) bvh.nodeCount [head] []).map fun r => .ok r.1

/-! ### Each loop returns -/

section Returns

variable {bvh : Bvh F} {n : ℕ} {t : FullTree ℕ}

private theorem isLeaf_of_spells {x : FullTree ℕ} (hx : bvh.Spells x) :
    ((bvh.nodes x.label).isLeaf = true ∧ ∃ i, x = .leaf i) ∨
    ((bvh.nodes x.label).isLeaf = false ∧ ∃ i l r, x = .branch i l r ∧
      l.label = (bvh.nodes x.label).firstChildOrPrimitive ∧
      r.label = (bvh.nodes x.label).firstChildOrPrimitive + 1) := by
  cases x with
  | leaf i => exact Or.inl ⟨hx, i, rfl⟩
  | branch i l r => exact Or.inr ⟨hx.1, i, l, r, rfl, hx.2.1, hx.2.2.1⟩

/-- The heads of the branches are a cut of the tree, and what is above a head has too many vertices. -/
theorem getSupermeshBranchNodes_cut (ht : bvh.IsTree n t) (vertexCounts : ℕ → ℕ) :
    ∃ xs : List (FullTree ℕ), getSupermeshBranchNodes bvh vertexCounts = pure (xs.map FullTree.label) ∧
      t.Cut xs ∧ (∀ x ∈ xs, vertexCounts x.label < maxVertexCount ∨ ∃ i, x = .leaf i) ∧
      ∀ x ∈ xs, x = t ∨ ∃ parent, t.IsParent parent x ∧ maxVertexCount ≤ vertexCounts parent.label := by
  let Small := fun x : FullTree ℕ => vertexCounts x.label < maxVertexCount ∨ ∃ i, x = .leaf i
  let Below := fun x : FullTree ℕ =>
    x = t ∨ ∃ parent, t.IsParent parent x ∧ maxVertexCount ≤ vertexCounts parent.label
  let P := fun (s : List ℕ) (xs ps : List (FullTree ℕ)) =>
    s = xs.map FullTree.label ∧ (∀ x ∈ xs, Small x) ∧ ∀ x ∈ xs ++ ps, Below x
  have hperm : ∀ s xs ps ps', ps.Perm ps' → P s xs ps → P s xs ps' := by
    rintro s xs ps ps' hps ⟨hs, hxs, hbelow⟩
    exact ⟨hs, hxs, fun x hx => hbelow x ((hps.append_left xs).mem_iff.2 hx)⟩
  have hstep : ∀ x ∈ t.subtrees, ∀ s xs ps, P s xs (x :: ps) →
      (∃ s', branchStep bvh vertexCounts x.label s = .push [] s' ∧ P s' (xs ++ [x]) ps) ∨
      (∃ i l r s', x = .branch i l r ∧ branchStep bvh vertexCounts x.label s = .push [l.label, r.label] s' ∧
        P s' xs (l :: r :: ps)) := by
    rintro x hx s xs ps ⟨hs, hxs, hbelow⟩
    have hcut : Small x → P (s ++ [x.label]) (xs ++ [x]) ps := by
      intro h
      refine ⟨by simp [hs], ?_, by simpa using hbelow⟩
      intro y hy
      rcases List.mem_append.1 hy with hy | hy
      · exact hxs y hy
      · rw [List.mem_singleton.1 hy]
        exact h
    by_cases hlt : vertexCounts x.label < maxVertexCount
    · exact Or.inl ⟨s ++ [x.label], by simp [branchStep, hlt], hcut (Or.inl hlt)⟩
    · rcases isLeaf_of_spells (ht.spells.of_mem_subtrees hx) with ⟨hleaf, hi⟩ | ⟨hinner, i, l, r, he, hl, hr⟩
      · exact Or.inl ⟨s ++ [x.label], by simp [branchStep, hleaf], hcut (Or.inr hi)⟩
      · refine Or.inr ⟨i, l, r, s, he, by simp [branchStep, hlt, hinner, hl, hr], hs, hxs, ?_⟩
        intro y hy
        have hchild : y = l ∨ y = r → Below y := fun h => Or.inr ⟨x, ⟨i, l, r, he, hx, h⟩, not_lt.1 hlt⟩
        simp only [List.mem_append, List.mem_cons] at hy hbelow
        rcases hy with hy | rfl | rfl | hy
        · exact hbelow y (Or.inl hy)
        · exact hchild (Or.inl rfl)
        · exact hchild (Or.inr rfl)
        · exact hbelow y (Or.inr (Or.inr hy))
  obtain ⟨s', xs, hrun, ⟨rfl, hxs, hbelow⟩, hcut⟩ := Library.run_tree Library.lifo_perm P hperm hstep
    (s := []) ⟨rfl, by simp, by simp [Below]⟩ (n := bvh.nodeCount) ht.size_eq.le
  refine ⟨xs, ?_, hcut, hxs, by simpa using hbelow⟩
  rw [ht.root] at hrun
  rw [getSupermeshBranchNodes, hrun]
  rfl

/-- The primitives of a branch are those below its head. -/
theorem getBranchPrimitives_perm (ht : bvh.IsTree n t) {x : FullTree ℕ} (hx : x ∈ t.subtrees) :
    ∃ primitives, getBranchPrimitives bvh x.label = pure primitives ∧
      primitives.Perm (x.items bvh.leafPrimitives) := by
  let P := fun (s : List ℕ) (xs _ps : List (FullTree ℕ)) => s = xs.flatMap (FullTree.items bvh.leafPrimitives)
  have hstep : ∀ y ∈ x.subtrees, ∀ s xs ps, P s xs (y :: ps) →
      (∃ s', primitivesStep bvh y.label s = .push [] s' ∧ P s' (xs ++ [y]) ps) ∨
      (∃ i l r s', y = .branch i l r ∧ primitivesStep bvh y.label s = .push [l.label, r.label] s' ∧
        P s' xs (l :: r :: ps)) := by
    intro y hy s xs ps hs
    rcases isLeaf_of_spells (ht.spells.of_mem_subtrees (FullTree.subtrees_trans hy hx)) with
      ⟨hleaf, i, rfl⟩ | ⟨hinner, i, l, r, he, hl, hr⟩
    · left
      rw [FullTree.label_leaf] at hleaf
      refine ⟨s ++ bvh.leafPrimitives i, by simp [primitivesStep, hleaf], ?_⟩
      simp only [P] at hs ⊢
      simp [hs]
    · exact Or.inr ⟨i, l, r, s, he, by simp [primitivesStep, hinner, hl, hr], hs⟩
  have hsize : x.size ≤ bvh.nodeCount := (FullTree.size_le_of_mem_subtrees hx).trans ht.size_eq.le
  obtain ⟨s', xs, hrun, rfl, hcut⟩ := Library.run_tree Library.lifo_perm P (fun _ _ _ _ _ h => h) hstep
    (s := []) rfl hsize
  refine ⟨xs.flatMap (FullTree.items bvh.leafPrimitives), ?_, hcut.items_perm _⟩
  rw [getBranchPrimitives, hrun]
  rfl

/-! ### Vertex counts

`flattened` lists every branch before the branches among its children, so that going through it backwards finds the
counts of the children in place. -/

/-- What becomes of a child `x` of a listed branch: it is pending, it is a leaf, or it is in `later`. -/
def Handled (ps later : List (FullTree ℕ)) (x : FullTree ℕ) : Prop :=
  x ∈ ps ∨ (∃ i, x = .leaf i) ∨ x ∈ later

/-- The children of each branch of the list are handled by what follows it. -/
def ChildrenLater (ps : List (FullTree ℕ)) : List (FullTree ℕ) → Prop
  | [] => True
  | x :: later => (∀ i l r, x = .branch i l r → Handled ps later l ∧ Handled ps later r) ∧ ChildrenLater ps later

private theorem ChildrenLater.append {ps ps' bs later : List (FullTree ℕ)}
    (hbs : ChildrenLater ps bs) (h : ∀ q x, Handled ps q x → Handled ps' (q ++ later) x)
    (hlater : ChildrenLater ps' later) : ChildrenLater ps' (bs ++ later) := by
  induction bs with
  | nil => exact hlater
  | cons y bs ih =>
    refine ⟨?_, ih hbs.2⟩
    intro i l r he
    obtain ⟨hl, hr⟩ := hbs.1 i l r he
    exact ⟨h bs l hl, h bs r hr⟩

/-- `flattenBvh` lists the leaves, and the branches with parents before children, each node once. -/
theorem flattenBvh_lists (ht : bvh.IsTree n t) :
    ∃ xs bs : List (FullTree ℕ), flattenBvh bvh = pure (xs.map FullTree.label, bs.map FullTree.label) ∧
      (∀ x ∈ xs, ∃ i, x = .leaf i) ∧ t.Cut xs ∧ (∀ x ∈ bs, x ∈ t.subtrees ∧ ∃ i l r, x = .branch i l r) ∧
      ChildrenLater [] bs ∧ Handled [] bs t ∧ (bs ++ xs).Perm t.subtrees ∧ (bs.head? = some t ∨ ∃ i, t = .leaf i) := by
  let P := fun (s : List ℕ × List ℕ) (xs ps : List (FullTree ℕ)) => ∃ bs : List (FullTree ℕ),
    s = (xs.map FullTree.label, bs.map FullTree.label) ∧ (∀ x ∈ xs, ∃ i, x = .leaf i) ∧
      (∀ x ∈ bs, x ∈ t.subtrees ∧ ∃ i l r, x = .branch i l r) ∧ ChildrenLater ps bs ∧ Handled ps bs t ∧
      (bs ++ xs ++ ps.flatMap FullTree.subtrees).Perm t.subtrees ∧
      (bs = [] ∧ ps = [t] ∨ bs.head? = some t ∨ ∃ i, t = .leaf i)
  have hperm : ∀ s xs ps ps', ps.Perm ps' → P s xs ps → P s xs ps' := by
    rintro s xs ps ps' hps ⟨bs, hs, hxs, hbs, hlater, hroot, hall, hhead⟩
    have h : ∀ q x, Handled ps q x → Handled ps' (q ++ []) x := by
      rintro q x (hx | hx | hx)
      · exact Or.inl (hps.mem_iff.1 hx)
      · exact Or.inr (Or.inl hx)
      · exact Or.inr (Or.inr (by simpa using hx))
    have hlater' := hlater.append h trivial
    have hroot' := h bs t hroot
    rw [List.append_nil] at hlater' hroot'
    refine ⟨bs, hs, hxs, hbs, hlater', hroot', ((hps.symm.flatMap_right _).append_left _).trans hall, ?_⟩
    rcases hhead with ⟨hnil, rfl⟩ | hhead
    · exact Or.inl ⟨hnil, List.perm_singleton.1 hps.symm⟩
    · exact Or.inr hhead
  have hstep : ∀ x ∈ t.subtrees, ∀ s xs ps, P s xs (x :: ps) →
      (∃ s', flattenStep bvh x.label s = .push [] s' ∧ P s' (xs ++ [x]) ps) ∨
      (∃ i l r s', x = .branch i l r ∧ flattenStep bvh x.label s = .push [l.label, r.label] s' ∧
        P s' xs (l :: r :: ps)) := by
    rintro x hx s xs ps ⟨bs, rfl, hxs, hbs, hlater, hroot, hall, hhead⟩
    rcases isLeaf_of_spells (ht.spells.of_mem_subtrees hx) with ⟨hleaf, hi⟩ | ⟨hinner, i, l, r, he, hl, hr⟩
    · left
      have h : ∀ q y, Handled (x :: ps) q y → Handled ps (q ++ []) y := by
        rintro q y (hy | hy | hy)
        · rcases List.mem_cons.1 hy with rfl | hy
          · exact Or.inr (Or.inl hi)
          · exact Or.inl hy
        · exact Or.inr (Or.inl hy)
        · exact Or.inr (Or.inr (by simpa using hy))
      have hlater' := hlater.append h trivial
      have hroot' := h bs t hroot
      rw [List.append_nil] at hlater' hroot'
      refine ⟨((xs ++ [x]).map FullTree.label, bs.map FullTree.label), by simp [flattenStep, hleaf], bs, rfl, ?_, hbs,
        hlater', hroot', ?_, ?_⟩
      · intro y hy
        rcases List.mem_append.1 hy with hy | hy
        · exact hxs y hy
        · rw [List.mem_singleton.1 hy]
          exact hi
      · obtain ⟨j, rfl⟩ := hi
        rwa [← List.append_assoc, List.append_assoc _ [_]]
      · rcases hhead with ⟨-, hps⟩ | hhead
        · exact Or.inr (Or.inr ((List.cons.inj hps).1 ▸ hi))
        · exact Or.inr hhead
    · right
      have h : ∀ q y, Handled (x :: ps) q y → Handled (l :: r :: ps) (q ++ [x]) y := by
        rintro q y (hy | hy | hy)
        · rcases List.mem_cons.1 hy with rfl | hy
          · exact Or.inr (Or.inr (by simp))
          · exact Or.inl (by simp [hy])
        · exact Or.inr (Or.inl hy)
        · exact Or.inr (Or.inr (by simp [hy]))
      have hx' : ChildrenLater (l :: r :: ps) [x] := by
        refine ⟨?_, trivial⟩
        intro i' l' r' he'
        rw [he] at he'
        simp only [FullTree.branch.injEq] at he'
        obtain ⟨-, rfl, rfl⟩ := he'
        exact ⟨Or.inl (by simp), Or.inl (by simp)⟩
      refine ⟨i, l, r, (xs.map FullTree.label, (bs ++ [x]).map FullTree.label), he,
        by simp [flattenStep, hinner, hl, hr], bs ++ [x], rfl, hxs, ?_, hlater.append h hx', h bs t hroot, ?_, ?_⟩
      · intro y hy
        rcases List.mem_append.1 hy with hy | hy
        · exact hbs y hy
        · rw [List.mem_singleton.1 hy]
          exact ⟨hx, i, l, r, he⟩
      · refine List.Perm.trans ?_ hall
        rw [List.append_assoc, List.append_assoc, List.append_assoc, he]
        refine List.Perm.append_left bs ?_
        simp only [List.flatMap_cons, FullTree.subtrees_branch, List.nil_append, List.cons_append,
          List.append_assoc]
        exact List.perm_middle.symm
      · rcases hhead with ⟨rfl, hps⟩ | hhead | hleaf
        · exact Or.inr (Or.inl (by rw [(List.cons.inj hps).1]; rfl))
        · exact Or.inr (Or.inl (by rw [List.head?_append, hhead]; rfl))
        · exact Or.inr (Or.inr hleaf)
  have hstart : P ([], []) [] [t] := ⟨[], rfl, by simp, by simp, trivial, Or.inl (by simp), by simp, Or.inl ⟨rfl, rfl⟩⟩
  obtain ⟨s', xs, hrun, ⟨bs, rfl, hxs, hbs, hlater, hroot, hall, hhead⟩, hcut⟩ :=
    Library.run_tree Library.fifo_perm P hperm hstep hstart (n := bvh.nodeCount) ht.size_eq.le
  refine ⟨xs, bs, ?_, hxs, hcut, hbs, hlater, hroot, by simpa using hall, by simpa using hhead⟩
  rw [ht.root] at hrun
  rw [flattenBvh, hrun]
  rfl

private theorem flattenBvh_spec (ht : bvh.IsTree n t) :
    ∃ xs bs : List (FullTree ℕ), flattenBvh bvh = pure (xs.map FullTree.label, bs.map FullTree.label) ∧
      (∀ x ∈ xs, ∃ i, x = .leaf i) ∧ t.Cut xs ∧ (∀ x ∈ bs, x ∈ t.subtrees ∧ ∃ i l r, x = .branch i l r) ∧ ChildrenLater [] bs ∧
      Handled [] bs t := by
  obtain ⟨xs, bs, hflatten, hxs, hcut, hbs, hlater, hroot, -⟩ := flattenBvh_lists ht
  exact ⟨xs, bs, hflatten, hxs, hcut, hbs, hlater, hroot⟩

/-- The vertices of the meshes below a node. -/
def verticesBelow (bvh : Bvh F) (binIndexes : List ℕ) (meshes : List (StreamingMeshNode D)) (x : FullTree ℕ) : ℕ :=
  ((x.items bvh.leafPrimitives).map fun p => (numVerticesAt meshes (binIndexes.getD p 0)).toNat).sum

variable {binIndexes : List ℕ} {meshes : List (StreamingMeshNode D)}

private theorem verticesBelow_branch (i : ℕ) (l r : FullTree ℕ) :
    verticesBelow bvh binIndexes meshes (.branch i l r) =
      verticesBelow bvh binIndexes meshes l + verticesBelow bvh binIndexes meshes r := by
  simp [verticesBelow]

private theorem leafVertexCount_eq {i : ℕ} (h : ∀ p ∈ bvh.leafPrimitives i, p < binIndexes.length) :
    leafVertexCount bvh binIndexes meshes i = .ok (verticesBelow bvh binIndexes meshes (.leaf i)) := by
  have hfold : ∀ (ps : List ℕ) (c : ℕ), (∀ p ∈ ps, p < binIndexes.length) →
      ps.foldlM (fun vertexCount primitiveIndex =>
        match binIndexes[primitiveIndex]? with
        | some i => .ok (vertexCount + (numVerticesAt meshes i).toNat)
        | none => .error ⟨"Primitive index out of bounds when calculating vertex counts for BVH nodes. This likely " ++
            "means there is a mismatch between the primitives in the BVH and the input meshes."⟩) c =
        (Except.ok (c + (ps.map fun p => (numVerticesAt meshes (binIndexes.getD p 0)).toNat).sum) :
          Except RepoException ℕ) := by
    intro ps
    induction ps with
    | nil => intro c _; rfl
    | cons p ps ih =>
      intro c h
      have hp : binIndexes[p]? = some (binIndexes.getD p 0) := by
        have := h p List.mem_cons_self
        simp [this]
      rw [List.foldlM_cons, hp, List.map_cons, List.sum_cons, ← Nat.add_assoc]
      exact ih _ fun q hq => h q (List.mem_cons_of_mem _ hq)
  rw [leafVertexCount, hfold _ 0 h, Nat.zero_add, verticesBelow, FullTree.items_leaf]

variable (meshes) in
/-- Counting the leaves one after the other. -/
private theorem foldlM_leaves {is : List ℕ} (h : ∀ i ∈ is, ∀ p ∈ bvh.leafPrimitives i, p < binIndexes.length)
    (vc : ℕ → ℕ) :
    ∃ vc', is.foldlM (fun (vertexCounts : ℕ → ℕ) nodeIndex => do
        let vertexCount ← liftExcept (leafVertexCount bvh binIndexes meshes nodeIndex)
        return Function.update vertexCounts nodeIndex vertexCount) vc = (pure vc' : Result (ℕ → ℕ)) ∧
      ∀ i, (i ∈ is ∨ vc i = verticesBelow bvh binIndexes meshes (.leaf i)) →
        vc' i = verticesBelow bvh binIndexes meshes (.leaf i) := by
  induction is generalizing vc with
  | nil => exact ⟨vc, rfl, fun i hi => hi.resolve_left (by simp)⟩
  | cons j is ih =>
    let vc₁ := Function.update vc j (verticesBelow bvh binIndexes meshes (.leaf j))
    obtain ⟨vc', hfold, hvc'⟩ := ih (fun i hi => h i (List.mem_cons_of_mem _ hi)) vc₁
    refine ⟨vc', ?_, ?_⟩
    · rw [List.foldlM_cons, leafVertexCount_eq (h j List.mem_cons_self)]
      exact hfold
    · intro i hi
      refine hvc' i ?_
      by_cases hij : i = j
      · right
        simp [vc₁, hij]
      · have hi : i ∈ is ∨ vc i = _ := hi.imp_left fun hm => (List.mem_cons.1 hm).resolve_left hij
        simpa [vc₁, Function.update_of_ne hij] using hi

/-- Going backwards through the branches. -/
private theorem foldl_branches (ht : bvh.IsTree n t) {bs : List (FullTree ℕ)}
    (hbs : ∀ x ∈ bs, x ∈ t.subtrees ∧ ∃ i l r, x = .branch i l r)
    (hlater : ChildrenLater [] bs) {vc : ℕ → ℕ}
    (hleaves : ∀ i, .leaf i ∈ t.subtrees → vc i = verticesBelow bvh binIndexes meshes (.leaf i)) :
    ∀ x ∈ t.subtrees, Handled [] bs x →
      (bs.map FullTree.label).reverse.foldl (addChildren bvh) vc x.label = verticesBelow bvh binIndexes meshes x := by
  induction bs with
  | nil =>
    rintro x hx (h | ⟨i, rfl⟩ | h)
    · simp at h
    · exact hleaves i hx
    · simp at h
  | cons b bs ih =>
    have ih := ih (fun x hx => hbs x (List.mem_cons_of_mem _ hx)) hlater.2
    obtain ⟨hb, i, l, r, rfl⟩ := hbs b List.mem_cons_self
    obtain ⟨hl, hr⟩ := hlater.1 i l r rfl
    intro x hx hcase
    rw [List.map_cons, List.reverse_cons, List.foldl_append, List.foldl_cons, List.foldl_nil, addChildren]
    by_cases hxb : x.label = i
    · obtain rfl := FullTree.eq_of_label_eq ht.nodup_labels hx hb hxb
      obtain ⟨-, hll, hrl, -, -⟩ := ht.spells.of_mem_subtrees hx
      rw [FullTree.label_branch, Function.update_self, ← hrl, ← hll, ih l (FullTree.left_mem_subtrees hx) hl,
        ih r (FullTree.right_mem_subtrees hx) hr, verticesBelow_branch]
    · rw [FullTree.label_branch, Function.update_of_ne hxb]
      refine ih x hx ?_
      rcases hcase with h | hi | hm
      · exact Or.inl h
      · exact Or.inr (Or.inl hi)
      · rcases List.mem_cons.1 hm with rfl | hm
        · exact absurd rfl hxb
        · exact Or.inr (Or.inr hm)

/-- Below a branch of which everything is handled, everything is handled. -/
private theorem handled_of_mem_subtrees {bs : List (FullTree ℕ)} (hlater : ChildrenLater [] bs) {x : FullTree ℕ}
    (hx : Handled [] bs x) : ∀ y ∈ x.subtrees, Handled [] bs y := by
  have hchildren : ∀ {bs : List (FullTree ℕ)} {i : ℕ} {l r : FullTree ℕ}, ChildrenLater [] bs →
      .branch i l r ∈ bs → Handled [] bs l ∧ Handled [] bs r := by
    intro bs i l r hlater hm
    have hmono : ∀ (b y : FullTree ℕ) (q : List (FullTree ℕ)), Handled [] q y → Handled [] (b :: q) y :=
      fun b y q h => h.imp_right (Or.imp_right (List.mem_cons_of_mem b))
    induction bs with
    | nil => simp at hm
    | cons b bs ih =>
      rcases List.mem_cons.1 hm with rfl | hm
      · obtain ⟨hl, hr⟩ := hlater.1 i l r rfl
        exact ⟨hmono _ l bs hl, hmono _ r bs hr⟩
      · obtain ⟨hl, hr⟩ := ih hlater.2 hm
        exact ⟨hmono b l bs hl, hmono b r bs hr⟩
  induction x with
  | leaf i =>
    intro y hy
    rw [FullTree.subtrees_leaf, List.mem_singleton] at hy
    rwa [hy]
  | branch i l r ihl ihr =>
    have hm : .branch i l r ∈ bs := by
      rcases hx with h | ⟨j, h⟩ | h
      · simp at h
      · simp at h
      · exact h
    obtain ⟨hl, hr⟩ := hchildren hlater hm
    intro y hy
    simp only [FullTree.subtrees_branch, List.mem_cons, List.mem_append] at hy
    rcases hy with rfl | hy | hy
    · exact hx
    · exact ihl hl y hy
    · exact ihr hr y hy

variable (meshes) in
/-- Every node gets the number of vertices of the meshes below it. -/
theorem getVertexCounts_spec (ht : bvh.IsTree binIndexes.length t) :
    ∃ vertexCounts, getVertexCounts bvh binIndexes meshes = pure vertexCounts ∧
      ∀ x ∈ t.subtrees, vertexCounts x.label = verticesBelow bvh binIndexes meshes x := by
  obtain ⟨xs, bs, hflatten, hxs, hcut, hbs, hlater, hroot⟩ := flattenBvh_spec ht
  have hrange : ∀ i ∈ xs.map FullTree.label, ∀ p ∈ bvh.leafPrimitives i, p < binIndexes.length := by
    intro i hi p hp
    obtain ⟨x, hx, rfl⟩ := List.mem_map.1 hi
    obtain ⟨j, rfl⟩ := hxs x hx
    have hm : p ∈ t.items bvh.leafPrimitives :=
      (hcut.items_perm _).mem_iff.1 (List.mem_flatMap.2 ⟨.leaf j, hx, by simpa using hp⟩)
    exact List.mem_range.1 (ht.primitives.mem_iff.1 hm)
  obtain ⟨vc, hfold, hvc⟩ := foldlM_leaves meshes hrange fun _ => 0
  refine ⟨(bs.map FullTree.label).reverse.foldl (addChildren bvh) vc, ?_, ?_⟩
  · rw [getVertexCounts, hflatten, pure_bind]
    simp only [hfold, pure_bind]
  · intro x hx
    refine foldl_branches ht hbs hlater ?_ x hx (handled_of_mem_subtrees hlater hroot x hx)
    intro i hi
    have hm : i ∈ xs.flatMap FullTree.leaves := hcut.leaves.mem_iff.2 (FullTree.leaf_mem_subtrees_iff.1 hi)
    obtain ⟨x, hx, hix⟩ := List.mem_flatMap.1 hm
    obtain ⟨j, rfl⟩ := hxs x hx
    rw [FullTree.leaves_leaf, List.mem_singleton] at hix
    exact hvc i (Or.inl (List.mem_map.2 ⟨.leaf j, hx, hix.symm⟩))

/-! ### The branches of a bin -/

/-- The primitives of the branches with the given heads are those of the hierarchy, each in one branch; a head has few
enough vertices or is a leaf, and what is above it has too many. -/
structure BranchesCover (bvh : Bvh F) (binIndexes : List ℕ) (meshes : List (StreamingMeshNode D)) (t : FullTree ℕ)
    (heads : List (FullTree ℕ)) (branch : FullTree ℕ → List ℕ) : Prop where
  subtree : ∀ head ∈ heads, head ∈ t.subtrees
  disjoint : (heads.map branch).Pairwise List.Disjoint
  union : ∀ primitive, (∃ head ∈ heads, primitive ∈ branch head) ↔ primitive < binIndexes.length
  small : ∀ head ∈ heads, verticesBelow bvh binIndexes meshes head < maxVertexCount ∨ ∃ i, head = .leaf i
  root_or_child : ∀ head ∈ heads, head = t ∨ ∃ parent, t.IsParent parent head
  parent : ∀ head ∈ heads, ∀ parent, t.IsParent parent head →
    ¬ verticesBelow bvh binIndexes meshes parent < maxVertexCount

/-- The branches that become supermeshes are a partition of the primitives, cut as high as their vertices permit. -/
theorem getSupermeshBranchNodes_covers (ht : bvh.IsTree binIndexes.length t) (meshes : List (StreamingMeshNode D)) :
    ∃ vertexCounts heads branch, getVertexCounts bvh binIndexes meshes = pure vertexCounts ∧
      getSupermeshBranchNodes bvh vertexCounts = pure (heads.map FullTree.label) ∧
      (∀ head ∈ heads, getBranchPrimitives bvh head.label = pure (branch head)) ∧
      BranchesCover bvh binIndexes meshes t heads branch := by
  obtain ⟨vertexCounts, hcounts, hbelow⟩ := getVertexCounts_spec meshes ht
  obtain ⟨heads, hheads, hcut, hsmall, hparent⟩ := getSupermeshBranchNodes_cut ht vertexCounts
  have hget : ∀ x, ∃ primitives, x ∈ t.subtrees →
      getBranchPrimitives bvh x.label = pure primitives ∧ primitives.Perm (x.items bvh.leafPrimitives) := by
    intro x
    by_cases hx : x ∈ t.subtrees
    · obtain ⟨primitives, h⟩ := getBranchPrimitives_perm ht hx
      exact ⟨primitives, fun _ => h⟩
    · exact ⟨[], fun h => absurd h hx⟩
  choose branch hbranch using hget
  have hitems : (heads.flatMap (FullTree.items bvh.leafPrimitives)).Perm (List.range binIndexes.length) :=
    (hcut.items_perm _).trans ht.primitives
  refine ⟨vertexCounts, heads, branch, hcounts, hheads, fun x hx => (hbranch x (hcut.subtree x hx)).1,
    hcut.subtree, ?_, ?_, ?_, ?_, ?_⟩
  · have hdisjoint := (List.nodup_flatMap.1 (hitems.nodup_iff.2 List.nodup_range)).2
    rw [List.pairwise_map]
    refine hdisjoint.imp_of_mem ?_
    intro x y hx hy h
    exact ((hbranch x (hcut.subtree x hx)).2.disjoint_left.trans
      (hbranch y (hcut.subtree y hy)).2.disjoint_right).2 h
  · intro primitive
    rw [← List.mem_range, ← hitems.mem_iff, List.mem_flatMap]
    refine exists_congr fun head => and_congr_right fun hx => ?_
    exact (hbranch head (hcut.subtree head hx)).2.mem_iff
  · intro x hx
    rw [← hbelow x (hcut.subtree x hx)]
    exact hsmall x hx
  · intro x hx
    exact (hparent x hx).imp_right fun ⟨parent, h, _⟩ => ⟨parent, h⟩
  · intro x hx parent h
    rcases hparent x hx with rfl | ⟨parent', h', hle⟩
    · exact absurd rfl (h.label_ne ht.nodup_labels)
    · obtain rfl := h.unique ht.nodup_labels h'
      obtain ⟨i, l, r, rfl, hsub, -⟩ := h
      rw [hbelow _ hsub] at hle
      exact not_lt.2 hle

/-- Three meshes of 700000 vertices each: the root has too many, and so has the branch below it. -/
theorem getSupermeshBranchNodes_covers_chain :
    ∃ vertexCounts heads branch,
      getVertexCounts (Bvh.chain (fun _ _ => 0) (fun _ => 0) 3 : Bvh ℚ) [0, 1, 2]
        (List.replicate 3 (⟨700000, ⟨⟨0, 0, 0⟩, ⟨1, 1, 1⟩⟩⟩ : StreamingMeshNode ℚ)) = pure vertexCounts ∧
      getSupermeshBranchNodes (Bvh.chain (fun _ _ => 0) (fun _ => 0) 3 : Bvh ℚ) vertexCounts =
        pure (heads.map FullTree.label) ∧
      (∀ head ∈ heads, getBranchPrimitives (Bvh.chain (fun _ _ => 0) (fun _ => 0) 3 : Bvh ℚ) head.label =
        pure (branch head)) ∧
      BranchesCover (Bvh.chain (fun _ _ => 0) (fun _ => 0) 3 : Bvh ℚ) [0, 1, 2]
        (List.replicate 3 (⟨700000, ⟨⟨0, 0, 0⟩, ⟨1, 1, 1⟩⟩⟩ : StreamingMeshNode ℚ)) (Bvh.chainTree 0 2) heads branch :=
  getSupermeshBranchNodes_covers (Bvh.chain_isTree (fun _ _ => 0) (fun _ => 0) 2) _

end Returns

end Bvh

end Bouncer.MultipartOptimizer
