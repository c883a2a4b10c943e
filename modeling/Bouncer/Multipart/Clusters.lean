import Bouncer.Library.Chunking
import Bouncer.Multipart.BvhCut

/-!
# Grouping meshes into supermeshes

`MultipartOptimizer::clusterMeshNodes` sorts the meshes by their efficiency, fills supermeshes with the least
efficient ones, cuts a hierarchy over the others at branches with few enough vertices, and finally splits the
clusters that have too many meshes.

The first three stages give a partition of the meshes (`formClusters_partition`).  The last one reuses its buffer
from one big cluster to the next without emptying it, so that the result is a partition only if no big cluster but
the last leaves something in the buffer (`clusterMeshNodes_partition_iff`).
-/

namespace Bouncer.MultipartOptimizer

open Library (FullTree flushAll)

/-- `REPO_MP_MAX_MESHES_IN_SUPERMESH`. -/
def maxMeshesInSupermesh : ℕ := 5000

/-- `REPO_MODEL_LOW_CLUSTERING_RATIO`: the constant `0.2f` is stored in a `size_t`. -/
def modelLowClusteringRatio : BitVec 64 := 0

/-- `float` and `double`; nothing is assumed of their operations. -/
class FloatArith (F D : Type*) extends Add D, Sub D, Div D where
  /-- `(float)n`. -/
  ofUInt32 : BitVec 32 → F
  widen : F → D
  narrow : D → F
  lt : F → F → Bool

/-- `std::sort`: whatever the comparison, the elements are only rearranged. -/
structure StdSort where
  sort : ∀ {α : Type}, (α → α → Bool) → List α → List α
  perm : ∀ {α : Type} (less : α → α → Bool) (l : List α), (sort less l).Perm l

section Bins

variable {F D : Type}

/-- The indices of nodes, here and in the clusters, are of type `int`: there are fewer than `2 ^ 31` meshes. -/
structure MeshMetric (F : Type*) where
  nodeIndex : ℕ
  efficiency : F

/-- The clusters filled so far, and the one being filled; the counters are of type `int`. -/
structure Bins where
  clusters : List (List ℕ)
  bin : List ℕ
  binVertexCount : BitVec 32
  binsVertexCount : BitVec 32

/-- One more mesh for the bin, which becomes a cluster when it fills one supermesh. -/
def Bins.add (bins : Bins) (meshes : List (StreamingMeshNode D)) (nodeIndex : ℕ) : Bins :=
  let numVertices := numVerticesAt meshes nodeIndex
  let bin := bins.bin ++ [nodeIndex]
  let binVertexCount := bins.binVertexCount + numVertices
  let binsVertexCount := bins.binsVertexCount + numVertices
  if (maxVertexCount : ℤ) ≤ binVertexCount.toInt then ⟨bins.clusters ++ [bin], [], 0, binsVertexCount⟩
  else ⟨bins.clusters, bin, binVertexCount, binsVertexCount⟩

/-- Meshes are taken from the front while the bins are not above the threshold; the others remain. -/
def fillBins (meshes : List (StreamingMeshNode D)) (modelLowerThreshold : ℤ) :
    List (MeshMetric F) → Bins → Bins × List (MeshMetric F)
  | [], bins => (bins, [])
  | item :: metrics, bins =>
    if bins.binsVertexCount.toInt ≤ modelLowerThreshold then
      fillBins meshes modelLowerThreshold metrics (bins.add meshes item.nodeIndex)
    else (bins, item :: metrics)

def lowerThreshold (meshes : List (StreamingMeshNode D)) : ℤ :=
  let totalVertices := meshes.foldl (fun (total : BitVec 32) mesh => total + mesh.numVertices) 0
  max (maxVertexCount : ℤ) ((totalVertices.signExtend 64 * modelLowClusteringRatio).setWidth 32).toInt

variable {meshes : List (StreamingMeshNode D)}

private theorem add_flatten (bins : Bins) (i : ℕ) :
    (bins.add meshes i).clusters.flatten ++ (bins.add meshes i).bin =
      bins.clusters.flatten ++ bins.bin ++ [i] := by
  simp only [Bins.add]
  split <;> simp

variable (meshes) in
private theorem fillBins_flatten (threshold : ℤ) (metrics : List (MeshMetric F)) (bins : Bins) :
    (fillBins meshes threshold metrics bins).1.clusters.flatten ++ (fillBins meshes threshold metrics bins).1.bin ++
        (fillBins meshes threshold metrics bins).2.map MeshMetric.nodeIndex =
      bins.clusters.flatten ++ bins.bin ++ metrics.map MeshMetric.nodeIndex := by
  induction metrics generalizing bins with
  | nil => simp [fillBins]
  | cons item metrics ih =>
    simp only [fillBins]
    by_cases h : bins.binsVertexCount.toInt ≤ threshold
    · rw [if_pos h, ih, add_flatten]
      simp
    · rw [if_neg h]

/-- The ratio is stored as zero, so the threshold is that of one supermesh. -/
theorem lowerThreshold_eq (meshes : List (StreamingMeshNode D)) : lowerThreshold meshes = maxVertexCount := by
  simp [lowerThreshold, modelLowClusteringRatio]

end Bins

section Clusters

variable {F D : Type} [FloatArith F D]

variable (F) in
def bvhVector3 (v : RepoVector3D D) : RepoVector3D F :=
  ⟨FloatArith.narrow v.x, FloatArith.narrow v.y, FloatArith.narrow v.z⟩

def buildBoundsBvh (builder : SweepSahBuilder F) (binIndexes : List ℕ) (meshes : List (StreamingMeshNode D)) :
    Bvh F :=
  builder.build <| binIndexes.filterMap fun index =>
    meshes[index]?.map fun node => ⟨bvhVector3 F node.bounds.bmin, bvhVector3 F node.bounds.bmax⟩

/-- The clusters are added to `clusters`. -/
def clusterMeshNodesBvh (builder : SweepSahBuilder F) (meshes : List (StreamingMeshNode D)) (binIndexes : List ℕ)
    (clusters : List (List ℕ)) : Result (List (List ℕ)) := do
  let bvh := buildBoundsBvh builder binIndexes meshes
  let vertexCounts ← getVertexCounts bvh binIndexes meshes
  let branchNodes ← getSupermeshBranchNodes bvh vertexCounts
  branchNodes.foldlM (fun clusters head => do
    let primitives ← getBranchPrimitives bvh head
    return clusters ++ [primitives.map fun primitive => binIndexes.getD primitive 0]) clusters

/-- `(float)numVertices / (width + height + length)`. -/
def efficiency (node : StreamingMeshNode D) : F :=
  FloatArith.narrow (FloatArith.widen (FloatArith.ofUInt32 (D := D) node.numVertices : F) /
    (node.bounds.size.x + node.bounds.size.y + node.bounds.size.z))

variable (F) in
def sortedMetrics (sort : StdSort) (meshes : List (StreamingMeshNode D)) : List (MeshMetric F) :=
  sort.sort (fun a b => FloatArith.lt D a.efficiency b.efficiency) <|
    meshes.zipIdx.map fun (node, i) => ⟨i, efficiency node⟩

/-- `clusterMeshNodes` up to the splitting of big clusters. -/
def formClusters (sort : StdSort) (builder : SweepSahBuilder F) (meshes : List (StreamingMeshNode D)) :
    Result (List (List ℕ)) :=
  let (bins, metrics) := fillBins meshes (lowerThreshold meshes) (sortedMetrics F sort meshes) ⟨[], [], 0, 0⟩
  let clusters := if bins.bin.length ≠ 0 then bins.clusters ++ [bins.bin] else bins.clusters
  let bin := metrics.map MeshMetric.nodeIndex
  if bin.length ≠ 0 then clusterMeshNodesBvh builder meshes bin clusters else pure clusters

/-- The clusters that have to be split. -/
def clustersToSplit (clusters : List (List ℕ)) : List (List ℕ) :=
  clusters.filter fun cluster => decide (maxMeshesInSupermesh < cluster.length)

def splitBigClusters (clusters : List (List ℕ)) : List (List ℕ) :=
  flushAll maxMeshesInSupermesh
    (clusters.filter fun cluster => !decide (maxMeshesInSupermesh < cluster.length)) (clustersToSplit clusters)

def clusterMeshNodes (sort : StdSort) (builder : SweepSahBuilder F) (meshes : List (StreamingMeshNode D)) :
    Result (List (List ℕ)) := do
  let clusters ← formClusters sort builder meshes
  return splitBigClusters clusters

/-- Every index below `n` lies in one cluster, once, and no cluster is too big. -/
def IsBoundedPartition (n : ℕ) (clusters : List (List ℕ)) : Prop :=
  clusters.flatten.Perm (List.range n) ∧ ∀ cluster ∈ clusters, cluster.length ≤ maxMeshesInSupermesh

/-! ### The stages before the splitting -/

variable {sort : StdSort} {builder : SweepSahBuilder F} {meshes : List (StreamingMeshNode D)}

private theorem length_boxes {bin : List ℕ} (hrange : ∀ i ∈ bin, i < meshes.length) :
    (bin.filterMap fun index => meshes[index]?.map fun node =>
      (⟨bvhVector3 F node.bounds.bmin, bvhVector3 F node.bounds.bmax⟩ : BoundingBox F)).length = bin.length := by
  induction bin with
  | nil => rfl
  | cons i bin ih =>
    have hi : i < meshes.length := hrange i List.mem_cons_self
    rw [List.filterMap_cons_some (b := ⟨bvhVector3 F meshes[i].bounds.bmin, bvhVector3 F meshes[i].bounds.bmax⟩)]
    · rw [List.length_cons, List.length_cons, ih fun j hj => hrange j (List.mem_cons_of_mem _ hj)]
    · rw [List.getElem?_eq_getElem hi, Option.map_some]

variable (builder) in
private theorem buildBoundsBvh_wellFormed {bin : List ℕ} (hbin : bin ≠ []) (hrange : ∀ i ∈ bin, i < meshes.length) :
    (buildBoundsBvh builder bin meshes).WellFormed bin.length := by
  have hlen := length_boxes (F := F) hrange
  have h := builder.wellFormed _ (List.ne_nil_of_length_pos (hlen ▸ List.length_pos_iff.2 hbin))
  rwa [hlen] at h

/-- One cluster for each head. -/
private theorem foldlM_heads {bvh : Bvh F} {n : ℕ} {t : FullTree ℕ} (ht : bvh.IsTree n t) (bin : List ℕ)
    {xs : List (FullTree ℕ)} (hxs : ∀ x ∈ xs, x ∈ t.subtrees) (clusters : List (List ℕ)) :
    ∃ clusters', (xs.map FullTree.label).foldlM (fun clusters head => do
        let primitives ← getBranchPrimitives bvh head
        return clusters ++ [primitives.map fun primitive => bin.getD primitive 0]) clusters =
          (pure clusters' : Result (List (List ℕ))) ∧
      clusters'.flatten.Perm
        (clusters.flatten ++ (xs.flatMap (FullTree.items bvh.leafPrimitives)).map fun p => bin.getD p 0) := by
  induction xs generalizing clusters with
  | nil => exact ⟨clusters, rfl, by simp⟩
  | cons x xs ih =>
    obtain ⟨primitives, hget, hperm⟩ := getBranchPrimitives_perm ht (hxs x List.mem_cons_self)
    obtain ⟨clusters', hfold, hflat⟩ := ih (fun y hy => hxs y (List.mem_cons_of_mem _ hy))
      (clusters ++ [primitives.map fun primitive => bin.getD primitive 0])
    refine ⟨clusters', ?_, hflat.trans ?_⟩
    · rw [List.map_cons, List.foldlM_cons, hget, pure_bind, pure_bind]
      exact hfold
    · rw [List.flatten_append, List.flatMap_cons, List.map_append, List.append_assoc]
      refine List.Perm.append_left _ ?_
      rw [List.flatten_singleton]
      exact (hperm.map _).append_right _

private theorem map_getD_range (bin : List ℕ) : (List.range bin.length).map (fun p => bin.getD p 0) = bin := by
  refine List.ext_getElem (by simp) ?_
  intro i h₁ h₂
  simp [h₂]

variable (builder) in
private theorem clusterMeshNodesBvh_perm {bin : List ℕ} (hbin : bin ≠ []) (hrange : ∀ i ∈ bin, i < meshes.length)
    (clusters : List (List ℕ)) :
    ∃ clusters', clusterMeshNodesBvh builder meshes bin clusters = pure clusters' ∧
      clusters'.flatten.Perm (clusters.flatten ++ bin) := by
  obtain ⟨t, ht⟩ := buildBoundsBvh_wellFormed builder hbin hrange
  obtain ⟨vertexCounts, hcounts, -⟩ := getVertexCounts_spec meshes ht
  obtain ⟨xs, hheads, hcut, -⟩ := getSupermeshBranchNodes_cut ht vertexCounts
  obtain ⟨clusters', hfold, hflat⟩ := foldlM_heads ht bin hcut.subtree clusters
  refine ⟨clusters', ?_, hflat.trans ?_⟩
  · simp only [clusterMeshNodesBvh, hcounts, hheads, pure_bind]
    exact hfold
  · have hperm := ((hcut.items_perm _).trans ht.primitives).map fun p => bin.getD p 0
    rw [map_getD_range] at hperm
    exact hperm.append_left _

variable (sort meshes) in
theorem sortedMetrics_perm : ((sortedMetrics F sort meshes).map MeshMetric.nodeIndex).Perm
    (List.range meshes.length) := by
  have h := (sort.perm (fun a b => FloatArith.lt D a.efficiency b.efficiency)
    (meshes.zipIdx.map fun (node, i) => (⟨i, efficiency node⟩ : MeshMetric F))).map MeshMetric.nodeIndex
  have hidx : (meshes.zipIdx.map fun (node, i) => (⟨i, efficiency node⟩ : MeshMetric F)).map MeshMetric.nodeIndex =
      List.range meshes.length := by
    rw [List.map_map, List.range_eq_range', ← List.zipIdx_map_snd 0 meshes]
    rfl
  rwa [hidx] at h

variable (sort builder meshes) in
/-- Before big clusters are split, the clusters are a partition of the meshes. -/
theorem formClusters_partition : ∃ clusters, formClusters sort builder meshes = pure clusters ∧
    clusters.flatten.Perm (List.range meshes.length) := by
  have hall := fillBins_flatten meshes (lowerThreshold meshes) (sortedMetrics F sort meshes) ⟨[], [], 0, 0⟩
  have hsorted := sortedMetrics_perm (F := F) sort meshes
  simp only [List.flatten_nil, List.nil_append] at hall
  rw [← hall] at hsorted
  unfold formClusters
  generalize fillBins meshes (lowerThreshold meshes) (sortedMetrics F sort meshes) ⟨[], [], 0, 0⟩ = r at hsorted ⊢
  obtain ⟨⟨filled, last, c₁, c₂⟩, metrics⟩ := r
  simp only at hsorted ⊢
  have hlow : (if last.length ≠ 0 then filled ++ [last] else filled).flatten = filled.flatten ++ last := by
    by_cases h : last.length ≠ 0
    · simp [h]
    · rw [not_not, List.length_eq_zero_iff] at h
      simp [h]
  by_cases hbin : (metrics.map MeshMetric.nodeIndex).length ≠ 0
  · rw [if_pos hbin]
    have hrange : ∀ i ∈ metrics.map MeshMetric.nodeIndex, i < meshes.length := by
      intro i hi
      exact List.mem_range.1 (hsorted.mem_iff.1 (List.mem_append_right _ hi))
    obtain ⟨clusters, hclusters, hflat⟩ := clusterMeshNodesBvh_perm builder
      (List.ne_nil_of_length_pos (Nat.pos_of_ne_zero hbin)) hrange
      (if last.length ≠ 0 then filled ++ [last] else filled)
    rw [hlow] at hflat
    exact ⟨clusters, hclusters, hflat.trans hsorted⟩
  · rw [if_neg hbin]
    refine ⟨_, rfl, ?_⟩
    rw [not_not, List.length_eq_zero_iff] at hbin
    rw [hlow]
    rwa [hbin, List.append_nil] at hsorted

/-! ### Splitting big clusters -/

private theorem splitBigClusters_length_le (clusters : List (List ℕ)) :
    ∀ cluster ∈ splitBigClusters clusters, cluster.length ≤ maxMeshesInSupermesh := by
  refine Library.length_le_of_mem_flushAll (by decide) ?_
  intro c hc
  simpa using (List.mem_filter.1 hc).2

private theorem splitBigClusters_perm_iff (clusters : List (List ℕ)) :
    (splitBigClusters clusters).flatten.Perm clusters.flatten ↔
      ∀ cluster ∈ (clustersToSplit clusters).dropLast, maxMeshesInSupermesh ∣ cluster.length := by
  rw [← Library.flushAll_flatten_perm_iff (by decide : 0 < maxMeshesInSupermesh)]
  have hsplit := List.filter_append_perm (fun cluster => !decide (maxMeshesInSupermesh < cluster.length)) clusters
  simp only [Bool.not_not] at hsplit
  exact ⟨fun h => h.trans hsplit.flatten.symm, fun h => h.trans hsplit.flatten⟩

private theorem pure_injective {c c' : List (List ℕ)} (h : (pure c : Result (List (List ℕ))) = pure c') : c = c' := by
  injection h with h
  injection h

private theorem isBoundedPartition_iff {formed : List (List ℕ)} (hformed : formClusters sort builder meshes = pure formed) :
    (∃ clusters, clusterMeshNodes sort builder meshes = pure clusters ∧ IsBoundedPartition meshes.length clusters) ↔
      ∀ cluster ∈ (clustersToSplit formed).dropLast, maxMeshesInSupermesh ∣ cluster.length := by
  have hresult : clusterMeshNodes sort builder meshes = pure (splitBigClusters formed) := by
    rw [clusterMeshNodes, hformed, pure_bind]
  have hperm : formed.flatten.Perm (List.range meshes.length) := by
    obtain ⟨formed', hformed', hperm⟩ := formClusters_partition sort builder meshes
    obtain rfl := pure_injective (hformed.symm.trans hformed')
    exact hperm
  constructor
  · rintro ⟨clusters, hclusters, hpartition, -⟩
    obtain rfl := pure_injective (hresult.symm.trans hclusters)
    exact (splitBigClusters_perm_iff formed).1 (hpartition.trans hperm.symm)
  · intro hdvd
    exact ⟨_, hresult, ((splitBigClusters_perm_iff formed).2 hdvd).trans hperm, splitBigClusters_length_le formed⟩

/-- The clusters are a partition of the meshes into clusters that are not too big, exactly if among the clusters to
be split every one but the last has a multiple of `maxMeshesInSupermesh` meshes. -/
theorem clusterMeshNodes_partition_iff (sort : StdSort) (builder : SweepSahBuilder F)
    (meshes : List (StreamingMeshNode D)) :
    (∃ clusters, clusterMeshNodes sort builder meshes = pure clusters ∧ IsBoundedPartition meshes.length clusters) ↔
      ∃ formed, formClusters sort builder meshes = pure formed ∧
        ∀ cluster ∈ (clustersToSplit formed).dropLast, maxMeshesInSupermesh ∣ cluster.length := by
  constructor
  · intro h
    obtain ⟨formed, hformed, -⟩ := formClusters_partition sort builder meshes
    exact ⟨formed, hformed, (isBoundedPartition_iff hformed).1 h⟩
  · rintro ⟨formed, hformed, hdvd⟩
    exact (isBoundedPartition_iff hformed).2 hdvd

/-! ### Two big clusters -/

variable (builder) in
/-- A bin with few enough vertices is one cluster. -/
theorem clusterMeshNodesBvh_of_lt {bin : List ℕ} (hbin : bin ≠ []) (hrange : ∀ i ∈ bin, i < meshes.length)
    (hlt : (bin.map fun i => (numVerticesAt meshes i).toNat).sum < maxVertexCount) (clusters : List (List ℕ)) :
    ∃ cluster, clusterMeshNodesBvh builder meshes bin clusters = pure (clusters ++ [cluster]) ∧ cluster.Perm bin := by
  obtain ⟨t, ht⟩ := buildBoundsBvh_wellFormed builder hbin hrange
  obtain ⟨vertexCounts, hcounts, hbelow⟩ := getVertexCounts_spec meshes ht
  have hroot : vertexCounts 0 < maxVertexCount := by
    have hsum := (ht.primitives.map fun p => (numVerticesAt meshes (bin.getD p 0)).toNat).sum_eq
    have hmap : (List.range bin.length).map (fun p => (numVerticesAt meshes (bin.getD p 0)).toNat) =
        bin.map fun i => (numVerticesAt meshes i).toNat := by
      conv_rhs => rw [← map_getD_range bin, List.map_map]
      rfl
    rw [← ht.root, hbelow t t.self_mem_subtrees, verticesBelow, hsum, hmap]
    exact hlt
  have hheads : getSupermeshBranchNodes (buildBoundsBvh builder bin meshes) vertexCounts = pure [0] := by
    have hnodes : 0 < (buildBoundsBvh builder bin meshes).nodeCount := ht.size_eq ▸ t.size_pos
    obtain ⟨k, hk⟩ := Nat.exists_eq_succ_of_ne_zero hnodes.ne'
    have hstep : branchStep (buildBoundsBvh builder bin meshes) vertexCounts 0 [] = .push [] [0] := by
      simp [branchStep, hroot]
    rw [getSupermeshBranchNodes, hk, Library.run_cons_push hstep]
    simp [Library.lifo]
    rfl
  obtain ⟨primitives, hget, hperm⟩ := getBranchPrimitives_perm ht t.self_mem_subtrees
  rw [ht.root] at hget
  refine ⟨primitives.map fun p => bin.getD p 0, ?_, ?_⟩
  · simp only [clusterMeshNodesBvh, hcounts, hheads, pure_bind, List.foldlM_cons, List.foldlM_nil, hget]
  · have h := (hperm.trans ht.primitives).map fun p => bin.getD p 0
    rwa [map_getD_range] at h

private theorem toInt_ofNat_of_le {k : ℕ} (hk : k ≤ 5021) : (BitVec.ofNat 32 (239 * k)).toInt = 239 * k := by
  have h : (BitVec.ofNat 32 (239 * k)).toNat = 239 * k := by
    rw [BitVec.toNat_ofNat]
    omega
  rw [BitVec.toInt_eq_toNat_of_lt (by omega), h]
  omega

/-- The counters of a bin of meshes with 239 vertices each. -/
private structure Bins.Of239 (bins : Bins) : Prop where
  clusters : bins.clusters = []
  bin : bins.binVertexCount = BitVec.ofNat 32 (239 * bins.bin.length)
  bins : bins.binsVertexCount = BitVec.ofNat 32 (239 * bins.bin.length)

omit [FloatArith F D] in
private theorem Bins.Of239.add {bins : Bins} (h : bins.Of239) {i : ℕ} (hi : numVerticesAt meshes i = 239)
    (hlt : bins.bin.length < 5021) :
    (bins.bin.length ≠ 5020 → (bins.add meshes i).Of239 ∧ (bins.add meshes i).bin.length = bins.bin.length + 1) ∧
    (bins.bin.length = 5020 → bins.add meshes i = ⟨[bins.bin ++ [i]], [], 0, BitVec.ofNat 32 (239 * 5021)⟩) := by
  have hnext : BitVec.ofNat 32 (239 * bins.bin.length) + 239 = BitVec.ofNat 32 (239 * (bins.bin.length + 1)) := by
    rw [show (239 : BitVec 32) = BitVec.ofNat 32 239 from rfl, ← BitVec.ofNat_add, ← Nat.mul_succ]
  have hcount := toInt_ofNat_of_le (show bins.bin.length + 1 ≤ 5021 by omega)
  simp only [Bins.add, hi, h.bin, h.bins, h.clusters, hnext, hcount, maxVertexCount]
  constructor
  · intro hne
    rw [if_neg (by omega)]
    refine ⟨⟨rfl, ?_, ?_⟩, ?_⟩ <;> simp
  · intro he
    rw [if_pos (by omega), he]
    rfl

omit [FloatArith F D] in
/-- Of meshes with 239 vertices each, 5021 fill one supermesh, and then the threshold is passed. -/
private theorem fillBins_239 (metrics : List (MeshMetric F)) {bins : Bins} (h : bins.Of239)
    (hmetrics : ∀ item ∈ metrics, numVerticesAt meshes item.nodeIndex = 239)
    (hlt : bins.bin.length < 5021) (hle : 5021 ≤ bins.bin.length + metrics.length) :
    ∃ cluster rest c, fillBins meshes maxVertexCount metrics bins = (⟨[cluster], [], 0, c⟩, rest) ∧
      cluster.length = 5021 ∧ rest.length + 5021 = bins.bin.length + metrics.length ∧
      ∀ item ∈ rest, numVerticesAt meshes item.nodeIndex = 239 := by
  induction metrics generalizing bins with
  | nil =>
    rw [List.length_nil] at hle
    omega
  | cons item metrics ih =>
    have hgo : bins.binsVertexCount.toInt ≤ (maxVertexCount : ℤ) := by
      rw [h.bins, toInt_ofNat_of_le (by omega), maxVertexCount]
      omega
    have htail : ∀ item ∈ metrics, numVerticesAt meshes item.nodeIndex = 239 :=
      fun j hj => hmetrics j (List.mem_cons_of_mem _ hj)
    obtain ⟨hadd, hfull⟩ := h.add (hmetrics item List.mem_cons_self) hlt
    rw [List.length_cons] at hle ⊢
    rw [fillBins, if_pos hgo]
    by_cases he : bins.bin.length = 5020
    · -- the bin becomes a cluster, and the next iteration finds the threshold passed
      refine ⟨bins.bin ++ [item.nodeIndex], metrics, BitVec.ofNat 32 (239 * 5021), ?_, by simp [he], by omega, htail⟩
      rw [hfull he]
      cases metrics with
      | nil => rfl
      | cons item' metrics =>
        rw [fillBins, if_neg]
        show ¬ (BitVec.ofNat 32 (239 * 5021)).toInt ≤ ((1200000 : ℕ) : ℤ)
        decide
    · obtain ⟨h', hlen⟩ := hadd he
      obtain ⟨cluster, rest, c, hfill, hcluster, hrest, hall⟩ := ih h' htail (by omega) (by omega)
      exact ⟨cluster, rest, c, hfill, hcluster, by omega, hall⟩

/-- 10022 meshes of 239 vertices in one place. -/
def equalMeshes (bounds : RepoBounds D) : List (StreamingMeshNode D) := List.replicate 10022 ⟨239, bounds⟩

/-- The meshes in excess of one supermesh have few enough vertices to be one cluster, of more than 5000 meshes. -/
private theorem formClusters_equalMeshes (sort : StdSort) (builder : SweepSahBuilder F) (bounds : RepoBounds D) :
    ∃ c₁ c₂, formClusters sort builder (equalMeshes bounds) = pure [c₁, c₂] ∧ c₁.length = 5021 ∧
      c₂.length = 5001 := by
  have hvertices : ∀ i < 10022, numVerticesAt (equalMeshes bounds) i = 239 := by
    intro i hi
    rw [numVerticesAt, equalMeshes, List.getElem?_replicate, if_pos hi]
    rfl
  have hlength : (equalMeshes bounds).length = 10022 := List.length_replicate
  have hsorted := sortedMetrics_perm (F := F) sort (equalMeshes bounds)
  rw [hlength] at hsorted
  have hcount : (sortedMetrics F sort (equalMeshes bounds)).length = 10022 := by
    simpa using hsorted.length_eq
  have hindex : ∀ item ∈ sortedMetrics F sort (equalMeshes bounds),
      numVerticesAt (equalMeshes bounds) item.nodeIndex = 239 := by
    intro item hitem
    exact hvertices _ (List.mem_range.1 (hsorted.mem_iff.1 (List.mem_map_of_mem hitem)))
  have hempty : (⟨[], [], 0, 0⟩ : Bins).Of239 := ⟨rfl, rfl, rfl⟩
  obtain ⟨c₁, rest, c, hfill, hc₁, hrest, hall⟩ := fillBins_239 (sortedMetrics F sort (equalMeshes bounds)) hempty hindex
    (by decide) (by rw [hcount]; decide)
  rw [hcount, List.length_nil] at hrest
  have hlen : (rest.map MeshMetric.nodeIndex).length = 5001 := by
    rw [List.length_map]
    omega
  have hrange : ∀ i ∈ rest.map MeshMetric.nodeIndex, i < (equalMeshes bounds).length := by
    have h := fillBins_flatten (equalMeshes bounds) (maxVertexCount : ℤ) (sortedMetrics F sort (equalMeshes bounds))
      ⟨[], [], 0, 0⟩
    rw [hfill] at h
    intro i hi
    rw [hlength]
    refine List.mem_range.1 (hsorted.mem_iff.1 ?_)
    rw [List.flatten_nil, List.nil_append, List.nil_append] at h
    rw [← h]
    exact List.mem_append_right _ hi
  have hsum : ((rest.map MeshMetric.nodeIndex).map fun i => (numVerticesAt (equalMeshes bounds) i).toNat).sum =
      5001 * 239 := by
    have hconst : (rest.map MeshMetric.nodeIndex).map (fun i => (numVerticesAt (equalMeshes bounds) i).toNat) =
        List.replicate 5001 239 := by
      rw [List.eq_replicate_iff]
      refine ⟨by rw [List.length_map, hlen], ?_⟩
      intro v hv
      simp only [List.map_map, List.mem_map, Function.comp] at hv
      obtain ⟨item, hitem, rfl⟩ := hv
      rw [hall item hitem]
      rfl
    rw [hconst, List.sum_replicate, smul_eq_mul]
  have hne : rest.map MeshMetric.nodeIndex ≠ [] := List.ne_nil_of_length_pos (by omega)
  obtain ⟨c₂, hcluster, hperm⟩ := clusterMeshNodesBvh_of_lt builder hne hrange
    (by rw [hsum, maxVertexCount]; omega) [c₁]
  refine ⟨c₁, c₂, ?_, hc₁, by rw [hperm.length_eq, hlen]⟩
  rw [formClusters, lowerThreshold_eq, hfill]
  simp only [List.length_nil, ne_eq, not_true_eq_false, if_false]
  rw [if_pos (by omega)]
  exact hcluster

/-- Exact arithmetic. -/
instance : FloatArith ℚ ℚ where
  ofUInt32 n := n.toNat
  widen := id
  narrow := id
  lt a b := decide (a < b)

def StdSort.merge : StdSort where
  sort less l := l.mergeSort fun a b => !less b a
  perm _ l := List.mergeSort_perm l _

/-- 10022 meshes of 239 vertices each with the same unit box: 21 of the first 5021 are in two clusters. -/
theorem not_isBoundedPartition_equalMeshes :
    ¬ ∃ clusters, clusterMeshNodes StdSort.merge (SweepSahBuilder.chain ℚ)
        (equalMeshes (⟨⟨0, 0, 0⟩, ⟨1, 1, 1⟩⟩ : RepoBounds ℚ)) = pure clusters ∧
      IsBoundedPartition (equalMeshes (⟨⟨0, 0, 0⟩, ⟨1, 1, 1⟩⟩ : RepoBounds ℚ)).length clusters := by
  obtain ⟨c₁, c₂, hformed, hc₁, hc₂⟩ := formClusters_equalMeshes StdSort.merge (SweepSahBuilder.chain ℚ)
    (⟨⟨0, 0, 0⟩, ⟨1, 1, 1⟩⟩ : RepoBounds ℚ)
  rw [isBoundedPartition_iff hformed]
  have hsplit : clustersToSplit [c₁, c₂] = [c₁, c₂] := by
    simp [clustersToSplit, maxMeshesInSupermesh, hc₁, hc₂]
  rw [hsplit]
  intro h
  have hdvd := h c₁ (by simp)
  rw [hc₁, maxMeshesInSupermesh] at hdvd
  omega

end Clusters

end Bouncer.MultipartOptimizer
