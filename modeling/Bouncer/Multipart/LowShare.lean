import Bouncer.Multipart.Clusters

/-!
# The share of inefficient meshes

`clusterMeshNodes` groups the least efficient meshes without a hierarchy.  They are to have a fifth of the vertices of the
model, or the vertices of one supermesh if that is more; the ratio is stored in an integer, as zero, so that the loop
stops once it has more than one supermesh (`fillBins_spec`).

The share is the intended one exactly if no first part of the efficiency order has more vertices than a supermesh and
at most a fifth of all of them (`lowShare_iff`).
-/

namespace Bouncer.MultipartOptimizer

variable {F D : Type}

/-! ### Totals of vertices -/

/-- The vertices of the meshes with the given indexes. -/
def vertexTotal (meshes : List (StreamingMeshNode D)) (indexes : List ℕ) : ℕ :=
  (indexes.map fun i => (numVerticesAt meshes i).toNat).sum

def totalVertices (meshes : List (StreamingMeshNode D)) : ℕ := (meshes.map fun mesh => mesh.numVertices.toNat).sum

section Totals

variable {meshes : List (StreamingMeshNode D)}

@[simp] theorem vertexTotal_nil : vertexTotal meshes [] = 0 := rfl

@[simp] theorem vertexTotal_cons (i : ℕ) (l : List ℕ) :
    vertexTotal meshes (i :: l) = (numVerticesAt meshes i).toNat + vertexTotal meshes l := rfl

@[simp] theorem vertexTotal_append (l l' : List ℕ) :
    vertexTotal meshes (l ++ l') = vertexTotal meshes l + vertexTotal meshes l' := by
  simp [vertexTotal]

private theorem vertexTotal_perm {l l' : List ℕ} (h : l.Perm l') : vertexTotal meshes l = vertexTotal meshes l' :=
  (h.map _).sum_eq

private theorem vertexTotal_range : vertexTotal meshes (List.range meshes.length) = totalVertices meshes := by
  unfold vertexTotal totalVertices
  congr 1
  refine List.ext_getElem (by simp) ?_
  intro i h h'
  simp [numVerticesAt, (by simpa using h : i < meshes.length)]

end Totals

/-! ### The meshes in the bins -/

/-- The meshes that are in the bins, in the order in which they got there. -/
def Bins.indexes (bins : Bins) : List ℕ := bins.clusters.flatten ++ bins.bin

section FillBins

variable {meshes : List (StreamingMeshNode D)}

private theorem indexes_add (bins : Bins) (i : ℕ) : (bins.add meshes i).indexes = bins.indexes ++ [i] := by
  simp only [Bins.indexes, Bins.add]
  split <;> simp

private theorem binsVertexCount_add (bins : Bins) (i : ℕ) :
    (bins.add meshes i).binsVertexCount = bins.binsVertexCount + numVerticesAt meshes i := by
  simp only [Bins.add]
  split <;> rfl

/-- The counter of the bins has the vertices of the meshes in them. -/
def Bins.Counts (meshes : List (StreamingMeshNode D)) (bins : Bins) : Prop :=
  bins.binsVertexCount = BitVec.ofNat 32 (vertexTotal meshes bins.indexes)

theorem Bins.Counts.add {bins : Bins} (h : bins.Counts meshes) (i : ℕ) : (bins.add meshes i).Counts meshes := by
  rw [Bins.Counts] at h ⊢
  rw [binsVertexCount_add, indexes_add, h, vertexTotal_append, vertexTotal_cons, vertexTotal_nil, Nat.add_zero,
    BitVec.ofNat_add, BitVec.ofNat_toNat, BitVec.setWidth_eq]

theorem Bins.Counts.toInt {bins : Bins} (h : bins.Counts meshes) (hlt : vertexTotal meshes bins.indexes < 2 ^ 31) :
    bins.binsVertexCount.toInt = vertexTotal meshes bins.indexes := by
  have hnat : (BitVec.ofNat 32 (vertexTotal meshes bins.indexes)).toNat = vertexTotal meshes bins.indexes := by
    rw [BitVec.toNat_ofNat, Nat.mod_eq_of_lt (by omega)]
  rw [h, BitVec.toInt_eq_toNat_of_lt (by rw [hnat]; omega), hnat]

/-- Meshes are taken until those in the bins have more vertices than the threshold, and no longer. -/
theorem fillBins_spec (threshold : ℕ) (metrics : List (MeshMetric F)) {bins : Bins} (h : bins.Counts meshes)
    (hlt : vertexTotal meshes (bins.indexes ++ metrics.map MeshMetric.nodeIndex) < 2 ^ 31) :
    ∃ low rest, metrics = low ++ rest ∧ (fillBins meshes threshold metrics bins).2 = rest ∧
      (fillBins meshes threshold metrics bins).1.indexes = bins.indexes ++ low.map MeshMetric.nodeIndex ∧
      (rest ≠ [] → threshold < vertexTotal meshes (bins.indexes ++ low.map MeshMetric.nodeIndex)) ∧
      (low ≠ [] → vertexTotal meshes (bins.indexes ++ low.dropLast.map MeshMetric.nodeIndex) ≤ threshold) := by
  induction metrics generalizing bins with
  | nil => exact ⟨[], [], rfl, rfl, by simp [fillBins], by simp, by simp⟩
  | cons item metrics ih =>
    have hcount := h.toInt (by rw [vertexTotal_append] at hlt; omega)
    by_cases hgo : bins.binsVertexCount.toInt ≤ threshold
    · have hnext := ih (h.add item.nodeIndex) (by rw [indexes_add]; simpa using hlt)
      simp only [fillBins, if_pos hgo, indexes_add] at hnext ⊢
      obtain ⟨low, rest, rfl, hrest, hindexes, habove, hupTo⟩ := hnext
      refine ⟨item :: low, rest, rfl, hrest, by simpa using hindexes, by simpa using habove, fun _ => ?_⟩
      cases low with
      | nil =>
        rw [List.dropLast_singleton, List.map_nil, List.append_nil]
        omega
      | cons item' low => simpa using hupTo (List.cons_ne_nil _ _)
    · refine ⟨[], item :: metrics, rfl, ?_, ?_, fun _ => ?_, by simp⟩
      · simp only [fillBins, if_neg hgo]
      · simp only [fillBins, if_neg hgo, List.map_nil, List.append_nil]
      · rw [List.map_nil, List.append_nil]
        omega

end FillBins

/-! ### The share -/

section Share

variable [FloatArith F D]

variable (F) in
/-- The bins after the loop over the low part, and the metrics that remain. -/
def filledBins (sort : StdSort) (meshes : List (StreamingMeshNode D)) : Bins × List (MeshMetric F) :=
  fillBins meshes (lowerThreshold meshes) (sortedMetrics F sort meshes) ⟨[], [], 0, 0⟩

variable (F) in
/-- The meshes that are grouped without a hierarchy. -/
def lowMeshes (sort : StdSort) (meshes : List (StreamingMeshNode D)) : List ℕ := (filledBins F sort meshes).1.indexes

variable (F) in
/-- The meshes over which a hierarchy is built. -/
def highMeshes (sort : StdSort) (meshes : List (StreamingMeshNode D)) : List ℕ :=
  (filledBins F sort meshes).2.map MeshMetric.nodeIndex

/-- The clusters come from the two parts. -/
theorem formClusters_eq (sort : StdSort) (builder : SweepSahBuilder F) (meshes : List (StreamingMeshNode D)) :
    ∃ clusters, clusters.flatten = lowMeshes F sort meshes ∧
      formClusters sort builder meshes =
        if highMeshes F sort meshes ≠ [] then clusterMeshNodesBvh builder meshes (highMeshes F sort meshes) clusters
        else pure clusters := by
  refine ⟨if (filledBins F sort meshes).1.bin.length ≠ 0 then
    (filledBins F sort meshes).1.clusters ++ [(filledBins F sort meshes).1.bin]
    else (filledBins F sort meshes).1.clusters, ?_, ?_⟩
  · by_cases h : (filledBins F sort meshes).1.bin.length ≠ 0
    · rw [if_pos h, List.flatten_append, List.flatten_singleton]
      rfl
    · rw [if_neg h, lowMeshes, Bins.indexes]
      rw [not_not, List.length_eq_zero_iff] at h
      rw [h, List.append_nil]
  · simp only [ne_eq, ← List.length_eq_zero_iff]
    rfl

/-- More vertices than a supermesh, and more than a fifth of all. -/
def Exceeds (meshes : List (StreamingMeshNode D)) (indexes : List ℕ) : Prop :=
  maxVertexCount < vertexTotal meshes indexes ∧ totalVertices meshes < 5 * vertexTotal meshes indexes

variable (F) in
/-- The low part is the shortest first part of the efficiency order that exceeds the threshold, or everything. -/
def LowShare (sort : StdSort) (meshes : List (StreamingMeshNode D)) : Prop :=
  lowMeshes F sort meshes ++ highMeshes F sort meshes = (sortedMetrics F sort meshes).map MeshMetric.nodeIndex ∧
    (highMeshes F sort meshes ≠ [] → Exceeds meshes (lowMeshes F sort meshes)) ∧
    (lowMeshes F sort meshes ≠ [] → ¬ Exceeds meshes (lowMeshes F sort meshes).dropLast)

variable {sort : StdSort} {meshes : List (StreamingMeshNode D)}

private theorem vertexTotal_sorted :
    vertexTotal meshes ((sortedMetrics F sort meshes).map MeshMetric.nodeIndex) = totalVertices meshes := by
  rw [vertexTotal_perm (sortedMetrics_perm sort meshes), vertexTotal_range]

variable (sort) in
/-- The loop stops when it has more vertices than one supermesh. -/
private theorem lowMeshes_spec (hfit : totalVertices meshes < 2 ^ 31) :
    lowMeshes F sort meshes ++ highMeshes F sort meshes = (sortedMetrics F sort meshes).map MeshMetric.nodeIndex ∧
    (highMeshes F sort meshes ≠ [] → maxVertexCount < vertexTotal meshes (lowMeshes F sort meshes)) ∧
    (lowMeshes F sort meshes ≠ [] → vertexTotal meshes (lowMeshes F sort meshes).dropLast ≤ maxVertexCount) := by
  have hstart : (⟨[], [], 0, 0⟩ : Bins).Counts meshes := rfl
  obtain ⟨low, rest, hsorted, hrest, hindexes, habove, hupTo⟩ :=
    fillBins_spec maxVertexCount (sortedMetrics F sort meshes) hstart (by
      show vertexTotal meshes ((sortedMetrics F sort meshes).map MeshMetric.nodeIndex) < 2 ^ 31
      rw [vertexTotal_sorted]
      exact hfit)
  rw [← lowerThreshold_eq meshes] at hrest hindexes
  have hlow : lowMeshes F sort meshes = low.map MeshMetric.nodeIndex := hindexes
  have hhigh : highMeshes F sort meshes = rest.map MeshMetric.nodeIndex := congrArg _ hrest
  rw [hlow, hhigh, hsorted, List.map_append, ← List.map_dropLast]
  refine ⟨rfl, fun h => habove ?_, fun h => hupTo ?_⟩
  · rintro rfl
    exact h rfl
  · rintro rfl
    exact h rfl

variable (F) in
/-- No first part of the efficiency order has more vertices than a supermesh and at most a fifth of all of them. -/
def NoBigShare (sort : StdSort) (meshes : List (StreamingMeshNode D)) : Prop :=
  ∀ part rest, part ++ rest = (sortedMetrics F sort meshes).map MeshMetric.nodeIndex →
    maxVertexCount < vertexTotal meshes part → totalVertices meshes < 5 * vertexTotal meshes part

private theorem lowShare_of_noBigShare (hfit : totalVertices meshes < 2 ^ 31) (h : NoBigShare F sort meshes) :
    LowShare F sort meshes := by
  obtain ⟨hsorted, habove, hupTo⟩ := lowMeshes_spec (F := F) sort hfit
  refine ⟨hsorted, fun hhigh => ⟨habove hhigh, h _ _ hsorted (habove hhigh)⟩, fun hlow hexceeds => ?_⟩
  have := hupTo hlow
  have := hexceeds.1
  omega

private theorem noBigShare_of_lowShare (hfit : totalVertices meshes < 2 ^ 31) (h : LowShare F sort meshes) :
    NoBigShare F sort meshes := by
  obtain ⟨-, habove, hupTo⟩ := lowMeshes_spec (F := F) sort hfit
  obtain ⟨hsorted, hexceeds, -⟩ := h
  intro part rest hpart hlt
  have htotal : vertexTotal meshes (lowMeshes F sort meshes) + vertexTotal meshes (highMeshes F sort meshes) =
      totalVertices meshes := by
    rw [← vertexTotal_append, hsorted, vertexTotal_sorted]
  -- the low part is not longer than `part`, or it is everything but its last mesh is not in `part`
  rcases List.append_eq_append_iff.1 (hsorted.trans hpart.symm) with ⟨mid, rfl, hmid⟩ | ⟨mid, hmid, rfl⟩
  · by_cases hhigh : highMeshes F sort meshes = []
    · rw [hhigh, vertexTotal_nil] at htotal
      rw [vertexTotal_append] at hlt ⊢
      omega
    · have := (hexceeds hhigh).2
      rw [vertexTotal_append]
      omega
  · rcases mid.eq_nil_or_concat with rfl | ⟨mid, last, rfl⟩
    · rw [List.append_nil] at hmid
      by_cases hhigh : highMeshes F sort meshes = []
      · rw [hhigh, vertexTotal_nil, hmid] at htotal
        omega
      · exact hmid ▸ (hexceeds hhigh).2
    · rw [List.concat_eq_append, ← List.append_assoc] at hmid
      have hle := hupTo (by rw [hmid]; simp)
      rw [hmid, List.dropLast_concat, vertexTotal_append] at hle
      omega

/-- The low part has its share exactly if no first part of the efficiency order has more vertices than a supermesh and
at most a fifth of all of them. -/
theorem lowShare_iff (sort : StdSort) (meshes : List (StreamingMeshNode D)) (hfit : totalVertices meshes < 2 ^ 31) :
    LowShare F sort meshes ↔ NoBigShare F sort meshes :=
  ⟨noBigShare_of_lowShare hfit, lowShare_of_noBigShare hfit⟩

end Share

/-- Meshes of equal size in one place. -/
def stackedMeshes (count : ℕ) (numVertices : BitVec 32) : List (StreamingMeshNode ℚ) :=
  List.replicate count ⟨numVertices, ⟨⟨0, 0, 0⟩, ⟨1, 1, 1⟩⟩⟩

/-- A model of two meshes. -/
theorem lowShare_iff_two : totalVertices (stackedMeshes 2 3) < 2 ^ 31 ∧
    (LowShare ℚ StdSort.merge (stackedMeshes 2 3) ↔ NoBigShare ℚ StdSort.merge (stackedMeshes 2 3)) :=
  ⟨by decide, lowShare_iff StdSort.merge _ (by decide)⟩

/-- Six meshes of 1200001 vertices each: the first alone is more than a supermesh, and less than a fifth. -/
theorem not_lowShare_six : totalVertices (stackedMeshes 6 1200001) < 2 ^ 31 ∧
    ¬ LowShare ℚ StdSort.merge (stackedMeshes 6 1200001) := by
  have htotal : totalVertices (stackedMeshes 6 1200001) = 7200006 := rfl
  have hfit : totalVertices (stackedMeshes 6 1200001) < 2 ^ 31 := by omega
  refine ⟨hfit, fun h => ?_⟩
  have hperm := sortedMetrics_perm (F := ℚ) StdSort.merge (stackedMeshes 6 1200001)
  rcases hsorted : (sortedMetrics ℚ StdSort.merge (stackedMeshes 6 1200001)).map MeshMetric.nodeIndex with _ | ⟨i, rest⟩
  · rw [hsorted] at hperm
    exact absurd hperm.length_eq (by decide)
  · have hi : i < 6 := List.mem_range.1 (hperm.mem_iff.1 (hsorted ▸ List.mem_cons_self))
    have hvertices : (numVerticesAt (stackedMeshes 6 1200001) i).toNat = 1200001 := by
      rw [numVerticesAt, stackedMeshes, List.getElem?_replicate, if_pos hi]
      rfl
    have hpart : vertexTotal (stackedMeshes 6 1200001) [i] = 1200001 := by
      rw [vertexTotal_cons, vertexTotal_nil, hvertices]
    have hshare := noBigShare_of_lowShare hfit h [i] rest hsorted.symm (by rw [hpart, maxVertexCount]; omega)
    omega

end Bouncer.MultipartOptimizer
