import Bouncer.SpatialPartitioning.RDTree

/-!
# What the spatial partitioning covers

`createPartition` copies a mesh across the median to both halves, and cuts the copies off at the median.  No part of a mesh is
lost on the way: each point of its box is in the box of a leaf entry of this mesh, and the entries below a branch lie on their
side of its value (`createPartition_covers`).
-/

namespace Bouncer.RDTreeSpatialPartitioner

open SelectionTree (Sorter)

variable {F U : Type}

namespace PartitioningTree

/-- The entries of all leaves. -/
def entries : PartitioningTree F U → List (MeshEntry F U)
  | .leaf meshes => meshes
  | .branch _ _ left right => left.entries ++ right.entries

/-- Below each branch, the entries on the left end at its value, and those on the right start there. -/
def Separated [LE F] : PartitioningTree F U → Prop
  | .leaf _ => True
  | .branch type pValue left right =>
    (∀ entry ∈ left.entries, entry.max type ≤ pValue) ∧ (∀ entry ∈ right.entries, pValue ≤ entry.min type) ∧
      left.Separated ∧ right.Separated

end PartitioningTree

variable [LinearOrder F]

/-! ### Parts of a mesh -/

/-- An entry of the same mesh that lies in the box of another one. -/
structure PartOf (part entry : MeshEntry F U) : Prop where
  id : part.id = entry.id
  min : ∀ axis, entry.min axis ≤ part.min axis
  max : ∀ axis, part.max axis ≤ entry.max axis

theorem PartOf.refl (entry : MeshEntry F U) : PartOf entry entry := ⟨rfl, fun _ => le_rfl, fun _ => le_rfl⟩

theorem PartOf.trans {a b c : MeshEntry F U} (hab : PartOf a b) (hbc : PartOf b c) : PartOf a c where
  id := hab.id.trans hbc.id
  min axis := (hbc.min axis).trans (hab.min axis)
  max axis := (hab.max axis).trans (hbc.max axis)

variable {mean : F → F → F} {axis : Axis} {median : F} {entry part : MeshEntry F U}

private theorem le_update {f : Axis → F} (h : f axis ≤ median) (axis' : Axis) : f axis' ≤ Function.update f axis median axis' := by
  by_cases he : axis' = axis
  · subst he
    rwa [Function.update_self]
  · rw [Function.update_of_ne he]

private theorem update_le {f : Axis → F} (h : median ≤ f axis) (axis' : Axis) : Function.update f axis median axis' ≤ f axis' := by
  by_cases he : axis' = axis
  · subst he
    rwa [Function.update_self]
  · rw [Function.update_of_ne he]

private theorem partOf_leftPart (h : leftPart mean axis median entry = some part) :
    PartOf part entry ∧ part.max axis ≤ median := by
  unfold leftPart at h
  split at h
  · split at h
    · rename_i hmax
      obtain rfl := Option.some.inj h
      exact ⟨⟨rfl, fun _ => le_rfl, update_le hmax.le⟩, (Function.update_self axis median entry.max).le⟩
    · rename_i hmax
      obtain rfl := Option.some.inj h
      exact ⟨.refl entry, not_lt.mp hmax⟩
  · cases h

private theorem partOf_rightPart (h : rightPart mean axis median entry = some part) :
    PartOf part entry ∧ median ≤ part.min axis := by
  unfold rightPart at h
  split at h
  · split at h
    · rename_i hmin
      obtain rfl := Option.some.inj h
      exact ⟨⟨rfl, le_update hmin.le, fun _ => le_rfl⟩, (Function.update_self axis median entry.min).ge⟩
    · rename_i hmin
      obtain rfl := Option.some.inj h
      exact ⟨.refl entry, not_lt.mp hmin⟩
  · cases h

/-! ### The halves -/

variable [Inhabited F] {sort : Sorter} {meshes : List (MeshEntry F U)}

private theorem exists_of_mem_lMeshes (h : part ∈ (sortMeshes sort mean meshes axis).lMeshes) :
    ∃ entry ∈ meshes, PartOf part entry ∧ part.max axis ≤ (sortMeshes sort mean meshes axis).median := by
  obtain ⟨entry, hentry, hpart⟩ := List.mem_filterMap.mp h
  exact ⟨entry, (perm_sorted sort meshes axis).mem_iff.mp hentry, partOf_leftPart hpart⟩

private theorem exists_of_mem_rMeshes (h : part ∈ (sortMeshes sort mean meshes axis).rMeshes) :
    ∃ entry ∈ meshes, PartOf part entry ∧ (sortMeshes sort mean meshes axis).median ≤ part.min axis := by
  obtain ⟨entry, hentry, hpart⟩ := List.mem_filterMap.mp h
  exact ⟨entry, (perm_sorted sort meshes axis).mem_iff.mp hentry, partOf_rightPart hpart⟩

variable (sort mean) in
private theorem Contains.exists_half {p : Axis → F} (hentry : entry ∈ meshes) (hp : Contains p entry) (axis : Axis) :
    (∃ part ∈ (sortMeshes sort mean meshes axis).lMeshes, part.id = entry.id ∧ Contains p part) ∨
      ∃ part ∈ (sortMeshes sort mean meshes axis).rMeshes, part.id = entry.id ∧ Contains p part := by
  have hsorted := (perm_sorted sort meshes axis).mem_iff.mpr hentry
  rcases le_or_gt (p axis) (sortMeshes sort mean meshes axis).median with hle | hlt
  · left
    obtain ⟨part, hpart, hcontains⟩ : ∃ part, RDTreeSpatialPartitioner.leftPart mean axis _ entry = some part ∧
        Contains p part := hp.leftPart hle
    exact ⟨part, List.mem_filterMap.mpr ⟨entry, hsorted, hpart⟩, (partOf_leftPart hpart).1.id, hcontains⟩
  · right
    obtain ⟨part, hpart, hcontains⟩ : ∃ part, RDTreeSpatialPartitioner.rightPart mean axis _ entry = some part ∧
        Contains p part := hp.rightPart hlt
    exact ⟨part, List.mem_filterMap.mpr ⟨entry, hsorted, hpart⟩, (partOf_rightPart hpart).1.id, hcontains⟩

/-! ### The tree -/

variable {maxDepth : BitVec 32} {fuel : ℕ} {depthCount failCount : BitVec 32} {currentSection : (Axis → F) × (Axis → F)}
  {tree : PartitioningTree F U}

private theorem createPartition_cases
    (h : createPartition sort mean maxDepth (fuel + 1) meshes axis depthCount failCount currentSection = some tree) :
    tree = .leaf meshes ∨
      ∃ left right sectionLeft sectionRight,
        createPartition sort mean maxDepth fuel (sortMeshes sort mean meshes axis).lMeshes axis.next (depthCount + 1) 0
          sectionLeft = some left ∧
        createPartition sort mean maxDepth fuel (sortMeshes sort mean meshes axis).rMeshes axis.next (depthCount + 1) 0
          sectionRight = some right ∧
        tree = .branch axis (sortMeshes sort mean meshes axis).median left right := by
  by_cases hleaf : meshes.length ≤ 1 ∨ (depthCount = maxDepth ∧ maxDepth ≠ 0) ∨ failCount = 3
  · rw [createPartition_leaf hleaf] at h
    exact .inl (Option.some.inj h).symm
  · rw [createPartition_branch hleaf] at h
    split at h
    · rename_i left right hleft hright
      exact .inr ⟨left, right, _, _, hleft, hright, (Option.some.inj h).symm⟩
    · cases h

private theorem partOf_of_createPartition
    (h : createPartition sort mean maxDepth fuel meshes axis depthCount failCount currentSection = some tree) :
    ∀ part ∈ tree.entries, ∃ entry ∈ meshes, PartOf part entry := by
  induction fuel generalizing meshes axis depthCount failCount currentSection tree with
  | zero => cases h
  | succ fuel ih =>
    intro part hpart
    rcases createPartition_cases h with rfl | ⟨left, right, _, _, hleft, hright, rfl⟩
    · exact ⟨part, hpart, .refl part⟩
    · rcases List.mem_append.mp hpart with hpart | hpart
      · obtain ⟨half, hhalf, hof⟩ := ih hleft part hpart
        obtain ⟨entry, hentry, hof', -⟩ := exists_of_mem_lMeshes hhalf
        exact ⟨entry, hentry, hof.trans hof'⟩
      · obtain ⟨half, hhalf, hof⟩ := ih hright part hpart
        obtain ⟨entry, hentry, hof', -⟩ := exists_of_mem_rMeshes hhalf
        exact ⟨entry, hentry, hof.trans hof'⟩

private theorem separated_of_createPartition
    (h : createPartition sort mean maxDepth fuel meshes axis depthCount failCount currentSection = some tree) :
    tree.Separated := by
  induction fuel generalizing meshes axis depthCount failCount currentSection tree with
  | zero => cases h
  | succ fuel ih =>
    rcases createPartition_cases h with rfl | ⟨left, right, _, _, hleft, hright, rfl⟩
    · trivial
    · refine ⟨?_, ?_, ih hleft, ih hright⟩
      · intro part hpart
        obtain ⟨half, hhalf, hof⟩ := partOf_of_createPartition hleft part hpart
        obtain ⟨-, -, -, hmax⟩ := exists_of_mem_lMeshes hhalf
        exact (hof.max axis).trans hmax
      · intro part hpart
        obtain ⟨half, hhalf, hof⟩ := partOf_of_createPartition hright part hpart
        obtain ⟨-, -, -, hmin⟩ := exists_of_mem_rMeshes hhalf
        exact hmin.trans (hof.min axis)

private theorem exists_leaf_of_contains
    (h : createPartition sort mean maxDepth fuel meshes axis depthCount failCount currentSection = some tree)
    (hentry : entry ∈ meshes) {p : Axis → F} (hp : Contains p entry) :
    ∃ part ∈ tree.entries, part.id = entry.id ∧ Contains p part := by
  induction fuel generalizing meshes axis depthCount failCount currentSection tree entry with
  | zero => cases h
  | succ fuel ih =>
    rcases createPartition_cases h with rfl | ⟨left, right, _, _, hleft, hright, rfl⟩
    · exact ⟨entry, hentry, rfl, hp⟩
    · rcases hp.exists_half mean sort hentry axis with
        ⟨half, hhalf, hid, hcontains⟩ | ⟨half, hhalf, hid, hcontains⟩
      · obtain ⟨part, hpart, hid', hp'⟩ := ih hleft hhalf hcontains
        exact ⟨part, List.mem_append_left _ hpart, hid'.trans hid, hp'⟩
      · obtain ⟨part, hpart, hid', hp'⟩ := ih hright hhalf hcontains
        exact ⟨part, List.mem_append_right _ hpart, hid'.trans hid, hp'⟩

/-- With a limit for the depth there is a tree, in which each mesh has a leaf entry, the entries are on their sides of the
values, and each point of a mesh is in a leaf entry of it. -/
theorem createPartition_covers (sort : Sorter) (mean : F → F → F) (maxDepth : BitVec 32) (hlimit : maxDepth ≠ 0)
    (meshes : List (MeshEntry F U)) (hboxes : ∀ entry ∈ meshes, ∀ axis, entry.min axis ≤ entry.max axis) (axis : Axis)
    (depthCount failCount : BitVec 32) (currentSection : (Axis → F) × (Axis → F)) :
    (∃ fuel tree,
      createPartition sort mean maxDepth fuel meshes axis depthCount failCount currentSection = some tree) ∧
    ∀ fuel tree, createPartition sort mean maxDepth fuel meshes axis depthCount failCount currentSection = some tree →
      (∀ entry ∈ meshes, ∃ part ∈ tree.entries, part.id = entry.id) ∧ tree.Separated ∧
      ∀ entry ∈ meshes, ∀ p, Contains p entry → ∃ part ∈ tree.entries, part.id = entry.id ∧ Contains p part := by
  refine ⟨ends_of_limit hlimit meshes axis depthCount failCount currentSection, ?_⟩
  intro fuel tree h
  refine ⟨?_, separated_of_createPartition h, fun entry hentry p hp => exists_leaf_of_contains h hentry hp⟩
  intro entry hentry
  have hcorner : Contains entry.min entry := fun axis => ⟨le_rfl, hboxes entry hentry axis⟩
  obtain ⟨part, hpart, hid, -⟩ := exists_leaf_of_contains h hentry hcorner
  exact ⟨part, hpart, hid⟩

/-- Two boxes that overlap. -/
theorem createPartition_covers_two :
    let meshes : List (MeshEntry ℚ ℕ) := [⟨fun _ => 0, fun _ => 2, fun _ => 1, 0⟩, ⟨fun _ => 1, fun _ => 3, fun _ => 2, 1⟩]
    ∃ fuel tree, createPartition Sorter.stable (fun x y => (x + y) / 2) 12 fuel meshes .partitionX 0 0
        (fun _ => 0, fun _ => 3) = some tree ∧
      ∀ entry ∈ meshes, ∃ part ∈ tree.entries, part.id = entry.id := by
  intro meshes
  have hboxes : ∀ entry ∈ meshes, ∀ axis, entry.min axis ≤ entry.max axis := by
    intro entry hentry axis
    simp only [meshes, List.mem_cons, List.not_mem_nil, or_false] at hentry
    rcases hentry with rfl | rfl
    · exact zero_le_two
    · exact (by decide : (1 : ℚ) ≤ 3)
  obtain ⟨⟨fuel, tree, h⟩, hall⟩ := createPartition_covers Sorter.stable (fun x y => (x + y) / 2) 12 (by decide) meshes
    hboxes .partitionX 0 0 (fun _ => 0, fun _ => 3)
  exact ⟨fuel, tree, h, (hall fuel tree h).1⟩

end Bouncer.RDTreeSpatialPartitioner
