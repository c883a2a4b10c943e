import Bouncer.Library.Halving
import Bouncer.Scene.SelectionTree
import Mathlib.Algebra.Field.Rat
import Mathlib.Algebra.Order.Ring.Rat
import Mathlib.Data.Fintype.Card
import Mathlib.Data.List.Sort

/-!
# The spatial partitioning

`RDTreeSpatialPartitioner` cuts the meshes in halves at the median of their midpoints, along one axis after the other, until
a part has only one mesh.  Meshes across the median are in both halves.

If it has tried all three axes without any effect, it should stop.  But its comparison of the three sizes compares a truth
value with a number, and never holds.  So without a limit for the depth, the recursion does not end if it comes to meshes
that no axis changes (`ends_iff`), as it does if two meshes have a common point (`not_ends_of_common_point`).
-/

namespace Bouncer.RDTreeSpatialPartitioner

open Library (Ends)
open Relation (ReflTransGen)
open SelectionTree (Sorter)

/-- The values of `PartitioningTreeType` but that of a leaf. -/
inductive Axis where
  | partitionX
  | partitionY
  | partitionZ
  deriving DecidableEq

instance : Fintype Axis := ⟨{.partitionX, .partitionY, .partitionZ}, fun axis => by cases axis <;> decide⟩

def Axis.next : Axis → Axis
  | partitionX => partitionY
  | partitionY => partitionZ
  | partitionZ => partitionX

variable {F U : Type}

/-- `repo_mesh_entry_t`. -/
structure MeshEntry (F U : Type) where
  min : Axis → F
  max : Axis → F
  mid : Axis → F
  id : U

/-- `repo_partitioning_tree_t`. -/
inductive PartitioningTree (F U : Type) where
  | leaf (meshes : List (MeshEntry F U))
  | branch (type : Axis) (pValue : F) (left right : PartitioningTree F U)

section Code

/-
The numbers are those of type `float` but NaN, and `mean x y` is `(x + y) / 2.`, of which nothing is assumed.
-/
variable [LinearOrder F] [Inhabited F] (sort : Sorter) (mean : F → F → F)

/-- The median of midpoints in ascending order, of which there are at least two. -/
def median (mids : List F) : F :=
  if mids.length % 2 ≠ 0 then mids.getD (mids.length / 2) default
  else mean (mids.getD (mids.length / 2 - 1) default) (mids.getD (mids.length / 2) default)

/-- What of a mesh is on the left of the median. -/
def leftPart (axis : Axis) (median : F) (entry : MeshEntry F U) : Option (MeshEntry F U) :=
  if entry.min axis ≤ median then
    if entry.max axis > median then
      some { entry with
        max := Function.update entry.max axis median
        mid := Function.update entry.mid axis (mean median (entry.min axis)) }
    else some entry
  else none

/-- What of a mesh is on the right of the median. -/
def rightPart (axis : Axis) (median : F) (entry : MeshEntry F U) : Option (MeshEntry F U) :=
  if entry.max axis > median then
    if entry.min axis < median then
      some { entry with
        min := Function.update entry.min axis median
        mid := Function.update entry.mid axis (mean (entry.max axis) median) }
    else some entry
  else none

structure Sorted (F U : Type) where
  median : F
  lMeshes : List (MeshEntry F U)
  rMeshes : List (MeshEntry F U)

def sortMeshes (meshes : List (MeshEntry F U)) (axis : Axis) : Sorted F U :=
  let sortedMeshes := sort.sort (fun a b => decide (a.mid axis < b.mid axis)) meshes
  let median := median mean (sortedMeshes.map fun entry => entry.mid axis)
  ⟨median, sortedMeshes.filterMap (leftPart mean axis median), sortedMeshes.filterMap (rightPart mean axis median)⟩

/-- `createPartition`, as far as it gets with the fuel. -/
def createPartition (maxDepth : BitVec 32) : ℕ → List (MeshEntry F U) → Axis → BitVec 32 → BitVec 32 →
    (Axis → F) × (Axis → F) → Option (PartitioningTree F U)
  | 0, _, _, _, _, _ => none
  | fuel + 1, meshes, axis, depthCount, failCount, currentSection =>
    if meshes.length ≤ 1 ∨ (depthCount = maxDepth ∧ maxDepth ≠ 0) ∨ failCount = 3 then some (.leaf meshes)
    else
      let sorted := sortMeshes sort mean meshes axis
      -- the first comparison gives a `bool`, which is compared with the number of meshes
      if (decide (sorted.lMeshes.length = sorted.rMeshes.length)).toNat = meshes.length then
        createPartition maxDepth fuel meshes axis.next depthCount (failCount + 1) currentSection
      else
        let newSectionRight := (Function.update currentSection.1 axis sorted.median, currentSection.2)
        let newSectionLeft := (currentSection.1, Function.update currentSection.2 axis sorted.median)
        match createPartition maxDepth fuel sorted.lMeshes axis.next (depthCount + 1) 0 newSectionLeft,
          createPartition maxDepth fuel sorted.rMeshes axis.next (depthCount + 1) 0 newSectionRight with
        | some left, some right => some (.branch axis sorted.median left right)
        | _, _ => none

end Code

/-! ### The recursion -/

variable {meshes : List (MeshEntry F U)} {axis : Axis}

section Recursion

variable [LinearOrder F] [Inhabited F] {sort : Sorter} {mean : F → F → F} {maxDepth : BitVec 32}

private theorem compare_sizes {l r n : ℕ} (hn : 1 < n) : (decide (l = r)).toNat ≠ n := by
  have hle := Bool.toNat_le (decide (l = r))
  omega

variable {depthCount failCount : BitVec 32}

theorem createPartition_leaf
    (hleaf : meshes.length ≤ 1 ∨ (depthCount = maxDepth ∧ maxDepth ≠ 0) ∨ failCount = 3) (fuel : ℕ) (axis : Axis)
    (currentSection : (Axis → F) × (Axis → F)) :
    createPartition sort mean maxDepth (fuel + 1) meshes axis depthCount failCount currentSection =
      some (.leaf meshes) := by
  rw [createPartition, if_pos hleaf]

theorem createPartition_branch
    (hleaf : ¬ (meshes.length ≤ 1 ∨ (depthCount = maxDepth ∧ maxDepth ≠ 0) ∨ failCount = 3)) (fuel : ℕ) (axis : Axis)
    (currentSection : (Axis → F) × (Axis → F)) :
    createPartition sort mean maxDepth (fuel + 1) meshes axis depthCount failCount currentSection =
      match createPartition sort mean maxDepth fuel (sortMeshes sort mean meshes axis).lMeshes axis.next (depthCount + 1) 0
          (currentSection.1, Function.update currentSection.2 axis (sortMeshes sort mean meshes axis).median),
        createPartition sort mean maxDepth fuel (sortMeshes sort mean meshes axis).rMeshes axis.next (depthCount + 1) 0
          (Function.update currentSection.1 axis (sortMeshes sort mean meshes axis).median, currentSection.2) with
      | some left, some right => some (.branch axis (sortMeshes sort mean meshes axis).median left right)
      | _, _ => none := by
  have hmany : 1 < meshes.length := by
    by_contra hle
    exact hleaf (.inl (by omega))
  rw [createPartition, if_neg hleaf]
  simp only
  rw [if_neg (compare_sizes hmany)]

private theorem createPartition_mono {fuel fuel' : ℕ} (hle : fuel ≤ fuel')
    {currentSection : (Axis → F) × (Axis → F)} {tree : PartitioningTree F U}
    (h : createPartition sort mean maxDepth fuel meshes axis depthCount failCount currentSection = some tree) :
    createPartition sort mean maxDepth fuel' meshes axis depthCount failCount currentSection = some tree := by
  induction fuel generalizing fuel' meshes axis depthCount failCount currentSection tree with
  | zero => cases h
  | succ fuel ih =>
    obtain ⟨fuel', rfl⟩ := Nat.exists_eq_add_of_lt (Nat.lt_of_succ_le hle)
    have hle' : fuel ≤ fuel + fuel' := Nat.le_add_right _ _
    by_cases hleaf : meshes.length ≤ 1 ∨ (depthCount = maxDepth ∧ maxDepth ≠ 0) ∨ failCount = 3
    · rw [createPartition_leaf hleaf] at h ⊢
      exact h
    · rw [createPartition_branch hleaf] at h ⊢
      split at h
      · rename_i left right hleft hright
        rw [ih hle' hleft, ih hle' hright]
        exact h
      · cases h

private theorem exists_branch
    (hleaf : ¬ (meshes.length ≤ 1 ∨ (depthCount = maxDepth ∧ maxDepth ≠ 0) ∨ failCount = 3))
    (hleft : ∀ currentSection, ∃ fuel tree, createPartition sort mean maxDepth fuel
      (sortMeshes sort mean meshes axis).lMeshes axis.next (depthCount + 1) 0 currentSection = some tree)
    (hright : ∀ currentSection, ∃ fuel tree, createPartition sort mean maxDepth fuel
      (sortMeshes sort mean meshes axis).rMeshes axis.next (depthCount + 1) 0 currentSection = some tree)
    (currentSection : (Axis → F) × (Axis → F)) :
    ∃ fuel tree, createPartition sort mean maxDepth fuel meshes axis depthCount failCount currentSection = some tree := by
  obtain ⟨fuel, left, hleft⟩ := hleft
    (currentSection.1, Function.update currentSection.2 axis (sortMeshes sort mean meshes axis).median)
  obtain ⟨fuel', right, hright⟩ := hright
    (Function.update currentSection.1 axis (sortMeshes sort mean meshes axis).median, currentSection.2)
  refine ⟨max fuel fuel' + 1, .branch axis (sortMeshes sort mean meshes axis).median left right, ?_⟩
  rw [createPartition_branch hleaf, createPartition_mono (Nat.le_max_left _ _) hleft,
    createPartition_mono (Nat.le_max_right _ _) hright]

/-- A limit for the depth ends the recursion. -/
theorem ends_of_limit (hlimit : maxDepth ≠ 0) (meshes : List (MeshEntry F U)) (axis : Axis)
    (depthCount failCount : BitVec 32) (currentSection : (Axis → F) × (Axis → F)) :
    ∃ fuel tree, createPartition sort mean maxDepth fuel meshes axis depthCount failCount currentSection = some tree := by
  induction hrest : (maxDepth - depthCount).toNat generalizing meshes axis depthCount failCount currentSection with
  | zero =>
    have hdepth : depthCount = maxDepth := by
      have hzero : maxDepth - depthCount = 0 := BitVec.eq_of_toNat_eq hrest
      bv_omega
    exact ⟨1, _, createPartition_leaf (.inr (.inl ⟨hdepth, hlimit⟩)) 0 axis currentSection⟩
  | succ rest ih =>
    by_cases hleaf : meshes.length ≤ 1 ∨ (depthCount = maxDepth ∧ maxDepth ≠ 0) ∨ failCount = 3
    · exact ⟨1, _, createPartition_leaf hleaf 0 axis currentSection⟩
    · have hnext : (maxDepth - (depthCount + 1)).toNat = rest := by bv_omega
      exact exists_branch hleaf (fun section' => ih _ _ _ _ section' hnext) (fun section' => ih _ _ _ _ section' hnext)
        currentSection

end Recursion

/-! ### Without a limit -/

variable {median : F} {entry : MeshEntry F U}

section Halves

variable [LinearOrder F] [Inhabited F] (sort : Sorter) (mean : F → F → F)

abbrev Part (F U : Type) := List (MeshEntry F U) × Axis

def IsLeaf (s : Part F U) : Prop := s.1.length ≤ 1

def leftHalf (s : Part F U) : Part F U := ((sortMeshes sort mean s.1 s.2).lMeshes, s.2.next)

def rightHalf (s : Part F U) : Part F U := ((sortMeshes sort mean s.1 s.2).rMeshes, s.2.next)

/-- What the recursion comes to from a part. -/
def Reaches : Part F U → Part F U → Prop := ReflTransGen fun s t => t = leftHalf sort mean s ∨ t = rightHalf sort mean s

/-- Along the axis, all meshes are as they are in one of the halves. -/
def Kept (meshes : List (MeshEntry F U)) (axis : Axis) : Prop :=
  let median := (sortMeshes sort mean meshes axis).median
  (∀ entry ∈ meshes, entry.min axis ≤ median ∧ entry.max axis ≤ median) ∨
    ∀ entry ∈ meshes, median < entry.max axis ∧ median ≤ entry.min axis

/-- Several meshes that no axis changes. -/
def Stuck (meshes : List (MeshEntry F U)) : Prop := 1 < meshes.length ∧ ∀ axis, Kept sort mean meshes axis

variable {sort mean}

omit [LinearOrder F] [Inhabited F] in
private theorem leaf_iff {depthCount : BitVec 32} :
    (meshes.length ≤ 1 ∨ (depthCount = 0 ∧ (0 : BitVec 32) ≠ 0) ∨ (0 : BitVec 32) = 3) ↔ IsLeaf (meshes, axis) := by
  simp [IsLeaf]

private theorem ends_of_createPartition {fuel : ℕ} {depthCount : BitVec 32}
    {currentSection : (Axis → F) × (Axis → F)} {tree : PartitioningTree F U}
    (h : createPartition sort mean 0 fuel meshes axis depthCount 0 currentSection = some tree) :
    Ends IsLeaf (leftHalf sort mean) (rightHalf sort mean) (meshes, axis) := by
  induction fuel generalizing meshes axis depthCount currentSection tree with
  | zero => cases h
  | succ fuel ih =>
    by_cases hleaf : meshes.length ≤ 1 ∨ (depthCount = 0 ∧ (0 : BitVec 32) ≠ 0) ∨ (0 : BitVec 32) = 3
    · exact .leaf (leaf_iff.mp hleaf)
    · rw [createPartition_branch hleaf] at h
      split at h
      · rename_i left right hleft hright
        exact .halves (fun hnot => hleaf (leaf_iff.mpr hnot)) (ih hleft) (ih hright)
      · cases h

private theorem createPartition_of_ends {s : Part F U} (h : Ends IsLeaf (leftHalf sort mean) (rightHalf sort mean) s)
    (depthCount : BitVec 32) (currentSection : (Axis → F) × (Axis → F)) :
    ∃ fuel tree, createPartition sort mean 0 fuel s.1 s.2 depthCount 0 currentSection = some tree := by
  induction h generalizing depthCount currentSection with
  | leaf hleaf => exact ⟨1, _, createPartition_leaf (leaf_iff.mpr hleaf) 0 _ currentSection⟩
  | halves hleaf _ _ ihleft ihright =>
    exact exists_branch (fun hnot => hleaf (leaf_iff.mp hnot)) (ihleft (depthCount + 1)) (ihright (depthCount + 1))
      currentSection

/-! ### What a half keeps -/

variable (sort) in
omit [Inhabited F] in
theorem perm_sorted (meshes : List (MeshEntry F U)) (axis : Axis) :
    (sort.sort (fun a b => decide (a.mid axis < b.mid axis)) meshes).Perm meshes := sort.perm _ _

variable {meshes meshes' : List (MeshEntry F U)}

private theorem median_congr (hperm : meshes.Perm meshes') (axis : Axis) :
    (sortMeshes sort mean meshes axis).median = (sortMeshes sort mean meshes' axis).median := by
  have horder : IsStrictWeakOrder (MeshEntry F U) fun a b => decide (a.mid axis < b.mid axis) = true := by
    refine { irrefl := ?_, trans := ?_, incomp_trans := ?_ }
    · intro a
      simp
    · intro a b c hab hbc
      simp only [decide_eq_true_eq] at hab hbc ⊢
      exact hab.trans hbc
    · intro a b c hab hbc
      simp only [decide_eq_true_eq, not_lt] at hab hbc ⊢
      exact ⟨hbc.1.trans hab.1, hab.2.trans hbc.2⟩
  have hsorted : ∀ l : List (MeshEntry F U),
      ((sort.sort (fun a b => decide (a.mid axis < b.mid axis)) l).map fun entry => entry.mid axis).Pairwise (· ≤ ·) := by
    intro l
    rw [List.pairwise_map]
    apply (sort.sorted (fun a b => decide (a.mid axis < b.mid axis)) l).imp
    intro a b hab
    simpa using hab
  have hmids : ((sort.sort (fun a b => decide (a.mid axis < b.mid axis)) meshes).map fun entry => entry.mid axis).Perm
      ((sort.sort (fun a b => decide (a.mid axis < b.mid axis)) meshes').map fun entry => entry.mid axis) :=
    (((perm_sorted sort meshes axis).trans hperm).trans (perm_sorted sort meshes' axis).symm).map _
  exact congrArg (median mean) (hmids.eq_of_pairwise' (hsorted meshes) (hsorted meshes'))

theorem Kept.congr (hperm : meshes.Perm meshes')
    (h : Kept sort mean meshes axis) : Kept sort mean meshes' axis := by
  unfold Kept at h ⊢
  simp only [median_congr hperm axis] at h
  simpa only [hperm.mem_iff] using h

theorem Stuck.congr (hperm : meshes.Perm meshes') (h : Stuck sort mean meshes) :
    Stuck sort mean meshes' :=
  ⟨hperm.length_eq ▸ h.1, fun axis => (h.2 axis).congr hperm⟩

private theorem filterMap_eq_of_some {α : Type} {f : α → Option α} {l : List α} (h : ∀ a ∈ l, f a = some a) : l.filterMap f = l := by
  rw [List.filterMap_congr h, List.filterMap_some]

omit [Inhabited F] in
private theorem leftPart_of_le
    (h : entry.min axis ≤ median ∧ entry.max axis ≤ median) : leftPart mean axis median entry = some entry := by
  rw [leftPart, if_pos h.1, if_neg (not_lt.mpr h.2)]

omit [Inhabited F] in
private theorem rightPart_of_lt
    (h : median < entry.max axis ∧ median ≤ entry.min axis) : rightPart mean axis median entry = some entry := by
  rw [rightPart, if_pos h.1, if_neg (not_lt.mpr h.2)]

omit [Inhabited F] in
private theorem le_of_leftPart
    (h : leftPart mean axis median entry = some entry) : entry.min axis ≤ median ∧ entry.max axis ≤ median := by
  unfold leftPart at h
  split at h
  · rename_i hmin
    refine ⟨hmin, ?_⟩
    split at h
    · have hmax := congrFun (congrArg MeshEntry.max (Option.some.inj h)) axis
      simp only [Function.update_self] at hmax
      exact hmax.ge
    · rename_i hmax
      exact not_lt.mp hmax
  · cases h

omit [Inhabited F] in
private theorem lt_of_rightPart
    (h : rightPart mean axis median entry = some entry) : median < entry.max axis ∧ median ≤ entry.min axis := by
  unfold rightPart at h
  split at h
  · rename_i hmax
    refine ⟨hmax, ?_⟩
    split at h
    · have hmin := congrFun (congrArg MeshEntry.min (Option.some.inj h)) axis
      simp only [Function.update_self] at hmin
      exact hmin.le
    · rename_i hmin
      exact not_lt.mp hmin
  · cases h

private theorem Kept.exists_half (h : Kept sort mean meshes axis) :
    (sortMeshes sort mean meshes axis).lMeshes.Perm meshes ∨ (sortMeshes sort mean meshes axis).rMeshes.Perm meshes := by
  have hsorted := perm_sorted sort meshes axis
  rcases h with h | h
  · left
    have hsame : (sortMeshes sort mean meshes axis).lMeshes = _ :=
      filterMap_eq_of_some fun entry hentry => leftPart_of_le (h entry (hsorted.mem_iff.mp hentry))
    rw [hsame]
    exact hsorted
  · right
    have hsame : (sortMeshes sort mean meshes axis).rMeshes = _ :=
      filterMap_eq_of_some fun entry hentry => rightPart_of_lt (h entry (hsorted.mem_iff.mp hentry))
    rw [hsame]
    exact hsorted

private theorem Stuck.not_ends (h : Stuck sort mean meshes) (axis : Axis) :
    ¬ Ends IsLeaf (leftHalf sort mean) (rightHalf sort mean) (meshes, axis) := by
  apply Library.not_ends fun s => Stuck sort mean s.1
  · rintro ⟨meshes, axis⟩ hstuck
    refine ⟨Nat.not_le.mpr hstuck.1, ?_⟩
    rcases (hstuck.2 axis).exists_half with hperm | hperm
    · exact .inl (hstuck.congr hperm.symm)
    · exact .inr (hstuck.congr hperm.symm)
  · exact h

private theorem length_lMeshes (meshes : List (MeshEntry F U)) (axis : Axis) :
    (sortMeshes sort mean meshes axis).lMeshes.length ≤ meshes.length :=
  (List.length_filterMap_le _ _).trans (perm_sorted sort meshes axis).length_eq.le

private theorem length_rMeshes (meshes : List (MeshEntry F U)) (axis : Axis) :
    (sortMeshes sort mean meshes axis).rMeshes.length ≤ meshes.length :=
  (List.length_filterMap_le _ _).trans (perm_sorted sort meshes axis).length_eq.le

variable {s t : Part F U}

private theorem ends_of_reaches (hreaches : Reaches sort mean s t)
    (h : Ends IsLeaf (leftHalf sort mean) (rightHalf sort mean) s) :
    Ends IsLeaf (leftHalf sort mean) (rightHalf sort mean) t := by
  induction hreaches with
  | refl => exact h
  | tail _ hhalf ih =>
    rcases ih with hleaf | ⟨-, hleft, hright⟩
    · apply Ends.leaf
      rcases hhalf with rfl | rfl
      · exact (length_lMeshes _ _).trans hleaf
      · exact (length_rMeshes _ _).trans hleaf
    · rcases hhalf with rfl | rfl
      · exact hleft
      · exact hright

/-! ### How far the meshes extend -/

variable [Fintype F]

def below (x : F) : ℕ := (Finset.univ.filter fun y => y < x).card

def above (x : F) : ℕ := (Finset.univ.filter fun y => x < y).card

omit [Inhabited F] in
private theorem below_lt {x y : F} (h : x < y) : below x < below y := by
  apply Finset.card_lt_card
  rw [Finset.ssubset_iff_of_subset]
  · exact ⟨x, by simpa using h, by simp⟩
  · intro z hz
    simp only [Finset.mem_filter, Finset.mem_univ, true_and] at hz ⊢
    exact hz.trans h

omit [Inhabited F] in
private theorem above_lt {x y : F} (h : x < y) : above y < above x := by
  apply Finset.card_lt_card
  rw [Finset.ssubset_iff_of_subset]
  · exact ⟨y, by simpa using h, by simp⟩
  · intro z hz
    simp only [Finset.mem_filter, Finset.mem_univ, true_and] at hz ⊢
    exact h.trans hz

def extent (entry : MeshEntry F U) (axis : Axis) : ℕ := below (entry.max axis) + above (entry.min axis)

def weight (entry : MeshEntry F U) : ℕ :=
  1 + (extent entry .partitionX + extent entry .partitionY + extent entry .partitionZ)

variable {entry entry' : MeshEntry F U}

omit [Inhabited F] in
private theorem weight_lt (axis : Axis) (hless : extent entry' axis < extent entry axis)
    (hsame : ∀ axis', axis' ≠ axis → extent entry' axis' = extent entry axis') : weight entry' < weight entry := by
  have hx := hsame .partitionX
  have hy := hsame .partitionY
  have hz := hsame .partitionZ
  unfold weight
  cases axis with
  | partitionX =>
    have hy := hy nofun
    have hz := hz nofun
    omega
  | partitionY =>
    have hx := hx nofun
    have hz := hz nofun
    omega
  | partitionZ =>
    have hx := hx nofun
    have hy := hy nofun
    omega

omit [Inhabited F] in
private theorem leftPart_spec
    (h : leftPart mean axis median entry = some entry') : weight entry' < weight entry ∨ entry' = entry := by
  unfold leftPart at h
  split at h
  · split at h
    · rename_i hmax
      left
      obtain rfl := Option.some.inj h
      apply weight_lt axis
      · have hlt := below_lt hmax
        simp only [extent, Function.update_self]
        omega
      · intro axis' hne
        simp only [extent, Function.update_of_ne hne]
    · exact .inr (Option.some.inj h).symm
  · cases h

omit [Inhabited F] in
private theorem rightPart_spec
    (h : rightPart mean axis median entry = some entry') : weight entry' < weight entry ∨ entry' = entry := by
  unfold rightPart at h
  split at h
  · split at h
    · rename_i hmin
      left
      obtain rfl := Option.some.inj h
      apply weight_lt axis
      · have hlt := above_lt hmin
        simp only [extent, Function.update_self]
        omega
      · intro axis' hne
        simp only [extent, Function.update_of_ne hne]
    · exact .inr (Option.some.inj h).symm
  · cases h

def size (s : Part F U) : ℕ := (s.1.map weight).sum

variable (sort) in
omit [Inhabited F] in
/-- The parts of the meshes are smaller altogether, or they are all meshes. -/
theorem size_parts {part : MeshEntry F U → Option (MeshEntry F U)}
    (hpart : ∀ entry entry', part entry = some entry' → weight entry' < weight entry ∨ entry' = entry)
    (meshes : List (MeshEntry F U)) (axis : Axis) :
    let sortedMeshes := sort.sort (fun a b => decide (a.mid axis < b.mid axis)) meshes
    ((sortedMeshes.filterMap part).map weight).sum < (meshes.map weight).sum ∨
      ((sortedMeshes.filterMap part).Perm meshes ∧ ∀ entry ∈ meshes, part entry = some entry) := by
  intro sortedMeshes
  have hperm := perm_sorted sort meshes axis
  have hsum : (sortedMeshes.map weight).sum = (meshes.map weight).sum := (hperm.map weight).sum_nat
  have hle : ∀ entry entry', part entry = some entry' → weight entry' ≤ weight entry := by
    intro entry entry' he
    rcases hpart entry entry' he with hlt | rfl
    · exact hlt.le
    · exact le_rfl
  rcases (Library.sum_filterMap_le hle sortedMeshes).lt_or_eq with hlt | heq
  · exact .inl (hsum ▸ hlt)
  · right
    have hpos : ∀ entry : MeshEntry F U, 0 < weight entry := fun entry => Nat.lt_of_lt_of_le Nat.one_pos (Nat.le_add_right _ _)
    obtain ⟨hsame, hall⟩ := Library.filterMap_eq_self hpos hle (fun entry entry' he hw =>
      (hpart entry entry' he).resolve_left (hw ▸ lt_irrefl _)) heq
    refine ⟨?_, fun entry hentry => hall entry (hperm.mem_iff.mpr hentry)⟩
    rw [hsame]
    exact hperm

private theorem size_half (ht : t = leftHalf sort mean s ∨ t = rightHalf sort mean s) :
    size t < size s ∨ (t.1.Perm s.1 ∧ Kept sort mean s.1 s.2) := by
  rcases ht with rfl | rfl
  · rcases size_parts sort (fun _ _ => leftPart_spec) s.1 s.2 with hlt | ⟨hperm, hall⟩
    · exact .inl hlt
    · exact .inr ⟨hperm, .inl fun entry hentry => le_of_leftPart (hall entry hentry)⟩
  · rcases size_parts sort (fun _ _ => rightPart_spec) s.1 s.2 with hlt | ⟨hperm, hall⟩
    · exact .inl hlt
    · exact .inr ⟨hperm, .inr fun entry hentry => lt_of_rightPart (hall entry hentry)⟩

instance (meshes : List (MeshEntry F U)) (axis : Axis) : Decidable (Kept sort mean meshes axis) :=
  inferInstanceAs (Decidable (_ ∨ _))

variable (sort mean) in
/-- After how many axes there is one that changes something. -/
def patience (s : Part F U) : ℕ :=
  if ¬ Kept sort mean s.1 s.2 then 0 else if ¬ Kept sort mean s.1 s.2.next then 1 else 2

omit [Fintype F] in
private theorem patience_half (hnext : t.2 = s.2.next) (hperm : t.1.Perm s.1) (hkept : Kept sort mean s.1 s.2)
    (hnot : ¬ Stuck sort mean s.1) (hmany : 1 < s.1.length) : patience sort mean t < patience sort mean s := by
  have hsame : ∀ axis, Kept sort mean t.1 axis ↔ Kept sort mean s.1 axis := fun axis =>
    ⟨fun h => h.congr hperm, fun h => h.congr hperm.symm⟩
  have hthird : Kept sort mean s.1 s.2.next → ¬ Kept sort mean s.1 s.2.next.next := by
    intro hkept' hkept''
    refine hnot ⟨hmany, fun axis => ?_⟩
    obtain ⟨meshes, first⟩ := s
    cases first <;> cases axis <;> assumption
  unfold patience
  simp only [hnext, hsame, hkept, not_true_eq_false, if_false]
  by_cases hkept' : Kept sort mean s.1 s.2.next
  · simp only [hkept', hthird hkept', not_true_eq_false, not_false_eq_true, if_true, if_false]
    omega
  · simp only [hkept', not_false_eq_true, if_true]
    omega

private theorem ends_of_not_stuck {s : Part F U} (h : ∀ part, Reaches sort mean s part → ¬ Stuck sort mean part.1) :
    Ends IsLeaf (leftHalf sort mean) (rightHalf sort mean) s := by
  apply Library.ends_of_measure (fun s => ∀ part, Reaches sort mean s part → ¬ Stuck sort mean part.1) size
    (patience sort mean) _ h
  intro s hs hleaf t ht
  refine ⟨fun part hpart => hs part (ReflTransGen.head ht hpart), ?_⟩
  have hmany : 1 < s.1.length := Nat.not_le.mp hleaf
  rcases size_half ht with hlt | ⟨hperm, hkept⟩
  · exact .inl hlt
  · right
    have hnext : t.2 = s.2.next := by
      rcases ht with rfl | rfl <;> rfl
    exact ⟨(hperm.map weight).sum_nat, patience_half hnext hperm hkept (hs s ReflTransGen.refl) hmany⟩

/-- The recursion ends if and only if there is a limit for the depth, or it never comes to several meshes that no axis
changes. -/
theorem ends_iff (sort : Sorter) (mean : F → F → F) (maxDepth : BitVec 32) (meshes : List (MeshEntry F U)) (axis : Axis)
    (currentSection : (Axis → F) × (Axis → F)) :
    (∃ fuel tree, createPartition sort mean maxDepth fuel meshes axis 0 0 currentSection = some tree) ↔
      (maxDepth ≠ 0 ∨ ∀ part, Reaches sort mean (meshes, axis) part → ¬ Stuck sort mean part.1) := by
  constructor
  · rintro ⟨fuel, tree, h⟩
    by_cases hlimit : maxDepth = 0
    · subst hlimit
      right
      intro part hpart hstuck
      exact hstuck.not_ends part.2 (ends_of_reaches hpart (ends_of_createPartition h))
    · exact .inl hlimit
  · rintro (hlimit | hstuck)
    · exact ends_of_limit hlimit meshes axis 0 0 currentSection
    · by_cases hlimit : maxDepth = 0
      · subst hlimit
        exact createPartition_of_ends (ends_of_not_stuck hstuck) 0 currentSection
      · exact ends_of_limit hlimit meshes axis 0 0 currentSection

end Halves

/-! ### Meshes with a common point -/

section CommonPoint

variable [LinearOrder F] [Inhabited F] {sort : Sorter} {mean : F → F → F}

def Contains (p : Axis → F) (entry : MeshEntry F U) : Prop := ∀ axis, entry.min axis ≤ p axis ∧ p axis ≤ entry.max axis

instance (p : Axis → F) : DecidablePred (Contains (F := F) (U := U) p) := fun _ =>
  inferInstanceAs (Decidable (∀ _ : Axis, _))

variable {p : Axis → F}

omit [Inhabited F] in
private theorem countP_le_filterMap {part : MeshEntry F U → Option (MeshEntry F U)}
    (hpart : ∀ entry, Contains p entry → ∃ entry', part entry = some entry' ∧ Contains p entry')
    (l : List (MeshEntry F U)) : l.countP (Contains p ·) ≤ (l.filterMap part).countP (Contains p ·) := by
  induction l with
  | nil => exact le_rfl
  | cons entry l ih =>
    rw [List.countP_cons, List.filterMap_cons]
    by_cases hentry : Contains p entry
    · obtain ⟨entry', he, hentry'⟩ := hpart entry hentry
      rw [he]
      simp only [List.countP_cons, hentry, hentry', decide_true, if_true]
      omega
    · simp only [hentry, decide_false, Bool.false_eq_true, if_false, Nat.add_zero]
      cases part entry with
      | none => exact ih
      | some entry' =>
        simp only [List.countP_cons]
        omega

omit [Inhabited F] in
/-- A point that is not beyond the median is in the left parts of all meshes that it is in. -/
theorem Contains.leftPart (h : Contains p entry)
    (hp : p axis ≤ median) :
    ∃ entry', RDTreeSpatialPartitioner.leftPart mean axis median entry = some entry' ∧ Contains p entry' := by
  unfold RDTreeSpatialPartitioner.leftPart
  rw [if_pos ((h axis).1.trans hp)]
  split
  · refine ⟨_, rfl, fun axis' => ⟨(h axis').1, ?_⟩⟩
    by_cases he : axis' = axis
    · subst he
      simpa using hp
    · simpa [Function.update_of_ne he] using (h axis').2
  · exact ⟨entry, rfl, h⟩

omit [Inhabited F] in
theorem Contains.rightPart (h : Contains p entry)
    (hp : median < p axis) :
    ∃ entry', RDTreeSpatialPartitioner.rightPart mean axis median entry = some entry' ∧ Contains p entry' := by
  unfold RDTreeSpatialPartitioner.rightPart
  rw [if_pos (hp.trans_le (h axis).2)]
  split
  · refine ⟨_, rfl, fun axis' => ⟨?_, (h axis').2⟩⟩
    by_cases he : axis' = axis
    · subst he
      simpa using hp.le
    · simpa [Function.update_of_ne he] using (h axis').1
  · exact ⟨entry, rfl, h⟩

private theorem not_ends_of_common_point
    (hmany : 1 < meshes.countP (Contains p ·)) (axis : Axis) (fuel : ℕ) (depthCount : BitVec 32)
    (currentSection : (Axis → F) × (Axis → F)) :
    createPartition sort mean 0 fuel meshes axis depthCount 0 currentSection = none := by
  have hends : ¬ Ends IsLeaf (leftHalf sort mean) (rightHalf sort mean) (meshes, axis) := by
    apply Library.not_ends fun s => 1 < s.1.countP (Contains p ·)
    · rintro ⟨meshes, axis⟩ hmany
      refine ⟨Nat.not_le.mpr (hmany.trans_le List.countP_le_length), ?_⟩
      have hcount := (perm_sorted sort meshes axis).countP_eq (Contains p ·)
      rcases le_or_gt (p axis) (sortMeshes sort mean meshes axis).median with hp | hp
      · left
        apply hmany.trans_le
        rw [← hcount]
        exact countP_le_filterMap (fun entry hentry => hentry.leftPart hp) _
      · right
        apply hmany.trans_le
        rw [← hcount]
        exact countP_le_filterMap (fun entry hentry => hentry.rightPart hp) _
    · exact hmany
  cases hresult : createPartition sort mean 0 fuel meshes axis depthCount 0 currentSection with
  | none => rfl
  | some tree => exact absurd (ends_of_createPartition hresult) hends

end CommonPoint

/-- Two meshes that are the same point. -/
theorem not_ends_point :
    let meshes : List (MeshEntry ℚ ℕ) := [⟨fun _ => 1, fun _ => 1, fun _ => 1, 0⟩, ⟨fun _ => 1, fun _ => 1, fun _ => 1, 1⟩]
    ¬ ∃ fuel tree, createPartition Sorter.stable (fun x y => (x + y) / 2) 0 fuel meshes .partitionX 0 0
      (fun _ => 1, fun _ => 1) = some tree := by
  rintro meshes ⟨fuel, tree, h⟩
  have hmany : 1 < meshes.countP (Contains (fun _ => 1) ·) := by
    simp [meshes, Contains]
  rw [not_ends_of_common_point hmany] at h
  cases h

end Bouncer.RDTreeSpatialPartitioner
