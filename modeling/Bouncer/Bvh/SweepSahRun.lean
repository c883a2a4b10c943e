import Bouncer.Bvh.SweepSah
import Bouncer.Library.TreeGrowth

/-!
# Runs of the sweep builder

The tasks of the builder take pending ranges in any order, each from a stack of its own.  `Grows` is what all of them
keep: the nodes in use are those of a tree that grows at its pending leaves, the ranges of its leaves divide the
primitives, and on each axis every range has the same primitives, in the order in which they were sorted at the start.
-/

namespace Bouncer.SweepSah

open Library (FullTree)

variable {R : Type*}

/-- The children of an item divide its range. -/
def Divides (a l r : WorkItem) : Prop :=
  l.begin = a.begin ∧ l.stop = r.begin ∧ r.stop = a.stop ∧ l.depth = a.depth + 1 ∧ r.depth = a.depth + 1

/-- The node of an item leads to those of its children. -/
def State.Inner (s : State R) (a l r : WorkItem) : Prop :=
  (s.nodes a.nodeIndex).primitiveCount = 0 ∧ (s.nodes a.nodeIndex).firstChildOrPrimitive = l.nodeIndex ∧
    r.nodeIndex = l.nodeIndex + 1

/-- The node of an item is a leaf with its range, and there was a reason not to split it. -/
def State.IsLeafOf (s : State R) (builder : Builder R) (a : WorkItem) : Prop :=
  ((s.nodes a.nodeIndex).firstChildOrPrimitive = a.begin ∧ (s.nodes a.nodeIndex).primitiveCount = a.workSize) ∧
    (a.workSize ≤ max 1 builder.maxLeafSize ∨ a.depth = builder.maxDepth)

/-! ### The ranges of a tree -/

variable {a : WorkItem}

section Ranges

variable {t : FullTree WorkItem}

private theorem items_segment (h : t.Linked Divides) (hne : ∀ a ∈ t.labels, a.begin < a.stop) (references : ℕ → ℕ) :
    (t.items fun a => segment references a.begin a.stop) = segment references t.label.begin t.label.stop := by
  induction t with
  | leaf a => exact FullTree.items_leaf _ _
  | branch a l r ihl ihr =>
    obtain ⟨⟨hb, hm, hs, -, -⟩, hl, hr⟩ := h
    have hnl := hne l.label (by simp [l.label_mem_labels])
    have hnr := hne r.label (by simp [r.label_mem_labels])
    rw [FullTree.items_branch, ihl hl fun b hb => hne b (by simp [hb]), ihr hr fun b hb => hne b (by simp [hb]),
      FullTree.label_branch, ← hb, ← hs, hm]
    exact (segment_append (hm ▸ hnl.le) hnr.le).symm

private theorem range_le (h : t.Linked Divides) (hne : ∀ a ∈ t.labels, a.begin < a.stop) (ha : a ∈ t.labels) :
    t.label.begin ≤ a.begin ∧ a.stop ≤ t.label.stop := by
  induction t with
  | leaf b =>
    obtain rfl : a = b := by simpa using ha
    exact ⟨le_rfl, le_rfl⟩
  | branch b l r ihl ihr =>
    obtain ⟨⟨hb, hm, hs, -, -⟩, hl, hr⟩ := h
    have hnl := hne l.label (by simp [l.label_mem_labels])
    have hnr := hne r.label (by simp [r.label_mem_labels])
    rw [FullTree.labels_branch, List.mem_cons, List.mem_append] at ha
    rw [FullTree.label_branch]
    rcases ha with rfl | ha | ha
    · exact ⟨le_rfl, le_rfl⟩
    · have := ihl hl (fun b hb => hne b (by simp [hb])) ha
      omega
    · have := ihr hr (fun b hb => hne b (by simp [hb])) ha
      omega

/-- The range of a leaf is in the range of an item of the tree, or apart from it. -/
theorem range_nested (h : t.Linked Divides) (hne : ∀ a ∈ t.labels, a.begin < a.stop) {x a : WorkItem}
    (hx : x ∈ t.leaves) (ha : a ∈ t.labels) :
    (a.begin ≤ x.begin ∧ x.stop ≤ a.stop) ∨ a.stop ≤ x.begin ∨ x.stop ≤ a.begin := by
  induction t with
  | leaf b =>
    obtain rfl : x = b := by simpa using hx
    obtain rfl : a = x := by simpa using ha
    exact Or.inl ⟨le_rfl, le_rfl⟩
  | branch b l r ihl ihr =>
    have hroot := range_le h hne (FullTree.leaves_subset_labels _ hx)
    obtain ⟨⟨hb, hm, hs, -, -⟩, hl, hr⟩ := h
    have hnel : ∀ a ∈ l.labels, a.begin < a.stop := fun a ha => hne a (by simp [ha])
    have hner : ∀ a ∈ r.labels, a.begin < a.stop := fun a ha => hne a (by simp [ha])
    rw [FullTree.labels_branch, List.mem_cons, List.mem_append] at ha
    rw [FullTree.leaves_branch, List.mem_append] at hx
    rcases ha with rfl | ha | ha
    · exact Or.inl hroot
    · rcases hx with hx | hx
      · exact ihl hl hnel hx ha
      · have h1 := range_le hl hnel ha
        have h2 := range_le hr hner (r.leaves_subset_labels hx)
        omega
    · rcases hx with hx | hx
      · have h1 := range_le hr hner ha
        have h2 := range_le hl hnel (l.leaves_subset_labels hx)
        omega
      · exact ihr hr hner hx ha

private theorem range_apart (h : t.Linked Divides) (hne : ∀ a ∈ t.labels, a.begin < a.stop) {x a : WorkItem}
    (hx : x ∈ t.leaves) (ha : a ∈ t.leaves) (hxa : a ≠ x) : a.stop ≤ x.begin ∨ x.stop ≤ a.begin := by
  induction t with
  | leaf b =>
    obtain rfl : x = b := by simpa using hx
    obtain rfl : a = x := by simpa using ha
    exact absurd rfl hxa
  | branch b l r ihl ihr =>
    obtain ⟨⟨hb, hm, hs, -, -⟩, hl, hr⟩ := h
    have hnel : ∀ a ∈ l.labels, a.begin < a.stop := fun a ha => hne a (by simp [ha])
    have hner : ∀ a ∈ r.labels, a.begin < a.stop := fun a ha => hne a (by simp [ha])
    rw [FullTree.leaves_branch, List.mem_append] at hx ha
    rcases hx with hx | hx <;> rcases ha with ha | ha
    · exact ihl hl hnel hx ha
    · have h1 := range_le hr hner (r.leaves_subset_labels ha)
      have h2 := range_le hl hnel (l.leaves_subset_labels hx)
      omega
    · have h1 := range_le hl hnel (l.leaves_subset_labels ha)
      have h2 := range_le hr hner (r.leaves_subset_labels hx)
      omega
    · exact ihr hr hner hx ha

end Ranges

/-! ### The invariant -/

variable [Field R] [LinearOrder R]

/-- The tree `t` grows at its pending leaves. -/
structure Grows (builder : Builder R) (bboxes : ℕ → BoundingBox R) (n : ℕ) (before : Fin 3 → ℕ → ℕ → Prop)
    (s : State R) (pending : List WorkItem) (t : FullTree WorkItem) : Prop where
  root : t.label = ⟨0, 0, n, 0⟩
  indices : (t.labels.map WorkItem.nodeIndex).Perm (List.range s.nodeCount)
  divides : t.Linked Divides
  inner : t.Linked s.Inner
  depth_le : ∀ a ∈ t.labels, a.depth ≤ builder.maxDepth
  nonempty : ∀ a ∈ t.labels, a.begin < a.stop
  nodup : pending.Nodup
  leaf : ∀ a ∈ pending, a ∈ t.leaves
  done : ∀ a ∈ t.leaves, a ∉ pending → s.IsLeafOf builder a
  same : ∀ axis, ∀ a ∈ t.labels,
    (segment (s.references axis) a.begin a.stop).Perm (segment (s.references 0) a.begin a.stop)
  all : (segment (s.references 0) 0 n).Perm (List.range n)
  sorted : ∀ axis, ∀ a ∈ t.leaves, (segment (s.references axis) a.begin a.stop).Pairwise (before axis)
  boxes : ∀ a ∈ t.labels, (s.nodes a.nodeIndex).boundingBoxProxy =
    BoundingBox.unionOf bboxes (segment (s.references 0) a.begin a.stop)

namespace Grows

variable {builder : Builder R} {bboxes : ℕ → BoundingBox R} {n : ℕ} {before : Fin 3 → ℕ → ℕ → Prop} {s : State R}
  {pending rest : List WorkItem} {t : FullTree WorkItem} {x : WorkItem}

section Growing

variable (h : Grows builder bboxes n before s pending t)
include h

private theorem nodup_indices : (t.labels.map WorkItem.nodeIndex).Nodup :=
  h.indices.nodup_iff.2 List.nodup_range

private theorem nodup_labels : t.labels.Nodup := List.Nodup.of_map _ h.nodup_indices

private theorem nodeIndex_lt (ha : a ∈ t.labels) :
    a.nodeIndex < s.nodeCount :=
  List.mem_range.1 (h.indices.mem_iff.1 (List.mem_map_of_mem ha))

private theorem nodeIndex_inj {a b : WorkItem} (ha : a ∈ t.labels)
    (hb : b ∈ t.labels) (hab : a.nodeIndex = b.nodeIndex) : a = b :=
  List.inj_on_of_nodup_map h.nodup_indices ha hb hab

theorem range_le_count (ha : a ∈ t.labels) : a.stop ≤ n := by
  have := (range_le h.divides h.nonempty ha).2
  rwa [h.root] at this

private theorem nodup_segment (axis : Fin 3) (ha : a ∈ t.labels) :
    (segment (s.references axis) a.begin a.stop).Nodup := by
  have hall : (segment (s.references 0) 0 n).Nodup := h.all.nodup_iff.2 List.nodup_range
  have hsplit : segment (s.references 0) 0 n = segment (s.references 0) 0 a.begin ++
      (segment (s.references 0) a.begin a.stop ++ segment (s.references 0) a.stop n) := by
    rw [← segment_append (h.nonempty a ha).le (h.range_le_count ha),
      ← segment_append (Nat.zero_le _) ((h.nonempty a ha).le.trans (h.range_le_count ha))]
  rw [hsplit] at hall
  exact (h.same axis a ha).nodup_iff.2 (List.nodup_append.1 (List.nodup_append.1 hall).2.1).1

theorem perm {pending' : List WorkItem} (hp : pending.Perm pending') :
    Grows builder bboxes n before s pending' t where
  root := h.root
  indices := h.indices
  divides := h.divides
  inner := h.inner
  depth_le := h.depth_le
  nonempty := h.nonempty
  nodup := hp.nodup_iff.1 h.nodup
  leaf := fun a ha => h.leaf a (hp.mem_iff.2 ha)
  done := fun a ha hne => h.done a ha fun hmem => hne (hp.mem_iff.1 hmem)
  same := h.same
  all := h.all
  sorted := h.sorted
  boxes := h.boxes

private theorem nodeIndex_ne (hx : x ∈ t.labels)
    (ha : a ∈ t.labels) (hne : a ≠ x) : a.nodeIndex ≠ x.nodeIndex :=
  fun he => hne (h.nodeIndex_inj ha hx he)

end Growing

/-- A pending item becomes a leaf. -/
theorem makeLeaf (h : Grows builder bboxes n before s (x :: rest) t)
    (hx : x.workSize ≤ max 1 builder.maxLeafSize ∨ x.depth = builder.maxDepth) :
    Grows builder bboxes n before (s.makeLeaf x) rest t := by
  have hleaf : x ∈ t.leaves := h.leaf x List.mem_cons_self
  have hmem : x ∈ t.labels := t.leaves_subset_labels hleaf
  have hother : ∀ a ∈ t.labels, a ≠ x → (s.makeLeaf x).nodes a.nodeIndex = s.nodes a.nodeIndex := fun a ha hne =>
    Function.update_of_ne (h.nodeIndex_ne hmem ha hne) _ _
  have hself : (s.makeLeaf x).nodes x.nodeIndex =
      { s.nodes x.nodeIndex with firstChildOrPrimitive := x.begin, primitiveCount := x.workSize } :=
    Function.update_self _ _ _
  refine
    { root := h.root
      indices := h.indices
      divides := h.divides
      inner := h.inner.imp fun a ha l r hinner => ?_
      depth_le := h.depth_le
      nonempty := h.nonempty
      nodup := (List.nodup_cons.1 h.nodup).2
      leaf := fun a ha => h.leaf a (List.mem_cons_of_mem _ ha)
      done := fun a ha hne => ?_
      same := h.same
      all := h.all
      sorted := h.sorted
      boxes := fun a ha => ?_ }
  · have hax : a ≠ x := FullTree.ne_of_mem_branches h.nodup_labels ha hleaf
    unfold State.Inner
    rw [hother a (t.branches_subset_labels ha) hax]
    exact hinner
  · by_cases hax : a = x
    · subst hax
      refine ⟨?_, hx⟩
      rw [hself]
      exact ⟨rfl, rfl⟩
    · unfold State.IsLeafOf
      rw [hother a (t.leaves_subset_labels ha) hax]
      exact h.done a ha (by simpa [hax] using hne)
  · by_cases hax : a = x
    · subst hax
      rw [hself]
      exact h.boxes a ha
    · rw [hother a ha hax]
      exact h.boxes a ha

section Split

variable {axis : Fin 3} {splitIndex : ℕ}

private theorem segment_perm (h : Grows builder bboxes n before s (x :: rest) t) (axis : Fin 3) (hb : x.begin ≤ splitIndex)
    (hs : splitIndex ≤ x.stop) (other : Fin 3) (ha : a ∈ t.labels) :
    (segment ((s.split bboxes x axis splitIndex).references other) a.begin a.stop).Perm
      (segment (s.references other) a.begin a.stop) := by
  have hleaf : x ∈ t.leaves := h.leaf x List.mem_cons_self
  have hmem : x ∈ t.labels := t.leaves_subset_labels hleaf
  have hsame := (h.same other x hmem).trans (h.same axis x hmem).symm
  have hout : ∀ i, i < x.begin ∨ x.stop ≤ i →
      (s.split bboxes x axis splitIndex).references other i = s.references other i := fun i hi =>
    split_references_of_outside other hi
  rcases range_nested h.divides h.nonempty hleaf ha with ⟨hab, has⟩ | hapart
  · exact segment_perm_of_within hab (hb.trans hs) has hout (split_perm hb hs (h.nodup_segment axis hmem) hsame)
  · rw [segment_congr fun i hi hi' => hout i (by omega)]

/-- A pending item is split. -/
theorem split (h : Grows builder bboxes n before s (x :: rest) t) (hb : x.begin < splitIndex) (hs : splitIndex < x.stop)
    (hdepth : x.depth < builder.maxDepth) :
    Grows builder bboxes n before (s.split bboxes x axis splitIndex)
      ((s.children x splitIndex).1 :: (s.children x splitIndex).2 :: rest)
      (t.grow x (s.children x splitIndex).1 (s.children x splitIndex).2) := by
  have hleaf : x ∈ t.leaves := h.leaf x List.mem_cons_self
  have hmem : x ∈ t.labels := t.leaves_subset_labels hleaf
  have hcount := h.nodeIndex_lt hmem
  set s' := s.split bboxes x axis splitIndex with hs'
  set l := (s.children x splitIndex).1 with hl
  set r := (s.children x splitIndex).2 with hr
  have hdivides : Divides x l r := ⟨rfl, rfl, rfl, rfl, rfl⟩
  have hlabels : (t.grow x l r).labels.Perm (l :: r :: t.labels) :=
    FullTree.labels_grow_perm hleaf (FullTree.nodup_leaves h.nodup_labels)
  -- the nodes after the split
  have hparent : s'.nodes x.nodeIndex =
      { s.nodes x.nodeIndex with firstChildOrPrimitive := s.nodeCount, primitiveCount := 0 } := by
    show Function.update (Function.update (Function.update s.nodes x.nodeIndex _) _ _) _ _ x.nodeIndex = _
    rw [Function.update_of_ne (by omega), Function.update_of_ne (by omega), Function.update_self]
  have hleft : (s'.nodes l.nodeIndex).boundingBoxProxy =
      BoundingBox.unionOf bboxes (segment (s.references axis) x.begin splitIndex) := by
    have hnode : s'.nodes s.nodeCount = { s.nodes s.nodeCount with
        bounds := (BoundingBox.unionOf bboxes (segment (s.references axis) x.begin splitIndex)).bounds } := by
      show Function.update (Function.update _ _ _) _ _ s.nodeCount = _
      rw [Function.update_of_ne (by omega), Function.update_self]
    show (s'.nodes s.nodeCount).boundingBoxProxy = _
    rw [hnode]
    rfl
  have hright : (s'.nodes r.nodeIndex).boundingBoxProxy =
      BoundingBox.unionOf bboxes (segment (s.references axis) splitIndex x.stop) := by
    have hnode : s'.nodes (s.nodeCount + 1) = { s.nodes (s.nodeCount + 1) with
        bounds := (BoundingBox.unionOf bboxes (segment (s.references axis) splitIndex x.stop)).bounds } :=
      Function.update_self _ _ _
    show (s'.nodes (s.nodeCount + 1)).boundingBoxProxy = _
    rw [hnode]
    rfl
  have hother : ∀ a ∈ t.labels, a ≠ x → s'.nodes a.nodeIndex = s.nodes a.nodeIndex := by
    intro a ha hne
    have hlt := h.nodeIndex_lt ha
    show Function.update (Function.update (Function.update s.nodes x.nodeIndex _) _ _) _ _ a.nodeIndex = _
    rw [Function.update_of_ne (by omega), Function.update_of_ne (by omega),
      Function.update_of_ne (h.nodeIndex_ne hmem ha hne)]
  -- the references of the two sides
  have hsides := fun other => segment_split bboxes hb.le hs.le (h.nodup_segment axis hmem)
    ((h.same other x hmem).trans (h.same axis x hmem).symm)
  have hsame : ∀ other, ∀ a ∈ (t.grow x l r).labels,
      (segment (s'.references other) a.begin a.stop).Perm (segment (s'.references 0) a.begin a.stop) := by
    intro other a ha
    rcases FullTree.mem_labels_grow ha with ha | rfl | rfl
    · exact (h.segment_perm axis hb.le hs.le other ha).trans
        ((h.same other a ha).trans (h.segment_perm axis hb.le hs.le 0 ha).symm)
    · show (segment (s'.references other) x.begin splitIndex).Perm (segment (s'.references 0) x.begin splitIndex)
      rw [(hsides other).1, (hsides 0).1]
      exact (h.same other x hmem).filter _
    · show (segment (s'.references other) splitIndex x.stop).Perm (segment (s'.references 0) splitIndex x.stop)
      rw [(hsides other).2, (hsides 0).2]
      exact (h.same other x hmem).filter _
  have haxis : s'.references axis = s.references axis := if_pos rfl
  refine
    { root := by rw [FullTree.label_grow, h.root]
      indices := ?_
      divides := h.divides.grow hdivides
      inner := ?_
      depth_le := fun a ha => ?_
      nonempty := fun a ha => ?_
      nodup := ?_
      leaf := fun a ha => ?_
      done := fun a ha hne => ?_
      same := hsame
      all := ?_
      sorted := fun other a ha => ?_
      boxes := fun a ha => ?_ }
  · have hrange : List.range (s.nodeCount + 2) = List.range s.nodeCount ++ [s.nodeCount, s.nodeCount + 1] := by
      rw [List.range_succ, List.range_succ, List.append_assoc]
      rfl
    have hperm := (hlabels.map WorkItem.nodeIndex).trans ((h.indices.cons (s.nodeCount + 1)).cons s.nodeCount)
    show ((t.grow x l r).labels.map WorkItem.nodeIndex).Perm (List.range (s.nodeCount + 2))
    rw [hrange]
    exact hperm.trans (List.perm_append_comm : ([s.nodeCount, s.nodeCount + 1] ++ List.range s.nodeCount).Perm _)
  · refine FullTree.Linked.grow ?_ ?_
    · refine h.inner.imp fun a ha b c hinner => ?_
      have hax : a ≠ x := FullTree.ne_of_mem_branches h.nodup_labels ha hleaf
      unfold State.Inner
      rw [hother a (t.branches_subset_labels ha) hax]
      exact hinner
    · unfold State.Inner
      rw [hparent]
      exact ⟨rfl, rfl, rfl⟩
  · rcases FullTree.mem_labels_grow ha with ha | rfl | rfl
    · exact h.depth_le a ha
    · exact hdepth
    · exact hdepth
  · rcases FullTree.mem_labels_grow ha with ha | rfl | rfl
    · exact h.nonempty a ha
    · exact hb
    · exact hs
  · have hrest : ∀ a ∈ rest, a.nodeIndex < s.nodeCount := fun a ha =>
      h.nodeIndex_lt (t.leaves_subset_labels (h.leaf a (List.mem_cons_of_mem _ ha)))
    have hlr : l ≠ r := fun he => absurd (congrArg WorkItem.nodeIndex he) (Nat.succ_ne_self _).symm
    have hlrest : l ∉ rest := fun hin => absurd (hrest l hin) (lt_irrefl _)
    have hrrest : r ∉ rest := fun hin => absurd (hrest r hin) (Nat.not_succ_lt_self)
    exact List.nodup_cons.2 ⟨by simp [hlr, hlrest], List.nodup_cons.2 ⟨hrrest, (List.nodup_cons.1 h.nodup).2⟩⟩
  · simp only [List.mem_cons] at ha
    rcases ha with rfl | rfl | hrest
    · exact FullTree.left_mem_leaves_grow hleaf
    · exact FullTree.right_mem_leaves_grow hleaf
    · refine FullTree.mem_leaves_grow_of_ne (h.leaf a (List.mem_cons_of_mem _ hrest)) ?_
      rintro rfl
      exact (List.nodup_cons.1 h.nodup).1 hrest
  · simp only [List.mem_cons, not_or] at hne
    rcases FullTree.mem_leaves_grow ha with ⟨ha, hax⟩ | rfl | rfl
    · unfold State.IsLeafOf
      rw [hother a (t.leaves_subset_labels ha) hax]
      exact h.done a ha (by simp [hax, hne.2.2])
    · exact absurd rfl hne.1
    · exact absurd rfl hne.2.1
  · have hroot := h.segment_perm axis hb.le hs.le 0 (t.label_mem_labels)
    rw [h.root] at hroot
    exact hroot.trans h.all
  · rcases FullTree.mem_leaves_grow ha with ⟨ha, hax⟩ | rfl | rfl
    · have hapart := range_apart h.divides h.nonempty hleaf ha hax
      rw [segment_congr fun i hi hi' => split_references_of_outside other (by omega)]
      exact h.sorted other a ha
    · show (segment (s'.references other) x.begin splitIndex).Pairwise (before other)
      rw [(hsides other).1]
      exact (h.sorted other x hleaf).filter _
    · show (segment (s'.references other) splitIndex x.stop).Pairwise (before other)
      rw [(hsides other).2]
      exact (h.sorted other x hleaf).filter _
  · have hunion := fun a ha => BoundingBox.unionOf_perm bboxes (hsame axis a ha)
    rcases FullTree.mem_labels_grow ha with ha' | rfl | rfl
    · have hbox : (s'.nodes a.nodeIndex).boundingBoxProxy = (s.nodes a.nodeIndex).boundingBoxProxy := by
        by_cases hax : a = x
        · rw [hax, hparent]
          rfl
        · rw [hother a ha' hax]
      rw [hbox, h.boxes a ha']
      exact BoundingBox.unionOf_perm bboxes (h.segment_perm axis hb.le hs.le 0 ha').symm
    · rw [hleft, ← hunion _ ha, haxis]
      rfl
    · rw [hright, ← hunion _ ha, haxis]
      rfl

end Split

end Grows

/-! ### The finished hierarchy -/

/-- The hierarchy, with the references of one axis as its primitives. -/
def State.toBvh (s : State R) (axis : Fin 3) : Bvh R := ⟨s.nodes, s.references axis, s.nodeCount⟩

/-- A hierarchy over `n` primitives as the builder promises it. -/
structure Built (builder : Builder R) (bboxes : ℕ → BoundingBox R) (n : ℕ) (b : Bvh R) (t : FullTree ℕ) : Prop where
  isTree : b.IsTree n t
  height_le : t.height ≤ builder.maxDepth
  leafSize : ∀ p ∈ t.leavesAt 0, (b.nodes p.1).primitiveCount ≤ max 1 builder.maxLeafSize ∨ p.2 = builder.maxDepth
  boxes : ∀ u ∈ t.subtrees, (b.nodes u.label).boundingBoxProxy = BoundingBox.unionOf bboxes (u.items b.leafPrimitives)

namespace Grows

variable {builder : Builder R} {bboxes : ℕ → BoundingBox R} {n : ℕ} {before : Fin 3 → ℕ → ℕ → Prop} {s : State R}
  {t u : FullTree WorkItem}

private theorem leafPrimitives (h : Grows builder bboxes n before s [] t) (axis : Fin 3) (ha : a ∈ t.leaves) :
    (s.toBvh axis).leafPrimitives a.nodeIndex = segment (s.references axis) a.begin a.stop := by
  obtain ⟨⟨hfirst, hcount⟩, -⟩ := h.done a ha List.not_mem_nil
  unfold Bvh.leafPrimitives segment
  rw [List.range'_eq_map_range, List.map_map]
  show (List.range (s.nodes a.nodeIndex).primitiveCount).map
    (fun k => s.references axis ((s.nodes a.nodeIndex).firstChildOrPrimitive + k)) = _
  rw [hfirst, hcount]
  rfl

omit [Field R] [LinearOrder R] in
private theorem spells (hinner : t.Linked s.Inner) (axis : Fin 3)
    (hleaf : ∀ a ∈ t.leaves, (s.nodes a.nodeIndex).primitiveCount ≠ 0) :
    (s.toBvh axis).Spells (t.map WorkItem.nodeIndex) := by
  induction t with
  | leaf a => exact decide_eq_true (hleaf a (by simp))
  | branch a l r ihl ihr =>
    obtain ⟨⟨hcount, hl, hr⟩, hil, hir⟩ := hinner
    refine ⟨decide_eq_false (not_not.2 hcount), ?_, ?_, ihl hil fun b hb => hleaf b (by simp [hb]),
      ihr hir fun b hb => hleaf b (by simp [hb])⟩
    · rw [FullTree.label_map]
      exact hl.symm
    · rw [FullTree.label_map, hr, ← hl]
      rfl

private theorem items_subtree (h : Grows builder bboxes n before s [] t) (axis : Fin 3) (hu : u ∈ t.subtrees) :
    (u.map WorkItem.nodeIndex).items (s.toBvh axis).leafPrimitives =
      segment (s.references axis) u.label.begin u.label.stop := by
  have hlabels := FullTree.labels_subset_of_mem_subtrees hu
  have hleaves : ∀ a ∈ u.leaves, a ∈ t.leaves := fun a ha =>
    FullTree.leaf_mem_subtrees_iff.1 (FullTree.subtrees_trans (FullTree.leaf_mem_subtrees_iff.2 ha) hu)
  rw [FullTree.items_map, ← items_segment (h.divides.of_mem_subtrees hu) (fun a ha => h.nonempty a (hlabels ha))]
  exact List.flatMap_congr fun a ha => h.leafPrimitives axis (hleaves a ha)

/-- A tree that has grown up is a hierarchy as it is promised. -/
theorem built (h : Grows builder bboxes n before s [] t) (axis : Fin 3) :
    Built builder bboxes n (s.toBvh axis) (t.map WorkItem.nodeIndex) := by
  have hdepth : t.Linked fun a l r => l.depth = a.depth + 1 ∧ r.depth = a.depth + 1 :=
    h.divides.imp fun a _ l r hlr => hlr.2.2.2
  have hroot : t.label.depth = 0 := by rw [h.root]
  refine ⟨⟨?_, ?_, ?_, ?_⟩, ?_, ?_, ?_⟩
  · rw [FullTree.label_map, h.root]
  · refine spells h.inner axis fun a ha => ?_
    have hne := h.nonempty a (t.leaves_subset_labels ha)
    rw [(h.done a ha List.not_mem_nil).1.2]
    unfold WorkItem.workSize
    omega
  · rw [FullTree.labels_map]
    exact h.indices
  · rw [h.items_subtree axis t.self_mem_subtrees]
    have hsame := h.same axis t.label t.label_mem_labels
    rw [h.root] at hsame ⊢
    exact hsame.trans h.all
  · have hle := hdepth.height_le h.depth_le
    rw [FullTree.height_map]
    omega
  · intro p hp
    rw [FullTree.leavesAt_map, List.mem_map] at hp
    obtain ⟨⟨a, d⟩, hat, rfl⟩ := hp
    obtain ⟨ha, rfl⟩ := hdepth.mem_leavesAt (hroot ▸ hat)
    obtain ⟨⟨-, hcount⟩, hreason⟩ := h.done a ha List.not_mem_nil
    show (s.nodes a.nodeIndex).primitiveCount ≤ _ ∨ _
    rwa [hcount]
  · intro v hv
    obtain ⟨u, hu, rfl⟩ := FullTree.exists_of_mem_subtrees_map hv
    rw [h.items_subtree axis hu, FullTree.label_map]
    have hmem := FullTree.labels_subset_of_mem_subtrees hu u.label_mem_labels
    exact (h.boxes _ hmem).trans (BoundingBox.unionOf_perm bboxes (h.same axis _ hmem).symm)

end Grows

namespace Built

variable {builder : Builder R} {bboxes : ℕ → BoundingBox R} {n : ℕ} {b : Bvh R} {t : FullTree ℕ}

/-- There are fewer than two nodes for each primitive. -/
theorem nodeCount_lt (h : Built builder bboxes n b t) : b.nodeCount < 2 * n := by
  have hlength : t.leaves.length ≤ (t.items b.leafPrimitives).length := by
    have hpos : ∀ l : List ℕ, (∀ i ∈ l, i ∈ t.leaves) → l.length ≤ (l.flatMap b.leafPrimitives).length := by
      intro l
      induction l with
      | nil => exact fun _ => le_rfl
      | cons i l ih =>
        intro hl
        obtain ⟨k, hk⟩ := h.isTree.exists_leafPrimitive (hl i List.mem_cons_self)
        have := List.length_pos_of_mem hk
        have := ih fun j hj => hl j (List.mem_cons_of_mem _ hj)
        rw [List.flatMap_cons, List.length_append, List.length_cons]
        omega
    exact hpos t.leaves fun i hi => hi
  have hsize := t.size_add_one
  rw [h.isTree.primitives.length_eq, List.length_range] at hlength
  rw [h.isTree.size_eq] at hsize
  omega

/-- The box of each node is the union of the boxes of its children, or of the primitives of a leaf. -/
theorem fits (h : Built builder bboxes n b t) : b.Fits fun i => BoundingBox.unionOf bboxes (b.leafPrimitives i) := by
  intro i hi
  rw [← h.isTree.root, ← h.isTree.spells.mem_labels_iff, ← FullTree.map_label_subtrees] at hi
  obtain ⟨u, hu, rfl⟩ := List.mem_map.1 hi
  have hbox := h.boxes u hu
  have hspells := h.isTree.spells.of_mem_subtrees hu
  cases u with
  | leaf i =>
    have hleaf : (b.nodes i).isLeaf = true := hspells
    rw [FullTree.label_leaf] at hbox ⊢
    rw [if_pos hleaf, hbox, FullTree.items_leaf]
  | branch i l r =>
    obtain ⟨hinner, hl, hr, -, -⟩ := hspells
    have hleft := h.boxes l (FullTree.left_mem_subtrees hu)
    have hright := h.boxes r (FullTree.right_mem_subtrees hu)
    rw [FullTree.label_branch] at hbox ⊢
    rw [if_neg (by simp [hinner]), hbox, FullTree.items_branch, BoundingBox.unionOf_append, ← hleft, ← hright, hl, hr]

private theorem below_eq (h : Built builder bboxes n b t) {u : FullTree ℕ} (hu : u ∈ t.subtrees) :
    b.Below u.label = {k | k ∈ u.items b.leafPrimitives} := by
  have hspells := h.isTree.spells.of_mem_subtrees hu
  ext k
  constructor
  · rintro ⟨j, hj, hleaf, hk⟩
    exact List.mem_flatMap.2 ⟨j, hspells.mem_leaves_iff.2 ⟨hspells.mem_labels_iff.2 hj, hleaf⟩, hk⟩
  · intro hk
    obtain ⟨j, hj, hk⟩ := List.mem_flatMap.1 hk
    obtain ⟨hlabel, hleaf⟩ := hspells.mem_leaves_iff.1 hj
    exact ⟨j, hspells.mem_labels_iff.1 hlabel, hleaf, hk⟩

/-- The bounds are exact. -/
theorem exact (h : Built builder bboxes n b t) (hempty : ∀ k, BoundingBox.empty ≤ bboxes k) : b.Exact bboxes := by
  intro i hi
  rw [← h.isTree.root, ← h.isTree.spells.mem_labels_iff, ← FullTree.map_label_subtrees] at hi
  obtain ⟨u, hu, rfl⟩ := List.mem_map.1 hi
  have hne : u.items b.leafPrimitives ≠ [] := by
    obtain ⟨j, hj⟩ := List.exists_mem_of_ne_nil _ u.leaves_ne_nil
    have hjt : j ∈ t.leaves :=
      FullTree.leaf_mem_subtrees_iff.1 (FullTree.subtrees_trans (FullTree.leaf_mem_subtrees_iff.2 hj) hu)
    obtain ⟨k, hk⟩ := h.isTree.exists_leafPrimitive hjt
    exact List.ne_nil_of_mem (List.mem_flatMap.2 ⟨j, hj, hk⟩)
  have himage : bboxes '' b.Below u.label = {c | c ∈ (u.items b.leafPrimitives).map bboxes} := by
    rw [h.below_eq hu]
    ext c
    simp
  rw [himage, h.boxes u hu, BoundingBox.unionOf_eq_foldl]
  refine BoundingBox.isLUB_foldl_extend (mt List.map_eq_nil_iff.1 hne) fun c hc => ?_
  obtain ⟨k, -, rfl⟩ := List.mem_map.1 hc
  exact hempty k

/-- The boxes enclose those of the primitives below. -/
theorem encloses (h : Built builder bboxes n b t) {points : ℕ → Set (RepoVector3D R)}
    (hpoints : ∀ k < n, ∀ p ∈ points k, (bboxes k).Contains p) : b.Encloses points := by
  intro i j hi hij hleaf k hk p hp
  have hkn : k < n := h.isTree.lt_iff.2 ⟨j, h.isTree.leafNode_iff.1 ⟨hi.trans hij, hleaf⟩, hk⟩
  rw [← h.isTree.root, ← h.isTree.spells.mem_labels_iff, ← FullTree.map_label_subtrees] at hi
  obtain ⟨u, hu, rfl⟩ := List.mem_map.1 hi
  have hmem : k ∈ b.Below u.label := ⟨j, hij, hleaf, hk⟩
  rw [h.below_eq hu] at hmem
  rw [h.boxes u hu]
  exact (hpoints k hkn p hp).mono (BoundingBox.le_unionOf bboxes hmem)

end Built

end Bouncer.SweepSah
