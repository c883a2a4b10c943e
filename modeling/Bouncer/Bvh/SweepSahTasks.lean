import Bouncer.Bvh.RadixSort
import Bouncer.Bvh.SweepSahRun
import Bouncer.Library.Worklist

/-!
# The tasks of the sweep builder

`run_task` takes items from a stack of its own and may hand a part of the work to a new task, and the tasks take steps in
any order.  Whatever their order is, the tree keeps growing (`Steps.grows`), and after fewer than two steps for each
primitive nothing is left to do and the hierarchy is as it is promised (`Steps.exists_built`).

`sweepSah` is the whole builder, where one task does all the work.  `exists_sweepSahBuilder` connects it with the builder
that the rest of the development takes as given.
-/

namespace Bouncer.SweepSah

open Library (FullTree Outcome lifo run)

variable {R : Type*}

/-! ### Tasks -/

/-- The children of an item, the smaller one first. -/
def ordered (more : WorkItem × WorkItem) : WorkItem × WorkItem :=
  if more.2.workSize < more.1.workSize then (more.2, more.1) else more

/-- What is left of an item for the task, on top of its stack, and for new tasks. -/
def follow (builder : Builder R) : Option (WorkItem × WorkItem) → List WorkItem × List (List WorkItem)
  | none => ([], [])
  | some more =>
    if builder.taskSpawnThreshold < (ordered more).1.workSize then ([(ordered more).2], [[(ordered more).1]])
    else ([(ordered more).1, (ordered more).2], [])

section Tasks

variable [Field R] [LinearOrder R]

/-- One of the tasks takes the item on top of its stack. -/
inductive Step (builder : Builder R) (bboxes : ℕ → BoundingBox R) :
    List (List WorkItem) × State R → List (List WorkItem) × State R → Prop
  | task (ts₁ ts₂ : List (List WorkItem)) (item : WorkItem) (stack : List WorkItem) (s : State R) :
    Step builder bboxes (ts₁ ++ (item :: stack) :: ts₂, s)
      (ts₁ ++ ((follow builder (build builder bboxes item s).2).1 ++ stack) ::
        (ts₂ ++ (follow builder (build builder bboxes item s).2).2), (build builder bboxes item s).1)

inductive Steps (builder : Builder R) (bboxes : ℕ → BoundingBox R) :
    ℕ → List (List WorkItem) × State R → List (List WorkItem) × State R → Prop
  | refl (c : List (List WorkItem) × State R) : Steps builder bboxes 0 c c
  | tail {k : ℕ} {c c' c'' : List (List WorkItem) × State R} : Steps builder bboxes k c c' → Step builder bboxes c' c'' →
    Steps builder bboxes (k + 1) c c''

/-- The work on all primitives. -/
def root (n : ℕ) : WorkItem := ⟨0, 0, n, 0⟩

/-- The state before the first task. -/
def initial (globalBbox : BoundingBox R) (references : Fin 3 → ℕ → ℕ) : State R where
  nodes := Function.update (fun _ => ⟨fun _ => 0, 0, 0⟩) 0 ⟨globalBbox.bounds, 0, 0⟩
  nodeCount := 1
  references := references

/-- The costs of all splits are in the range of the scalars. -/
structure InRange (builder : Builder R) (bboxes : ℕ → BoundingBox R) (n : ℕ) : Prop where
  valid : ∀ k < n, (bboxes k).Valid
  cost : (BoundingBox.unionOf bboxes (List.range n)).halfArea * ((n : R) - builder.traversalCost) ≤ dblMax

/-- A bound on the steps that are left for some items. -/
def stepsLeft (items : List WorkItem) : ℕ := (items.map fun a => 2 * a.workSize - 1).sum

private theorem stepsLeft_perm {l l' : List WorkItem} (h : l.Perm l') : stepsLeft l = stepsLeft l' := (h.map _).sum_eq

@[simp] theorem stepsLeft_cons (a : WorkItem) (l : List WorkItem) :
    stepsLeft (a :: l) = 2 * a.workSize - 1 + stepsLeft l := by
  simp [stepsLeft]

private theorem ordered_perm (more : WorkItem × WorkItem) : [(ordered more).1, (ordered more).2].Perm [more.1, more.2] := by
  unfold ordered
  split_ifs
  · exact List.Perm.swap _ _ _
  · exact List.Perm.refl _

omit [Field R] [LinearOrder R] in
private theorem follow_perm (builder : Builder R) (children : Option (WorkItem × WorkItem)) :
    ((follow builder children).1 ++ (follow builder children).2.flatten).Perm
      (children.elim [] fun p => [p.1, p.2]) := by
  rcases children with _ | more
  · exact List.Perm.refl _
  · unfold follow
    dsimp only [Option.elim_some]
    split_ifs
    · exact (List.Perm.swap _ _ _).trans (ordered_perm more)
    · exact ordered_perm more

variable {builder : Builder R} {bboxes : ℕ → BoundingBox R} {n : ℕ} {before : Fin 3 → ℕ → ℕ → Prop} {s : State R}
  {rest : List WorkItem} {t : FullTree WorkItem} {x : WorkItem} {references : Fin 3 → ℕ → ℕ}

private theorem grows_initial (before : Fin 3 → ℕ → ℕ → Prop) (hn : 0 < n) (hperm : ∀ axis, (segment (references axis) 0 n).Perm (List.range n))
    (hsorted : ∀ axis, (segment (references axis) 0 n).Pairwise (before axis)) :
    Grows builder bboxes n before (initial (BoundingBox.unionOf bboxes (List.range n)) references) [root n]
      (.leaf (root n)) where
  root := rfl
  indices := List.Perm.refl _
  divides := trivial
  inner := trivial
  depth_le := by simp [root]
  nonempty := by simpa [root] using hn
  nodup := List.nodup_singleton _
  leaf := fun a ha => ha
  done := fun a ha hne => absurd ha hne
  same := by
    intro axis a ha
    obtain rfl : a = root n := by simpa using ha
    exact (hperm axis).trans (hperm 0).symm
  all := hperm 0
  sorted := by
    intro axis a ha
    obtain rfl : a = root n := by simpa using ha
    exact hsorted axis
  boxes := by
    intro a ha
    obtain rfl : a = root n := by simpa using ha
    exact BoundingBox.unionOf_perm bboxes (hperm 0).symm

/-- If the costs at the root are in range, so are those of every item. -/
theorem Grows.maxSplitCost_le [IsStrictOrderedRing R] (h : Grows builder bboxes n before s rest t)
    (hrange : InRange builder bboxes n) (hx : x ∈ t.labels) : maxSplitCost builder s x ≤ dblMax := by
  have hb := h.nonempty x hx
  have hs := h.range_le_count hx
  have hsubset : segment (s.references 0) x.begin x.stop ⊆ List.range n := fun k hk =>
    h.all.mem_iff.1 (segment_subset (Nat.zero_le _) hs hk)
  have hfirst : s.references 0 x.begin ∈ segment (s.references 0) x.begin x.stop := by
    rw [segment_cons hb]
    exact List.mem_cons_self
  have hvalid : (BoundingBox.unionOf bboxes (segment (s.references 0) x.begin x.stop)).Valid :=
    (hrange.valid _ (List.mem_range.1 (hsubset hfirst))).mono (BoundingBox.le_unionOf bboxes hfirst)
  have harea := BoundingBox.halfArea_mono hvalid (BoundingBox.unionOf_mono bboxes hsubset)
  have hnonneg := BoundingBox.halfArea_nonneg hvalid
  have hsize : (x.workSize : R) ≤ n := by
    rw [Nat.cast_le]
    unfold WorkItem.workSize
    omega
  have hmax : (0 : R) ≤ dblMax := by
    have hone : (1 : R) ≤ 2 ^ 53 := one_le_pow₀ one_le_two
    exact mul_nonneg (by linarith) (by positivity)
  unfold maxSplitCost
  rw [h.boxes x hx]
  rcases le_total ((x.workSize : R) - builder.traversalCost) 0 with hneg | hpos
  · exact (mul_nonpos_of_nonneg_of_nonpos hnonneg hneg).trans hmax
  · refine le_trans (mul_le_mul harea (sub_le_sub_right hsize _) hpos (hnonneg.trans harea)) hrange.cost

/-- One item is built: the tree grows, and less is left to do. -/
theorem Grows.build [IsStrictOrderedRing R] (h : Grows builder bboxes n before s (x :: rest) t)
    (hrange : InRange builder bboxes n) :
    (∃ t', Grows builder bboxes n before (build builder bboxes x s).1
      (((build builder bboxes x s).2.elim [] fun p => [p.1, p.2]) ++ rest) t') ∧
    stepsLeft (((build builder bboxes x s).2.elim [] fun p => [p.1, p.2]) ++ rest) < stepsLeft (x :: rest) := by
  have hleaf : x ∈ t.leaves := h.leaf x List.mem_cons_self
  have hmem := t.leaves_subset_labels hleaf
  have hne := h.nonempty x hmem
  have hdepth := h.depth_le x hmem
  rcases build_cases bboxes (h.maxSplitCost_le hrange hmem) with
    ⟨hbuild, hreason⟩ | ⟨axis, splitIndex, hb, hs, hd, hbuild⟩
  · rw [hbuild]
    refine ⟨⟨t, h.makeLeaf ?_⟩, ?_⟩
    · rcases hreason with hone | hdeep | hsmall
      · exact Or.inl (hone.trans (le_max_left _ _))
      · exact Or.inr (le_antisymm hdepth hdeep)
      · exact Or.inl (hsmall.trans (le_max_right _ _))
    · rw [Option.elim_none, List.nil_append, stepsLeft_cons]
      unfold WorkItem.workSize
      omega
  · rw [hbuild]
    refine ⟨⟨_, h.split hb hs hd⟩, ?_⟩
    simp only [Option.elim_some, List.cons_append, List.nil_append, stepsLeft_cons]
    unfold WorkItem.workSize State.children
    dsimp only
    omega

variable {k : ℕ} {c c' : List (List WorkItem) × State R}

private theorem Step.grows [IsStrictOrderedRing R] (h : Step builder bboxes c c') (hrange : InRange builder bboxes n)
    (hgrows : Grows builder bboxes n before c.2 c.1.flatten t) :
    (∃ t', Grows builder bboxes n before c'.2 c'.1.flatten t') ∧ stepsLeft c'.1.flatten < stepsLeft c.1.flatten := by
  obtain ⟨ts₁, ts₂, item, stack, s⟩ := h
  set r := SweepSah.build builder bboxes item s with hr
  have hbefore : (ts₁ ++ (item :: stack) :: ts₂).flatten.Perm (item :: (ts₁.flatten ++ (stack ++ ts₂.flatten))) := by
    rw [List.flatten_append, List.flatten_cons]
    exact List.perm_middle
  have hafter : (((r.2.elim [] fun p => [p.1, p.2]) : List WorkItem) ++ (ts₁.flatten ++ (stack ++ ts₂.flatten))).Perm
      (ts₁ ++ ((follow builder r.2).1 ++ stack) :: (ts₂ ++ (follow builder r.2).2)).flatten := by
    rw [List.flatten_append, List.flatten_cons, List.flatten_append]
    refine ((follow_perm builder r.2).symm.append_right _).trans ?_
    rw [List.append_assoc, List.append_assoc]
    have hmove : ((follow builder r.2).2.flatten ++ (ts₁.flatten ++ (stack ++ ts₂.flatten))).Perm
        (ts₁.flatten ++ (stack ++ (ts₂.flatten ++ (follow builder r.2).2.flatten))) := by
      refine List.perm_append_comm.trans ?_
      simp only [List.append_assoc]
      exact List.Perm.refl _
    exact (hmove.append_left _).trans (List.perm_append_comm_assoc _ _ _)
  obtain ⟨⟨t', ht'⟩, hlt⟩ := (hgrows.perm hbefore).build hrange
  refine ⟨⟨t', ht'.perm hafter⟩, ?_⟩
  rwa [stepsLeft_perm hbefore, ← stepsLeft_perm hafter]

private theorem Steps.grows [IsStrictOrderedRing R] (h : Steps builder bboxes k c c') (hrange : InRange builder bboxes n)
    (hgrows : Grows builder bboxes n before c.2 c.1.flatten t) :
    (∃ t', Grows builder bboxes n before c'.2 c'.1.flatten t') ∧ k + stepsLeft c'.1.flatten ≤ stepsLeft c.1.flatten := by
  induction h with
  | refl => exact ⟨⟨t, hgrows⟩, (Nat.zero_add _).le⟩
  | tail _ hstep ih =>
    obtain ⟨⟨t', ht'⟩, hle⟩ := ih hgrows
    obtain ⟨hgrows', hlt⟩ := hstep.grows hrange ht'
    exact ⟨hgrows', by omega⟩

/-- The tasks come to an end. -/
theorem exists_steps [IsStrictOrderedRing R] (hrange : InRange builder bboxes n)
    (hgrows : Grows builder bboxes n before c.2 c.1.flatten t) :
    ∃ k c', Steps builder bboxes k c c' ∧ ∀ stack ∈ c'.1, stack = [] := by
  have hloop : ∀ m k d t, Steps builder bboxes k c d → Grows builder bboxes n before d.2 d.1.flatten t →
      stepsLeft d.1.flatten ≤ m → ∃ k c', Steps builder bboxes k c c' ∧ ∀ stack ∈ c'.1, stack = [] := by
    intro m
    induction m with
    | zero =>
      intro k d t hsteps hd hm
      refine ⟨k, d, hsteps, List.flatten_eq_nil_iff.1 ?_⟩
      rcases hflatten : d.1.flatten with _ | ⟨x, rest⟩
      · rfl
      · rw [hflatten] at hd hm
        have hx := hd.nonempty x (t.leaves_subset_labels (hd.leaf x List.mem_cons_self))
        rw [stepsLeft_cons] at hm
        unfold WorkItem.workSize at hm
        omega
    | succ m ih =>
      rintro k ⟨tasks, s⟩ t hsteps hd hm
      by_cases hdone : ∀ stack ∈ tasks, stack = []
      · exact ⟨k, _, hsteps, hdone⟩
      · push Not at hdone
        obtain ⟨stack, hmem, hne⟩ := hdone
        obtain ⟨ts₁, ts₂, rfl⟩ := List.append_of_mem hmem
        obtain ⟨item, rest, rfl⟩ := List.exists_cons_of_ne_nil hne
        have hstep : Step builder bboxes (ts₁ ++ (item :: rest) :: ts₂, s) _ := .task ts₁ ts₂ item rest s
        obtain ⟨⟨t', ht'⟩, hlt⟩ := hstep.grows hrange hd
        exact ih (k + 1) _ t' (.tail hsteps hstep) ht' (by omega)
  exact hloop _ 0 c t (.refl c) hgrows le_rfl

private theorem unionOf_two : BoundingBox.unionOf twoBoxes (List.range 2) = ⟨⟨0, 0, 0⟩, ⟨2, 1, 1⟩⟩ := by
  have hmax := five_le_dblMax
  have hmin0 : min (dblMax : ℚ) 0 = 0 := min_eq_right (by linarith)
  have hmax1 : max (-dblMax : ℚ) 1 = 1 := max_eq_right (by linarith)
  simp [BoundingBox.unionOf, List.range_succ, BoundingBox.extend, BoundingBox.empty, twoBoxes, RepoVector3D.min,
    RepoVector3D.max, hmin0, hmax1]
  norm_num

private theorem inRange_two : InRange twoBuilder twoBoxes 2 where
  valid := fun k _ => by simp [twoBoxes, BoundingBox.Valid]
  cost := by
    rw [unionOf_two]
    norm_num [BoundingBox.halfArea, BoundingBox.diagonal, twoBuilder]
    exact five_le_dblMax

private theorem grows_two : Grows twoBuilder twoBoxes 2 (fun _ i j => i ≤ j)
    (initial (BoundingBox.unionOf twoBoxes (List.range 2)) fun _ => id) [root 2] (.leaf (root 2)) :=
  have hsorted : (segment id 0 2).Pairwise fun i j => i ≤ j := by decide
  grows_initial _ Nat.two_pos (fun _ => List.Perm.refl _) fun _ => hsorted

/-- While there is work, each item has its primitives on every axis, in the order of the sort. -/
theorem Steps.segment_sorted [IsStrictOrderedRing R] (hn : 0 < n) (hrange : InRange builder bboxes n)
    (hperm : ∀ axis, (segment (references axis) 0 n).Perm (List.range n))
    (hsorted : ∀ axis, (segment (references axis) 0 n).Pairwise (before axis))
    (h : Steps builder bboxes k ([[root n]], initial (BoundingBox.unionOf bboxes (List.range n)) references) c') :
    ∀ stack ∈ c'.1, ∀ x ∈ stack, ∀ axis,
      (segment (c'.2.references axis) x.begin x.stop).Perm (segment (c'.2.references 0) x.begin x.stop) ∧
        (segment (c'.2.references axis) x.begin x.stop).Pairwise (before axis) := by
  obtain ⟨⟨t, ht⟩, -⟩ := h.grows hrange (grows_initial before hn hperm hsorted)
  intro stack hstack x hx axis
  have hleaf := ht.leaf x (List.mem_flatten.2 ⟨stack, hstack, hx⟩)
  exact ⟨ht.same axis x (t.leaves_subset_labels hleaf), ht.sorted axis x hleaf⟩

/-- After one step with two primitives. -/
theorem segment_sorted_two : ∃ c', Steps twoBuilder twoBoxes 1
      ([[root 2]], initial (BoundingBox.unionOf twoBoxes (List.range 2)) fun _ => id) c' ∧
    ∀ stack ∈ c'.1, ∀ x ∈ stack, ∀ axis,
      (segment (c'.2.references axis) x.begin x.stop).Perm (segment (c'.2.references 0) x.begin x.stop) ∧
        (segment (c'.2.references axis) x.begin x.stop).Pairwise fun i j => i ≤ j := by
  have hstep : Step twoBuilder twoBoxes ([[root 2]], initial (BoundingBox.unionOf twoBoxes (List.range 2)) fun _ => id) _ :=
    .task [] [] (root 2) [] _
  have hsteps := Steps.tail (Steps.refl _) hstep
  have hsorted : (segment id 0 2).Pairwise fun i j => i ≤ j := by decide
  exact ⟨_, hsteps, hsteps.segment_sorted Nat.two_pos inRange_two (fun _ => List.Perm.refl _) fun _ => hsorted⟩

/-- The tasks take fewer than two steps for each primitive, and when all are done the hierarchy is as it is promised. -/
theorem Steps.exists_built [IsStrictOrderedRing R] (hn : 0 < n) (hrange : InRange builder bboxes n)
    (hperm : ∀ axis, (segment (references axis) 0 n).Perm (List.range n))
    (h : Steps builder bboxes k ([[root n]], initial (BoundingBox.unionOf bboxes (List.range n)) references) c') :
    k < 2 * n ∧ ((∀ stack ∈ c'.1, stack = []) → ∀ axis,
      (c'.2.toBvh axis).nodeCount < 2 * n ∧ ∃ t, Built builder bboxes n (c'.2.toBvh axis) t) := by
  have hall : ∀ axis, (segment (references axis) 0 n).Pairwise fun _ _ => True := fun axis =>
    List.pairwise_of_forall fun _ _ => trivial
  obtain ⟨⟨t, ht⟩, hle⟩ := h.grows hrange (grows_initial (fun _ _ _ => True) hn hperm hall)
  have hroot : stepsLeft ([[root n]] : List (List WorkItem)).flatten = 2 * n - 1 := by
    simp [stepsLeft, root, WorkItem.workSize]
  dsimp only at hle
  refine ⟨by omega, fun hdone axis => ?_⟩
  rw [List.flatten_eq_nil_iff.2 hdone] at ht
  exact ⟨(ht.built axis).nodeCount_lt, _, ht.built axis⟩

/-- The tasks for two primitives. -/
theorem exists_built_two : ∃ k c', Steps twoBuilder twoBoxes k
      ([[root 2]], initial (BoundingBox.unionOf twoBoxes (List.range 2)) fun _ => id) c' ∧
    k < 4 ∧ ∀ axis, ∃ t, Built twoBuilder twoBoxes 2 (c'.2.toBvh axis) t := by
  obtain ⟨k, c', hsteps, hdone⟩ := exists_steps (c := ([[root 2]], _)) inRange_two grows_two
  obtain ⟨hk, hbuilt⟩ := hsteps.exists_built Nat.two_pos inRange_two fun _ => List.Perm.refl _
  exact ⟨k, c', hsteps, hk, fun axis => (hbuilt hdone axis).2⟩

end Tasks

/-! ### The whole builder -/

/-- The arrays that hold references: the one of the hierarchy, and one for each axis. -/
inductive Buffer where
  | primitiveIndices
  | referenceData (axis : Fin 3)
  deriving DecidableEq

/-- Which arrays hold the references of an axis after it is sorted, if each iteration of the sort swaps two arrays. -/
def assignBuffer (iterations : ℕ) (s : (Fin 3 → Buffer) × Buffer) (axis : Fin 3) : (Fin 3 → Buffer) × Buffer :=
  let sorted := s.2
  let unsorted := Buffer.referenceData axis
  -- one array is the final one
  let swapped := if axis ≠ 0 ∧ sorted = .primitiveIndices then (unsorted, sorted) else (sorted, unsorted)
  let result := if iterations % 2 = 0 then swapped else (swapped.2, swapped.1)
  (Function.update s.1 axis result.1, result.2)

def sortedBuffers (iterations : ℕ) : Fin 3 → Buffer :=
  ([0, 1, 2].foldl (assignBuffer iterations) (fun _ => .primitiveIndices, .primitiveIndices)).1

/-- The axis whose references are the primitives of the hierarchy. -/
def finalAxis (iterations : ℕ) : Fin 3 := if sortedBuffers iterations 0 = .primitiveIndices then 0 else 1

/-- The axes have different arrays, and the first or the second one has that of the hierarchy. -/
theorem sortedBuffers_injective (iterations : ℕ) :
    Function.Injective (sortedBuffers iterations) ∧ sortedBuffers iterations (finalAxis iterations) = .primitiveIndices := by
  have hparity : ∀ i j, i % 2 = j % 2 → sortedBuffers i = sortedBuffers j := by
    intro i j hij
    unfold sortedBuffers assignBuffer
    rw [hij]
  have hmod : iterations % 2 = 0 ∨ iterations % 2 = 1 := by omega
  unfold finalAxis
  rcases hmod with h | h
  · rw [hparity iterations 0 h]
    decide
  · rw [hparity iterations 1 h]
    decide

section Whole

variable [Field R] [LinearOrder R]

/-- The centre of a box along an axis. -/
def centerOf (box : BoundingBox R) (axis : Fin 3) : R :=
  (![box.max.x, box.max.y, box.max.z] axis + ![box.min.x, box.min.y, box.min.z] axis) * (1 / 2)

/-- The keys and the primitives of an axis before they are sorted. -/
def keyed (makeKey : R → ℕ) (bboxes : ℕ → BoundingBox R) (axis : Fin 3) : RadixSort.Arrays ℕ where
  keys := fun i => makeKey (centerOf (bboxes i) axis)
  values := id

/-- The references along an axis, as the sort leaves them. -/
def sortedReferences (makeKey : R → ℕ) (iterations : ℕ) (bboxes : ℕ → BoundingBox R) (n : ℕ) (axis : Fin 3) : ℕ → ℕ :=
  fun i => (((Library.digitSort (2 ^ 10) Prod.fst iterations ((keyed makeKey bboxes axis).elements n)).map Prod.snd)).getD i 0

/-- All items are built, by one task. -/
def runTask (builder : Builder R) (bboxes : ℕ → BoundingBox R) (n : ℕ) (s : State R) : Option (State R × Bool) :=
  run lifo (fun item s =>
    let r := build builder bboxes item s
    .push (r.2.elim [] fun more => [(ordered more).2, (ordered more).1]) r.1) (2 * n) [root n] s

/-- `SweepSahBuilder::build` for keys of some number of digits. -/
def sweepSah (builder : Builder R) (makeKey : R → ℕ) (iterations : ℕ) (boundingBoxes : List (BoundingBox R)) : Bvh R :=
  let n := boundingBoxes.length
  let bboxes := fun k => boundingBoxes.getD k .empty
  let s := initial (BoundingBox.unionOf bboxes (List.range n)) (sortedReferences makeKey iterations bboxes n)
  match runTask builder bboxes n s with
  | some (s', _) => s'.toBvh (finalAxis iterations)
  | none => s.toBvh (finalAxis iterations)

variable {builder : Builder R} {makeKey : R → ℕ} {iterations n : ℕ} {bboxes : ℕ → BoundingBox R} {axis : Fin 3}

omit [LinearOrder R] in
private theorem segment_sortedReferences :
    segment (sortedReferences makeKey iterations bboxes n axis) 0 n =
      (Library.digitSort (2 ^ 10) Prod.fst iterations ((keyed makeKey bboxes axis).elements n)).map Prod.snd := by
  have hlength : ((Library.digitSort (2 ^ 10) Prod.fst iterations ((keyed makeKey bboxes axis).elements n)).map
      Prod.snd).length = n := by
    rw [List.length_map, (Library.digitSort_perm (Nat.two_pow_pos 10) _ _ _).length_eq, RadixSort.length_elements]
  refine List.ext_getElem (by rw [length_segment, hlength, Nat.sub_zero]) fun i hi hi' => ?_
  have hget : (segment (sortedReferences makeKey iterations bboxes n axis) 0 n)[i] =
      sortedReferences makeKey iterations bboxes n axis i := by
    simp [segment]
  rw [hget]
  unfold sortedReferences
  rw [List.getD_eq_getElem]

omit [LinearOrder R] in
private theorem sortedReferences_perm :
    (segment (sortedReferences makeKey iterations bboxes n axis) 0 n).Perm (List.range n) := by
  rw [segment_sortedReferences]
  refine ((Library.digitSort_perm (Nat.two_pow_pos 10) Prod.fst iterations _).map Prod.snd).trans ?_
  unfold RadixSort.Arrays.elements
  rw [List.map_map]
  exact List.Perm.of_eq (List.map_id _)

omit [LinearOrder R] in
/-- They are in the order of the keys, and those with the same key in the order of their numbers. -/
theorem sortedReferences_pairwise (hkeys : ∀ x, makeKey x < 2 ^ (10 * iterations)) :
    (segment (sortedReferences makeKey iterations bboxes n axis) 0 n).Pairwise fun i j =>
      makeKey (centerOf (bboxes i) axis) < makeKey (centerOf (bboxes j) axis) ∨
        makeKey (centerOf (bboxes i) axis) = makeKey (centerOf (bboxes j) axis) ∧ i < j := by
  rw [segment_sortedReferences, List.pairwise_map]
  have hstart : ((keyed makeKey bboxes axis).elements n).Pairwise fun x y => x.2 < y.2 := by
    unfold RadixSort.Arrays.elements
    rw [List.pairwise_map]
    exact List.pairwise_lt_range
  refine (Library.digitSort_pairwise (Nat.two_pow_pos 10) Prod.fst iterations hstart).imp_of_mem ?_
  intro x y hx hy hxy
  have hkey : ∀ z ∈ Library.digitSort (2 ^ 10) Prod.fst iterations ((keyed makeKey bboxes axis).elements n),
      z.1 % (2 ^ 10) ^ iterations = z.1 ∧ makeKey (centerOf (bboxes z.2) axis) = z.1 := by
    intro z hz
    obtain ⟨i, -, rfl⟩ := List.mem_map.1 ((Library.digitSort_perm (Nat.two_pow_pos 10) _ _ _).mem_iff.1 hz)
    refine ⟨Nat.mod_eq_of_lt ?_, rfl⟩
    rw [← Nat.pow_mul]
    exact hkeys _
  rw [(hkey x hx).1, (hkey y hy).1] at hxy
  rwa [(hkey x hx).2, (hkey y hy).2]

/-- The builder ends with a hierarchy as it is promised. -/
theorem sweepSah_built [IsStrictOrderedRing R] {boundingBoxes : List (BoundingBox R)} (hne : boundingBoxes ≠ [])
    (hrange : InRange builder (fun k => boundingBoxes.getD k .empty) boundingBoxes.length) (makeKey : R → ℕ)
    (iterations : ℕ) :
    ∃ t, Built builder (fun k => boundingBoxes.getD k .empty) boundingBoxes.length
      (sweepSah builder makeKey iterations boundingBoxes) t := by
  set n := boundingBoxes.length with hn
  set bboxes := fun k => boundingBoxes.getD k BoundingBox.empty with hbboxes
  set s₀ := initial (BoundingBox.unionOf bboxes (List.range n)) (sortedReferences makeKey iterations bboxes n) with hs₀
  have hpos : 0 < n := List.length_pos_iff.2 hne
  have hstart : Grows builder bboxes n (fun _ _ _ => True) s₀ [root n] (.leaf (root n)) :=
    grows_initial _ hpos (fun axis => sortedReferences_perm) fun axis => List.pairwise_of_forall fun _ _ => trivial
  let step : WorkItem → State R → Outcome WorkItem (State R) := fun item s =>
    .push ((build builder bboxes item s).2.elim [] fun more => [(ordered more).2, (ordered more).1])
      (build builder bboxes item s).1
  have hdone : ∀ t s, Grows builder bboxes n (fun _ _ _ => True) s [] t →
      ∃ t, Built builder bboxes n (s.toBvh (finalAxis iterations)) t := fun t s h => ⟨_, h.built _⟩
  have hpositive : ∀ t x rest s, Grows builder bboxes n (fun _ _ _ => True) s (x :: rest) t →
      0 < stepsLeft (x :: rest) := by
    intro t x rest s h
    have hx := h.nonempty x (t.leaves_subset_labels (h.leaf x List.mem_cons_self))
    rw [stepsLeft_cons]
    unfold WorkItem.workSize
    omega
  have hpush : ∀ t x rest s items s', Grows builder bboxes n (fun _ _ _ => True) s (x :: rest) t →
      step x s = .push items s' → ∃ t', Grows builder bboxes n (fun _ _ _ => True) s' (lifo items rest) t' ∧
        stepsLeft (lifo items rest) < stepsLeft (x :: rest) := by
    intro t x rest s items s' h hstep
    obtain ⟨rfl, rfl⟩ := Outcome.push.inj hstep
    obtain ⟨⟨t', ht'⟩, hlt⟩ := h.build hrange
    have hperm : (((build builder bboxes x s).2.elim [] fun p => [p.1, p.2]) ++ rest).Perm
        (lifo ((build builder bboxes x s).2.elim [] fun more => [(ordered more).2, (ordered more).1]) rest) := by
      unfold lifo
      cases (build builder bboxes x s).2 with
      | none => exact List.Perm.refl _
      | some more => exact ((ordered_perm more).append_right rest).symm
    exact ⟨t', ht'.perm hperm, (stepsLeft_perm hperm) ▸ hlt⟩
  -- the ghost data is the tree with its pending items
  let I : FullTree WorkItem × List WorkItem → List WorkItem → State R → Prop := fun g pending s =>
    g.2 = pending ∧ Grows builder bboxes n (fun _ _ _ => True) s pending g.1
  have hrun : ∃ s' b, run lifo step (2 * n) [root n] s₀ = some (s', b) ∧
      ∃ t, Built builder bboxes n (s'.toBvh (finalAxis iterations)) t := by
    refine Library.run_of_invariant I (fun g => stepsLeft g.2) (fun s _ => ∃ t, Built builder bboxes n (s.toBvh _) t)
      (fun g x rest s h => h.1 ▸ hpositive g.1 x rest s h.2) (fun g s h => hdone g.1 s h.2)
      (fun g x rest s s' h hstep => absurd hstep (by simp [step])) (fun g x rest s items s' h hstep => ?_)
      (show I (.leaf (root n), [root n]) [root n] s₀ from ⟨rfl, hstart⟩) (by simp [stepsLeft, root, WorkItem.workSize])
    obtain ⟨t', ht', hlt⟩ := hpush g.1 x rest s items s' h.2 hstep
    exact ⟨(t', lifo items rest), ⟨rfl, ht'⟩, by rw [h.1]; exact hlt⟩
  obtain ⟨s', b, hrun, t, ht⟩ := hrun
  refine ⟨t, ?_⟩
  have hresult : runTask builder bboxes n s₀ = some (s', b) := hrun
  unfold sweepSah
  dsimp only
  rw [← hn, ← hbboxes, ← hs₀, hresult]
  exact ht

/-- On boxes whose costs are in range, the builder is one of those that the other modules take as given: its hierarchies
are well formed, and their bounds are tight, exact and enclose the primitives. -/
theorem exists_sweepSahBuilder [IsStrictOrderedRing R] (builder : Builder R) (makeKey : R → ℕ) (iterations : ℕ) :
    ∃ given : SweepSahBuilder R, given.Encloses ∧ given.Tight ∧ given.Exact ∧ ∀ boundingBoxes, boundingBoxes ≠ [] →
      InRange builder (fun k => boundingBoxes.getD k .empty) boundingBoxes.length →
      given.build boundingBoxes = sweepSah builder makeKey iterations boundingBoxes := by
  classical
  let InRange' : List (BoundingBox R) → Prop := fun boundingBoxes =>
    InRange builder (fun k => boundingBoxes.getD k .empty) boundingBoxes.length
  -- elsewhere another builder with these properties stands in
  let build : List (BoundingBox R) → Bvh R := fun boundingBoxes =>
    if InRange' boundingBoxes then sweepSah builder makeKey iterations boundingBoxes
    else (SweepSahBuilder.single R).build boundingBoxes
  have hcases : ∀ boundingBoxes, boundingBoxes ≠ [] → (∃ t, Built builder (fun k => boundingBoxes.getD k .empty)
      boundingBoxes.length (build boundingBoxes) t) ∨ build boundingBoxes = (SweepSahBuilder.single R).build boundingBoxes := by
    intro boundingBoxes hne
    by_cases hrange : InRange' boundingBoxes
    · left
      have hbuild : build boundingBoxes = sweepSah builder makeKey iterations boundingBoxes := if_pos hrange
      rw [hbuild]
      exact sweepSah_built hne hrange makeKey iterations
    · exact Or.inr (if_neg hrange)
  refine ⟨⟨build, ?_⟩, ?_, ?_, ?_, fun boundingBoxes _ hrange => if_pos hrange⟩
  · intro boundingBoxes hne
    rcases hcases boundingBoxes hne with ⟨t, ht⟩ | heq
    · exact ⟨t, ht.isTree⟩
    · rw [heq]
      exact (SweepSahBuilder.single R).wellFormed boundingBoxes hne
  · intro boundingBoxes hne
    show (build boundingBoxes).Encloses _
    rcases hcases boundingBoxes hne with ⟨t, ht⟩ | heq
    · refine ht.encloses ?_
      rintro k - p ⟨box, hbox, hp⟩
      rwa [List.getD_eq_getElem?_getD, hbox]
    · rw [heq]
      exact SweepSahBuilder.single_encloses boundingBoxes hne
  · intro boundingBoxes hne
    show (build boundingBoxes).Fits _
    rcases hcases boundingBoxes hne with ⟨t, ht⟩ | heq
    · exact ht.fits
    · intro i
      dsimp only
      rw [heq]
      exact SweepSahBuilder.single_tight boundingBoxes hne i
  · intro boundingBoxes hne hempty
    show (build boundingBoxes).Exact _
    rcases hcases boundingBoxes hne with ⟨t, ht⟩ | heq
    · refine ht.exact fun k => ?_
      by_cases hk : k < boundingBoxes.length
      · rw [List.getD_eq_getElem _ _ hk]
        exact hempty _ (List.getElem_mem hk)
      · rw [List.getD_eq_default _ _ (not_lt.1 hk)]
    · rw [heq]
      exact SweepSahBuilder.single_exact boundingBoxes hne hempty

/-- The builder for keys of seven digits. -/
theorem exists_sweepSahBuilder_rat : ∃ given : SweepSahBuilder ℚ, given.Encloses ∧ given.Tight ∧ given.Exact ∧
    ∀ boundingBoxes, boundingBoxes ≠ [] →
      InRange twoBuilder (fun k => boundingBoxes.getD k .empty) boundingBoxes.length →
      given.build boundingBoxes = sweepSah twoBuilder (fun x => x.num.toNat) 7 boundingBoxes :=
  exists_sweepSahBuilder twoBuilder (fun x => x.num.toNat) 7

end Whole

end Bouncer.SweepSah
