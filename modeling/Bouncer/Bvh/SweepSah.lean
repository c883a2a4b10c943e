import Bouncer.Bvh.ExactBounds
import Bouncer.Library.Tiling

/-!
# One step of the sweep builder

`SweepSahBuildTask::build` decides about one range of primitives, which are sorted along each axis: it becomes a leaf, or
it is split along one axis, and the ranges of the other axes are partitioned in the same way.

The two sweeps of `find_split` find the cheapest place to split a range (`findSplit_le`, `findSplit_cases`).  If the
costs are in the range of the scalars, a range is split into two that are not empty (`build_cases`), and on each axis
they keep the primitives of one side in their order (`segment_split_left`, `segment_split_right`).
-/

namespace Bouncer

variable {R : Type*}

namespace BoundingBox

section Extent

variable [Field R]

def diagonal (b : BoundingBox R) : RepoVector3D R := b.max - b.min

def halfArea (b : BoundingBox R) : R := (b.diagonal.x + b.diagonal.y) * b.diagonal.z + b.diagonal.x * b.diagonal.y

def largestAxis [LinearOrder R] (b : BoundingBox R) : Fin 3 :=
  let d : Fin 3 → R := ![b.diagonal.x, b.diagonal.y, b.diagonal.z]
  let axis : Fin 3 := if d 0 < d 1 then 1 else 0
  if d axis < d 2 then 2 else axis

end Extent

/-- The union of the boxes of some primitives. -/
def unionOf [Field R] [LinearOrder R] (bboxes : ℕ → BoundingBox R) (primitives : List ℕ) : BoundingBox R :=
  primitives.foldl (fun box k => box.extend (bboxes k)) .empty

section UnionOf

variable [Field R] [LinearOrder R] {bboxes : ℕ → BoundingBox R}

theorem unionOf_eq_foldl (bboxes : ℕ → BoundingBox R) (l : List ℕ) : unionOf bboxes l = (l.map bboxes).foldl extend .empty := by
  rw [List.foldl_map]
  rfl

private theorem unionOf_concat (l : List ℕ) (k : ℕ) : unionOf bboxes (l ++ [k]) = (unionOf bboxes l).extend (bboxes k) := by
  rw [unionOf, List.foldl_append]
  rfl

/-- The order of the primitives does not matter. -/
theorem unionOf_perm (bboxes : ℕ → BoundingBox R) {l l' : List ℕ} (h : l.Perm l') : unionOf bboxes l = unionOf bboxes l' := by
  refine h.foldl_eq' (fun k _ k' _ box => ?_) _
  show box ⊔ bboxes k ⊔ bboxes k' = box ⊔ bboxes k' ⊔ bboxes k
  exact sup_right_comm _ _ _

private theorem unionOf_cons (l : List ℕ) (k : ℕ) : unionOf bboxes (k :: l) = (unionOf bboxes l).extend (bboxes k) := by
  rw [← unionOf_concat]
  exact unionOf_perm bboxes (List.perm_append_singleton k l).symm

theorem unionOf_append (l l' : List ℕ) : unionOf bboxes (l ++ l') = (unionOf bboxes l).extend (unionOf bboxes l') := by
  have hempty : empty ≤ unionOf bboxes l := by
    rw [unionOf_eq_foldl]
    exact le_foldl_extend _ _
  rw [unionOf_eq_foldl, List.map_append, List.foldl_append, ← unionOf_eq_foldl, foldl_extend_eq_sup hempty,
    ← unionOf_eq_foldl]
  rfl

theorem le_unionOf (bboxes : ℕ → BoundingBox R) {l : List ℕ} {k : ℕ} (hk : k ∈ l) : bboxes k ≤ unionOf bboxes l := by
  induction l with
  | nil => exact absurd hk List.not_mem_nil
  | cons k' l ih =>
    rw [unionOf_cons]
    rcases List.mem_cons.1 hk with rfl | hk
    · exact le_sup_right
    · exact (ih hk).trans le_sup_left

theorem unionOf_mono (bboxes : ℕ → BoundingBox R) {l l' : List ℕ} (h : l ⊆ l') : unionOf bboxes l ≤ unionOf bboxes l' := by
  induction l with
  | nil =>
    rw [unionOf_eq_foldl bboxes l']
    exact le_foldl_extend _ _
  | cons k l ih =>
    rw [unionOf_cons]
    exact sup_le (ih fun x hx => h (List.mem_cons_of_mem _ hx)) (le_unionOf bboxes (h List.mem_cons_self))

omit [Field R] in
/-- What is in a box is in a larger one. -/
theorem Contains.mono {b c : BoundingBox R} {p : RepoVector3D R} (h : b.Contains p) (hbc : b ≤ c) : c.Contains p :=
  ⟨⟨hbc.1.1.trans h.1.1, h.1.2.trans hbc.2.1⟩, ⟨hbc.1.2.1.trans h.2.1.1, h.2.1.2.trans hbc.2.2.1⟩,
    ⟨hbc.1.2.2.trans h.2.2.1, h.2.2.2.trans hbc.2.2.2⟩⟩

end UnionOf

/-- A box with a point in it. -/
def Valid [LinearOrder R] (b : BoundingBox R) : Prop := b.min.x ≤ b.max.x ∧ b.min.y ≤ b.max.y ∧ b.min.z ≤ b.max.z

section HalfArea

variable [Field R] [LinearOrder R] [IsStrictOrderedRing R] {b c : BoundingBox R}

omit [Field R] [IsStrictOrderedRing R] in
theorem Valid.mono (h : b.Valid) (hbc : b ≤ c) : c.Valid :=
  ⟨hbc.1.1.trans (h.1.trans hbc.2.1), hbc.1.2.1.trans (h.2.1.trans hbc.2.2.1), hbc.1.2.2.trans (h.2.2.trans hbc.2.2.2)⟩

private theorem diagonal_nonneg (h : b.Valid) : 0 ≤ b.diagonal.x ∧ 0 ≤ b.diagonal.y ∧ 0 ≤ b.diagonal.z :=
  ⟨sub_nonneg.2 h.1, sub_nonneg.2 h.2.1, sub_nonneg.2 h.2.2⟩

theorem halfArea_nonneg (h : b.Valid) : 0 ≤ b.halfArea := by
  obtain ⟨hx, hy, hz⟩ := diagonal_nonneg h
  unfold halfArea
  positivity

/-- A larger box has a larger area. -/
theorem halfArea_mono (h : b.Valid) (hbc : b ≤ c) : b.halfArea ≤ c.halfArea := by
  obtain ⟨hx, hy, hz⟩ := diagonal_nonneg h
  have hdx : b.diagonal.x ≤ c.diagonal.x := sub_le_sub hbc.2.1 hbc.1.1
  have hdy : b.diagonal.y ≤ c.diagonal.y := sub_le_sub hbc.2.2.1 hbc.1.2.1
  have hdz : b.diagonal.z ≤ c.diagonal.z := sub_le_sub hbc.2.2.2 hbc.1.2.2
  unfold halfArea
  have hcx := hx.trans hdx
  have hcy := hy.trans hdy
  gcongr

end HalfArea

end BoundingBox

/-- A hierarchy that is a single leaf encloses the primitives. -/
theorem SweepSahBuilder.single_encloses [Field R] [LinearOrder R] : (SweepSahBuilder.single R).Encloses := by
  intro boundingBoxes hne i j hi hij hleaf k hk p ⟨box, hbox, hp⟩
  have hunion : (((SweepSahBuilder.single R).build boundingBoxes).nodes i).boundingBoxProxy =
      BoundingBox.unionOf (fun k => boundingBoxes.getD k .empty) (List.range boundingBoxes.length) := rfl
  have hmem : k ∈ List.range boundingBoxes.length := List.mem_range.2 (List.getElem?_eq_some_iff.1 hbox).1
  have hle := BoundingBox.le_unionOf (fun k => boundingBoxes.getD k .empty) hmem
  rw [hunion]
  refine BoundingBox.Contains.mono ?_ hle
  rwa [List.getD_eq_getElem?_getD, hbox]

namespace SweepSah

/-! ### Ranges of an array -/

/-- The elements of an array from `begin` to `stop`. -/
def segment (a : ℕ → ℕ) (begin stop : ℕ) : List ℕ := (List.range' begin (stop - begin)).map a

/-- `std::stable_partition` of the elements from `begin` to `stop`. -/
def stablePartition (p : ℕ → Bool) (a : ℕ → ℕ) (begin stop : ℕ) : ℕ → ℕ :=
  let elements := segment a begin stop
  fun i => if begin ≤ i ∧ i < stop then (elements.filter p ++ elements.filter fun k => !p k).getD (i - begin) 0 else a i

section Segment

variable {a a' : ℕ → ℕ} {begin middle stop : ℕ}

@[simp] theorem length_segment (a : ℕ → ℕ) (begin stop : ℕ) : (segment a begin stop).length = stop - begin := by
  simp [segment]

theorem segment_append (hb : begin ≤ middle) (hs : middle ≤ stop) :
    segment a begin stop = segment a begin middle ++ segment a middle stop := by
  unfold segment
  rw [← Library.range'_sub_append hb hs, List.map_append]

private theorem segment_concat (h : begin ≤ stop) : segment a begin (stop + 1) = segment a begin stop ++ [a stop] := by
  rw [segment_append h (Nat.le_succ stop)]
  simp [segment]

theorem segment_cons (h : begin < stop) : segment a begin stop = a begin :: segment a (begin + 1) stop := by
  rw [segment_append (Nat.le_succ begin) h]
  simp [segment]

theorem segment_congr (h : ∀ i, begin ≤ i → i < stop → a i = a' i) : segment a begin stop = segment a' begin stop := by
  refine List.map_congr_left fun i hi => ?_
  rw [List.mem_range'_1] at hi
  exact h i hi.1 (by omega)

theorem segment_subset {begin' stop' : ℕ} (hb : begin ≤ begin') (hs : stop' ≤ stop) :
    segment a begin' stop' ⊆ segment a begin stop := by
  intro k hk
  obtain ⟨i, hi, rfl⟩ := List.mem_map.1 hk
  rw [List.mem_range'_1] at hi
  exact List.mem_map.2 ⟨i, List.mem_range'_1.2 (by omega), rfl⟩

/-- A range whose elements are permuted in a part of it is permuted. -/
theorem segment_perm_of_within {begin' stop' : ℕ} (hb : begin ≤ begin') (hbs : begin' ≤ stop') (hs : stop' ≤ stop)
    (hout : ∀ i, i < begin' ∨ stop' ≤ i → a i = a' i) (hin : (segment a begin' stop').Perm (segment a' begin' stop')) :
    (segment a begin stop).Perm (segment a' begin stop) := by
  have hleft : segment a begin begin' = segment a' begin begin' := segment_congr fun i _ hi => hout i (Or.inl hi)
  have hright : segment a stop' stop = segment a' stop' stop := segment_congr fun i hi _ => hout i (Or.inr hi)
  rw [segment_append (a := a) hb (hbs.trans hs), segment_append (a := a) hbs hs, segment_append (a := a') hb (hbs.trans hs),
    segment_append (a := a') hbs hs, hleft, hright]
  exact (hin.append_right _).append_left _

private theorem stablePartition_of_outside {p : ℕ → Bool} {i : ℕ} (h : i < begin ∨ stop ≤ i) :
    stablePartition p a begin stop i = a i :=
  if_neg (by omega)

private theorem segment_stablePartition (p : ℕ → Bool) (a : ℕ → ℕ) (begin stop : ℕ) :
    segment (stablePartition p a begin stop) begin stop =
      (segment a begin stop).filter p ++ (segment a begin stop).filter fun k => !p k := by
  set parts := (segment a begin stop).filter p ++ (segment a begin stop).filter fun k => !p k with hparts
  have hlength : parts.length = stop - begin := by
    rw [hparts, (List.filter_append_perm p (segment a begin stop)).length_eq, length_segment]
  refine List.ext_getElem (by rw [length_segment, hlength]) fun i hi hi' => ?_
  have hget : (segment (stablePartition p a begin stop) begin stop)[i] =
      stablePartition p a begin stop (begin + i) := by
    simp [segment]
  rw [length_segment] at hi
  have hmem : begin ≤ begin + i ∧ begin + i < stop := by omega
  rw [hget]
  show (if begin ≤ begin + i ∧ begin + i < stop then parts.getD (begin + i - begin) 0 else a (begin + i)) = parts[i]
  rw [if_pos hmem, Nat.add_sub_cancel_left, List.getD_eq_getElem]

end Segment

/-! ### The step -/

/-- The parameters of `SweepSahBuilder`. -/
structure Builder (R : Type*) where
  maxDepth : ℕ
  maxLeafSize : ℕ
  taskSpawnThreshold : ℕ
  traversalCost : R

structure WorkItem where
  nodeIndex : ℕ
  begin : ℕ
  stop : ℕ
  depth : ℕ
  deriving DecidableEq

def WorkItem.workSize (item : WorkItem) : ℕ := item.stop - item.begin

/-- What the tasks share: the nodes of the hierarchy, and the references to the primitives along each axis. -/
structure State (R : Type*) where
  nodes : ℕ → BvhNode R
  nodeCount : ℕ
  references : Fin 3 → ℕ → ℕ

section Build

variable [Field R] [LinearOrder R]

/-- `find_split`: the costs of the right sides from one sweep, and the cheapest split from a second one. -/
def findSplit (bboxes : ℕ → BoundingBox R) (references : ℕ → ℕ) (begin stop : ℕ) : R × ℕ :=
  let costs := ((List.range' (begin + 1) (stop - 1 - begin)).reverse.foldl (fun s i =>
    let bbox := s.1.extend (bboxes (references i))
    (bbox, Function.update s.2 i (bbox.halfArea * ((stop - i : ℕ) : R)))) (BoundingBox.empty, fun _ => 0)).2
  ((List.range' begin (stop - 1 - begin)).foldl (fun s i =>
    let bbox := s.1.extend (bboxes (references i))
    let cost := bbox.halfArea * ((i + 1 - begin : ℕ) : R) + costs (i + 1)
    (bbox, if cost < s.2.1 then (cost, i + 1) else s.2)) (BoundingBox.empty, (dblMax, stop))).2

/-- The axis with the cheapest split. -/
def bestAxis (bestSplits : Fin 3 → R × ℕ) : Fin 3 :=
  let axis : Fin 3 := if (bestSplits 1).1 < (bestSplits 0).1 then 1 else 0
  if (bestSplits 2).1 < (bestSplits axis).1 then 2 else axis

/-- `make_leaf` for the node of the item. -/
def State.makeLeaf (s : State R) (item : WorkItem) : State R :=
  let node : BvhNode R :=
    { s.nodes item.nodeIndex with firstChildOrPrimitive := item.begin, primitiveCount := item.workSize }
  { s with nodes := Function.update s.nodes item.nodeIndex node }

/-- The primitives to the left of the split are marked. -/
def marks (references : ℕ → ℕ) (begin splitIndex stop : ℕ) : ℕ → Bool :=
  (segment references splitIndex stop).foldl (fun marks k => Function.update marks k false)
    ((segment references begin splitIndex).foldl (fun marks k => Function.update marks k true) fun _ => false)

/-- The children of a node that is split along `axis` at `splitIndex`. -/
def State.split (s : State R) (bboxes : ℕ → BoundingBox R) (item : WorkItem) (axis : Fin 3) (splitIndex : ℕ) : State R :=
  let marks := marks (s.references axis) item.begin splitIndex item.stop
  let leftBbox := BoundingBox.unionOf bboxes (segment (s.references axis) item.begin splitIndex)
  let rightBbox := BoundingBox.unionOf bboxes (segment (s.references axis) splitIndex item.stop)
  let firstChild := s.nodeCount
  let node : BvhNode R := { s.nodes item.nodeIndex with firstChildOrPrimitive := firstChild, primitiveCount := 0 }
  let left : BvhNode R := { s.nodes firstChild with bounds := leftBbox.bounds }
  let right : BvhNode R := { s.nodes (firstChild + 1) with bounds := rightBbox.bounds }
  { nodes := Function.update (Function.update (Function.update s.nodes item.nodeIndex node) firstChild left)
      (firstChild + 1) right
    nodeCount := s.nodeCount + 2
    references := fun other =>
      if other = axis then s.references axis else stablePartition marks (s.references other) item.begin item.stop }

/-- The work on the two sides of a split. -/
def State.children (s : State R) (item : WorkItem) (splitIndex : ℕ) : WorkItem × WorkItem :=
  (⟨s.nodeCount, item.begin, splitIndex, item.depth + 1⟩, ⟨s.nodeCount + 1, splitIndex, item.stop, item.depth + 1⟩)

def maxSplitCost (builder : Builder R) (s : State R) (item : WorkItem) : R :=
  (s.nodes item.nodeIndex).boundingBoxProxy.halfArea * ((item.workSize : R) - builder.traversalCost)

def build (builder : Builder R) (bboxes : ℕ → BoundingBox R) (item : WorkItem) (s : State R) :
    State R × Option (WorkItem × WorkItem) :=
  if item.workSize ≤ 1 ∨ builder.maxDepth ≤ item.depth then (s.makeLeaf item, none)
  else
    let bestSplits := fun axis => findSplit bboxes (s.references axis) item.begin item.stop
    let axis := bestAxis bestSplits
    if maxSplitCost builder s item ≤ (bestSplits axis).1 then
      if builder.maxLeafSize < item.workSize then
        -- the median on the largest axis
        let splitIndex := (item.begin + item.stop) / 2
        (s.split bboxes item (s.nodes item.nodeIndex).boundingBoxProxy.largestAxis splitIndex,
          some (s.children item splitIndex))
      else (s.makeLeaf item, none)
    else
      let splitIndex := (bestSplits axis).2
      (s.split bboxes item axis splitIndex, some (s.children item splitIndex))

/-! ### The cheapest split -/

/-- The surface area heuristic of a split. -/
def splitCost (bboxes : ℕ → BoundingBox R) (references : ℕ → ℕ) (begin stop splitIndex : ℕ) : R :=
  (BoundingBox.unionOf bboxes (segment references begin splitIndex)).halfArea * ((splitIndex - begin : ℕ) : R) +
    (BoundingBox.unionOf bboxes (segment references splitIndex stop)).halfArea * ((stop - splitIndex : ℕ) : R)

section FindSplit

variable {bboxes : ℕ → BoundingBox R} {references : ℕ → ℕ} {begin stop : ℕ}

/-- The sweep from the right has the unions of the right sides. -/
private theorem sweep_right (bboxes : ℕ → BoundingBox R) (references : ℕ → ℕ) (stop m : ℕ) (hm : m ≤ stop) :
    let s := (List.range' (stop - m) m).reverse.foldl (fun s i =>
      let bbox := s.1.extend (bboxes (references i))
      (bbox, Function.update s.2 i (bbox.halfArea * ((stop - i : ℕ) : R)))) (BoundingBox.empty, fun _ => (0 : R))
    s.1 = BoundingBox.unionOf bboxes (segment references (stop - m) stop) ∧
      ∀ i, stop - m ≤ i → i < stop →
        s.2 i = (BoundingBox.unionOf bboxes (segment references i stop)).halfArea * ((stop - i : ℕ) : R) := by
  induction m with
  | zero =>
    refine ⟨?_, fun i hi hlt => by omega⟩
    rw [Nat.sub_zero, segment, Nat.sub_self]
    rfl
  | succ m ih =>
    obtain ⟨hbox, hcosts⟩ := ih (by omega)
    have hstart : stop - (m + 1) + 1 = stop - m := by omega
    have hsegment : segment references (stop - (m + 1)) stop =
        references (stop - (m + 1)) :: segment references (stop - (m + 1) + 1) stop := segment_cons (by omega)
    rw [hstart] at hsegment
    have hunion : BoundingBox.unionOf bboxes (segment references (stop - (m + 1)) stop) =
        (BoundingBox.unionOf bboxes (segment references (stop - m) stop)).extend
          (bboxes (references (stop - (m + 1)))) := by
      rw [hsegment, BoundingBox.unionOf_cons]
    rw [List.range'_succ, hstart, List.reverse_cons, List.foldl_append]
    simp only [List.foldl_cons, List.foldl_nil]
    rw [hbox, ← hunion]
    refine ⟨rfl, fun i hi hlt => ?_⟩
    by_cases hi' : i = stop - (m + 1)
    · subst hi'
      rw [Function.update_self]
    · rw [Function.update_of_ne hi']
      exact hcosts i (by omega) hlt

/-- The sweep from the left keeps the cheapest split that it has seen. -/
private theorem sweep_left (bboxes : ℕ → BoundingBox R) (references : ℕ → ℕ) (begin stop : ℕ) {costs : ℕ → R} {m : ℕ}
    (hcosts : ∀ i, begin < i → i ≤ begin + m →
      costs i = (BoundingBox.unionOf bboxes (segment references i stop)).halfArea * ((stop - i : ℕ) : R)) :
    let s := (List.range' begin m).foldl (fun s i =>
      let bbox := s.1.extend (bboxes (references i))
      let cost := bbox.halfArea * ((i + 1 - begin : ℕ) : R) + costs (i + 1)
      (bbox, if cost < s.2.1 then (cost, i + 1) else s.2)) (BoundingBox.empty, ((dblMax : R), stop))
    s.1 = BoundingBox.unionOf bboxes (segment references begin (begin + m)) ∧
      (∀ i, begin < i → i ≤ begin + m → s.2.1 ≤ splitCost bboxes references begin stop i) ∧ s.2.1 ≤ dblMax ∧
      (s.2 = (dblMax, stop) ∨ begin < s.2.2 ∧ s.2.2 ≤ begin + m ∧ s.2.1 < dblMax ∧
        s.2.1 = splitCost bboxes references begin stop s.2.2) := by
  induction m with
  | zero =>
    refine ⟨?_, fun i hi hle => by omega, le_rfl, Or.inl rfl⟩
    rw [Nat.add_zero, segment, Nat.sub_self]
    rfl
  | succ m ih =>
    obtain ⟨hbox, hle, hmax, hbest⟩ := ih fun i hi hle => hcosts i hi (by omega)
    have hunion : BoundingBox.unionOf bboxes (segment references begin (begin + (m + 1))) =
        (BoundingBox.unionOf bboxes (segment references begin (begin + m))).extend (bboxes (references (begin + m))) := by
      rw [← Nat.add_assoc, segment_concat (Nat.le_add_right begin m), BoundingBox.unionOf_concat]
    rw [List.range'_1_concat, List.foldl_append]
    simp only [List.foldl_cons, List.foldl_nil]
    rw [hbox, ← hunion]
    set s := (List.range' begin m).foldl (fun s i =>
      let bbox := s.1.extend (bboxes (references i))
      let cost := bbox.halfArea * ((i + 1 - begin : ℕ) : R) + costs (i + 1)
      (bbox, if cost < s.2.1 then (cost, i + 1) else s.2)) (BoundingBox.empty, ((dblMax : R), stop)) with hs
    have hcost : (BoundingBox.unionOf bboxes (segment references begin (begin + (m + 1)))).halfArea *
        ((begin + m + 1 - begin : ℕ) : R) + costs (begin + m + 1) =
          splitCost bboxes references begin stop (begin + m + 1) := by
      rw [hcosts (begin + m + 1) (by omega) (by omega)]
      rfl
    rw [hcost]
    refine ⟨rfl, ?_⟩
    by_cases hlt : splitCost bboxes references begin stop (begin + m + 1) < s.2.1
    · rw [if_pos hlt]
      have hlast : ∀ i, begin < i → i ≤ begin + (m + 1) →
          splitCost bboxes references begin stop (begin + m + 1) ≤ splitCost bboxes references begin stop i := by
        intro i hi hi'
        by_cases he : i = begin + m + 1
        · rw [he]
        · exact hlt.le.trans (hle i hi (by omega))
      exact ⟨hlast, hlt.le.trans hmax, Or.inr ⟨by simp only; omega, by simp only; omega, hlt.trans_le hmax, rfl⟩⟩
    · rw [if_neg hlt]
      refine ⟨fun i hi hi' => ?_, hmax, hbest.imp_right fun h => ⟨h.1, by omega, h.2.2⟩⟩
      by_cases he : i = begin + m + 1
      · rw [he]
        exact not_lt.1 hlt
      · exact hle i hi (by omega)

private theorem findSplit_spec (h : begin < stop) :
    (∀ i, begin < i → i < stop → (findSplit bboxes references begin stop).1 ≤ splitCost bboxes references begin stop i) ∧
      (findSplit bboxes references begin stop = (dblMax, stop) ∨
        begin < (findSplit bboxes references begin stop).2 ∧ (findSplit bboxes references begin stop).2 < stop ∧
          (findSplit bboxes references begin stop).1 < dblMax ∧ (findSplit bboxes references begin stop).1 =
            splitCost bboxes references begin stop (findSplit bboxes references begin stop).2) := by
  have hstart : begin + 1 = stop - (stop - 1 - begin) := by omega
  have hcosts := (sweep_right bboxes references stop (stop - 1 - begin) (by omega)).2
  rw [← hstart] at hcosts
  obtain ⟨-, hle, -, hbest⟩ := sweep_left bboxes references begin stop (m := stop - 1 - begin) fun i hi hi' =>
    hcosts i (by omega) (by omega)
  refine ⟨fun i hi hi' => hle i hi (by omega), hbest.imp_right fun h => ⟨h.1, ?_, h.2.2⟩⟩
  exact lt_of_le_of_lt h.2.1 (by omega)

private theorem findSplit_le {splitIndex : ℕ} (hb : begin < splitIndex) (hs : splitIndex < stop) :
    (findSplit bboxes references begin stop).1 ≤ splitCost bboxes references begin stop splitIndex :=
  (findSplit_spec (hb.trans hs)).1 splitIndex hb hs

private theorem findSplit_cases (bboxes : ℕ → BoundingBox R) (references : ℕ → ℕ) (h : begin < stop) :
    findSplit bboxes references begin stop = (dblMax, stop) ∨
      begin < (findSplit bboxes references begin stop).2 ∧ (findSplit bboxes references begin stop).2 < stop ∧
        (findSplit bboxes references begin stop).1 < dblMax ∧ (findSplit bboxes references begin stop).1 =
          splitCost bboxes references begin stop (findSplit bboxes references begin stop).2 :=
  (findSplit_spec h).2

end FindSplit

omit [Field R] in
private theorem bestAxis_le (bestSplits : Fin 3 → R × ℕ) (axis : Fin 3) :
    (bestSplits (bestAxis bestSplits)).1 ≤ (bestSplits axis).1 := by
  unfold bestAxis
  dsimp only
  have haxis : axis = 0 ∨ axis = 1 ∨ axis = 2 := by
    fin_cases axis
    exacts [Or.inl rfl, Or.inr (Or.inl rfl), Or.inr (Or.inr rfl)]
  split_ifs with h01 h12 h02
  · rcases haxis with rfl | rfl | rfl
    exacts [(h12.trans h01).le, h12.le, le_rfl]
  · rcases haxis with rfl | rfl | rfl
    exacts [h01.le, le_rfl, not_lt.1 h12]
  · rcases haxis with rfl | rfl | rfl
    exacts [h02.le, h02.le.trans (not_lt.1 h01), le_rfl]
  · rcases haxis with rfl | rfl | rfl
    exacts [le_rfl, not_lt.1 h01, not_lt.1 h02]

/-- The decision about a range that may be split: the cheapest split along any axis, if it is cheaper than a leaf, else the
median along the largest axis or, if it is small enough, a leaf. -/
theorem build_decision {builder : Builder R} {bboxes : ℕ → BoundingBox R} {item : WorkItem} {s : State R}
    (hsize : 1 < item.workSize) (hdepth : item.depth < builder.maxDepth) (hcost : maxSplitCost builder s item ≤ dblMax) :
    ∃ axis splitIndex, item.begin < splitIndex ∧ splitIndex < item.stop ∧
      (∀ other i, item.begin < i → i < item.stop → splitCost bboxes (s.references axis) item.begin item.stop splitIndex ≤
        splitCost bboxes (s.references other) item.begin item.stop i) ∧
      build builder bboxes item s =
        if splitCost bboxes (s.references axis) item.begin item.stop splitIndex < maxSplitCost builder s item then
          (s.split bboxes item axis splitIndex, some (s.children item splitIndex))
        else if builder.maxLeafSize < item.workSize then
          (s.split bboxes item (s.nodes item.nodeIndex).boundingBoxProxy.largestAxis ((item.begin + item.stop) / 2),
            some (s.children item ((item.begin + item.stop) / 2)))
        else (s.makeLeaf item, none) := by
  have hne : item.begin < item.stop := by
    unfold WorkItem.workSize at hsize
    omega
  have hstop : ¬ (item.workSize ≤ 1 ∨ builder.maxDepth ≤ item.depth) := by omega
  unfold build
  rw [if_neg hstop]
  dsimp only
  set bestSplits := fun axis => findSplit bboxes (s.references axis) item.begin item.stop with hbest
  have hleast : ∀ other i, item.begin < i → i < item.stop →
      (bestSplits (bestAxis bestSplits)).1 ≤ splitCost bboxes (s.references other) item.begin item.stop i :=
    fun other i hb hs => (bestAxis_le bestSplits other).trans (findSplit_le hb hs)
  rcases findSplit_cases bboxes (s.references (bestAxis bestSplits)) hne with
    hnone | ⟨hb, hs, -, hfound⟩
  · -- no split is in range, so that none is cheaper than a leaf
    have hmax : (bestSplits (bestAxis bestSplits)).1 = dblMax := congrArg Prod.fst hnone
    obtain ⟨⟨axis, splitIndex⟩, hmem, hle⟩ := Finset.exists_min_image
      ((Finset.univ : Finset (Fin 3)) ×ˢ Finset.Ioo item.begin item.stop)
      (fun p => splitCost bboxes (s.references p.1) item.begin item.stop p.2)
      ⟨(0, item.begin + 1), by unfold WorkItem.workSize at hsize; simp; omega⟩
    simp only [Finset.mem_product, Finset.mem_univ, true_and, Finset.mem_Ioo] at hmem hle
    refine ⟨axis, splitIndex, hmem.1, hmem.2, fun other i hb hs => hle (other, i) ⟨hb, hs⟩, ?_⟩
    have hlarge := hleast axis splitIndex hmem.1 hmem.2
    rw [hmax] at hlarge ⊢
    rw [if_pos hcost, if_neg (not_lt.2 (hcost.trans hlarge))]
  · refine ⟨bestAxis bestSplits, (bestSplits (bestAxis bestSplits)).2, hb, hs, fun other i hb hs => ?_, ?_⟩
    · rw [← hfound]
      exact hleast other i hb hs
    · rw [← hfound]
      by_cases hlt : (bestSplits (bestAxis bestSplits)).1 < maxSplitCost builder s item
      · rw [if_neg (not_le.2 hlt), if_pos hlt]
      · rw [if_pos (not_lt.1 hlt), if_neg hlt]

/-- Two boxes next to each other. -/
def twoBoxes (k : ℕ) : BoundingBox ℚ := ⟨⟨k, 0, 0⟩, ⟨k + 1, 1, 1⟩⟩

def twoBuilder : Builder ℚ := ⟨128, 1, 1024, 1⟩

theorem five_le_dblMax : (5 : ℚ) ≤ dblMax := by
  have hpow : (1 : ℚ) ≤ 2 ^ 971 := one_le_pow₀ one_le_two
  calc (5 : ℚ) ≤ (2 ^ 53 - 1) * 1 := by norm_num
    _ ≤ dblMax := mul_le_mul_of_nonneg_left hpow (by norm_num)

/-- The work on both, before the first step. -/
def twoItem : WorkItem := ⟨0, 0, 2, 0⟩

def twoState : State ℚ := ⟨fun _ => ⟨(⟨⟨0, 0, 0⟩, ⟨2, 1, 1⟩⟩ : BoundingBox ℚ).bounds, 0, 0⟩, 1, fun _ => id⟩

private theorem maxSplitCost_two : maxSplitCost twoBuilder twoState twoItem = 5 := by
  norm_num [maxSplitCost, BoundingBox.halfArea, BoundingBox.diagonal, WorkItem.workSize, twoState, twoItem, twoBuilder]

/-- Two boxes are split. -/
theorem build_decision_two :
    ∃ axis, build twoBuilder twoBoxes twoItem twoState =
      (twoState.split twoBoxes twoItem axis 1, some (twoState.children twoItem 1)) := by
  have hsize : 1 < twoItem.workSize := by decide
  have hdepth : twoItem.depth < twoBuilder.maxDepth := by decide
  have hleaf : twoBuilder.maxLeafSize < twoItem.workSize := by decide
  have hmiddle : (twoItem.begin + twoItem.stop) / 2 = 1 := rfl
  obtain ⟨axis, splitIndex, hb, hs, -, hbuild⟩ :=
    build_decision (s := twoState) hsize hdepth (maxSplitCost_two.trans_le five_le_dblMax)
  have hone : splitIndex = 1 := by
    have hb : 0 < splitIndex := hb
    have hs : splitIndex < 2 := hs
    omega
  rw [hone, if_pos hleaf, hmiddle] at hbuild
  by_cases hcheap : splitCost twoBoxes (twoState.references axis) twoItem.begin twoItem.stop 1 <
      maxSplitCost twoBuilder twoState twoItem
  · exact ⟨axis, hbuild.trans (if_pos hcheap)⟩
  · exact ⟨_, hbuild.trans (if_neg hcheap)⟩

/-- A range becomes a leaf for a reason, or it is split into two that are not empty. -/
theorem build_cases {builder : Builder R} (bboxes : ℕ → BoundingBox R) {item : WorkItem} {s : State R}
    (hcost : maxSplitCost builder s item ≤ dblMax) :
    (build builder bboxes item s = (s.makeLeaf item, none) ∧
      (item.workSize ≤ 1 ∨ builder.maxDepth ≤ item.depth ∨ item.workSize ≤ builder.maxLeafSize)) ∨
    ∃ axis splitIndex, item.begin < splitIndex ∧ splitIndex < item.stop ∧ item.depth < builder.maxDepth ∧
      build builder bboxes item s = (s.split bboxes item axis splitIndex, some (s.children item splitIndex)) := by
  unfold build
  by_cases hstop : item.workSize ≤ 1 ∨ builder.maxDepth ≤ item.depth
  · rw [if_pos hstop]
    exact Or.inl ⟨rfl, hstop.imp_right Or.inl⟩
  rw [if_neg hstop]
  rw [not_or, not_le, not_le] at hstop
  obtain ⟨hsize, hdepth⟩ := hstop
  unfold WorkItem.workSize at hsize
  dsimp only
  set bestSplits := fun axis => findSplit bboxes (s.references axis) item.begin item.stop with hbest
  by_cases hmax : maxSplitCost builder s item ≤ (bestSplits (bestAxis bestSplits)).1
  · rw [if_pos hmax]
    by_cases hleaf : builder.maxLeafSize < item.workSize
    · rw [if_pos hleaf]
      exact Or.inr ⟨_, (item.begin + item.stop) / 2, by omega, by omega, hdepth, rfl⟩
    · rw [if_neg hleaf]
      exact Or.inl ⟨rfl, Or.inr (Or.inr (not_lt.1 hleaf))⟩
  · rw [if_neg hmax]
    have hcases := findSplit_cases bboxes (s.references (bestAxis bestSplits)) (by omega : item.begin < item.stop)
    rcases hcases with hnone | ⟨hb, hs, -⟩
    · -- without a split the cost would be the largest scalar
      refine absurd ?_ hmax
      show _ ≤ (findSplit bboxes (s.references (bestAxis bestSplits)) item.begin item.stop).1
      rw [hnone]
      exact hcost
    · exact Or.inr ⟨_, _, hb, hs, hdepth, rfl⟩

/-! ### The two sides of a split -/

private theorem foldl_update {m : ℕ → Bool} {v : Bool} (l : List ℕ) (k : ℕ) :
    l.foldl (fun marks k => Function.update marks k v) m k = if k ∈ l then v else m k := by
  induction l generalizing m with
  | nil => simp
  | cons k' l ih =>
    rw [List.foldl_cons, ih]
    by_cases hk : k = k'
    · subst hk
      simp
    · simp [hk]

private theorem marks_eq {references : ℕ → ℕ} {begin splitIndex stop k : ℕ} (hb : begin ≤ splitIndex) (hs : splitIndex ≤ stop)
    (hnodup : (segment references begin stop).Nodup) (hk : k ∈ segment references begin stop) :
    marks references begin splitIndex stop k = decide (k ∈ segment references begin splitIndex) := by
  rw [segment_append hb hs] at hnodup hk
  unfold marks
  rw [foldl_update, foldl_update]
  rcases List.mem_append.1 hk with hk | hk
  · have hright : k ∉ segment references splitIndex stop := fun h => (List.disjoint_of_nodup_append hnodup) hk h
    simp [hright, hk]
  · have hleft : k ∉ segment references begin splitIndex := fun h => (List.disjoint_of_nodup_append hnodup) h hk
    simp [hk, hleft]

variable {s : State R} {bboxes : ℕ → BoundingBox R} {item : WorkItem} {axis : Fin 3} {splitIndex : ℕ}

theorem split_references_of_outside (other : Fin 3) {i : ℕ} (h : i < item.begin ∨ item.stop ≤ i) :
    (s.split bboxes item axis splitIndex).references other i = s.references other i := by
  show (if other = axis then _ else _ : ℕ → ℕ) i = _
  split
  · next h' => rw [h']
  · exact stablePartition_of_outside h

/-- On each axis the sides of a split have the primitives that are left of it on the axis of the split, and the others. -/
theorem segment_split (bboxes : ℕ → BoundingBox R) (hb : item.begin ≤ splitIndex) (hs : splitIndex ≤ item.stop)
    (hnodup : (segment (s.references axis) item.begin item.stop).Nodup) {other : Fin 3}
    (hsame : (segment (s.references other) item.begin item.stop).Perm
      (segment (s.references axis) item.begin item.stop)) :
    segment ((s.split bboxes item axis splitIndex).references other) item.begin splitIndex =
        (segment (s.references other) item.begin item.stop).filter
          (fun k => decide (k ∈ segment (s.references axis) item.begin splitIndex)) ∧
      segment ((s.split bboxes item axis splitIndex).references other) splitIndex item.stop =
        (segment (s.references other) item.begin item.stop).filter
          (fun k => !decide (k ∈ segment (s.references axis) item.begin splitIndex)) := by
  set left := segment (s.references axis) item.begin splitIndex with hleft
  set right := segment (s.references axis) splitIndex item.stop with hright
  have happend : segment (s.references axis) item.begin item.stop = left ++ right := segment_append hb hs
  rw [happend] at hnodup hsame
  have hdisjoint := List.disjoint_of_nodup_append hnodup
  have hin : (left ++ right).filter (fun k => decide (k ∈ left)) = left := by
    have hr : right.filter (fun k => decide (k ∈ left)) = [] :=
      List.filter_eq_nil_iff.2 fun k hk => by simpa using fun h => hdisjoint h hk
    have hl : left.filter (fun k => decide (k ∈ left)) = left := List.filter_eq_self.2 fun k hk => by simpa using hk
    rw [List.filter_append, hr, hl, List.append_nil]
  have hout : (left ++ right).filter (fun k => !decide (k ∈ left)) = right := by
    have hr : right.filter (fun k => !decide (k ∈ left)) = right :=
      List.filter_eq_self.2 fun k hk => by simpa using fun h => hdisjoint h hk
    have hl : left.filter (fun k => !decide (k ∈ left)) = [] := List.filter_eq_nil_iff.2 fun k hk => by simpa using hk
    rw [List.filter_append, hr, hl, List.nil_append]
  by_cases haxis : other = axis
  · subst haxis
    have hreferences : (s.split bboxes item other splitIndex).references other = s.references other := if_pos rfl
    rw [hreferences, happend, hin, hout]
    exact ⟨rfl, rfl⟩
  · have hreferences : (s.split bboxes item axis splitIndex).references other =
        stablePartition (marks (s.references axis) item.begin splitIndex item.stop) (s.references other) item.begin
          item.stop := if_neg haxis
    have hmarks : ∀ k ∈ segment (s.references other) item.begin item.stop,
        marks (s.references axis) item.begin splitIndex item.stop k = decide (k ∈ left) := fun k hk =>
      marks_eq hb hs (by rw [happend]; exact hnodup) (by rw [happend]; exact hsame.mem_iff.1 hk)
    have hparts := segment_stablePartition (marks (s.references axis) item.begin splitIndex item.stop)
      (s.references other) item.begin item.stop
    rw [List.filter_congr hmarks, List.filter_congr fun k hk => congrArg not (hmarks k hk), ← hreferences,
      segment_append hb hs] at hparts
    -- as many primitives are marked as there are to the left of the split
    have hlength := (hsame.filter fun k => decide (k ∈ left)).length_eq
    rw [hin, hleft, length_segment] at hlength
    exact List.append_inj hparts (by rw [length_segment, hlength])

theorem split_perm (hb : item.begin ≤ splitIndex) (hs : splitIndex ≤ item.stop)
    (hnodup : (segment (s.references axis) item.begin item.stop).Nodup) {other : Fin 3}
    (hsame : (segment (s.references other) item.begin item.stop).Perm
      (segment (s.references axis) item.begin item.stop)) :
    (segment ((s.split bboxes item axis splitIndex).references other) item.begin item.stop).Perm
      (segment (s.references other) item.begin item.stop) := by
  obtain ⟨hl, hr⟩ := segment_split bboxes hb hs hnodup hsame
  rw [segment_append hb hs, hl, hr]
  exact List.filter_append_perm _ _

end Build

end SweepSah

end Bouncer
