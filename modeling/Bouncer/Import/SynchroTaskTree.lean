import Bouncer.Import.SynchroTasks
import Mathlib.Algebra.Order.BigOperators.Group.List
import Mathlib.Algebra.Order.Group.Nat

/-!
# The task tree of a Synchro sequence

For tasks whose parents form a forest, the trees that are made have each task once, under its parent, if and only if the sets
can tell the tasks with one parent apart by their times (`Separated`).  Times are kept in milliseconds modulo `2^64`.
-/

namespace Bouncer.SynchroModelImport

open Library Library.OrderedSet Library.RoseTree

/-- Tasks with different ids, whose parents form a forest. -/
structure TaskSet where
  tasks : List Task
  nodup : (tasks.map Task.id).Nodup
  parent_mem : ∀ t ∈ tasks, ∀ id, t.parent = some id → ∃ q ∈ tasks, q.id = id
  acyclic : ∃ rank : String → ℕ, ∀ t ∈ tasks, ∀ id, t.parent = some id → rank id < rank t.id

/-- These are tasks with the same parent, in the order of their start times. -/
def InOrder (tasks : List Task) (item : Task → SequenceTask) (parent : Option String) (values : List SequenceTask) :
    Prop :=
  ∃ ts : List Task, values = ts.map item ∧ (∀ t ∈ ts, t ∈ tasks ∧ t.parent = parent) ∧
    ts.Pairwise fun a b => a.startTime ≤ b.startTime

/-- Each task is there once, under its parent, and siblings are in the order of their start times. -/
structure KeepsTasks (tasks : List Task) (item : Task → SequenceTask) (forest : List (RoseTree SequenceTask)) : Prop where
  once : (forest.flatMap values).Perm (tasks.map item)
  roots : InOrder tasks item none (forest.map value)
  children : ∀ s ∈ forest.flatMap nodes, ∀ p ∈ tasks, s.value = item p →
    InOrder tasks item (some p.id) (s.children.map value)

/-- Two tasks with one parent differ in their times, and the one that starts first comes first. -/
def Separated (tasks : List Task) : Prop :=
  ∀ a ∈ tasks, ∀ b ∈ tasks, a.parent = b.parent → a ≠ b →
    (a.startTime * 1000 ≠ b.startTime * 1000 ∨ a.endTime * 1000 ≠ b.endTime * 1000) ∧
      (a.startTime < b.startTime → a.Before b)

private theorem comparable_iff {a b : Task} : Comparable Task.Before a b ↔
    a.startTime * 1000 ≠ b.startTime * 1000 ∨ a.endTime * 1000 ≠ b.endTime * 1000 := by
  have hnat (x y : UInt64) : x ≠ y ↔ x.toNat ≠ y.toNat := not_congr UInt64.toNat_inj.symm
  unfold Comparable Task.Before
  rw [comparator_iff, comparator_iff, hnat, hnat]
  simp only [Sequence.taskItem]
  omega

/-! ### The subtasks of a task -/

section Tasks

variable (ts : TaskSet)

theorem TaskSet.eq_of_id {t t' : Task} (ht : t ∈ ts.tasks) (ht' : t' ∈ ts.tasks) (hid : t.id = t'.id) : t = t' :=
  List.inj_on_of_nodup_map ts.nodup ht ht' hid

/-- The subtasks of a task, in the order in which their set keeps them. -/
def subTasks (tasks : List Task) (t : Task) : List Task := if t ∈ tasks then siblings tasks (some t.id) else []

variable {ts}

private theorem mem_subTasks {tasks : List Task} {t b : Task} (h : b ∈ subTasks tasks t) :
    t ∈ tasks ∧ b ∈ siblings tasks (some t.id) := by
  unfold subTasks at h
  split_ifs at h with ht
  · exact ⟨ht, h⟩
  · exact absurd h List.not_mem_nil

private theorem nodup_subTasks (tasks : List Task) (t : Task) : (subTasks tasks t).Nodup := by
  unfold subTasks
  split_ifs
  · exact nodup_ofList _
  · exact List.nodup_nil

theorem TaskSet.unique (b b' x : Task) (hx : x ∈ subTasks ts.tasks b) (hx' : x ∈ subTasks ts.tasks b') : b = b' := by
  obtain ⟨hb, hx⟩ := mem_subTasks hx
  obtain ⟨hb', hx'⟩ := mem_subTasks hx'
  have hid : some b.id = some b'.id := (mem_of_mem_siblings hx).2.symm.trans (mem_of_mem_siblings hx').2
  exact ts.eq_of_id hb hb' (Option.some.inj hid)

private theorem TaskSet.exists_rank : ∃ rank : Task → ℕ, ∃ bound, (∀ t ∈ ts.tasks, rank t ≤ bound) ∧
    ∀ t, ∀ b ∈ subTasks ts.tasks t, rank t < rank b := by
  obtain ⟨rank, hrank⟩ := ts.acyclic
  refine ⟨fun t => rank t.id, (ts.tasks.map fun t => rank t.id).sum, ?_, ?_⟩
  · intro t ht
    exact List.le_sum_of_mem (List.mem_map_of_mem ht)
  · intro t b hb
    obtain ⟨hmem, hparent⟩ := mem_of_mem_siblings (mem_subTasks hb).2
    exact hrank b hmem t.id hparent

private theorem mem_of_reach {tasks : List Task} {t x : Task} (ht : t ∈ tasks) (h : Reach (subTasks tasks) t x) : x ∈ tasks := by
  rcases h.cases_tail with rfl | ⟨b, -, hx⟩
  · exact ht
  · exact (mem_of_mem_siblings (mem_subTasks hx).2).1

end Tasks

/-! ### The trees that are made -/

variable {t : Task}

section Trees

variable {ts : TaskSet} {s : Sequence}

private theorem createTaskTree_eq_grow (s : Sequence) (n : ℕ) (task : SequenceTask) :
    s.createTaskTree n task = grow s.children n task := by
  induction n generalizing task with
  | zero => rfl
  | succ n ih =>
    have hsame : s.createTaskTree n = grow s.children n := funext ih
    rw [Sequence.createTaskTree, grow, hsame]

theorem Sequence.Reads.children_item (h : s.Reads ts.tasks) (ht : t ∈ ts.tasks) :
    s.children (s.item t) = (subTasks ts.tasks t).map s.item := by
  obtain ⟨uuid, huuid⟩ := Option.isSome_iff_exists.1 (h.known t ht).1
  rw [subTasks, if_pos ht, ← h.children t.id uuid huuid, Sequence.item_eq huuid]
  rfl

theorem Sequence.Reads.createTaskTree_item (h : s.Reads ts.tasks) (n : ℕ) (ht : t ∈ ts.tasks) :
    s.createTaskTree n (s.item t) = (grow (subTasks ts.tasks) n t).map (RoseTree.map s.item) := by
  rw [createTaskTree_eq_grow]
  exact grow_map n t fun b hb => h.children_item (mem_of_reach ht hb)

/-- The trees of the tasks without a parent, which have tasks for values. -/
def Forest (tasks : List Task) (n : ℕ) (forest : List (RoseTree Task)) : Prop :=
  List.Forall₂ (fun t tree => grow (subTasks tasks) n t = some tree) (siblings tasks none) forest

private theorem exists_forest (ts : TaskSet) : ∃ n forest, ∀ m, n ≤ m → Forest ts.tasks m forest := by
  obtain ⟨rank, bound, hbound, hrank⟩ := ts.exists_rank
  have hroot : ∀ t ∈ siblings ts.tasks none, ∃ tree, grow (subTasks ts.tasks) (bound + 1) t = some tree := by
    intro t ht
    refine exists_grow rank bound ?_ (hbound t (mem_of_mem_siblings ht).1) (by omega)
    intro a b hb
    exact ⟨hrank a b hb, hbound b (mem_of_mem_siblings (mem_subTasks hb).2).1⟩
  obtain ⟨forest, hforest⟩ := exists_forall₂ hroot
  exact ⟨bound + 1, forest, fun m hm => hforest.imp fun t tree htree => grow_mono hm htree⟩

private theorem Sequence.Reads.generateTaskCache_eq (h : s.Reads ts.tasks) {n : ℕ} {forest : List (RoseTree Task)}
    (hforest : Forest ts.tasks n forest) : s.generateTaskCache n = some (forest.map (RoseTree.map s.item)) := by
  unfold Sequence.generateTaskCache
  rw [h.roots, mapM_some_iff, List.forall₂_map_left_iff, List.forall₂_map_right_iff]
  unfold Forest at hforest
  have hmem : ∀ t ∈ siblings ts.tasks none, t ∈ ts.tasks := fun t ht => (mem_of_mem_siblings ht).1
  generalize siblings ts.tasks none = roots at hforest hmem
  induction hforest with
  | nil => exact .nil
  | @cons t tree roots forest hgrow _ ih =>
    refine .cons ?_ (ih fun t ht => hmem t (by simp [ht]))
    rw [h.createTaskTree_item n (hmem t (by simp)), hgrow]
    rfl

end Trees

/-! ### Which tasks are kept -/

section Kept

variable {ts : TaskSet} {s : Sequence} {forest : List (RoseTree Task)} {n : ℕ}

theorem Sequence.Reads.item_injOn (h : s.Reads ts.tasks) {t t' : Task} (ht : t ∈ ts.tasks) (ht' : t' ∈ ts.tasks)
    (heq : s.item t = s.item t') : t = t' := by
  obtain ⟨uuid, huuid⟩ := Option.isSome_iff_exists.1 (h.known t ht).1
  obtain ⟨uuid', huuid'⟩ := Option.isSome_iff_exists.1 (h.known t' ht').1
  have hid : uuid = uuid' := by
    have hids := congrArg SequenceTask.id heq
    rwa [Sequence.item_eq huuid, Sequence.item_eq huuid'] at hids
  exact ts.eq_of_id ht ht' (h.injective _ _ _ huuid (hid ▸ huuid'))

theorem Sequence.Reads.map_item_inj (h : s.Reads ts.tasks) {as bs : List Task} (has : ∀ t ∈ as, t ∈ ts.tasks)
    (hbs : ∀ t ∈ bs, t ∈ ts.tasks) (heq : as.map s.item = bs.map s.item) : as = bs := by
  induction as generalizing bs with
  | nil =>
    cases bs with
    | nil => rfl
    | cons b bs => exact absurd heq (by simp)
  | cons a as ih =>
    cases bs with
    | nil => exact absurd heq (by simp)
    | cons b bs =>
      rw [List.map_cons, List.map_cons, List.cons.injEq] at heq
      have hab := h.item_injOn (has a (by simp)) (hbs b (by simp)) heq.1
      have hrest := ih (fun t ht => has t (by simp [ht])) (fun t ht => hbs t (by simp [ht])) heq.2
      rw [hab, hrest]

private theorem Forest.mem_iff (h : Forest ts.tasks n forest) : t ∈ forest.flatMap values ↔
    ∃ r ∈ siblings ts.tasks none, Reach (subTasks ts.tasks) r t := by
  rw [List.mem_flatMap]
  constructor
  · rintro ⟨tree, htree, ht⟩
    obtain ⟨r, hr, hgrow⟩ := exists_left_of_forall₂ h htree
    exact ⟨r, hr, (mem_values_grow hgrow).1 ht⟩
  · rintro ⟨r, hr, hreach⟩
    obtain ⟨tree, htree, hgrow⟩ := exists_right_of_forall₂ h hr
    exact ⟨tree, htree, (mem_values_grow hgrow).2 hreach⟩

theorem Forest.mem_tasks (h : Forest ts.tasks n forest) (ht : t ∈ forest.flatMap values) : t ∈ ts.tasks := by
  obtain ⟨r, hr, hreach⟩ := h.mem_iff.1 ht
  exact mem_of_reach (mem_of_mem_siblings hr).1 hreach

private theorem Forest.mem_siblings (h : Forest ts.tasks n forest) (ht : t ∈ forest.flatMap values) :
    t ∈ siblings ts.tasks t.parent := by
  obtain ⟨r, hr, hreach⟩ := h.mem_iff.1 ht
  rcases hreach.cases_tail with rfl | ⟨b, -, hb⟩
  · rwa [(mem_of_mem_siblings hr).2]
  · have hmem := (mem_subTasks hb).2
    rwa [(mem_of_mem_siblings hmem).2]

theorem Forest.nodup (h : Forest ts.tasks n forest) : (forest.flatMap values).Nodup := by
  obtain ⟨rank, bound, -, hrank⟩ := ts.exists_rank
  have hroot {a b : Task} (ha : a ∈ siblings ts.tasks none) (hb : a ∈ subTasks ts.tasks b) : False := by
    have hnone := (mem_of_mem_siblings ha).2
    rw [(mem_of_mem_siblings (mem_subTasks hb).2).2] at hnone
    exact nomatch hnone
  refine nodup_flatMap_values h (nodup_ofList _) ?_ ?_
  · intro tree htree
    obtain ⟨r, -, hgrow⟩ := exists_left_of_forall₂ h htree
    exact nodup_values_grow hrank ts.unique (nodup_subTasks ts.tasks) hgrow
  · intro a ha a' ha' x hx hx'
    exact eq_of_reach hrank ts.unique (fun b hb => (hroot ha hb).elim) (fun b hb => (hroot ha' hb).elim) hx hx'

private theorem Forest.children (h : Forest ts.tasks n forest) {tree : RoseTree Task} (htree : tree ∈ forest.flatMap nodes) :
    tree.children.map value = subTasks ts.tasks tree.value := by
  obtain ⟨root, hroot, htree⟩ := List.mem_flatMap.1 htree
  obtain ⟨r, -, hgrow⟩ := exists_left_of_forall₂ h hroot
  exact children_of_mem_nodes hgrow htree

private theorem mem_flatMap_values : t ∈ forest.flatMap values ↔ ∃ tree ∈ forest.flatMap nodes, tree.value = t := by
  simp only [List.mem_flatMap, values, List.mem_map]
  constructor
  · rintro ⟨root, hroot, tree, htree, heq⟩
    exact ⟨tree, ⟨root, hroot, htree⟩, heq⟩
  · rintro ⟨tree, ⟨root, hroot, htree⟩, heq⟩
    exact ⟨root, hroot, tree, htree, heq⟩

section Separated

variable (hseparated : Separated ts.tasks)
include hseparated

private theorem mem_siblings_of_separated (ht : t ∈ ts.tasks) : t ∈ siblings ts.tasks t.parent := by
  have hpairwise : (ts.tasks.filter fun t' => t'.parent = t.parent).Pairwise (Comparable Task.Before) := by
    have hnodup : (ts.tasks.filter fun t' => t'.parent = t.parent).Nodup := ts.nodup.of_map.filter _
    refine hnodup.imp_of_mem fun {a b} ha hb hne => comparable_iff.2 ?_
    obtain ⟨ha, hpa⟩ := List.mem_filter.1 ha
    obtain ⟨hb, hpb⟩ := List.mem_filter.1 hb
    exact (hseparated a ha b hb ((of_decide_eq_true hpa).trans (of_decide_eq_true hpb).symm) hne).1
  exact (perm_ofList hpairwise).mem_iff.2 (List.mem_filter.2 ⟨ht, by simp⟩)

private theorem pairwise_siblings_of_separated (parent : Option String) :
    (siblings ts.tasks parent).Pairwise fun a b => a.startTime ≤ b.startTime := by
  have hbefore : (siblings ts.tasks parent).Pairwise Task.Before := pairwise_ofList _
  refine hbefore.imp_of_mem fun {a b} ha hb hab => ?_
  obtain ⟨ha, hpa⟩ := mem_of_mem_siblings ha
  obtain ⟨hb, hpb⟩ := mem_of_mem_siblings hb
  by_contra hle
  have hlt : b.startTime < a.startTime := by
    rw [UInt64.le_iff_toNat_le] at hle
    rw [UInt64.lt_iff_toNat_lt]
    omega
  have hne : b ≠ a := by
    rintro rfl
    exact irrefl b hab
  have hba := (hseparated b hb a ha (hpb.trans hpa.symm) hne).2 hlt
  exact irrefl a (IsTrans.trans a b a hab hba)

private theorem Forest.mem_of_separated (h : Forest ts.tasks n forest) (ht : t ∈ ts.tasks) :
    t ∈ forest.flatMap values := by
  obtain ⟨rank, hrank⟩ := ts.acyclic
  induction hr : rank t.id using Nat.strong_induction_on generalizing t with
  | h r ih =>
    have hmem := mem_siblings_of_separated hseparated ht
    cases hparent : t.parent with
    | none =>
      rw [hparent] at hmem
      exact h.mem_iff.2 ⟨t, hmem, .refl⟩
    | some id =>
      obtain ⟨q, hq, rfl⟩ := ts.parent_mem t ht id hparent
      have hlt := hrank t ht q.id hparent
      obtain ⟨root, hroot, hreach⟩ := h.mem_iff.1 (ih (rank q.id) (by omega) hq rfl)
      have hsub : t ∈ subTasks ts.tasks q := by
        rw [subTasks, if_pos hq]
        rwa [hparent] at hmem
      exact h.mem_iff.2 ⟨root, hroot, hreach.tail hsub⟩

end Separated

private theorem map_value_map (item : Task → SequenceTask) (trees : List (RoseTree Task)) :
    (trees.map (RoseTree.map item)).map value = (trees.map value).map item := by
  rw [List.map_map, List.map_map]
  exact List.map_congr_left fun t _ => value_map item t

private theorem flatMap_values_map (item : Task → SequenceTask) (trees : List (RoseTree Task)) :
    (trees.map (RoseTree.map item)).flatMap values = (trees.flatMap values).map item := by
  rw [List.flatMap_map, List.map_flatMap]
  exact List.flatMap_congr fun t _ => values_map item t

private theorem mem_flatMap_nodes_map {item : Task → SequenceTask} {trees : List (RoseTree Task)} {node : RoseTree SequenceTask} :
    node ∈ (trees.map (RoseTree.map item)).flatMap nodes ↔ ∃ tree ∈ trees.flatMap nodes, tree.map item = node := by
  rw [List.flatMap_map, List.flatMap_congr fun t _ => nodes_map item t, ← List.map_flatMap, List.mem_map]

theorem Forest.map_value (h : Forest ts.tasks n forest) : forest.map value = siblings ts.tasks none := map_value_of_grow h

theorem Forest.keepsTasks (h : Forest ts.tasks n forest) (hs : s.Reads ts.tasks) (hseparated : Separated ts.tasks) :
    KeepsTasks ts.tasks s.item (forest.map (RoseTree.map s.item)) where
  once := by
    rw [flatMap_values_map]
    refine List.Perm.map _ ((List.perm_ext_iff_of_nodup h.nodup ts.nodup.of_map).2 fun t => ?_)
    exact ⟨h.mem_tasks, h.mem_of_separated hseparated⟩
  roots := by
    rw [map_value_map, h.map_value]
    exact ⟨_, rfl, fun t ht => mem_of_mem_siblings ht, pairwise_siblings_of_separated hseparated none⟩
  children := by
    intro node hnode p hp hvalue
    obtain ⟨tree, htree, rfl⟩ := mem_flatMap_nodes_map.1 hnode
    rw [value_map] at hvalue
    have hmem : tree.value ∈ ts.tasks := h.mem_tasks (mem_flatMap_values.2 ⟨tree, htree, rfl⟩)
    obtain rfl := hs.item_injOn hmem hp hvalue
    rw [children_map, map_value_map, h.children htree, subTasks, if_pos hmem]
    exact ⟨_, rfl, fun t ht => mem_of_mem_siblings ht, pairwise_siblings_of_separated hseparated _⟩

private theorem InOrder.pairwise (hs : s.Reads ts.tasks) {parent : Option String}
    (h : InOrder ts.tasks s.item parent ((siblings ts.tasks parent).map s.item)) :
    (siblings ts.tasks parent).Pairwise fun a b => a.startTime ≤ b.startTime := by
  obtain ⟨tasks, heq, hmem, hpairwise⟩ := h
  have hsame := hs.map_item_inj (fun t ht => (mem_of_mem_siblings ht).1) (fun t ht => (hmem t ht).1) heq
  rwa [hsame]

theorem Forest.pairwise_siblings (h : Forest ts.tasks n forest) (hs : s.Reads ts.tasks)
    (hkept : KeepsTasks ts.tasks s.item (forest.map (RoseTree.map s.item))) {a : Task} (ha : a ∈ forest.flatMap values) :
    (siblings ts.tasks a.parent).Pairwise fun a b => a.startTime ≤ b.startTime := by
  obtain ⟨r, hr, hreach⟩ := h.mem_iff.1 ha
  rcases hreach.cases_tail with rfl | ⟨b, hb, hab⟩
  · have hroots := hkept.roots
    rw [map_value_map, h.map_value] at hroots
    rw [(mem_of_mem_siblings hr).2]
    exact hroots.pairwise hs
  · obtain ⟨hbmem, hmem⟩ := mem_subTasks hab
    obtain ⟨tree, htree, rfl⟩ := mem_flatMap_values.1 (h.mem_iff.2 ⟨r, hr, hb⟩)
    have hchildren := hkept.children (tree.map s.item) (mem_flatMap_nodes_map.2 ⟨tree, htree, rfl⟩) tree.value hbmem
      (value_map ..)
    rw [children_map, map_value_map, h.children htree, subTasks, if_pos hbmem] at hchildren
    rw [(mem_of_mem_siblings hmem).2]
    exact hchildren.pairwise hs

theorem Forest.separated (h : Forest ts.tasks n forest) (hs : s.Reads ts.tasks)
    (hkept : KeepsTasks ts.tasks s.item (forest.map (RoseTree.map s.item))) : Separated ts.tasks := by
  have hall {t : Task} (ht : t ∈ ts.tasks) : t ∈ forest.flatMap values := by
    have honce := hkept.once
    rw [flatMap_values_map] at honce
    obtain ⟨t', ht', heq⟩ := List.mem_map.1 (honce.mem_iff.2 (List.mem_map_of_mem ht))
    rwa [← hs.item_injOn (h.mem_tasks ht') ht heq]
  intro a ha b hb hparent hne
  have hasib := h.mem_siblings (hall ha)
  have hbsib := h.mem_siblings (hall hb)
  rw [← hparent] at hbsib
  refine ⟨comparable_iff.1 (comparable_of_mem hasib hbsib hne), fun hlt => ?_⟩
  -- both orders of the siblings at once
  have hboth : (siblings ts.tasks a.parent).Pairwise fun x y => x.Before y ∧ x.startTime ≤ y.startTime :=
    List.pairwise_and_iff.2 ⟨pairwise_ofList _, h.pairwise_siblings hs hkept (hall ha)⟩
  have hor : (siblings ts.tasks a.parent).Pairwise fun x y =>
      (x.Before y ∧ x.startTime ≤ y.startTime) ∨ (y.Before x ∧ y.startTime ≤ x.startTime) := hboth.imp .inl
  have : Std.Symm fun x y : Task =>
      (x.Before y ∧ x.startTime ≤ y.startTime) ∨ (y.Before x ∧ y.startTime ≤ x.startTime) := ⟨fun _ _ => Or.symm⟩
  rcases hor.forall hasib hbsib hne with hab | hba
  · exact hab.1
  · rw [UInt64.lt_iff_toNat_lt] at hlt
    have hle := UInt64.le_iff_toNat_le.1 hba.2
    omega

end Kept

/-- The task tree is made, and keeps the tasks just when their sets can tell them apart. -/
theorem keepsTasks_iff (ts : TaskSet) : ∃ n forest,
    (∀ m, n ≤ m → (generateTaskInformation ts.tasks).generateTaskCache m = some forest) ∧
      (KeepsTasks ts.tasks (generateTaskInformation ts.tasks).item forest ↔ Separated ts.tasks) := by
  have hs := reads_generateTaskInformation ts.tasks
  obtain ⟨n, forest, hforest⟩ := exists_forest ts
  refine ⟨n, _, fun m hm => hs.generateTaskCache_eq (hforest m hm), ?_⟩
  exact ⟨(hforest n (Nat.le_refl n)).separated hs, (hforest n (Nat.le_refl n)).keepsTasks hs⟩

/-- Two tasks without parents that start and end at the same times. -/
def sameTimes : TaskSet where
  tasks := [⟨"1", "walls", "", 1, 2⟩, ⟨"2", "doors", "", 1, 2⟩]
  nodup := by decide
  parent_mem := by decide
  acyclic := ⟨fun _ => 0, by decide⟩

/-- Only the first of them is kept. -/
theorem not_keepsTasks : ¬ ∃ n forest,
    (∀ m, n ≤ m → (generateTaskInformation sameTimes.tasks).generateTaskCache m = some forest) ∧
      KeepsTasks sameTimes.tasks (generateTaskInformation sameTimes.tasks).item forest := by
  rintro ⟨n, forest, hforest, hkept⟩
  have hresult : (generateTaskInformation sameTimes.tasks).generateTaskCache (n + 1) =
      some [.node ⟨0, "walls", 1000, 2000⟩ []] := rfl
  obtain rfl := Option.some.inj ((hforest (n + 1) (by omega)).symm.trans hresult)
  exact absurd hkept.once.length_eq (by decide)

end Bouncer.SynchroModelImport
