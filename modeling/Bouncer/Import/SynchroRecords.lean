import Bouncer.Import.SynchroTaskTree

/-!
# The records of Synchro tasks

`generateTaskInformation` also makes a record of each task for the database.  The ids of a task and of its parent are created
when they are first met, and the record is given the id of the parent only if that is created in the same round.

The records are one for each task, with the ids that the task tree has.  They point to their parents exactly if every task
comes before its parent and no two tasks have the same parent (`pointToParents_iff`).
-/

namespace Bouncer.SynchroModelImport

open Library

variable {U : Type}

/-- `RepoTask`; the parent is left out where it is the default value. -/
structure RepoTask (U : Type) where
  name : String
  uniqueId : ℕ
  parentId : Option ℕ
  sequenceId : U
  startTime : UInt64
  endTime : UInt64
  resources : List U
  metadata : List (String × String)

/-- What the records have besides the ids and the times. -/
structure TaskDetails (U : Type) where
  sequenceID : U
  relatedResources : Task → List String
  data : Task → List (String × String)
  resourceIDsToSharedIDs : String → Option (List U)

/-- The entities of those resources of the task that are known. -/
def TaskDetails.relatedEntities (details : TaskDetails U) (t : Task) : List U :=
  (details.relatedResources t).flatMap fun resourceID => (details.resourceIDsToSharedIDs resourceID).getD []

namespace Sequence

/-- `parentUUID`, which is set where the id of the parent is created. -/
def parentUUID (s : Sequence) (t : Task) : Option ℕ :=
  match t.parent with
  | none => none
  | some parentID =>
    let r := (s.repoID t.id).2.2.repoID parentID
    if r.2.1 then some r.1 else none

def makeTask (details : TaskDetails U) (s : Sequence) (t : Task) : RepoTask U where
  name := t.name
  uniqueId := (s.repoID t.id).1
  parentId := s.parentUUID t
  sequenceId := details.sequenceID
  startTime := t.startTime * 1000
  endTime := t.endTime * 1000
  resources := details.relatedEntities t
  metadata := details.data t

end Sequence

/-- The loop over the tasks, with the records. -/
def generateTaskBSONs (details : TaskDetails U) (tasks : List Task) : Sequence × List (RepoTask U) :=
  tasks.foldl (fun state t => (state.1.addTask t, state.2 ++ [state.1.makeTask details t])) (Sequence.start, [])

/-- One record for each task, with an id of its own that the task tree has too, and that the records of the subtasks have
for their parent. -/
structure PointToParents (tasks : List Task) (s : Sequence) (records : List (RepoTask U)) : Prop where
  one_each : List.Forall₂ (fun t r => r.name = t.name ∧ s.item t = Sequence.taskItem r.uniqueId t) tasks records
  nodup : (records.map RepoTask.uniqueId).Nodup
  roots : s.rootTasks = (siblings tasks none).map s.item
  children : ∀ t ∈ tasks, s.children (s.item t) = (siblings tasks (some t.id)).map s.item
  parent : ∀ q ∈ tasks.zip records, ∀ q' ∈ tasks.zip records, q.1.parent = some q'.1.id →
    q.2.parentId = some q'.2.uniqueId

/-- A task comes before its parent, and no two tasks have the same parent. -/
def BottomUp (tasks : List Task) : Prop :=
  tasks.Pairwise fun t later => ∀ parentID, later.parent = some parentID → parentID ≠ t.id ∧ t.parent ≠ some parentID

/-! ### The ids that are known -/

namespace Sequence

variable {s : Sequence} {done : List Task}

private theorem isSome_repoID (s : Sequence) (id id' : String) :
    ((s.repoID id).2.2.taskIDtoRepoID id').isSome ↔ (s.taskIDtoRepoID id').isSome ∨ id' = id := by
  unfold repoID
  cases hid : s.taskIDtoRepoID id with
  | some uuid =>
    constructor
    · exact Or.inl
    · rintro (h | rfl)
      · exact h
      · simp [hid]
  | none =>
    by_cases he : id' = id
    · simp [he]
    · simp [he]

private theorem taskIDtoRepoID_addTask (s : Sequence) (t : Task) : (s.addTask t).taskIDtoRepoID =
    match t.parent with
    | none => (s.repoID t.id).2.2.taskIDtoRepoID
    | some parentID => ((s.repoID t.id).2.2.repoID parentID).2.2.taskIDtoRepoID := by
  unfold addTask
  cases t.parent with
  | none => rfl
  | some parentID =>
    dsimp only
    split <;> rfl

private theorem isSome_addTask (s : Sequence) (t : Task) (id : String) :
    ((s.addTask t).taskIDtoRepoID id).isSome ↔ (s.taskIDtoRepoID id).isSome ∨ id = t.id ∨ t.parent = some id := by
  rw [taskIDtoRepoID_addTask]
  cases t.parent with
  | none => simp [isSome_repoID]
  | some parentID => rw [isSome_repoID, isSome_repoID, or_assoc, Option.some_inj, eq_comm (a := parentID)]

theorem Reads.le_addTask (h : s.Reads done) (t : Task) {id : String} {uuid : ℕ}
    (huuid : s.taskIDtoRepoID id = some uuid) : (s.addTask t).taskIDtoRepoID id = some uuid := by
  obtain ⟨hid, -, hle, -⟩ := h.repoID t.id
  rw [taskIDtoRepoID_addTask]
  cases t.parent with
  | none => exact hle id uuid huuid
  | some parentID => exact (hid.repoID parentID).2.2.1 id uuid (hle id uuid huuid)

theorem Reads.le_addTasks (h : s.Reads done) (tasks : List Task) {id : String} {uuid : ℕ}
    (huuid : s.taskIDtoRepoID id = some uuid) : (s.addTasks tasks).taskIDtoRepoID id = some uuid := by
  induction tasks generalizing s done with
  | nil => exact huuid
  | cons t tasks ih => exact ih (h.addTask t) (h.le_addTask t huuid)

private theorem Reads.addTask_self (h : s.Reads done) (t : Task) :
    (s.addTask t).taskIDtoRepoID t.id = some (s.repoID t.id).1 := by
  obtain ⟨hid, huuid, -, -⟩ := h.repoID t.id
  rw [taskIDtoRepoID_addTask]
  cases t.parent with
  | none => exact huuid
  | some parentID => exact (hid.repoID parentID).2.2.1 _ _ huuid

private theorem Reads.parentUUID_eq_iff (h : s.Reads done) {t : Task} {parentID : String} (hparent : t.parent = some parentID)
    (hne : parentID ≠ t.id) :
    s.parentUUID t = (s.addTask t).taskIDtoRepoID parentID ↔ s.taskIDtoRepoID parentID = none := by
  obtain ⟨hid, -, -, -⟩ := h.repoID t.id
  obtain ⟨-, hfound, -, -⟩ := hid.repoID parentID
  have hknown : ((s.repoID t.id).2.2.taskIDtoRepoID parentID).isSome ↔ (s.taskIDtoRepoID parentID).isSome := by
    simp [isSome_repoID, hne]
  have hcreated : ((s.repoID t.id).2.2.repoID parentID).2.1 = true ↔
      (s.repoID t.id).2.2.taskIDtoRepoID parentID = none := by
    generalize (s.repoID t.id).2.2 = s'
    unfold Sequence.repoID
    cases s'.taskIDtoRepoID parentID <;> simp
  rw [taskIDtoRepoID_addTask, parentUUID, hparent]
  dsimp only
  rw [hfound, ← Option.not_isSome_iff_eq_none, ← hknown, Option.not_isSome_iff_eq_none, ← hcreated]
  split_ifs with h' <;> simp [h']

end Sequence

/-! ### The records -/

section Records

variable (details : TaskDetails U)

/-- The records that the loop adds. -/
def records : Sequence → List Task → List (RepoTask U)
  | _, [] => []
  | s, t :: tasks => s.makeTask details t :: records (s.addTask t) tasks

private theorem generateTaskBSONs_eq (tasks : List Task) :
    generateTaskBSONs details tasks = (generateTaskInformation tasks, records details Sequence.start tasks) := by
  have hfold : ∀ (s : Sequence) (before : List (RepoTask U)),
      tasks.foldl (fun state t => (state.1.addTask t, state.2 ++ [state.1.makeTask details t])) (s, before) =
        (s.addTasks tasks, before ++ records details s tasks) := by
    induction tasks with
    | nil => simp [records, Sequence.addTasks]
    | cons t tasks ih =>
      intro s before
      rw [List.foldl_cons, ih, records, List.append_assoc]
      rfl
  exact hfold Sequence.start []

private theorem forall₂_records {s : Sequence} {done : List Task} (h : s.Reads done) (tasks : List Task) :
    List.Forall₂ (fun t r => r.name = t.name ∧ (s.addTasks tasks).taskIDtoRepoID t.id = some r.uniqueId) tasks
      (records details s tasks) := by
  induction tasks generalizing s done with
  | nil => exact .nil
  | cons t tasks ih =>
    exact .cons ⟨rfl, (h.addTask t).le_addTasks tasks (h.addTask_self t)⟩ (ih (h.addTask t))

/-- The records have the ids of their parents exactly if none of these is known when its task is met. -/
theorem parents_iff {s : Sequence} {done : List Task} (h : s.Reads done) (tasks : List Task)
    (hself : ∀ t ∈ tasks, t.parent ≠ some t.id) :
    (∀ q ∈ tasks.zip (records details s tasks), ∀ parentID, q.1.parent = some parentID →
      q.2.parentId = (s.addTasks tasks).taskIDtoRepoID parentID) ↔
    (∀ t ∈ tasks, ∀ parentID, t.parent = some parentID → s.taskIDtoRepoID parentID = none) ∧ BottomUp tasks := by
  induction tasks generalizing s done with
  | nil => simp [records, BottomUp]
  | cons t tasks ih =>
    have hrest := ih (h.addTask t) fun t' ht' => hself t' (List.mem_cons_of_mem _ ht')
    have hfirst : (∀ parentID, t.parent = some parentID →
        s.parentUUID t = (s.addTasks (t :: tasks)).taskIDtoRepoID parentID) ↔
        ∀ parentID, t.parent = some parentID → s.taskIDtoRepoID parentID = none := by
      refine forall_congr' fun parentID => forall_congr' fun hparent => ?_
      have hne : parentID ≠ t.id := by
        rintro rfl
        exact hself t List.mem_cons_self hparent
      rw [← h.parentUUID_eq_iff hparent hne]
      obtain ⟨uuid, huuid⟩ := Option.isSome_iff_exists.1
        ((Sequence.isSome_addTask s t parentID).2 (Or.inr (Or.inr hparent)))
      have hlast : (s.addTasks (t :: tasks)).taskIDtoRepoID parentID = some uuid :=
        (h.addTask t).le_addTasks tasks huuid
      rw [huuid, hlast]
    have hnone (id : String) : (s.addTask t).taskIDtoRepoID id = none ↔
        s.taskIDtoRepoID id = none ∧ id ≠ t.id ∧ t.parent ≠ some id := by
      rw [← Option.not_isSome_iff_eq_none, Sequence.isSome_addTask, not_or, not_or, Option.not_isSome_iff_eq_none]
    rw [records, List.zip_cons_cons, List.forall_mem_cons, List.forall_mem_cons]
    have hstep : (s.addTasks (t :: tasks)) = (s.addTask t).addTasks tasks := rfl
    rw [hstep] at hfirst ⊢
    rw [hrest]
    refine (and_congr_left' hfirst).trans ?_
    simp only [hnone, BottomUp, List.pairwise_cons]
    constructor
    · rintro ⟨ht, hlater, hpairwise⟩
      exact ⟨⟨ht, fun t' ht' p hp => (hlater t' ht' p hp).1⟩, fun t' ht' p hp => (hlater t' ht' p hp).2, hpairwise⟩
    · rintro ⟨⟨ht, hlater⟩, hfirst', hpairwise⟩
      exact ⟨ht, fun t' ht' p hp => ⟨hlater t' ht' p hp, hfirst' t' ht' p hp⟩, hpairwise⟩

end Records

/-! ### Parents -/

section Parents

variable (details : TaskDetails U) (ts : TaskSet)

private theorem parent_ne_self {t : Task} (ht : t ∈ ts.tasks) : t.parent ≠ some t.id := by
  obtain ⟨rank, hrank⟩ := ts.acyclic
  intro h
  have := hrank t ht t.id h
  omega

/-- The parent of a record is the record of the parent if it has the id that is kept for it. -/
private theorem parent_iff : (∀ q ∈ ts.tasks.zip (records details Sequence.start ts.tasks),
      ∀ q' ∈ ts.tasks.zip (records details Sequence.start ts.tasks), q.1.parent = some q'.1.id →
        q.2.parentId = some q'.2.uniqueId) ↔
    ∀ q ∈ ts.tasks.zip (records details Sequence.start ts.tasks), ∀ parentID, q.1.parent = some parentID →
      q.2.parentId = (generateTaskInformation ts.tasks).taskIDtoRepoID parentID := by
  have hall := forall₂_records details Sequence.reads_start ts.tasks
  have hid : ∀ q ∈ ts.tasks.zip (records details Sequence.start ts.tasks),
      (generateTaskInformation ts.tasks).taskIDtoRepoID q.1.id = some q.2.uniqueId :=
    fun q hq => (List.forall₂_zip hall hq).2
  constructor
  · intro h q hq parentID hparent
    obtain ⟨t', ht', rfl⟩ := ts.parent_mem q.1 (List.of_mem_zip hq).1 parentID hparent
    obtain ⟨i, hi, rfl⟩ := List.getElem_of_mem ht'
    have hi' : i < (records details Sequence.start ts.tasks).length := hall.length_eq ▸ hi
    have hq' : (ts.tasks[i], (records details Sequence.start ts.tasks)[i]) ∈
        ts.tasks.zip (records details Sequence.start ts.tasks) := by
      rw [← List.getElem_zip (h := by simpa using ⟨hi, hi'⟩)]
      exact List.getElem_mem _
    rw [h q hq _ hq' hparent, hid _ hq']
  · intro h q hq q' hq' hparent
    rw [h q hq _ hparent, hid q' hq']

/-- The records point to their parents exactly if every task comes before its parent and no two have the same parent. -/
theorem pointToParents_iff :
    PointToParents ts.tasks (generateTaskBSONs details ts.tasks).1 (generateTaskBSONs details ts.tasks).2 ↔
      BottomUp ts.tasks := by
  rw [generateTaskBSONs_eq]
  have hreads := reads_generateTaskInformation ts.tasks
  have hall := forall₂_records details Sequence.reads_start ts.tasks
  have hiff := parents_iff details Sequence.reads_start ts.tasks fun t ht => parent_ne_self ts ht
  have hstart : ∀ t ∈ ts.tasks, ∀ parentID, t.parent = some parentID →
      Sequence.start.taskIDtoRepoID parentID = none := fun _ _ _ _ => rfl
  constructor
  · intro h
    exact (hiff.1 ((parent_iff details ts).1 h.parent)).2
  · intro h
    refine ⟨?_, ?_, hreads.roots, ?_, (parent_iff details ts).2 (hiff.2 ⟨hstart, h⟩)⟩
    · exact hall.imp fun t r hr => ⟨hr.1, Sequence.item_eq hr.2⟩
    · have hids : ts.tasks.map (fun t => (generateTaskInformation ts.tasks).taskIDtoRepoID t.id) =
          (records details Sequence.start ts.tasks).map (some ∘ RepoTask.uniqueId) := by
        rw [← List.forall₂_eq_eq_eq, List.forall₂_map_left_iff, List.forall₂_map_right_iff]
        exact hall.imp fun _ _ hr => hr.2
      refine List.Nodup.of_map some ?_
      rw [List.map_map, ← hids]
      refine List.Nodup.map_on ?_ (List.Nodup.of_map _ ts.nodup)
      intro t ht t' ht' heq
      obtain ⟨uuid, huuid⟩ := Option.isSome_iff_exists.1 (hreads.known t ht).1
      exact ts.eq_of_id ht ht' (hreads.injective _ _ uuid huuid (heq ▸ huuid))
    · intro t ht
      obtain ⟨uuid, huuid⟩ := Option.isSome_iff_exists.1 (hreads.known t ht).1
      rw [Sequence.item_eq huuid]
      exact hreads.children t.id uuid huuid

end Parents

/-- A task that is met before its only subtask. -/
def parentFirst : TaskSet where
  tasks := [⟨"1", "house", "", 1, 4⟩, ⟨"2", "walls", "1", 1, 2⟩]
  nodup := by decide
  parent_mem := by decide
  acyclic := ⟨String.length ∘ fun id => if id = "1" then "" else id, by decide⟩

def noDetails : TaskDetails Unit := ⟨(), fun _ => [], fun _ => [], fun _ => none⟩

/-- The record of the subtask has no parent. -/
theorem not_pointToParents : ¬ PointToParents parentFirst.tasks (generateTaskBSONs noDetails parentFirst.tasks).1
    (generateTaskBSONs noDetails parentFirst.tasks).2 := by
  intro h
  have hrecords : (generateTaskBSONs noDetails parentFirst.tasks).2 =
      [⟨"house", 0, none, (), 1000, 4000, [], []⟩, ⟨"walls", 1, none, (), 1000, 2000, [], []⟩] := rfl
  have hparent := h.parent
  rw [hrecords] at hparent
  cases hparent _ (.tail _ (.head _)) _ (.head _) rfl

end Bouncer.SynchroModelImport
