import Bouncer.Library.Growth
import Bouncer.Library.OrderedSet
import Mathlib.Data.UInt

/-!
# The tasks of a Synchro sequence

Tasks refer to their parents by the ids of Synchro.  `generateTaskInformation` gives them UUIDs and collects the children
of each task, and those without a parent, in sets that are ordered by the times of the tasks.  `generateTaskCache` makes the
tree of each task without a parent.

The sets compare tasks by their times alone, so that of two tasks with the same parent and the same times only one is kept.
-/

namespace Bouncer.SynchroModelImport

open Function (update update_of_ne update_self)

open Library Library.OrderedSet

/-- A task as Synchro has it, with times in seconds. -/
structure Task where
  id : String
  name : String
  parentTask : String
  startTime : UInt64
  endTime : UInt64
  deriving DecidableEq

def Task.parent (t : Task) : Option String := if t.parentTask = "" then none else some t.parentTask

structure SequenceTask where
  id : ℕ
  name : String
  startTime : UInt64
  endTime : UInt64
  deriving DecidableEq

def SequenceTaskComparator (a b : SequenceTask) : Prop :=
  if a.startTime = b.startTime then a.endTime < b.endTime else a.startTime < b.startTime

instance : DecidableRel SequenceTaskComparator := fun a b =>
  inferInstanceAs (Decidable (if a.startTime = b.startTime then a.endTime < b.endTime else a.startTime < b.startTime))

/-- What the loop over the tasks has collected.  UUIDs are numbered in the order in which they are created. -/
structure Sequence where
  created : ℕ
  taskIDtoRepoID : String → Option ℕ
  taskToChildren : ℕ → Option (List SequenceTask)
  rootTasks : List SequenceTask

namespace Sequence

def start : Sequence where
  created := 0
  taskIDtoRepoID := fun _ => none
  taskToChildren := fun _ => none
  rootTasks := []

variable (s : Sequence)

/-- The UUID of a task, and whether it has been created just now. -/
def repoID (id : String) : ℕ × Bool × Sequence :=
  match s.taskIDtoRepoID id with
  | some uuid => (uuid, false, s)
  | none => (s.created, true, { s with
      created := s.created + 1, taskIDtoRepoID := update s.taskIDtoRepoID id (some s.created) })

def taskItem (uuid : ℕ) (t : Task) : SequenceTask := ⟨uuid, t.name, t.startTime * 1000, t.endTime * 1000⟩

def insertRoot (item : SequenceTask) : Sequence :=
  { s with rootTasks := insert SequenceTaskComparator item s.rootTasks }

/-- `taskToChildren[uuid] = {}`. -/
def clearChildren (uuid : ℕ) : Sequence :=
  { s with taskToChildren := update s.taskToChildren uuid (some []) }

/-- `taskToChildren[uuid].insert(item)`. -/
def insertChild (uuid : ℕ) (item : SequenceTask) : Sequence :=
  { s with
    taskToChildren := update s.taskToChildren uuid
      (some (insert SequenceTaskComparator item ((s.taskToChildren uuid).getD []))) }

/-- One round of the loop. -/
def addTask (t : Task) : Sequence :=
  let r := s.repoID t.id
  let item := taskItem r.1 t
  match t.parent with
  | none => r.2.2.insertRoot item
  | some parentID =>
    let r' := r.2.2.repoID parentID
    let s := if r'.2.1 then r'.2.2.clearChildren r'.1 else r'.2.2
    s.insertChild r'.1 item

def addTasks (tasks : List Task) : Sequence := tasks.foldl addTask s

/-- The subtasks of a task. -/
def children (task : SequenceTask) : List SequenceTask := (s.taskToChildren task.id).getD []

/-- The tree of a task, if it is no higher than the bound. -/
def createTaskTree : ℕ → SequenceTask → Option (RoseTree SequenceTask)
  | 0, _ => none
  | n + 1, task => ((s.children task).mapM (createTaskTree n)).map (RoseTree.node task)

def generateTaskCache (n : ℕ) : Option (List (RoseTree SequenceTask)) := s.rootTasks.mapM (s.createTaskTree n)

end Sequence

def generateTaskInformation (tasks : List Task) : Sequence := Sequence.start.addTasks tasks

/-! ### The order of tasks -/

theorem comparator_iff {a b : SequenceTask} : SequenceTaskComparator a b ↔ a.startTime.toNat < b.startTime.toNat ∨
    a.startTime.toNat = b.startTime.toNat ∧ a.endTime.toNat < b.endTime.toNat := by
  unfold SequenceTaskComparator
  split_ifs with h
  · rw [h, UInt64.lt_iff_toNat_lt]
    omega
  · have hne : a.startTime.toNat ≠ b.startTime.toNat := fun heq => h (UInt64.toNat_inj.1 heq)
    rw [UInt64.lt_iff_toNat_lt]
    omega

instance : IsStrictOrder SequenceTask SequenceTaskComparator where
  irrefl a h := by
    rw [comparator_iff] at h
    omega
  trans a b c hab hbc := by
    rw [comparator_iff] at *
    omega

/-- The order in which the sets keep tasks. -/
def Task.Before (a b : Task) : Prop := SequenceTaskComparator (Sequence.taskItem 0 a) (Sequence.taskItem 0 b)

instance : DecidableRel Task.Before := fun a b =>
  inferInstanceAs (Decidable (SequenceTaskComparator (Sequence.taskItem 0 a) (Sequence.taskItem 0 b)))

instance : IsStrictOrder Task Task.Before where
  irrefl a h := irrefl (Sequence.taskItem 0 a) h
  trans a b c hab hbc := IsTrans.trans (Sequence.taskItem 0 a) (Sequence.taskItem 0 b) (Sequence.taskItem 0 c) hab hbc

/-- The tasks with a parent, or without one, as a set keeps them. -/
def siblings (tasks : List Task) (parent : Option String) : List Task :=
  ofList Task.Before (tasks.filter fun t => t.parent = parent)

theorem mem_of_mem_siblings {tasks : List Task} {parent : Option String} {t : Task} (h : t ∈ siblings tasks parent) :
    t ∈ tasks ∧ t.parent = parent := by
  simpa using mem_of_mem_ofList h

private theorem siblings_concat (tasks : List Task) (t : Task) (parent : Option String) : siblings (tasks ++ [t]) parent =
    if t.parent = parent then insert Task.Before t (siblings tasks parent) else siblings tasks parent := by
  unfold siblings
  rw [List.filter_append]
  by_cases h : t.parent = parent
  · simp [h, ofList_concat]
  · simp [h]

/-! ### The loop over the tasks -/

namespace Sequence

def item (s : Sequence) (t : Task) : SequenceTask := taskItem ((s.taskIDtoRepoID t.id).getD 0) t

/-- The state after some tasks. -/
structure Reads (s : Sequence) (done : List Task) : Prop where
  injective : ∀ id id' uuid, s.taskIDtoRepoID id = some uuid → s.taskIDtoRepoID id' = some uuid → id = id'
  fresh : ∀ id uuid, s.taskIDtoRepoID id = some uuid → uuid < s.created
  known : ∀ t ∈ done, (s.taskIDtoRepoID t.id).isSome ∧ ∀ id, t.parent = some id → (s.taskIDtoRepoID id).isSome
  roots : s.rootTasks = (siblings done none).map s.item
  children : ∀ id uuid, s.taskIDtoRepoID id = some uuid →
    (s.taskToChildren uuid).getD [] = (siblings done (some id)).map s.item
  unused : ∀ uuid, s.created ≤ uuid → s.taskToChildren uuid = none

theorem reads_start : Reads start [] where
  injective := nofun
  fresh := nofun
  known := nofun
  roots := rfl
  children := nofun
  unused := fun _ _ => rfl

private theorem item_of_le {s s' : Sequence} {t : Task}
    (hle : ∀ id uuid, s.taskIDtoRepoID id = some uuid → s'.taskIDtoRepoID id = some uuid)
    (hknown : (s.taskIDtoRepoID t.id).isSome) : s'.item t = s.item t := by
  obtain ⟨uuid, huuid⟩ := Option.isSome_iff_exists.1 hknown
  unfold item
  rw [huuid, hle _ _ huuid]

/-- A new UUID. -/
theorem Reads.create {s : Sequence} {done : List Task} (h : s.Reads done) {id : String}
    (hnone : s.taskIDtoRepoID id = none) : Reads { s with
      created := s.created + 1, taskIDtoRepoID := update s.taskIDtoRepoID id (some s.created) } done := by
  have hle : ∀ id' uuid, s.taskIDtoRepoID id' = some uuid →
      update s.taskIDtoRepoID id (some s.created) id' = some uuid := by
    intro id' uuid huuid
    have hne : id' ≠ id := by
      rintro rfl
      rw [hnone] at huuid
      exact nomatch huuid
    rwa [update_of_ne hne]
  have hitem (parent : Option String) : (siblings done parent).map s.item = (siblings done parent).map
      (item { s with
        created := s.created + 1, taskIDtoRepoID := update s.taskIDtoRepoID id (some s.created) }) :=
    List.map_congr_left fun t ht => (item_of_le hle (h.known t (mem_of_mem_siblings ht).1).1).symm
  constructor
  · intro id₁ id₂ uuid h₁ h₂
    dsimp only at h₁ h₂
    by_cases he₁ : id₁ = id
    · by_cases he₂ : id₂ = id
      · rw [he₁, he₂]
      · rw [he₁, update_self] at h₁
        rw [update_of_ne he₂] at h₂
        have hlt := h.fresh id₂ uuid h₂
        have heq := Option.some.inj h₁
        omega
    · rw [update_of_ne he₁] at h₁
      by_cases he₂ : id₂ = id
      · rw [he₂, update_self] at h₂
        have hlt := h.fresh id₁ uuid h₁
        have heq := Option.some.inj h₂
        omega
      · rw [update_of_ne he₂] at h₂
        exact h.injective id₁ id₂ uuid h₁ h₂
  · intro id' uuid huuid
    dsimp only at huuid ⊢
    by_cases he : id' = id
    · rw [he, update_self] at huuid
      have heq := Option.some.inj huuid
      omega
    · rw [update_of_ne he] at huuid
      have hlt := h.fresh id' uuid huuid
      omega
  · intro t ht
    obtain ⟨hid, hparent⟩ := h.known t ht
    have hsome {id' : String} (hid : (s.taskIDtoRepoID id').isSome) :
        (update s.taskIDtoRepoID id (some s.created) id').isSome := by
      obtain ⟨uuid, huuid⟩ := Option.isSome_iff_exists.1 hid
      rw [hle _ _ huuid]
      rfl
    exact ⟨hsome hid, fun id' hp => hsome (hparent id' hp)⟩
  · exact h.roots.trans (hitem none)
  · intro id' uuid huuid
    dsimp only at huuid ⊢
    by_cases he : id' = id
    · -- no task that has been read has the new id for its parent
      subst he
      rw [update_self] at huuid
      obtain rfl := Option.some.inj huuid
      have hempty : siblings done (some id') = [] := by
        apply List.eq_nil_iff_forall_not_mem.2
        intro t ht
        obtain ⟨hmem, hparent⟩ := mem_of_mem_siblings ht
        have hsome := (h.known t hmem).2 id' hparent
        rw [hnone] at hsome
        exact absurd hsome Bool.false_ne_true
      rw [h.unused s.created (Nat.le_refl _), hempty]
      rfl
    · rw [update_of_ne he] at huuid
      exact (h.children id' uuid huuid).trans (hitem (some id'))
  · intro uuid hle
    exact h.unused uuid (by dsimp only at hle; omega)

variable {s : Sequence} {done : List Task} {t : Task}

/-- Looking for the UUID of a task finds or makes it. -/
theorem Reads.repoID (h : s.Reads done) (id : String) : (s.repoID id).2.2.Reads done ∧
    (s.repoID id).2.2.taskIDtoRepoID id = some (s.repoID id).1 ∧
    (∀ id' uuid, s.taskIDtoRepoID id' = some uuid → (s.repoID id).2.2.taskIDtoRepoID id' = some uuid) ∧
    ((s.repoID id).2.1 = true → (s.repoID id).2.2.taskToChildren (s.repoID id).1 = none) := by
  unfold Sequence.repoID
  cases hid : s.taskIDtoRepoID id with
  | some uuid => exact ⟨h, hid, fun _ _ huuid => huuid, fun hfalse => absurd hfalse Bool.false_ne_true⟩
  | none =>
    refine ⟨h.create hid, update_self .., ?_, fun _ => h.unused _ (Nat.le_refl _)⟩
    intro id' uuid huuid
    have hne : id' ≠ id := by
      rintro rfl
      rw [hid] at huuid
      exact nomatch huuid
    exact (update_of_ne hne ..).trans huuid

theorem Reads.known_concat (h : s.Reads done) (hid : (s.taskIDtoRepoID t.id).isSome)
    (hparent : ∀ id, t.parent = some id → (s.taskIDtoRepoID id).isSome) :
    ∀ t' ∈ done ++ [t], (s.taskIDtoRepoID t'.id).isSome ∧ ∀ id, t'.parent = some id → (s.taskIDtoRepoID id).isSome := by
  intro t' ht'
  rcases List.mem_append.1 ht' with hold | hnew
  · exact h.known t' hold
  · rw [List.mem_singleton.1 hnew]
    exact ⟨hid, hparent⟩

theorem item_eq {uuid : ℕ} (huuid : s.taskIDtoRepoID t.id = some uuid) : s.item t = taskItem uuid t := by
  rw [item, huuid]
  rfl

private theorem insert_item (s : Sequence) (t : Task) (ts : List Task) :
    insert SequenceTaskComparator (s.item t) (ts.map s.item) = (insert Task.Before t ts).map s.item :=
  (map_insert s.item t ts).symm

theorem Reads.insertRoot (h : s.Reads done) {uuid : ℕ} (huuid : s.taskIDtoRepoID t.id = some uuid)
    (hparent : t.parent = none) : (s.insertRoot (taskItem uuid t)).Reads (done ++ [t]) where
  injective := h.injective
  fresh := h.fresh
  known := h.known_concat (by rw [huuid]; rfl) fun id hid => by rw [hparent] at hid; exact nomatch hid
  roots := by
    rw [siblings_concat, if_pos hparent]
    show insert SequenceTaskComparator _ s.rootTasks = _
    rw [h.roots, ← item_eq huuid, insert_item]
    rfl
  children := by
    intro id uuid' huuid'
    have hne : t.parent ≠ some id := by simp [hparent]
    rw [siblings_concat, if_neg hne]
    exact h.children id uuid' huuid'
  unused := h.unused

theorem Reads.clearChildren (h : s.Reads done) {uuid : ℕ} (hnone : s.taskToChildren uuid = none)
    (hlt : uuid < s.created) : (s.clearChildren uuid).Reads done where
  injective := h.injective
  fresh := h.fresh
  known := h.known
  roots := h.roots
  children := by
    intro id uuid' huuid'
    show (update s.taskToChildren uuid (some []) uuid').getD [] = _
    by_cases he : uuid' = uuid
    · have hchildren := h.children id uuid' huuid'
      rw [he, hnone] at hchildren
      rw [he, update_self]
      exact hchildren
    · rw [update_of_ne he]
      exact h.children id uuid' huuid'
  unused := by
    intro uuid' hle
    have hne : uuid' ≠ uuid := by
      have hle' : s.created ≤ uuid' := hle
      omega
    exact (update_of_ne hne ..).trans (h.unused uuid' hle)

theorem Reads.insertChild (h : s.Reads done) {uuid parent : ℕ} {parentID : String}
    (huuid : s.taskIDtoRepoID t.id = some uuid) (hparent : s.taskIDtoRepoID parentID = some parent)
    (ht : t.parent = some parentID) : (s.insertChild parent (taskItem uuid t)).Reads (done ++ [t]) where
  injective := h.injective
  fresh := h.fresh
  known := by
    refine h.known_concat (by rw [huuid]; rfl) fun id hid => ?_
    rw [ht] at hid
    rw [← Option.some.inj hid, hparent]
    rfl
  roots := by
    have hne : t.parent ≠ none := by simp [ht]
    rw [siblings_concat, if_neg hne]
    exact h.roots
  children := by
    intro id uuid' huuid'
    show (update s.taskToChildren parent _ uuid').getD [] = _
    rw [siblings_concat, ht]
    by_cases he : parentID = id
    · subst he
      obtain rfl : parent = uuid' := Option.some.inj (hparent.symm.trans huuid')
      rw [if_pos rfl, update_self, Option.getD_some, h.children _ _ hparent, ← item_eq huuid, insert_item]
      rfl
    · have hne : uuid' ≠ parent := by
        rintro rfl
        exact he (h.injective _ _ _ hparent huuid')
      have hne' : some parentID ≠ some id := fun heq => he (Option.some.inj heq)
      rw [if_neg hne', update_of_ne hne]
      exact h.children id uuid' huuid'
  unused := by
    intro uuid' hle
    have hlt := h.fresh _ _ hparent
    have hne : uuid' ≠ parent := by
      have hle' : s.created ≤ uuid' := hle
      omega
    exact (update_of_ne hne ..).trans (h.unused uuid' hle)

/-- What one round of the loop does. -/
theorem Reads.addTask (h : s.Reads done) (t : Task) : (s.addTask t).Reads (done ++ [t]) := by
  obtain ⟨hid, huuid, -, -⟩ := h.repoID t.id
  unfold Sequence.addTask
  dsimp only
  generalize s.repoID t.id = r at hid huuid ⊢
  cases hparent : t.parent with
  | none => exact hid.insertRoot huuid hparent
  | some parentID =>
    obtain ⟨hfound, hparentID, hle, hnew⟩ := hid.repoID parentID
    dsimp only
    generalize r.2.2.repoID parentID = r' at hfound hparentID hle hnew ⊢
    cases hcreated : r'.2.1 with
    | true =>
      have hcleared := hfound.clearChildren (hnew hcreated) (hfound.fresh _ _ hparentID)
      exact hcleared.insertChild (hle _ _ huuid) hparentID hparent
    | false => exact hfound.insertChild (hle _ _ huuid) hparentID hparent

theorem Reads.addTasks (h : s.Reads done) (tasks : List Task) : (s.addTasks tasks).Reads (done ++ tasks) := by
  induction tasks generalizing s done with
  | nil => rwa [List.append_nil]
  | cons t ts ih =>
    have hrest := ih (h.addTask t)
    rwa [List.append_assoc] at hrest

end Sequence

theorem reads_generateTaskInformation (tasks : List Task) : (generateTaskInformation tasks).Reads tasks :=
  Sequence.reads_start.addTasks tasks

end Bouncer.SynchroModelImport
