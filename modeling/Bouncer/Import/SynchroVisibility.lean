import Mathlib.Algebra.Order.Ring.Int
import Mathlib.Data.Finset.Basic
import Mathlib.Logic.Function.Basic

/-!
# Visibility in a Synchro animation

A visibility task gives an alpha value to the meshes of a resource, or resets them.  `updateFrameState` keeps the value of
each mesh beside its default, and for each value the meshes that have it.  It finds the meshes to be moved by their last
value, which after a reset is the default.

A mesh is among those of a value exactly if a task has set the value for it and no later task has set another or reset it
(`inBucket_iff`): the last value of a mesh is the only one whose set may contain it (`Tracked`), whatever the defaults.
-/

namespace Bouncer.SynchroModelImport

section Visibility

variable {U A : Type} [DecidableEq U] [DecidableEq A] [Zero A] [One A] [Neg A]

/-- A visibility of -1 resets the meshes of the resource. -/
structure VisibilityTask (A : Type) where
  resourceID : String
  visibility : A

/-- For each mesh its default value and its last one, and for each value the texts of the ids of the meshes. -/
structure AlphaState (U A : Type) where
  meshAlphaState : U → Option (A × A)
  alphaValueToIDs : A → Option (Finset String)

namespace AlphaState

/-- `meshAlphaState[mesh]`, which is created with zeros where it is missing. -/
def alpha (s : AlphaState U A) (mesh : U) : A × A := (s.meshAlphaState mesh).getD (0, 0)

/-- A value without meshes is removed from nothing. -/
def eraseID (ids : A → Option (Finset String)) (value : A) (meshStr : String) : A → Option (Finset String) :=
  match ids value with
  | some set => Function.update ids value (some (set.erase meshStr))
  | none => ids

def insertID (ids : A → Option (Finset String)) (value : A) (meshStr : String) : A → Option (Finset String) :=
  match ids value with
  | some set => Function.update ids value (some (insert meshStr set))
  | none => Function.update ids value (some {meshStr})

variable (text : U → String)

/-- The task for one mesh of its resource. -/
def setVisibility (visibility : A) (s : AlphaState U A) (mesh : U) : AlphaState U A :=
  let alpha := s.alpha mesh
  let erased := eraseID s.alphaValueToIDs alpha.2 (text mesh)
  if visibility = -1 then
    { meshAlphaState := Function.update s.meshAlphaState mesh (some (alpha.1, alpha.1))
      alphaValueToIDs := erased }
  else
    { meshAlphaState := Function.update s.meshAlphaState mesh (some (alpha.1, visibility))
      alphaValueToIDs := insertID erased visibility (text mesh) }

/-- `updateFrameState` for a visibility task; the meshes of resources that are not known stay as they are. -/
def update (meshesOf : String → Option (List U)) (s : AlphaState U A) (task : VisibilityTask A) : AlphaState U A :=
  match meshesOf task.resourceID with
  | some meshes => meshes.foldl (setVisibility text task.visibility) s
  | none => s

/-- The state before the first task. -/
def start (defaults : U → Option (A × A)) : AlphaState U A := ⟨defaults, fun _ => none⟩

def run (meshesOf : String → Option (List U)) (defaults : U → Option (A × A)) (tasks : List (VisibilityTask A)) :
    AlphaState U A :=
  tasks.foldl (update text meshesOf) (start defaults)

/-- The mesh is among those with the value. -/
def InBucket (s : AlphaState U A) (mesh : U) (value : A) : Prop :=
  ∃ ids, s.alphaValueToIDs value = some ids ∧ text mesh ∈ ids

end AlphaState

/-! ### What the tasks ask for -/

/-- Whether the task is about the mesh. -/
def VisibilityTask.Concerns (meshesOf : String → Option (List U)) (task : VisibilityTask A) (mesh : U) : Prop :=
  mesh ∈ (meshesOf task.resourceID).getD []

instance (meshesOf : String → Option (List U)) (task : VisibilityTask A) (mesh : U) :
    Decidable (task.Concerns meshesOf mesh) :=
  inferInstanceAs (Decidable (mesh ∈ (meshesOf task.resourceID).getD []))

/-- The value after a task, where it was set last and not reset. -/
def nextAlpha (meshesOf : String → Option (List U)) (mesh : U) (last : Option A) (task : VisibilityTask A) : Option A :=
  if task.Concerns meshesOf mesh then if task.visibility = -1 then none else some task.visibility else last

/-- The value that was set last for the mesh by a task that no reset follows. -/
def lastAlpha (meshesOf : String → Option (List U)) (mesh : U) (tasks : List (VisibilityTask A)) : Option A :=
  tasks.foldl (nextAlpha meshesOf mesh) none

/-! ### One mesh -/

namespace AlphaState

variable {text : U → String} {s : AlphaState U A}

omit [DecidableEq U] [Zero A] [One A] [Neg A] in
private theorem mem_eraseID {ids : A → Option (Finset String)} {value v : A} {a b : String} :
    (∃ set, eraseID ids value a v = some set ∧ b ∈ set) ↔ (∃ set, ids v = some set ∧ b ∈ set) ∧ ¬ (b = a ∧ v = value) := by
  unfold eraseID
  rcases hset : ids value with _ | set
  · constructor
    · rintro ⟨set, h, hb⟩
      refine ⟨⟨set, h, hb⟩, ?_⟩
      rintro ⟨-, rfl⟩
      have hnone : ids v = some set := h
      rw [hset] at hnone
      cases hnone
    · exact fun h => h.1
  · by_cases hv : v = value
    · subst hv
      simp only [Function.update_self, hset, Option.some.injEq, exists_eq_left', Finset.mem_erase, and_true]
      exact and_comm
    · simp [hv]

omit [DecidableEq U] [Zero A] [One A] [Neg A] in
private theorem mem_insertID {ids : A → Option (Finset String)} {value v : A} {a b : String} :
    (∃ set, insertID ids value a v = some set ∧ b ∈ set) ↔ (∃ set, ids v = some set ∧ b ∈ set) ∨ (b = a ∧ v = value) := by
  unfold insertID
  by_cases hv : v = value
  · subst hv
    rcases hset : ids v with _ | set
    · simp
    · simp [or_comm]
  · cases ids value <;> simp [hv]

variable (text) in
/-- The last value of a mesh is the only one whose set may contain it. -/
def Tracked (s : AlphaState U A) : Prop := ∀ mesh value, s.InBucket text mesh value → (s.alpha mesh).2 = value

private theorem inBucket_setVisibility (hinj : Function.Injective text) (hs : s.Tracked text) {visibility value : A} {mesh m : U} :
    (s.setVisibility text visibility mesh).InBucket text m value ↔
      if m = mesh then visibility ≠ -1 ∧ value = visibility else s.InBucket text m value := by
  have herase : (∃ ids, eraseID s.alphaValueToIDs (s.alpha mesh).2 (text mesh) value = some ids ∧ text m ∈ ids) ↔
      s.InBucket text m value ∧ m ≠ mesh := by
    rw [mem_eraseID, hinj.eq_iff]
    refine and_congr_right fun h => ?_
    constructor
    · rintro hne rfl
      exact hne ⟨rfl, (hs m value h).symm⟩
    · exact fun hne h => hne h.1
  unfold setVisibility
  by_cases hreset : visibility = -1
  · simp only [if_pos hreset, InBucket, herase]
    by_cases hm : m = mesh <;> simp [hm, hreset]
  · simp only [if_neg hreset]
    show (∃ ids, insertID _ _ _ _ = some ids ∧ _) ↔ _
    rw [mem_insertID, herase, hinj.eq_iff]
    by_cases hm : m = mesh <;> simp [hm, hreset]

theorem Tracked.setVisibility (hinj : Function.Injective text) (hs : s.Tracked text) (visibility : A) (mesh : U) :
    (s.setVisibility text visibility mesh).Tracked text := by
  intro m value h
  rw [inBucket_setVisibility hinj hs] at h
  unfold AlphaState.setVisibility
  by_cases hm : m = mesh
  · rw [if_pos hm] at h
    rw [if_neg h.1, hm, h.2]
    simp [alpha]
  · rw [if_neg hm] at h
    rw [← hs m value h]
    split <;> simp [alpha, Function.update_of_ne hm]

/-! ### A task, and all of them -/

theorem Tracked.foldl (hinj : Function.Injective text) (hs : s.Tracked text) (visibility : A) (meshes : List U) :
    (meshes.foldl (AlphaState.setVisibility text visibility) s).Tracked text := by
  induction meshes generalizing s with
  | nil => exact hs
  | cons mesh meshes ih => exact ih (hs.setVisibility hinj visibility mesh)

private theorem inBucket_foldl (hinj : Function.Injective text) (hs : s.Tracked text) {visibility value : A} {meshes : List U}
    {m : U} : (meshes.foldl (setVisibility text visibility) s).InBucket text m value ↔
      if m ∈ meshes then visibility ≠ -1 ∧ value = visibility else s.InBucket text m value := by
  induction meshes generalizing s with
  | nil => simp
  | cons mesh meshes ih =>
    rw [List.foldl_cons, ih (hs.setVisibility hinj visibility mesh), inBucket_setVisibility hinj hs]
    by_cases hm : m ∈ meshes
    · simp [hm]
    · by_cases he : m = mesh <;> simp [hm, he]

variable {meshesOf : String → Option (List U)} {defaults : U → Option (A × A)}

theorem Tracked.update (hinj : Function.Injective text) (hs : s.Tracked text) (task : VisibilityTask A) :
    (s.update text meshesOf task).Tracked text := by
  unfold AlphaState.update
  split
  · exact hs.foldl hinj _ _
  · exact hs

private theorem inBucket_update (hinj : Function.Injective text) (hs : s.Tracked text) {task : VisibilityTask A} {m : U} {value : A} :
    (s.update text meshesOf task).InBucket text m value ↔
      if task.Concerns meshesOf m then task.visibility ≠ -1 ∧ value = task.visibility else s.InBucket text m value := by
  unfold AlphaState.update
  split
  · next meshes h =>
    have hconcerns : task.Concerns meshesOf m ↔ m ∈ meshes := by
      rw [VisibilityTask.Concerns, h, Option.getD_some]
    simp only [hconcerns]
    exact inBucket_foldl hinj hs
  · next h =>
    have hconcerns : ¬ task.Concerns meshesOf m := by
      rw [VisibilityTask.Concerns, h, Option.getD_none]
      exact List.not_mem_nil
    rw [if_neg hconcerns]

private theorem run_concat (tasks : List (VisibilityTask A)) (task : VisibilityTask A) :
    run text meshesOf defaults (tasks ++ [task]) = (run text meshesOf defaults tasks).update text meshesOf task :=
  List.foldl_concat ..

private theorem tracked_run (hinj : Function.Injective text) (tasks : List (VisibilityTask A)) :
    (run text meshesOf defaults tasks).Tracked text := by
  induction tasks using List.reverseRecOn with
  | nil =>
    rintro mesh value ⟨ids, h, -⟩
    cases h
  | append_singleton tasks task ih =>
    rw [run_concat]
    exact ih.update hinj task

private theorem inBucket_iff (hinj : Function.Injective text) (tasks : List (VisibilityTask A)) {mesh : U} {value : A} :
    (run text meshesOf defaults tasks).InBucket text mesh value ↔ lastAlpha meshesOf mesh tasks = some value := by
  induction tasks using List.reverseRecOn with
  | nil =>
    constructor
    · rintro ⟨ids, h, -⟩
      cases h
    · exact nofun
  | append_singleton tasks task ih =>
    rw [run_concat, inBucket_update hinj (tracked_run hinj tasks), ih, lastAlpha, lastAlpha, List.foldl_concat, nextAlpha]
    by_cases hm : task.Concerns meshesOf mesh
    · rw [if_pos hm, if_pos hm]
      by_cases hreset : task.visibility = -1
      · simp [hreset]
      · simp [hreset, eq_comm]
    · rw [if_neg hm, if_neg hm]

/-- After each task a mesh is among those of one value at most, which was set last for it; after a reset it is nowhere. -/
theorem visibility_exclusive (meshesOf : String → Option (List U)) (defaults : U → Option (A × A))
    (hinj : Function.Injective text) (tasks : List (VisibilityTask A)) (task : VisibilityTask A) (mesh : U) :
    let s := run text meshesOf defaults (tasks ++ [task])
    (∀ v w, s.InBucket text mesh v → s.InBucket text mesh w → v = w) ∧
      (∀ v, s.InBucket text mesh v ↔ lastAlpha meshesOf mesh (tasks ++ [task]) = some v) ∧
      (task.Concerns meshesOf mesh → task.visibility = -1 → ∀ v, ¬ s.InBucket text mesh v) := by
  refine ⟨fun v w hv hw => ?_, fun v => inBucket_iff hinj _, fun hm hreset v hv => ?_⟩
  · rw [inBucket_iff hinj] at hv hw
    exact Option.some.inj (hv.symm.trans hw)
  · rw [inBucket_iff hinj, lastAlpha, List.foldl_concat, nextAlpha, if_pos hm, if_pos hreset] at hv
    cases hv

end AlphaState

end Visibility

/-- A crane with a hook, which is a resource of its own. -/
def craneMeshes (resourceID : String) : Option (List String) :=
  if resourceID = "crane" then some ["jib", "hook"] else if resourceID = "hook" then some ["hook"] else none

/-- The hook is shown and hidden on its own, and reset with the crane. -/
theorem visibility_exclusive_crane :
    let s := AlphaState.run id craneMeshes (fun _ => some ((1 : ℤ), 1)) ([⟨"crane", 0⟩, ⟨"hook", 1⟩] ++ [⟨"crane", -1⟩])
    (∀ v w, s.InBucket id "hook" v → s.InBucket id "hook" w → v = w) ∧
      (∀ v, s.InBucket id "hook" v ↔
        lastAlpha craneMeshes "hook" ([⟨"crane", 0⟩, ⟨"hook", 1⟩] ++ [⟨"crane", -1⟩]) = some v) ∧
      (VisibilityTask.Concerns craneMeshes ⟨"crane", (-1 : ℤ)⟩ "hook" → (-1 : ℤ) = -1 → ∀ v, ¬ s.InBucket id "hook" v) :=
  AlphaState.visibility_exclusive craneMeshes _ Function.injective_id [⟨"crane", 0⟩, ⟨"hook", 1⟩] ⟨"crane", -1⟩ "hook"

end Bouncer.SynchroModelImport
