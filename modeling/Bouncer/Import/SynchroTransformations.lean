import Bouncer.Clash.SparseSceneGraph
import Bouncer.Datastructure.MatrixInverse
import Bouncer.Import.SynchroFrames

/-!
# The transformations of a Synchro sequence

The geometry of a resource that has a final transformation is moved there, and the state of the resource undoes this before
the first frame.  A task then moves the resource to a transformation of its own or, as a reset, back to where it was before
the final transformation.  Its state is what moves the geometry from the final transformation to that of the task, in the
coordinates of the world.

A state that is the identity up to a tolerance is not kept.  Apart from that, the state of every resource moves its geometry
to what the last task of this resource asks for (`updateFrameState_places`).
-/

namespace Bouncer.SynchroModelImport

variable {R : Type} [Field R] [LinearOrder R]

/-! ### The world -/

namespace World

/-- The matrices that the reader makes of the units of the model and of the target. -/
def ofUnits (modelUnits targetUnits : ModelUnits) (offset : RepoVector3D R) : World R where
  scaleMatrix := RepoMatrix.scale (modelUnits.determineScaleFactor targetUnits)
  reverseScaleMatrix := RepoMatrix.scale (targetUnits.determineScaleFactor modelUnits)
  offset := offset

/-- From the coordinates of Synchro to those of the world. -/
def toWorld (w : World R) : RepoMatrix R := w.scaleMatrix * (RepoMatrix.translate w.offset * matGL)

end World

/-! ### The state of the resources -/

/-- The final transformations, a map. -/
structure FinalFrame (R : Type) [Field R] where
  lastTransformation : List (String × RepoMatrix R)
  nodup : (lastTransformation.map Prod.fst).Nodup
  invertible : ∀ entry ∈ lastTransformation, entry.2.determinant ≠ 0

/-- `nodeMatrix` is the matrix of each transformation node of a resource. -/
structure TransState (R : Type) where
  resourceIDLastTrans : String → Option (RepoMatrix R)
  nodeMatrix : String → RepoMatrix R
  resourceIDTransState : String → Option (RepoMatrix R)
  transformingResource : List String

namespace TransState

/-- The nodes are made with the identity. -/
def empty : TransState R := ⟨fun _ => none, fun _ => 1, fun _ => none, []⟩

/-- One turn of the loop over `lastTransformation`. -/
def moveToFinal (w : World R) (hasTransformation : String → Bool) (s : TransState R) (entry : String × RepoMatrix R) :
    TransState R :=
  if hasTransformation entry.1 = false ∨ entry.2.IsIdentity then s
  else { s with
    resourceIDLastTrans := Function.update s.resourceIDLastTrans entry.1 (some entry.2)
    nodeMatrix := Function.update s.nodeMatrix entry.1 (s.nodeMatrix entry.1 * entry.2)
    resourceIDTransState := Function.update s.resourceIDTransState entry.1
      (some (w.convertMatrixTo3DRepoWorld entry.2.inverse)) }

/-- The state before the first frame. -/
def initial (w : World R) (hasTransformation : String → Bool) (final : FinalFrame R) : TransState R :=
  final.lastTransformation.foldl (moveToFinal w hasTransformation) empty

end TransState

/-! ### Tasks -/

structure TransformationTask (R : Type) where
  resourceID : String
  trans : RepoMatrix R
  reset : Bool

namespace TransformationTask

variable (task : TransformationTask R)

/-- The matrix to move to, or nothing if the geometry is there already. -/
def matrix (lastTrans : Option (RepoMatrix R)) : Option (RepoMatrix R) :=
  match lastTrans with
  | some last => if task.reset then some 1 else if task.trans = last then none else some task.trans
  | none => if task.reset then none else some task.trans

/-- What is recorded of a task. -/
def state (w : World R) (lastTrans : Option (RepoMatrix R)) : Option (RepoMatrix R) :=
  match task.matrix lastTrans with
  | none => none
  | some matrix =>
    let matrix := w.convertMatrixTo3DRepoWorld (match lastTrans with
      | some last => matrix * last.inverse
      | none => matrix)
    if matrix.IsIdentity then none else some matrix

/-- `updateFrameState` for a task of the type `TRANSFORMATION`; it fails if the resource has no list of meshes. -/
def updateFrameState (w : World R) (hasMeshes : String → Bool) (shouldImportAnimations : Bool) (s : TransState R) :
    Option (TransState R) :=
  if shouldImportAnimations then
    if hasMeshes task.resourceID then
      some { s with
        transformingResource := s.transformingResource.insert task.resourceID
        resourceIDTransState := Function.update s.resourceIDTransState task.resourceID
          (task.state w (s.resourceIDLastTrans task.resourceID)) }
    else none
  else some s

/-- What a task asks for. -/
def requested : RepoMatrix R := if task.reset then 1 else task.trans

end TransformationTask

def lastTask (tasks : List (TransformationTask R)) (resourceID : String) : Option (TransformationTask R) :=
  (tasks.filter fun task => task.resourceID = resourceID).getLast?

/-- What the last task of a resource asks for, and the identity before its first one. -/
def requested (tasks : List (TransformationTask R)) (resourceID : String) : RepoMatrix R :=
  ((lastTask tasks resourceID).map TransformationTask.requested).getD 1

/-- A transformation that moves geometry with the matrix `baked` to where it would be with the matrix `requested`. -/
def Moved (w : World R) (baked requested transformation : RepoMatrix R) : Prop :=
  transformation * (w.toWorld * baked) = w.toWorld * requested

instance (w : World R) (baked requested transformation : RepoMatrix R) : Decidable (Moved w baked requested transformation) :=
  inferInstanceAs (Decidable (_ = _))

/-- Such a transformation is recorded, or nothing if it is the identity up to the tolerance. -/
def Places (w : World R) (baked requested : RepoMatrix R) (recorded : Option (RepoMatrix R)) : Prop :=
  ∃ transformation, Moved w baked requested transformation ∧
    (recorded = some transformation ∨ recorded = none ∧ transformation.IsIdentity)

/-! ### Units -/

section Units

private theorem scale_mul_scale {R : Type} [Field R] (a b : R) :
    RepoMatrix.scale a * RepoMatrix.scale b = RepoMatrix.scale (a * b) := by
  ext i j
  fin_cases i <;> fin_cases j <;> simp [RepoMatrix.scale, Matrix.mul_apply, Fin.sum_univ_four]

private theorem scale_one {R : Type} [Field R] : RepoMatrix.scale (1 : R) = 1 := by
  ext i j
  fin_cases i <;> fin_cases j <;> rfl

variable {R : Type} [Field R] [CharZero R]

private theorem scaleFactorToMetres_mul (unit : ModelUnits) : (unit.scaleFactorToMetres : R) * unit.scaleFactorFromMetres = 1 := by
  cases unit <;> norm_num [ModelUnits.scaleFactorToMetres, ModelUnits.scaleFactorFromMetres]

private theorem determineScaleFactor_mul (a b : ModelUnits) :
    (a.determineScaleFactor b : R) * b.determineScaleFactor a = 1 := by
  unfold ModelUnits.determineScaleFactor
  by_cases h : a = b ∨ a = .unknown ∨ b = .unknown
  · rw [if_pos h, if_pos (by tauto), one_mul]
  · rw [if_neg h, if_neg (by tauto)]
    calc (a.scaleFactorToMetres * b.scaleFactorFromMetres : R) * (b.scaleFactorToMetres * a.scaleFactorFromMetres)
        = a.scaleFactorToMetres * a.scaleFactorFromMetres * (b.scaleFactorToMetres * b.scaleFactorFromMetres) := by ring
      _ = 1 := by rw [scaleFactorToMetres_mul, scaleFactorToMetres_mul, one_mul]

end Units

/-! ### The coordinates of the world -/

section Coordinates

private theorem matDX_mul_matGL {R : Type} [Field R] : (World.matDX : RepoMatrix R) * World.matGL = 1 := by
  ext i j
  fin_cases i <;> fin_cases j <;> simp [World.matDX, World.matGL, Matrix.mul_apply, Fin.sum_univ_four]

variable {R : Type} [Field R] [LinearOrder R] [IsStrictOrderedRing R]

private theorem convertMatrix_mul_toWorld (modelUnits targetUnits : ModelUnits) (offset : RepoVector3D R) (matrix : RepoMatrix R) :
    let w := World.ofUnits modelUnits targetUnits offset
    w.convertMatrixTo3DRepoWorld matrix * w.toWorld = w.toWorld * matrix := by
  have hunits : RepoMatrix.scale (targetUnits.determineScaleFactor modelUnits : R) *
      RepoMatrix.scale (modelUnits.determineScaleFactor targetUnits) = 1 := by
    rw [scale_mul_scale, determineScaleFactor_mul, scale_one]
  have hoffset : (RepoMatrix.translate offset).inverse * RepoMatrix.translate offset = 1 := by
    refine RepoMatrix.inverse_mul_self ?_
    rw [RepoMatrix.determinant_translate]
    exact one_ne_zero
  have hcancel : ∀ {m m' : RepoMatrix R}, m * m' = 1 → ∀ n, m * (m' * n) = n := by
    intro m m' h n
    rw [← mul_assoc, h, one_mul]
  simp only [World.convertMatrixTo3DRepoWorld, World.toWorld, World.ofUnits, mul_assoc]
  rw [hcancel hunits, hcancel hoffset, matDX_mul_matGL, mul_one]

end Coordinates

/-! ### Before the first frame -/

section Initial

variable {R : Type} [Field R] [LinearOrder R] (w : World R) (hasTransformation : String → Bool)

namespace TransState

/-- What is known of the final transformation of a resource agrees with its nodes. -/
structure IsBaked (s : TransState R) (resourceID : String) : Prop where
  node : s.nodeMatrix resourceID = (s.resourceIDLastTrans resourceID).getD 1
  det : ∀ last ∈ s.resourceIDLastTrans resourceID, last.determinant ≠ 0

/-- The state undoes the final transformation. -/
def Undoes (s : TransState R) (resourceID : String) : Prop :=
  s.resourceIDTransState resourceID =
    (s.resourceIDLastTrans resourceID).map fun last => w.convertMatrixTo3DRepoWorld last.inverse

variable {w hasTransformation} {s : TransState R} {entry : String × RepoMatrix R} {resourceID : String}

private theorem moveToFinal_of_ne (hne : resourceID ≠ entry.1) :
    (s.moveToFinal w hasTransformation entry).resourceIDLastTrans resourceID = s.resourceIDLastTrans resourceID ∧
    (s.moveToFinal w hasTransformation entry).nodeMatrix resourceID = s.nodeMatrix resourceID ∧
    (s.moveToFinal w hasTransformation entry).resourceIDTransState resourceID = s.resourceIDTransState resourceID := by
  unfold moveToFinal
  split
  · exact ⟨rfl, rfl, rfl⟩
  · exact ⟨Function.update_of_ne hne _ _, Function.update_of_ne hne _ _, Function.update_of_ne hne _ _⟩

private theorem isBaked_moveToFinal (hnone : s.resourceIDLastTrans entry.1 = none) (hdet : entry.2.determinant ≠ 0)
    (h : s.IsBaked resourceID ∧ s.Undoes w resourceID) :
    (s.moveToFinal w hasTransformation entry).IsBaked resourceID ∧
      (s.moveToFinal w hasTransformation entry).Undoes w resourceID := by
  obtain ⟨⟨hnode, hdets⟩, hundo⟩ := h
  unfold moveToFinal
  split
  · exact ⟨⟨hnode, hdets⟩, hundo⟩
  · by_cases hr : resourceID = entry.1
    · subst hr
      rw [hnone, Option.getD_none] at hnode
      refine ⟨⟨?_, ?_⟩, ?_⟩
      · simp [hnode]
      · simpa using hdet
      · simp [Undoes]
    · refine ⟨⟨?_, ?_⟩, ?_⟩
      · simpa [Function.update_of_ne hr] using hnode
      · simpa [Function.update_of_ne hr] using hdets
      · simpa [Undoes, Function.update_of_ne hr] using hundo

private theorem isBaked_foldl_moveToFinal {entries : List (String × RepoMatrix R)} (hnodup : (entries.map Prod.fst).Nodup)
    (hdet : ∀ entry ∈ entries, entry.2.determinant ≠ 0) (s : TransState R)
    (hnone : ∀ entry ∈ entries, s.resourceIDLastTrans entry.1 = none)
    (h : s.IsBaked resourceID ∧ s.Undoes w resourceID) :
    (entries.foldl (moveToFinal w hasTransformation) s).IsBaked resourceID ∧
      (entries.foldl (moveToFinal w hasTransformation) s).Undoes w resourceID := by
  induction entries generalizing s with
  | nil => exact h
  | cons entry entries ih =>
    obtain ⟨hnot, hnodup⟩ := List.nodup_cons.1 hnodup
    obtain ⟨hentry, hentries⟩ := List.forall_mem_cons.1 hdet
    obtain ⟨hnone, hnones⟩ := List.forall_mem_cons.1 hnone
    refine ih hnodup hentries _ (fun other hother => ?_) (isBaked_moveToFinal hnone hentry h)
    have hne : other.1 ≠ entry.1 := fun heq => hnot (heq ▸ List.mem_map_of_mem hother)
    rw [(moveToFinal_of_ne hne).1]
    exact hnones other hother

private theorem isBaked_initial (w : World R) (hasTransformation : String → Bool) (final : FinalFrame R) (resourceID : String) :
    (initial w hasTransformation final).IsBaked resourceID ∧ (initial w hasTransformation final).Undoes w resourceID :=
  isBaked_foldl_moveToFinal final.nodup final.invertible empty (fun _ _ => rfl) ⟨⟨rfl, by simp [empty]⟩, rfl⟩

end TransState

end Initial

/-! ### Runs -/

section Runs

variable {R : Type} [Field R] [LinearOrder R] (w : World R) (hasMeshes : String → Bool)

private theorem updateFrameState_eq {task : TransformationTask R} (hmeshes : hasMeshes task.resourceID = true) (s : TransState R) :
    ∃ s', task.updateFrameState w hasMeshes true s = some s' ∧
      s'.resourceIDLastTrans = s.resourceIDLastTrans ∧ s'.nodeMatrix = s.nodeMatrix ∧
      s'.resourceIDTransState = Function.update s.resourceIDTransState task.resourceID
        (task.state w (s.resourceIDLastTrans task.resourceID)) := by
  simp [TransformationTask.updateFrameState, hmeshes]

private theorem updateFrameState_disabled (tasks : List (TransformationTask R)) (s : TransState R) :
    tasks.foldlM (fun s task => task.updateFrameState w hasMeshes false s) s = some s := by
  induction tasks with
  | nil => rfl
  | cons task tasks ih => exact ih

omit [Field R] [LinearOrder R] in
private theorem lastTask_concat (tasks : List (TransformationTask R)) (task : TransformationTask R) (resourceID : String) :
    lastTask (tasks ++ [task]) resourceID =
      if task.resourceID = resourceID then some task else lastTask tasks resourceID := by
  unfold lastTask
  rw [List.filter_append]
  split
  next h => simp [h]
  next h => simp [h]

private theorem foldlM_updateFrameState (tasks : List (TransformationTask R))
    (hmeshes : ∀ task ∈ tasks, hasMeshes task.resourceID = true) (s : TransState R) :
    ∃ s', tasks.foldlM (fun s task => task.updateFrameState w hasMeshes true s) s = some s' ∧
      s'.resourceIDLastTrans = s.resourceIDLastTrans ∧ s'.nodeMatrix = s.nodeMatrix ∧
      ∀ resourceID, s'.resourceIDTransState resourceID = match lastTask tasks resourceID with
        | some task => task.state w (s.resourceIDLastTrans resourceID)
        | none => s.resourceIDTransState resourceID := by
  induction tasks using List.reverseRecOn with
  | nil => exact ⟨s, rfl, rfl, rfl, fun _ => rfl⟩
  | append_singleton tasks task ih =>
    rw [List.forall_mem_append] at hmeshes
    obtain ⟨s', hrun, hlast, hnode, hstate⟩ := ih hmeshes.1
    obtain ⟨s'', htask, hlast', hnode', hstate'⟩ :=
      updateFrameState_eq w hasMeshes (hmeshes.2 task (List.mem_singleton_self task)) s'
    refine ⟨s'', ?_, hlast'.trans hlast, hnode'.trans hnode, fun resourceID => ?_⟩
    · rw [List.foldlM_append, hrun]
      exact congrArg (· >>= pure) htask
    · rw [lastTask_concat, hstate', hlast]
      by_cases h : task.resourceID = resourceID
      · subst h
        rw [if_pos rfl, Function.update_self]
      · rw [if_neg h, Function.update_of_ne (Ne.symm h), hstate]

end Runs

/-! ### Tasks of a resource -/

section Tasks

variable {R : Type} [Field R] [LinearOrder R] [IsStrictOrderedRing R] (modelUnits targetUnits : ModelUnits)
  (offset : RepoVector3D R)

private theorem isIdentity_one : (1 : RepoMatrix R).IsIdentity := by
  have heps : (0 : R) ≤ RepoMatrix.eps := by unfold RepoMatrix.eps; positivity
  refine ⟨fun i => ?_, fun i j hij => ?_⟩
  · rw [Matrix.one_apply_eq]
    exact ⟨le_add_of_nonneg_right heps, sub_le_self 1 heps⟩
  · rwa [Matrix.one_apply_ne hij, abs_zero]

/-- What is recorded of a task places the geometry, which is at the final transformation if there is one. -/
theorem places_state (task : TransformationTask R) (lastTrans : Option (RepoMatrix R))
    (hdet : ∀ last ∈ lastTrans, last.determinant ≠ 0) :
    Places (World.ofUnits modelUnits targetUnits offset) (lastTrans.getD 1) task.requested
      (task.state (World.ofUnits modelUnits targetUnits offset) lastTrans) := by
  have hworld := convertMatrix_mul_toWorld modelUnits targetUnits offset
  generalize World.ofUnits modelUnits targetUnits offset = w at hworld ⊢
  dsimp only at hworld
  -- the state for a matrix that is applied to the geometry
  have hplaces : ∀ {baked matrix : RepoMatrix R}, matrix * baked = task.requested →
      Places w baked task.requested (if (w.convertMatrixTo3DRepoWorld matrix).IsIdentity then none
        else some (w.convertMatrixTo3DRepoWorld matrix)) := by
    intro baked matrix h
    refine ⟨w.convertMatrixTo3DRepoWorld matrix, ?_, ?_⟩
    · rw [Moved, ← mul_assoc, hworld, mul_assoc, h]
    · split
      next hid => exact .inr ⟨rfl, hid⟩
      next => exact .inl rfl
  cases lastTrans with
  | none =>
    by_cases hreset : task.reset = true
    · have hstate : task.state w none = none := by simp [TransformationTask.state, TransformationTask.matrix, hreset]
      rw [hstate]
      exact ⟨1, by simp [Moved, TransformationTask.requested, hreset], .inr ⟨rfl, isIdentity_one⟩⟩
    · simp only [TransformationTask.state, TransformationTask.matrix, if_neg hreset]
      exact hplaces (by simp [TransformationTask.requested, hreset])
  | some last =>
    have hinverse : last.inverse * last = 1 := RepoMatrix.inverse_mul_self (hdet last rfl)
    have hundone : ∀ matrix : RepoMatrix R, matrix * last.inverse * last = matrix := by
      intro matrix
      rw [mul_assoc, hinverse, mul_one]
    by_cases hreset : task.reset = true
    · simp only [TransformationTask.state, TransformationTask.matrix, if_pos hreset]
      exact hplaces ((hundone 1).trans (if_pos hreset).symm)
    · by_cases hlast : task.trans = last
      · have hstate : task.state w (some last) = none := by
          simp [TransformationTask.state, TransformationTask.matrix, hreset, hlast]
        rw [hstate]
        exact ⟨1, by simp [Moved, TransformationTask.requested, hreset, hlast], .inr ⟨rfl, isIdentity_one⟩⟩
      · simp only [TransformationTask.state, TransformationTask.matrix, if_neg hreset, if_neg hlast]
        exact hplaces ((hundone task.trans).trans (if_neg hreset).symm)

private theorem moved_initial {lastTrans : Option (RepoMatrix R)} (hdet : ∀ last ∈ lastTrans, last.determinant ≠ 0) :
    Moved (World.ofUnits modelUnits targetUnits offset) (lastTrans.getD 1) 1
      ((lastTrans.map fun last =>
        (World.ofUnits modelUnits targetUnits offset).convertMatrixTo3DRepoWorld last.inverse).getD 1) := by
  cases lastTrans with
  | none => exact one_mul _
  | some last =>
    rw [Option.map_some, Option.getD_some, Option.getD_some, Moved, ← mul_assoc,
      convertMatrix_mul_toWorld modelUnits targetUnits offset, mul_assoc, RepoMatrix.inverse_mul_self (hdet last rfl)]

/-- After any tasks, if animations are imported, every resource is where its last task asks for, up to the tolerance.  It is
exactly where it was before the final transformation if it has no task. -/
theorem updateFrameState_places (hasTransformation hasMeshes : String → Bool) (final : FinalFrame R)
    (shouldImportAnimations : Bool) (tasks : List (TransformationTask R))
    (hmeshes : ∀ task ∈ tasks, hasMeshes task.resourceID = true) :
    let w := World.ofUnits modelUnits targetUnits offset
    let tasks' := if shouldImportAnimations then tasks else []
    ∃ s, tasks.foldlM (fun s task => task.updateFrameState w hasMeshes shouldImportAnimations s)
        (TransState.initial w hasTransformation final) = some s ∧
      ∀ resourceID,
        Places w (s.nodeMatrix resourceID) (requested tasks' resourceID) (s.resourceIDTransState resourceID) ∧
        (lastTask tasks' resourceID = none →
          Moved w (s.nodeMatrix resourceID) 1 ((s.resourceIDTransState resourceID).getD 1)) := by
  intro w tasks'
  have hinitial := TransState.isBaked_initial w hasTransformation final
  have hrun : ∃ s, tasks.foldlM (fun s task => task.updateFrameState w hasMeshes shouldImportAnimations s)
      (TransState.initial w hasTransformation final) = some s ∧
      s.nodeMatrix = (TransState.initial w hasTransformation final).nodeMatrix ∧
      ∀ resourceID, s.resourceIDTransState resourceID = match lastTask tasks' resourceID with
        | some task => task.state w ((TransState.initial w hasTransformation final).resourceIDLastTrans resourceID)
        | none => (TransState.initial w hasTransformation final).resourceIDTransState resourceID := by
    cases shouldImportAnimations with
    | false => exact ⟨_, updateFrameState_disabled w hasMeshes tasks _, rfl, fun _ => rfl⟩
    | true =>
      obtain ⟨s, hrun, -, hnode, hstate⟩ := foldlM_updateFrameState w hasMeshes tasks hmeshes
        (TransState.initial w hasTransformation final)
      exact ⟨s, hrun, hnode, hstate⟩
  obtain ⟨s, hrun, hnode, hstate⟩ := hrun
  refine ⟨s, hrun, fun resourceID => ?_⟩
  obtain ⟨⟨hbaked, hdet⟩, hundo⟩ := hinitial resourceID
  rw [hnode, hbaked, hstate, requested]
  cases lastTask tasks' resourceID with
  | some task => exact ⟨places_state modelUnits targetUnits offset task _ hdet, nofun⟩
  | none =>
    have hmoved := moved_initial modelUnits targetUnits offset hdet
    rw [TransState.Undoes] at hundo
    dsimp only
    rw [hundo]
    refine ⟨⟨_, hmoved, ?_⟩, fun _ => hmoved⟩
    cases (TransState.initial w hasTransformation final).resourceIDLastTrans resourceID with
    | none => exact .inr ⟨rfl, isIdentity_one⟩
    | some last => exact .inl rfl

end Tasks

/-! ### A crane that is moved a little -/

def metresWorld : World ℚ := World.ofUnits .metres .metres ⟨0, 0, 0⟩

/-- The hook of the crane ends two metres higher than it starts. -/
def hookFrame : FinalFrame ℚ where
  lastTransformation := [("hook", RepoMatrix.translate ⟨0, 0, 2⟩)]
  nodup := List.nodup_singleton _
  invertible := by decide +kernel

/-- The hook is reset and the crane is moved. -/
def craneTasks (x : ℚ) : List (TransformationTask ℚ) := [⟨"hook", 1, true⟩, ⟨"crane", RepoMatrix.translate ⟨x, 0, 0⟩, false⟩]

theorem updateFrameState_places_crane :
    (∀ task ∈ craneTasks 5, (fun _ => true) task.resourceID = true) ∧
    ∃ s, (craneTasks 5).foldlM (fun s task => task.updateFrameState metresWorld (fun _ => true) true s)
        (TransState.initial metresWorld (fun _ => true) hookFrame) = some s ∧
      ∀ resourceID,
        Places metresWorld (s.nodeMatrix resourceID) (requested (craneTasks 5) resourceID)
          (s.resourceIDTransState resourceID) ∧
        (lastTask (craneTasks 5) resourceID = none →
          Moved metresWorld (s.nodeMatrix resourceID) 1 ((s.resourceIDTransState resourceID).getD 1)) :=
  ⟨fun _ _ => rfl, updateFrameState_places .metres .metres ⟨0, 0, 0⟩ (fun _ => true) (fun _ => true) hookFrame true
    (craneTasks 5) fun _ _ => rfl⟩

/-- A task that moves the crane by a hundredth of a millimetre leaves it where it is. -/
theorem not_moved_crane : ¬ ∀ s, (craneTasks (1 / 100000)).foldlM
    (fun s task => task.updateFrameState metresWorld (fun _ => true) true s)
      (TransState.initial metresWorld (fun _ => true) hookFrame) = some s →
    Moved metresWorld (s.nodeMatrix "crane") (requested (craneTasks (1 / 100000)) "crane")
      ((s.resourceIDTransState "crane").getD 1) := by
  intro h
  have hmoved := h _ rfl
  exact absurd hmoved (by decide +kernel)

end Bouncer.SynchroModelImport
