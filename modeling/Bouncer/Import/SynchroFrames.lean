import Bouncer.Datastructure.Matrix
import Bouncer.Import.SynchroTasks

/-!
# The frames of a Synchro sequence

The times of tasks and of animation frames are in seconds.  `generateTaskInformation` turns those of the tasks into
milliseconds, while the frames are stored with their times in seconds, which the database document turns into milliseconds.
Where the animation is later than the tasks and something is moved in the end, a first frame is to undo this.  The time of
the first frame in seconds is compared with that of the first task in milliseconds, and the latter is the time of the frame.

All dates are between the start and the end of the sequence.  The first frame is right exactly if none is needed or the first
task is at time zero (`sequenceDated_iff`).
-/

namespace Bouncer.SynchroModelImport

variable {A R S C : Type} [Field R] [LinearOrder R]

/-! ### The final transformations -/

/-- What `convertMatrixTo3DRepoWorld` reads of the importer. -/
structure World (R : Type) where
  scaleMatrix : RepoMatrix R
  reverseScaleMatrix : RepoMatrix R
  offset : RepoVector3D R

namespace World

def matDX : RepoMatrix R := Matrix.of ![![1, 0, 0, 0], ![0, 0, -1, 0], ![0, 1, 0, 0], ![0, 0, 0, 1]]

def matGL : RepoMatrix R := Matrix.of ![![1, 0, 0, 0], ![0, 0, 1, 0], ![0, -1, 0, 0], ![0, 0, 0, 1]]

def convertMatrixTo3DRepoWorld (w : World R) (matrix : RepoMatrix R) : RepoMatrix R :=
  let matToWorld := RepoMatrix.translate w.offset
  w.scaleMatrix * ((matToWorld * matGL * matrix * matDX * matToWorld.inverse) * w.reverseScaleMatrix)

end World

/-- What the reader knows of an animation; its first frame is at `begin`. -/
structure Animation (A R : Type) where
  begin : UInt64 × List A
  rest : List (UInt64 × List A)
  lastTransformation : List (String × RepoMatrix R)

def Animation.frames (animation : Animation A R) : List (UInt64 × List A) := animation.begin :: animation.rest

/-- A resource of the scene that the animation moves. -/
def Moves (animation : Animation A R) (hasTransformation : String → Bool) (entry : String × RepoMatrix R) : Prop :=
  entry ∈ animation.lastTransformation ∧ hasTransformation entry.1 = true ∧ ¬ entry.2.IsIdentity

/-- `resourceIDTransState` before the first frame: what undoes the final transformations. -/
def resourceIDTransState (w : World R) (hasTransformation : String → Bool) (animation : Animation A R) :
    List (String × RepoMatrix R) :=
  (animation.lastTransformation.filter fun entry => hasTransformation entry.1 && !decide entry.2.IsIdentity).map
    fun entry => (entry.1, w.convertMatrixTo3DRepoWorld entry.2.inverse)

/-! ### The sequence -/

structure FrameData (C : Type) where
  timestamp : UInt64
  ref : C

/-- The frame states: `initial` has what `resourceIDTransState` holds, and `generateCache` is what is stored of a state. -/
structure FrameStates (A R S C : Type) where
  initial : List (String × RepoMatrix R) → S
  updateFrameState : List A → S → S
  generateCache : S → C

/-- The first and the last time of `generateTaskInformation`, where the first starts as the address of a function. -/
def taskFrame (address : UInt64) (tasks : List Task) : UInt64 × UInt64 :=
  tasks.foldl (fun ts task => (min (task.startTime * 1000) ts.1, max (task.endTime * 1000) ts.2)) (address, 0)

/-- What the loop over the frames of `generateRepoScene` changes. -/
structure FrameLoop (S C : Type) where
  firstFrame : UInt64
  lastFrame : UInt64
  state : S
  frameData : List (FrameData C)

def FrameLoop.step (states : FrameStates A R S C) (l : FrameLoop S C) (currentFrame : UInt64 × List A) : FrameLoop S C :=
  let state := states.updateFrameState currentFrame.2 l.state
  { firstFrame := min l.firstFrame (currentFrame.1 * 1000)
    lastFrame := max l.lastFrame (currentFrame.1 * 1000)
    state := state
    frameData := l.frameData ++ [⟨currentFrame.1, states.generateCache state⟩] }

/-- The frame that undoes the final transformations. -/
def resetFrame (states : FrameStates A R S C) (w : World R) (hasTransformation : String → Bool)
    (animation : Animation A R) (firstFrame : UInt64) : List (FrameData C) :=
  let state := resourceIDTransState w hasTransformation animation
  if animation.begin.1 > firstFrame ∧ state ≠ [] then
    [⟨firstFrame, states.generateCache (states.initial state)⟩]
  else []

/-- The document of a `RepoSequence`. -/
structure SequenceDocument (C : Type) where
  startDate : Int64
  endDate : Int64
  frames : List (Int64 × C)

/-- `RepoSequence::operator RepoBSON`, with `appendTime`. -/
def FrameLoop.document (l : FrameLoop S C) : SequenceDocument C where
  startDate := l.firstFrame.toInt64
  endDate := l.lastFrame.toInt64
  frames := l.frameData.map fun frame => (frame.timestamp.toInt64 * 1000, frame.ref)

/-- The sequence that `generateRepoScene` stores. -/
def generateSequence (states : FrameStates A R S C) (w : World R) (hasTransformation : String → Bool) (address : UInt64)
    (tasks : List Task) (animation : Animation A R) : SequenceDocument C :=
  let frame := taskFrame address tasks
  let start : FrameLoop S C :=
    { firstFrame := frame.1
      lastFrame := frame.2
      state := states.initial (resourceIDTransState w hasTransformation animation)
      frameData := resetFrame states w hasTransformation animation frame.1 }
  (animation.frames.foldl (FrameLoop.step states) start).document

/-! ### What the sequence should be -/

/-- A time in seconds that is a date in milliseconds. -/
def HasDate (time : UInt64) : Prop := time.toNat * 1000 < 2 ^ 63

instance (time : UInt64) : Decidable (HasDate time) := inferInstanceAs (Decidable (_ < _))

/-- Tasks and an animation with dates. -/
structure Schedule (A R : Type) where
  tasks : List Task
  animation : Animation A R
  tasks_date : ∀ task ∈ tasks, HasDate task.startTime ∧ HasDate task.endTime
  frames_date : ∀ frame ∈ animation.frames, HasDate frame.1

/-- The first frame is later than the first task. -/
def Schedule.IsLater (s : Schedule A R) : Prop := ∃ task ∈ s.tasks, task.startTime < s.animation.begin.1

/-- Every frame is between the start and the end, and if the frames come after the first task and move something, the first
one is at the start and has the initial state. -/
structure SequenceDated (states : FrameStates A R S C) (w : World R) (hasTransformation : String → Bool)
    (s : Schedule A R) (document : SequenceDocument C) : Prop where
  within : ∀ frame ∈ document.frames, document.startDate ≤ frame.1 ∧ frame.1 ≤ document.endDate
  reset : s.IsLater → (∃ entry, Moves s.animation hasTransformation entry) →
    document.frames.head? = some (document.startDate,
      states.generateCache (states.initial (resourceIDTransState w hasTransformation s.animation)))

/-! ### Times -/

section Times

variable {t u : UInt64}

theorem HasDate.of_lt (h : HasDate u) (hlt : t.toNat < u.toNat) : HasDate t :=
  (Nat.mul_le_mul_right 1000 hlt.le).trans_lt h

theorem HasDate.toNat_mul (h : HasDate t) : (t * 1000).toNat = t.toNat * 1000 := by
  unfold HasDate at h
  rw [UInt64.toNat_mul]
  change t.toNat * 1000 % 2 ^ 64 = t.toNat * 1000
  omega

private theorem toInt_toInt64 (h : t.toNat < 2 ^ 63) : t.toInt64.toInt = t.toNat := by
  change t.toBitVec.toInt = _
  exact BitVec.toInt_eq_toNat_of_lt (by change 2 * t.toNat < _; omega)

private theorem HasDate.toInt_mul (h : HasDate t) : (t.toInt64 * 1000).toInt = t.toNat * 1000 := by
  unfold HasDate at h
  rw [Int64.toInt_mul, toInt_toInt64 (by omega)]
  exact Int.bmod_eq_of_le (by change -(2 ^ 64 / 2) ≤ (t.toNat : ℤ) * 1000; omega) (by change (t.toNat : ℤ) * 1000 < _; omega)

private theorem toNat_min (t u : UInt64) : (min t u).toNat = min t.toNat u.toNat := by
  change (if t ≤ u then t else u).toNat = _
  split
  next h => exact (Nat.min_eq_left (UInt64.le_iff_toNat_le.1 h)).symm
  next h => exact (Nat.min_eq_right (Nat.le_of_not_le fun hle => h (UInt64.le_iff_toNat_le.2 hle))).symm

private theorem toNat_max (t u : UInt64) : (max t u).toNat = max t.toNat u.toNat := by
  change (if t ≤ u then u else t).toNat = _
  split
  next h => exact (Nat.max_eq_right (UInt64.le_iff_toNat_le.1 h)).symm
  next h => exact (Nat.max_eq_left (Nat.le_of_not_le fun hle => h (UInt64.le_iff_toNat_le.2 hle))).symm

private theorem toNat_zero_lt : (0 : UInt64).toNat < 2 ^ 63 := by decide

end Times

/-! ### The tasks -/

section TaskFrame

variable {tasks : List Task} {address : UInt64}

/-- The first time is the least of the start times and of the address; the last one has a date. -/
theorem taskFrame_spec (h : ∀ task ∈ tasks, HasDate task.startTime ∧ HasDate task.endTime) (ts : UInt64 × UInt64)
    (hlast : ts.2.toNat < 2 ^ 63) :
    let r := tasks.foldl (fun ts task => (min (task.startTime * 1000) ts.1, max (task.endTime * 1000) ts.2)) ts
    r.1.toNat ≤ ts.1.toNat ∧ (∀ task ∈ tasks, r.1.toNat ≤ task.startTime.toNat * 1000) ∧
      (r.1.toNat = ts.1.toNat ∨ ∃ task ∈ tasks, r.1.toNat = task.startTime.toNat * 1000) ∧ r.2.toNat < 2 ^ 63 := by
  induction tasks generalizing ts with
  | nil => exact ⟨le_rfl, fun _ ht => absurd ht List.not_mem_nil, .inl rfl, hlast⟩
  | cons task tasks ih =>
    obtain ⟨hstart, hend⟩ := h task List.mem_cons_self
    have hfirst : (min (task.startTime * 1000) ts.1).toNat = min (task.startTime.toNat * 1000) ts.1.toNat := by
      rw [toNat_min, hstart.toNat_mul]
    have hlast' : (max (task.endTime * 1000) ts.2).toNat < 2 ^ 63 := by
      rw [toNat_max, hend.toNat_mul]
      exact max_lt hend hlast
    obtain ⟨hle, hall, hfrom, hlt⟩ := ih (fun t ht => h t (List.mem_cons_of_mem task ht))
      (min (task.startTime * 1000) ts.1, max (task.endTime * 1000) ts.2) hlast'
    rw [hfirst] at hle hfrom
    refine ⟨hle.trans (min_le_right _ _), ?_, ?_, hlt⟩
    · exact List.forall_mem_cons.2 ⟨hle.trans (min_le_left _ _), hall⟩
    · rcases hfrom with hfrom | ⟨t, ht, hfrom⟩
      · rcases min_choice (task.startTime.toNat * 1000) ts.1.toNat with hmin | hmin
        · exact .inr ⟨task, List.mem_cons_self, hfrom.trans hmin⟩
        · exact .inl (hfrom.trans hmin)
      · exact .inr ⟨t, List.mem_cons_of_mem task ht, hfrom⟩

end TaskFrame

/-! ### The frames -/

section Frames

variable (states : FrameStates A R S C)

omit [Field R] [LinearOrder R] in
/-- The times of the loop enclose those of the frames, and the frames are stored one after the other. -/
theorem foldl_step_spec (frames : List (UInt64 × List A)) (h : ∀ frame ∈ frames, HasDate frame.1) (l : FrameLoop S C)
    (hlast : l.lastFrame.toNat < 2 ^ 63) :
    let r := frames.foldl (FrameLoop.step states) l
    r.firstFrame.toNat ≤ l.firstFrame.toNat ∧ (∀ frame ∈ frames, r.firstFrame.toNat ≤ frame.1.toNat * 1000) ∧
      (∀ frame ∈ frames, frame.1.toNat * 1000 ≤ r.lastFrame.toNat) ∧ l.lastFrame.toNat ≤ r.lastFrame.toNat ∧
      r.lastFrame.toNat < 2 ^ 63 ∧
      ∃ new, r.frameData = l.frameData ++ new ∧ new.map FrameData.timestamp = frames.map Prod.fst := by
  induction frames generalizing l with
  | nil => exact ⟨le_rfl, by simp, by simp, le_rfl, hlast, [], (List.append_nil _).symm, rfl⟩
  | cons frame frames ih =>
    have hdate := h frame List.mem_cons_self
    have hfirst : (l.step states frame).firstFrame.toNat = min l.firstFrame.toNat (frame.1.toNat * 1000) := by
      rw [FrameLoop.step, toNat_min, hdate.toNat_mul]
    have hlast' : (l.step states frame).lastFrame.toNat = max l.lastFrame.toNat (frame.1.toNat * 1000) := by
      rw [FrameLoop.step, toNat_max, hdate.toNat_mul]
    obtain ⟨hle, hall, hall', hge, hlt, new, hdata, htimes⟩ := ih (fun f hf => h f (List.mem_cons_of_mem frame hf))
      (l.step states frame) (by rw [hlast']; exact max_lt hlast hdate)
    rw [hfirst] at hle
    rw [hlast'] at hge
    refine ⟨hle.trans (min_le_left _ _), ?_, ?_, (le_max_left _ _).trans hge, hlt,
      ⟨frame.1, states.generateCache (states.updateFrameState frame.2 l.state)⟩ :: new, ?_, ?_⟩
    · exact List.forall_mem_cons.2 ⟨hle.trans (min_le_right _ _), hall⟩
    · exact List.forall_mem_cons.2 ⟨(le_max_right _ _).trans hge, hall'⟩
    · exact hdata.trans (List.append_cons _ _ _).symm
    · rw [List.map_cons, List.map_cons, htimes]

end Frames

/-! ### The document -/

section Document

variable (states : FrameStates A R S C) (w : World R) (hasTransformation : String → Bool) (address : UInt64)
  (s : Schedule A R)

private theorem resourceIDTransState_ne_nil_iff {animation : Animation A R} :
    resourceIDTransState w hasTransformation animation ≠ [] ↔ ∃ entry, Moves animation hasTransformation entry := by
  rw [resourceIDTransState, ne_eq, List.map_eq_nil_iff, List.filter_eq_nil_iff]
  simp [Moves]

private theorem resetFrame_of_later {animation : Animation A R} {firstFrame : UInt64} (h : animation.begin.1 > firstFrame ∧
    resourceIDTransState w hasTransformation animation ≠ []) :
    resetFrame states w hasTransformation animation firstFrame = [⟨firstFrame, states.generateCache (states.initial
      (resourceIDTransState w hasTransformation animation))⟩] := if_pos h

private theorem resetFrame_of_not {animation : Animation A R} {firstFrame : UInt64} (h : ¬ (animation.begin.1 > firstFrame ∧
    resourceIDTransState w hasTransformation animation ≠ [])) :
    resetFrame states w hasTransformation animation firstFrame = [] := if_neg h

/-- The frames are the one that undoes the final transformations, if there is one, and those of the animation.  The start is
not after the first frame or the first task. -/
private theorem generateSequence_spec : ∃ first last : ℕ, ∃ new : List (FrameData C),
    let document := generateSequence states w hasTransformation address s.tasks s.animation
    document.startDate.toInt = first ∧ document.endDate.toInt = last ∧
      first ≤ (taskFrame address s.tasks).1.toNat ∧
      (∀ frame ∈ s.animation.frames, first ≤ frame.1.toNat * 1000 ∧ frame.1.toNat * 1000 ≤ last) ∧
      new.map FrameData.timestamp = s.animation.frames.map Prod.fst ∧
      document.frames = (resetFrame states w hasTransformation s.animation (taskFrame address s.tasks).1 ++ new).map
        fun frame => (frame.timestamp.toInt64 * 1000, frame.ref) := by
  obtain ⟨-, -, -, hlast⟩ := taskFrame_spec s.tasks_date (address, 0) toNat_zero_lt
  obtain ⟨hfirst, hall, hall', -, hlt, new, hdata, htimes⟩ := foldl_step_spec states s.animation.frames
    s.frames_date
    { firstFrame := (taskFrame address s.tasks).1
      lastFrame := (taskFrame address s.tasks).2
      state := states.initial (resourceIDTransState w hasTransformation s.animation)
      frameData := resetFrame states w hasTransformation s.animation (taskFrame address s.tasks).1 } hlast
  have hbegin := hall _ List.mem_cons_self
  have hdate : HasDate s.animation.begin.1 := s.frames_date _ List.mem_cons_self
  refine ⟨_, _, new, toInt_toInt64 (hbegin.trans_lt hdate), toInt_toInt64 hlt, hfirst,
    fun frame hframe => ⟨hall frame hframe, hall' frame hframe⟩, htimes, ?_⟩
  exact congrArg (List.map _) hdata

variable {address s}

/-- The frame that undoes the final transformations is there only if its date, too, is before the first frame. -/
theorem within_generateSequence : ∀ frame ∈ (generateSequence states w hasTransformation address s.tasks s.animation).frames,
    (generateSequence states w hasTransformation address s.tasks s.animation).startDate ≤ frame.1 ∧
      frame.1 ≤ (generateSequence states w hasTransformation address s.tasks s.animation).endDate := by
  obtain ⟨first, last, new, hstart, hend, hfirst, hframes, htimes, hdocument⟩ :=
    generateSequence_spec states w hasTransformation address s
  intro frame hframe
  rw [Int64.le_iff_toInt_le, Int64.le_iff_toInt_le, hstart, hend]
  rw [hdocument] at hframe
  obtain ⟨data, hdata, rfl⟩ := List.mem_map.1 hframe
  rcases List.mem_append.1 hdata with hreset | hnew
  · by_cases hlater : s.animation.begin.1 > (taskFrame address s.tasks).1 ∧
        resourceIDTransState w hasTransformation s.animation ≠ []
    · rw [resetFrame_of_later states w hasTransformation hlater] at hreset
      obtain rfl := List.mem_singleton.1 hreset
      have hlt : (taskFrame address s.tasks).1.toNat < s.animation.begin.1.toNat := UInt64.lt_iff_toNat_lt.1 hlater.1
      have hdate : HasDate s.animation.begin.1 := s.frames_date _ List.mem_cons_self
      have hdate' : HasDate (taskFrame address s.tasks).1 := hdate.of_lt hlt
      have hbegin := hframes _ List.mem_cons_self
      rw [hdate'.toInt_mul]
      omega
    · rw [resetFrame_of_not states w hasTransformation hlater] at hreset
      exact absurd hreset List.not_mem_nil
  · have hmem : data.timestamp ∈ s.animation.frames.map Prod.fst := htimes ▸ List.mem_map_of_mem hnew
    obtain ⟨f, hf, htime⟩ := List.mem_map.1 hmem
    have hdate : HasDate data.timestamp := htime ▸ s.frames_date f hf
    have hbetween := hframes f hf
    rw [hdate.toInt_mul, ← htime]
    omega

/-- The sequence is dated right exactly if no frame is needed before the animation or the first task is at time zero. -/
theorem sequenceDated_iff (haddress : 0 < address) :
    SequenceDated states w hasTransformation s (generateSequence states w hasTransformation address s.tasks s.animation) ↔
      ¬ (s.IsLater ∧ ∃ entry, Moves s.animation hasTransformation entry) ∨ ∃ task ∈ s.tasks, task.startTime = 0 := by
  obtain ⟨first, last, new, hstart, -, hfirst, hframes, htimes, hdocument⟩ :=
    generateSequence_spec states w hasTransformation address s
  obtain ⟨-, htasks, hfrom, -⟩ := taskFrame_spec s.tasks_date (address, 0) toNat_zero_lt
  change ∀ task ∈ s.tasks, (taskFrame address s.tasks).1.toNat ≤ _ at htasks
  change (taskFrame address s.tasks).1.toNat = address.toNat ∨
    ∃ task ∈ s.tasks, (taskFrame address s.tasks).1.toNat = task.startTime.toNat * 1000 at hfrom
  have hbegin := hframes _ List.mem_cons_self
  have hdate : HasDate s.animation.begin.1 := s.frames_date _ List.mem_cons_self
  have hpos : 0 < address.toNat := UInt64.lt_iff_toNat_lt.1 haddress
  constructor
  · intro h
    by_contra! hnot
    obtain ⟨⟨hlater, hmoves⟩, hzero⟩ := hnot
    have hhead := h.reset hlater hmoves
    obtain ⟨task, htask, hlt⟩ := hlater
    have hlt := UInt64.lt_iff_toNat_lt.1 hlt
    have hle := htasks task htask
    have hne : (taskFrame address s.tasks).1.toNat ≠ 0 := by
      rcases hfrom with hfrom | ⟨task', htask', hfrom⟩
      · omega
      · have := hzero task' htask'
        have : task'.startTime.toNat ≠ 0 := fun h => this (UInt64.toNat_inj.1 h)
        omega
    rw [hdocument] at hhead
    by_cases hreset : s.animation.begin.1 > (taskFrame address s.tasks).1 ∧
        resourceIDTransState w hasTransformation s.animation ≠ []
    · rw [resetFrame_of_later states w hasTransformation hreset, List.singleton_append, List.map_cons,
        List.head?_cons] at hhead
      have hlt' := UInt64.lt_iff_toNat_lt.1 hreset.1
      have hdate' : HasDate (taskFrame address s.tasks).1 := hdate.of_lt hlt'
      have heq := congrArg Int64.toInt (Prod.mk.inj (Option.some.inj hhead)).1
      rw [hdate'.toInt_mul, hstart] at heq
      omega
    · rw [resetFrame_of_not states w hasTransformation hreset, List.nil_append] at hhead
      cases new with
      | nil => cases hhead
      | cons data new =>
        rw [List.map_cons, List.head?_cons] at hhead
        have htime : data.timestamp = s.animation.begin.1 := (List.cons.inj htimes).1
        have heq := congrArg Int64.toInt (Prod.mk.inj (Option.some.inj hhead)).1
        rw [htime, hdate.toInt_mul, hstart] at heq
        omega
  · intro h
    refine ⟨within_generateSequence states w hasTransformation, fun hlater hmoves => ?_⟩
    obtain ⟨task, htask, hzero⟩ := h.resolve_left (not_not_intro ⟨hlater, hmoves⟩)
    have hle := htasks task htask
    have hzero' : task.startTime.toNat = 0 := congrArg UInt64.toNat hzero
    have hnone : (taskFrame address s.tasks).1 = 0 := UInt64.toNat_inj.1 (by change _ = 0; omega)
    obtain ⟨task', -, hlt⟩ := hlater
    have hreset : s.animation.begin.1 > (taskFrame address s.tasks).1 ∧
        resourceIDTransState w hasTransformation s.animation ≠ [] := by
      refine ⟨?_, (resourceIDTransState_ne_nil_iff w hasTransformation).2 hmoves⟩
      rw [hnone, gt_iff_lt, UInt64.lt_iff_toNat_lt]
      have := UInt64.lt_iff_toNat_lt.1 hlt
      change 0 < _
      omega
    have hdate' : (taskFrame address s.tasks).1.toInt64 * 1000 =
        (generateSequence states w hasTransformation address s.tasks s.animation).startDate := by
      refine Int64.toInt_inj.1 ?_
      rw [hstart, hnone]
      change (0 : ℤ) = first
      omega
    rw [hdocument, resetFrame_of_later states w hasTransformation hreset, List.singleton_append, List.map_cons,
      List.head?_cons, ← hdate']

end Document

/-! ### A crane that is moved -/

/-- One task from the first to the last second of an hour, and two frames in between after which the crane is moved. -/
def craneSchedule : Schedule Unit ℚ where
  tasks := [⟨"1", "lift", "", 3600, 7200⟩]
  animation := ⟨(4000, []), [(5000, [])], [("crane", RepoMatrix.translate ⟨5, 0, 0⟩)]⟩
  tasks_date := by decide
  frames_date := by decide

def plainStates : FrameStates Unit ℚ Unit String := ⟨fun _ => (), fun _ _ => (), fun _ => "state"⟩

def plainWorld : World ℚ := ⟨1, 1, ⟨0, 0, 0⟩⟩

theorem sequenceDated_iff_crane : SequenceDated plainStates plainWorld (fun _ => true) craneSchedule
    (generateSequence plainStates plainWorld (fun _ => true) 4198400 craneSchedule.tasks craneSchedule.animation) ↔
      ¬ (craneSchedule.IsLater ∧ ∃ entry, Moves craneSchedule.animation (fun _ => true) entry) ∨
        ∃ task ∈ craneSchedule.tasks, task.startTime = 0 :=
  sequenceDated_iff plainStates plainWorld (fun _ => true) (by decide)

/-- The first frame that is stored is that of the animation, 400 seconds after the start. -/
theorem not_sequenceDated_crane : ¬ SequenceDated plainStates plainWorld (fun _ => true) craneSchedule
    (generateSequence plainStates plainWorld (fun _ => true) 4198400 craneSchedule.tasks craneSchedule.animation) := by
  intro h
  have hmoves : Moves craneSchedule.animation (fun _ => true) ("crane", RepoMatrix.translate ⟨5, 0, 0⟩) :=
    ⟨List.mem_singleton_self _, rfl, by decide +kernel⟩
  have hlater : craneSchedule.IsLater := ⟨_, List.mem_singleton_self _, by decide⟩
  have hhead := h.reset hlater ⟨_, hmoves⟩
  have hstart : (generateSequence plainStates plainWorld (fun _ => true) 4198400 craneSchedule.tasks
      craneSchedule.animation).startDate = 3600000 := by decide +kernel
  have hfirst : (generateSequence plainStates plainWorld (fun _ => true) 4198400 craneSchedule.tasks
      craneSchedule.animation).frames.head? = some (4000000, "state") := by decide +kernel
  rw [hfirst, hstart] at hhead
  exact absurd (Prod.mk.inj (Option.some.inj hhead)).1 (by decide)

end Bouncer.SynchroModelImport
