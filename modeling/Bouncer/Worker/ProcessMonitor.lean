import Bouncer.Worker.QueueHandlers

/-!
# The process monitor of the worker

`run` calls `startMonitor` when it starts a process and `stopMonitor` when the process closes, and does not wait for either.
Both wait for something themselves before they look at the table of records, while the handler of the message goes on and
sends the report or clears it.  What is between two awaits is one step, and the steps of all jobs come in any order.

Records of processes with one id are chained, and an interval timer belongs to each process that is being recorded.  So it
must be stopped before the next one is recorded, and before its record is sent or deleted.  Nothing makes sure of this, and
the clash queue forgets the report when its process fails.  `isSound` says which steps go right, and if all do then nothing is
left behind (`leavesNothing`).
-/

namespace Bouncer.Worker.ProcessMonitor

open Library.Fallible

variable {I : Type}

/-! ### Records -/

/-- An entry of `dataByRid`: the record of a process, or a report.  A number that is not one is `none`, and so is a return code
that is `null`. -/
inductive Record (I : Type) where
  | running (startMemory maxMemory startTime : ℤ) (processInfo : I) (prevRecord : Option (Record I)) (timer : ℕ)
  | report (processInfo : Option I) (ReturnCode : Option ℕ) (MaxMemory ProcessTime : Option ℤ)

namespace Record

/-- `prevRecord?.MaxMemory ?? 0`. -/
def prevMaxMemory : Option (Record I) → Option ℤ
  | some (report _ _ MaxMemory _) => MaxMemory
  | _ => some 0

/-- `prevRecord?.ProcessTime ?? 0`. -/
def prevProcessTime : Option (Record I) → Option ℤ
  | some (report _ _ _ ProcessTime) => ProcessTime
  | _ => some 0

/-- The report that `stopMonitor` makes.  A report has none of the fields that are read. -/
def stop (returnCode : Option ℕ) (now : ℤ) : Record I → Record I
  | running startMemory maxMemory startTime processInfo prevRecord _ =>
    report (some processInfo) returnCode ((prevMaxMemory prevRecord).map fun m => max (maxMemory - startMemory) m)
      ((prevProcessTime prevRecord).map fun t => t + (now - startTime))
  | report _ _ _ _ => report none returnCode none none

/-- The timer that `stopMonitor` clears. -/
def timer? : Record I → Option ℕ
  | running _ _ _ _ _ timer => some timer
  | report _ _ _ _ => none

def update (memory : ℤ) : Record I → Record I
  | running startMemory maxMemory startTime processInfo prevRecord timer =>
    running startMemory (max maxMemory memory) startTime processInfo prevRecord timer
  | report processInfo ReturnCode MaxMemory ProcessTime => report processInfo ReturnCode MaxMemory ProcessTime

def isRunning (record : Record I) : Bool := record.timer?.isSome

def CarriesCode : Record I → Prop
  | running _ _ _ _ _ _ => False
  | report _ ReturnCode _ _ => ReturnCode ≠ none

end Record

/-! ### Jobs -/

/-- A call of the monitor that waits. -/
inductive Task (I : Type) where
  /-- `startMonitor` for `shouldMonitor`. -/
  | checkStart (processInfo : I)
  /-- `startMonitor` for `getCurrentMemUsage`. -/
  | measureStart (processInfo : I)
  /-- `stopMonitor` for `shouldMonitor`. -/
  | checkStop (returnCode : Option ℕ)
  /-- `stopMonitor` for `sleep`. -/
  | sleepStop
  /-- `updateMemory` for `getCurrentMemUsage`. -/
  | measureUpdate

def Task.isStart : Task I → Bool
  | checkStart _ => true
  | measureStart _ => true
  | _ => false

/-- What the handler of a message waits for. -/
inductive HandlerState where
  | pause
  | running (program : Program)
  /-- The process has closed. -/
  | closed (program : Program) (result : Except Thrown ℕ)
  | access
  /-- `sendReport`, for `shouldMonitor`, for `createProcessRecord` and for `sleep`. -/
  | sendCheck
  | sendRecord
  | sendSleep
  /-- `clearReport`, for `shouldMonitor` and for `sleep`. -/
  | clearCheck
  | clearSleep
  /-- The pause before an invalid licence is thrown. -/
  | waitToThrow
  | finished

/-- The settings, and what is known of a message. -/
structure Setup (I : Type) where
  /-- What `shouldMonitor` gives. -/
  monitoring : Bool
  elasticEnabled : Bool
  queue : QueueLabel
  isPdf : Bool
  processInfo : I

/-- A message, and what the monitor has under its id. -/
structure Job (I : Type) where
  handler : HandlerState
  tasks : List (Task I)
  record : Option (Record I)
  timers : List ℕ
  nextTimer : ℕ
  sent : List (Record I)

namespace Job

/-- Before the message. -/
def idle : Job I := ⟨.finished, [], none, [], 0, []⟩

variable (setup : Setup I) (s : Job I)

/-- `run` starts a process. -/
def start (program : Program) : Job I :=
  { s with handler := .running program, tasks := s.tasks ++ [.checkStart setup.processInfo] }

/-- The process that comes first. -/
def firstProgram : Program :=
  match setup.queue with
  | .drawing => if setup.isPdf then .pdf2svg else .bouncer
  | _ => .bouncer

/-- What the handler does with an error. -/
def fail (err : Thrown) : Job I :=
  match setup.queue with
  | .clash => { s with handler := .finished }
  | _ => { s with handler := if err = .code ERRCODE_REPO_LICENCE_INVALID then .clearCheck else .sendCheck }

/-- The handler goes on.  `ok` says whether what it waits for, or does next, is without an error. -/
def resume (ok : Bool) : Option (Job I) :=
  match s.handler with
  | .pause => some (if ok then s.start setup (firstProgram setup) else s.fail setup .error)
  | .running _ => none
  | .closed _ (.error err) => some (s.fail setup err)
  | .closed .pdf2svg (.ok retVal) =>
    some (if retVal = ERRCODE_OK then { s with handler := .access } else s.start setup .bouncer)
  | .closed .bouncer (.ok _) => some { s with handler := .sendCheck }
  | .access => some (if ok then s.start setup .bouncer else s.fail setup (.code ERRCODE_IMAGE_PROCESSING_FAILED))
  | .sendCheck =>
    match setup.monitoring, s.record with
    | true, some report =>
      some (if setup.elasticEnabled then { s with handler := .sendRecord, sent := s.sent ++ [report] }
        else { s with handler := .sendSleep })
    | _, _ => some { s with handler := .finished }
  | .sendRecord => some { s with handler := .sendSleep }
  | .sendSleep => some { s with handler := .finished, record := none }
  | .clearCheck =>
    match setup.monitoring, s.record with
    | true, some _ => some { s with handler := .clearSleep }
    | _, _ => some { s with handler := .waitToThrow }
  | .clearSleep => some { s with handler := .waitToThrow, record := none }
  | .waitToThrow => some { s with handler := .finished }
  | .finished => none

/-- The codes with which a process ends well, besides zero. -/
def codesAsSuccess : Program → List ℕ
  | .bouncer => BOUNCER_SOFT_FAILS
  | .pdf2svg => []

/-- The process closes. -/
def close (code : Option ℕ) (isTimeout : Bool) : Option (Job I) :=
  match s.handler with
  | .running program =>
    some { s with
      handler := .closed program (exitResult (codesAsSuccess program) code isTimeout)
      tasks := s.tasks ++ [.checkStop (if isTimeout then some ERRCODE_TIMEOUT else code)] }
  | _ => none

/-- A waiting call of the monitor goes on, when the memory and the time are these. -/
def continueTask (task : Task I) (memory now : ℤ) : Job I :=
  match task with
  | .checkStart processInfo => if setup.monitoring then { s with tasks := s.tasks ++ [.measureStart processInfo] } else s
  | .measureStart processInfo =>
    { s with
      record := some (.running memory memory now processInfo s.record s.nextTimer)
      timers := s.nextTimer :: s.timers
      nextTimer := s.nextTimer + 1 }
  | .checkStop returnCode =>
    match setup.monitoring, s.record with
    | true, some record =>
      { s with
        record := some (record.stop returnCode now)
        timers := s.timers.filter fun timer => record.timer? ≠ some timer
        tasks := s.tasks ++ [.sleepStop] }
    | _, _ => s
  | .sleepStop => s
  | .measureUpdate => { s with record := s.record.map (Record.update memory) }

/-- An interval timer calls `updateMemory`. -/
def tick (timer : ℕ) : Option (Job I) :=
  if timer ∈ s.timers then
    some (if s.record.isSome then { s with tasks := s.tasks ++ [.measureUpdate] } else s)
  else none

end Job

/-! ### Steps -/

inductive Action where
  /-- A message is delivered, or delivered again. -/
  | message (decoded : Bool)
  | handler (ok : Bool)
  | close (code : Option ℕ) (isTimeout : Bool)
  | task (i : ℕ) (memory now : ℤ)
  | tick (timer : ℕ)

def step (setup : Setup I) (s : Job I) : Action → Option (Job I)
  | .message decoded =>
    match s.handler with
    | .finished => some (if decoded then { s with handler := .pause } else s)
    | _ => none
  | .handler ok => s.resume setup ok
  | .close code isTimeout => s.close code isTimeout
  | .task i memory now => s.tasks[i]?.map fun task => { s with tasks := s.tasks.eraseIdx i }.continueTask setup task memory now
  | .tick timer => s.tick timer

variable {Rid : Type} [DecidableEq Rid]

/-- A step of one of the jobs. -/
def stepOf (setup : Rid → Setup I) (s : Rid → Job I) (x : Rid × Action) : Option (Rid → Job I) :=
  (step (setup x.1) (s x.1) x.2).map (Function.update s x.1)

def initial : Rid → Job I := fun _ => Job.idle

/-! ### Sound steps -/

namespace Job

variable (s : Job I)

/-- Some `startMonitor` has not made its record yet. -/
def isStarting : Bool := s.tasks.any Task.isStart

/-- The record is that of a process that has not been stopped. -/
def isRecording : Bool := s.record.any Record.isRunning

/-- The handler has ended and nothing waits. -/
def IsQuiet : Prop := s.handler = .finished ∧ s.tasks = []

/-- There is neither a record nor a timer. -/
def IsClean : Prop := s.record = none ∧ s.timers = []

end Job

def isClash : QueueLabel → Bool
  | .clash => true
  | _ => false

/-- The step goes right: a record is made, sent, or deleted when no other process is being recorded, a process is stopped when
it is, a report is not missed while `startMonitor` waits, the process of the clash queue ends well, and a process whose report is
stored has an exit code. -/
def isSound (setup : Setup I) (s : Job I) (a : Action) : Bool :=
  !setup.monitoring || match a with
  | .message _ => true
  | .handler _ =>
    match s.handler with
    | .closed _ (.error _) => !isClash setup.queue
    | .sendCheck => !(s.record.isNone && s.isStarting) && !(setup.elasticEnabled && s.isRecording)
    | .clearCheck => !(s.record.isNone && s.isStarting)
    | .sendSleep => !s.isStarting && !s.isRecording
    | .clearSleep => !s.isStarting && !s.isRecording
    | _ => true
  | .close code isTimeout => !setup.elasticEnabled || isTimeout || code.isSome
  | .task i _ _ =>
    match s.tasks[i]? with
    | some (.measureStart _) => !s.isRecording
    | some (.checkStop _) => s.isRecording
    | _ => true
  | .tick _ => true

/-- A step that is sound in the state in which it is taken. -/
def soundStepOf (setup : Rid → Setup I) (s : Rid → Job I) (x : Rid × Action) : Option (Rid → Job I) :=
  if isSound (setup x.1) (s x.1) x.2 then stepOf setup s x else none

/-! ### The invariant -/

def Task.isStop : Task I → Bool
  | checkStop _ => true
  | _ => false

namespace HandlerState

/-- A process runs. -/
def isLive : HandlerState → Bool
  | running _ => true
  | _ => false

/-- No process has been started, or the report is gone. -/
def isOver : HandlerState → Bool
  | pause => true
  | waitToThrow => true
  | finished => true
  | _ => false

/-- The image of a drawing is being made. -/
def isImage : HandlerState → Bool
  | running .pdf2svg => true
  | closed .pdf2svg _ => true
  | access => true
  | _ => false

end HandlerState

/-- Every process that was started is being started or recorded until it is stopped. -/
structure Inv (setup : Setup I) (s : Job I) : Prop where
  balance : s.tasks.countP Task.isStart + s.isRecording.toNat = s.tasks.countP Task.isStop + s.handler.isLive.toNat
  timers : s.timers = (s.record.bind Record.timer?).toList
  ended : s.handler.isOver = true → s.record = none ∧ s.isStarting = false
  image : s.handler.isImage = true → isClash setup.queue = false
  stopCode : setup.elasticEnabled = true → ∀ code, Task.checkStop code ∈ s.tasks → code ≠ none
  recordCode : setup.elasticEnabled = true → ∀ record ∈ s.record, record.isRunning = false → record.CarriesCode
  sentCode : ∀ record ∈ s.sent, record.CarriesCode

namespace Inv

variable {setup : Setup I} {s : Job I}

private theorem idle : Inv setup Job.idle where
  balance := rfl
  timers := rfl
  ended _ := ⟨rfl, rfl⟩
  image := nofun
  stopCode _ _ h := absurd h List.not_mem_nil
  recordCode _ _ h := nomatch h
  sentCode _ h := absurd h List.not_mem_nil

/-- The handler goes on while no process runs. -/
theorem goOn (h : Inv setup s) {handler : HandlerState} (hlive : s.handler.isLive = false)
    (hlive' : handler.isLive = false) (hover : handler.isOver = true → s.record = none ∧ s.isStarting = false)
    (himage : handler.isImage = true → isClash setup.queue = false) : Inv setup { s with handler := handler } where
  balance := by
    have hbalance := h.balance
    rw [hlive] at hbalance
    rw [hlive']
    exact hbalance
  timers := h.timers
  ended := hover
  image := himage
  stopCode := h.stopCode
  recordCode := h.recordCode
  sentCode := h.sentCode

private theorem start (h : Inv setup s) {program : Program} (hlive : s.handler.isLive = false)
    (himage : program = .pdf2svg → isClash setup.queue = false) : Inv setup (s.start setup program) where
  balance := by
    have hbalance := h.balance
    rw [hlive] at hbalance
    change (s.tasks ++ [Task.checkStart _]).countP _ + s.isRecording.toNat =
      (s.tasks ++ [Task.checkStart _]).countP _ + 1
    simp only [List.countP_append, List.countP_singleton, Task.isStart, Task.isStop, Bool.toNat_false] at hbalance ⊢
    simp only [if_true, Bool.false_eq_true, if_false]
    omega
  timers := h.timers
  ended := nofun
  image := by
    cases program with
    | bouncer => exact nofun
    | pdf2svg => exact fun _ => himage rfl
  stopCode he code hcode := by
    rcases List.mem_append.1 hcode with hcode | hcode
    · exact h.stopCode he code hcode
    · exact absurd (List.mem_singleton.1 hcode) nofun
  recordCode := h.recordCode
  sentCode := h.sentCode

/-- An error is caught, by the clash queue without a report. -/
theorem fail (h : Inv setup s) (err : Thrown) (hlive : s.handler.isLive = false)
    (hclash : isClash setup.queue = true → s.record = none ∧ s.isStarting = false) : Inv setup (s.fail setup err) := by
  unfold Job.fail
  cases hqueue : setup.queue with
  | clash => exact h.goOn hlive rfl (fun _ => hclash (by rw [hqueue]; rfl)) nofun
  | model =>
    dsimp only
    split <;> exact h.goOn hlive rfl nofun nofun
  | drawing =>
    dsimp only
    split <;> exact h.goOn hlive rfl nofun nofun

private theorem delete (h : Inv setup s) {handler : HandlerState} (hlive : s.handler.isLive = false)
    (hlive' : handler.isLive = false) (himage : handler.isImage = false) (hstarting : s.isStarting = false)
    (hrecording : s.isRecording = false) : Inv setup { s with handler := handler, record := none } where
  balance := by
    have hbalance := h.balance
    rw [hlive, hrecording] at hbalance
    rw [hlive']
    exact hbalance
  timers := by
    have htimers := h.timers
    unfold Job.isRecording at hrecording
    cases hrecord : s.record with
    | none => rw [hrecord] at htimers; exact htimers
    | some record =>
      rw [hrecord] at htimers hrecording
      cases record with
      | running => cases hrecording
      | report => exact htimers
  ended _ := ⟨rfl, hstarting⟩
  image himage' := absurd (himage.symm.trans himage') nofun
  stopCode := h.stopCode
  recordCode _ _ hrecord := nomatch hrecord
  sentCode := h.sentCode

theorem resume (h : Inv setup s) (hmonitoring : setup.monitoring = true) {ok : Bool} {s' : Job I}
    (hsound : isSound setup s (.handler ok) = true) (hs : s.resume setup ok = some s') : Inv setup s' := by
  have hover := h.ended
  have himage := h.image
  unfold isSound at hsound
  rw [hmonitoring, Bool.not_true, Bool.false_or] at hsound
  obtain ⟨handler, tasks, record, timers, nextTimer, sent⟩ := s
  cases handler with
  | pause =>
    obtain rfl := Option.some.inj hs
    split
    · refine h.start rfl fun hprogram => ?_
      unfold Job.firstProgram at hprogram
      cases hqueue : setup.queue with
      | drawing => rfl
      | model =>
        rw [hqueue] at hprogram
        cases hprogram
      | clash =>
        rw [hqueue] at hprogram
        cases hprogram
    · exact h.fail .error rfl fun _ => hover rfl
  | running program => cases hs
  | closed program result =>
    cases result with
    | error err =>
      obtain rfl := Option.some.inj hs
      refine h.fail err rfl fun hclash => ?_
      dsimp only at hsound
      rw [hclash] at hsound
      cases hsound
    | ok retVal =>
      cases program with
      | bouncer =>
        obtain rfl := Option.some.inj hs
        exact h.goOn rfl rfl nofun nofun
      | pdf2svg =>
        obtain rfl := Option.some.inj hs
        split
        · exact h.goOn rfl rfl nofun fun _ => himage rfl
        · exact h.start rfl nofun
  | access =>
    obtain rfl := Option.some.inj hs
    split
    · exact h.start rfl nofun
    · refine h.fail _ rfl fun hclash => ?_
      rw [himage rfl] at hclash
      cases hclash
  | sendCheck =>
    unfold Job.resume at hs
    dsimp only at hs hsound
    rw [hmonitoring] at hs
    rw [Bool.and_eq_true] at hsound
    cases record with
    | none =>
      obtain rfl := Option.some.inj hs
      exact h.goOn rfl rfl (fun _ => ⟨rfl, by simpa using hsound.1⟩) nofun
    | some report =>
      obtain rfl := Option.some.inj hs
      split
      next helastic =>
        have hgo : Inv setup ⟨.sendRecord, tasks, some report, timers, nextTimer, sent⟩ := h.goOn rfl rfl nofun nofun
        -- what is sent is the report of a process that was stopped
        have hcode : report.CarriesCode := by
          have hnot := hsound.2
          rw [helastic] at hnot
          exact h.recordCode helastic report rfl (by simpa [Job.isRecording] using hnot)
        refine ⟨hgo.balance, hgo.timers, hgo.ended, hgo.image, hgo.stopCode, hgo.recordCode, fun record hmem => ?_⟩
        rcases List.mem_append.1 hmem with hmem | hmem
        · exact h.sentCode record hmem
        · exact List.mem_singleton.1 hmem ▸ hcode
      next => exact h.goOn rfl rfl nofun nofun
  | sendRecord =>
    obtain rfl := Option.some.inj hs
    exact h.goOn rfl rfl nofun nofun
  | sendSleep =>
    obtain rfl := Option.some.inj hs
    obtain ⟨hstarting, hrecording⟩ := Bool.and_eq_true_iff.1 hsound
    exact h.delete rfl rfl rfl (by simpa using hstarting) (by simpa using hrecording)
  | clearCheck =>
    unfold Job.resume at hs
    dsimp only at hs hsound
    rw [hmonitoring] at hs
    cases record with
    | none =>
      obtain rfl := Option.some.inj hs
      exact h.goOn rfl rfl (fun _ => ⟨rfl, by simpa using hsound⟩) nofun
    | some report =>
      obtain rfl := Option.some.inj hs
      exact h.goOn rfl rfl nofun nofun
  | clearSleep =>
    obtain rfl := Option.some.inj hs
    obtain ⟨hstarting, hrecording⟩ := Bool.and_eq_true_iff.1 hsound
    exact h.delete rfl rfl rfl (by simpa using hstarting) (by simpa using hrecording)
  | waitToThrow =>
    obtain rfl := Option.some.inj hs
    exact h.goOn rfl rfl (fun _ => hover rfl) nofun
  | finished => cases hs

private theorem close (h : Inv setup s) (hmonitoring : setup.monitoring = true) {code : Option ℕ} {isTimeout : Bool} {s' : Job I}
    (hsound : isSound setup s (.close code isTimeout) = true) (hs : s.close code isTimeout = some s') : Inv setup s' := by
  have hbalance := h.balance
  have himage := h.image
  unfold isSound at hsound
  rw [hmonitoring, Bool.not_true, Bool.false_or] at hsound
  obtain ⟨handler, tasks, record, timers, nextTimer, sent⟩ := s
  cases handler with
  | running program =>
    obtain rfl := Option.some.inj hs
    refine ⟨?_, h.timers, nofun, ?_, ?_, h.recordCode, h.sentCode⟩
    · simp only [HandlerState.isLive, Bool.toNat_true] at hbalance
      simp only [List.countP_append, List.countP_singleton, Task.isStart, Task.isStop, HandlerState.isLive,
        Bool.toNat_false, if_true, Bool.false_eq_true, if_false]
      exact hbalance
    · cases program with
      | bouncer => exact nofun
      | pdf2svg => exact fun _ => himage rfl
    · intro helastic code' hcode'
      rcases List.mem_append.1 hcode' with hcode' | hcode'
      · exact h.stopCode helastic code' hcode'
      · obtain rfl := (Task.checkStop.inj (List.mem_singleton.1 hcode'))
        cases isTimeout with
        | true => exact nofun
        | false => simpa [helastic, Option.isSome_iff_ne_none] using hsound
  | _ => cases hs

/-! ### Calls that go on -/

section Tasks

variable {i : ℕ} {task : Task I}

private theorem countP_tasks (htask : s.tasks[i]? = some task) (p : Task I → Bool) :
    s.tasks.countP p = (s.tasks.eraseIdx i).countP p + (p task).toNat := by
  obtain ⟨hi, rfl⟩ := List.getElem?_eq_some_iff.1 htask
  rw [← (List.getElem_cons_eraseIdx_perm hi).countP_eq p, List.countP_cons]
  cases p s.tasks[i] <;> rfl

private theorem not_over_of_isStart (h : Inv setup s) (htask : s.tasks[i]? = some task) (hstart : task.isStart = true) :
    s.handler.isOver = false := by
  by_contra hover
  have hnone := (h.ended (by simpa using hover)).2
  rw [Job.isStarting, List.any_eq_false] at hnone
  exact hnone task (List.mem_of_getElem? htask) hstart

private theorem drop (h : Inv setup s) (htask : s.tasks[i]? = some task) (hstart : task.isStart = false)
    (hstop : task.isStop = false) : Inv setup { s with tasks := s.tasks.eraseIdx i } where
  balance := by
    have hbalance := h.balance
    rw [countP_tasks htask, countP_tasks htask Task.isStop, hstart, hstop] at hbalance
    exact hbalance
  timers := h.timers
  ended hover := by
    obtain ⟨hrecord, hnone⟩ := h.ended hover
    refine ⟨hrecord, ?_⟩
    rw [Job.isStarting, List.any_eq_false] at hnone ⊢
    exact fun t ht => hnone t (List.mem_of_mem_eraseIdx ht)
  image := h.image
  stopCode helastic code hcode := h.stopCode helastic code (List.mem_of_mem_eraseIdx hcode)
  recordCode := h.recordCode
  sentCode := h.sentCode

private theorem checkStart (h : Inv setup s) {processInfo : I} (htask : s.tasks[i]? = some (.checkStart processInfo)) :
    Inv setup { s with tasks := s.tasks.eraseIdx i ++ [.measureStart processInfo] } where
  balance := by
    have hbalance := h.balance
    rw [countP_tasks htask, countP_tasks htask Task.isStop] at hbalance
    simp only [Task.isStart, Task.isStop, Bool.toNat_true, Bool.toNat_false] at hbalance
    simp only [List.countP_append, List.countP_singleton, Task.isStart, Task.isStop, if_true, Bool.false_eq_true, if_false]
    exact hbalance
  timers := h.timers
  ended hover := absurd ((h.not_over_of_isStart htask rfl).symm.trans hover) nofun
  image := h.image
  stopCode helastic code hcode := by
    rcases List.mem_append.1 hcode with hcode | hcode
    · exact h.stopCode helastic code (List.mem_of_mem_eraseIdx hcode)
    · exact absurd (List.mem_singleton.1 hcode) nofun
  recordCode := h.recordCode
  sentCode := h.sentCode

private theorem timers_of_not_recording (h : Inv setup s) (hrecording : s.isRecording = false) : s.timers = [] := by
  have htimers := h.timers
  unfold Job.isRecording at hrecording
  cases hrecord : s.record with
  | none =>
    rw [hrecord] at htimers
    exact htimers
  | some record =>
    rw [hrecord] at htimers hrecording
    cases record with
    | running => cases hrecording
    | report => exact htimers

private theorem measureStart (h : Inv setup s) {processInfo : I} (htask : s.tasks[i]? = some (.measureStart processInfo))
    (hrecording : s.isRecording = false) (memory now : ℤ) :
    Inv setup ({ s with tasks := s.tasks.eraseIdx i }.continueTask setup (.measureStart processInfo) memory now) where
  balance := by
    have hbalance := h.balance
    rw [countP_tasks htask, countP_tasks htask Task.isStop, hrecording] at hbalance
    exact hbalance
  timers := by
    change s.nextTimer :: s.timers = [s.nextTimer]
    rw [h.timers_of_not_recording hrecording]
  ended hover := absurd ((h.not_over_of_isStart htask rfl).symm.trans hover) nofun
  image := h.image
  stopCode helastic code hcode := h.stopCode helastic code (List.mem_of_mem_eraseIdx hcode)
  recordCode _ record hrecord hrunning := by
    obtain rfl := Option.some.inj hrecord
    cases hrunning
  sentCode := h.sentCode

/-- The process is stopped that is being recorded. -/
theorem checkStop (h : Inv setup s) (hmonitoring : setup.monitoring = true) {returnCode : Option ℕ}
    (htask : s.tasks[i]? = some (.checkStop returnCode)) (hrecording : s.isRecording = true) (memory now : ℤ) :
    Inv setup ({ s with tasks := s.tasks.eraseIdx i }.continueTask setup (.checkStop returnCode) memory now) := by
  have hbalance := h.balance
  have htimers := h.timers
  have hover := h.ended
  rw [countP_tasks htask, countP_tasks htask Task.isStop, hrecording] at hbalance
  simp only [Task.isStart, Task.isStop, Bool.toNat_true, Bool.toNat_false] at hbalance
  obtain ⟨handler, tasks, record, timers, nextTimer, sent⟩ := s
  cases record with
  | none => cases hrecording
  | some record =>
    cases record with
    | report => cases hrecording
    | running startMemory maxMemory startTime processInfo prevRecord timer =>
      obtain rfl : timers = [timer] := htimers
      dsimp only at hbalance
      unfold Job.continueTask
      rw [hmonitoring]
      refine ⟨?_, ?_, fun hover' => ?_, h.image, ?_, ?_, h.sentCode⟩
      · simp only [List.countP_append, List.countP_singleton, Task.isStart, Task.isStop, Bool.false_eq_true, if_false]
        change _ + 0 = _
        omega
      · simp [Record.timer?, Record.stop]
      · cases (hover hover').1
      · intro helastic code hcode
        rcases List.mem_append.1 hcode with hcode | hcode
        · exact h.stopCode helastic code (List.mem_of_mem_eraseIdx hcode)
        · exact absurd (List.mem_singleton.1 hcode) nofun
      · intro helastic record hrecord _
        obtain rfl := Option.some.inj hrecord
        exact h.stopCode helastic returnCode (List.mem_of_getElem? htask)

private theorem measureUpdate (h : Inv setup s) (memory : ℤ) : Inv setup { s with record := s.record.map (Record.update memory) } := by
  obtain ⟨handler, tasks, record, timers, nextTimer, sent⟩ := s
  cases record with
  | none => exact h
  | some record =>
    cases record with
    | report => exact h
    | running =>
      refine ⟨h.balance, h.timers, fun hover => ?_, h.image, h.stopCode, ?_, h.sentCode⟩
      · cases (h.ended hover).1
      · intro _ record hrecord hrunning
        obtain rfl := Option.some.inj hrecord
        cases hrunning

theorem continueTask (h : Inv setup s) (hmonitoring : setup.monitoring = true) {memory now : ℤ}
    (hsound : isSound setup s (.task i memory now) = true) (htask : s.tasks[i]? = some task) :
    Inv setup ({ s with tasks := s.tasks.eraseIdx i }.continueTask setup task memory now) := by
  unfold isSound at hsound
  rw [hmonitoring, Bool.not_true, Bool.false_or] at hsound
  dsimp only at hsound
  rw [htask] at hsound
  cases task with
  | checkStart processInfo =>
    unfold Job.continueTask
    rw [hmonitoring]
    exact h.checkStart htask
  | measureStart processInfo => exact h.measureStart htask (by simpa using hsound) memory now
  | checkStop returnCode => exact h.checkStop hmonitoring htask hsound memory now
  | sleepStop => exact h.drop htask rfl rfl
  | measureUpdate => exact (h.drop htask rfl rfl).measureUpdate memory

end Tasks

private theorem tick (h : Inv setup s) {timer : ℕ} {s' : Job I} (hs : s.tick timer = some s') : Inv setup s' := by
  unfold Job.tick at hs
  split at hs
  · obtain rfl := Option.some.inj hs
    split
    next hsome =>
      refine ⟨?_, h.timers, fun hover => ?_, h.image, fun helastic code hcode => ?_, h.recordCode, h.sentCode⟩
      · have hbalance := h.balance
        simp only [List.countP_append, List.countP_singleton, Task.isStart, Task.isStop, Bool.false_eq_true, if_false]
        exact hbalance
      · rw [(h.ended hover).1] at hsome
        cases hsome
      · rcases List.mem_append.1 hcode with hcode | hcode
        · exact h.stopCode helastic code hcode
        · exact absurd (List.mem_singleton.1 hcode) nofun
    next => exact h
  · cases hs

/-- A sound step keeps the invariant. -/
theorem step (h : Inv setup s) (hmonitoring : setup.monitoring = true) {a : Action} {s' : Job I}
    (hsound : isSound setup s a = true) (hs : step setup s a = some s') : Inv setup s' := by
  cases a with
  | message decoded =>
    have hover := h.ended
    obtain ⟨handler, tasks, record, timers, nextTimer, sent⟩ := s
    cases handler with
    | finished =>
      obtain rfl := Option.some.inj hs
      split
      · exact h.goOn rfl rfl (fun _ => hover rfl) nofun
      · exact h
    | _ => cases hs
  | handler ok => exact h.resume hmonitoring hsound hs
  | close code isTimeout => exact h.close hmonitoring hsound hs
  | task i memory now =>
    obtain ⟨task, htask, rfl⟩ := Option.map_eq_some_iff.1 hs
    exact h.continueTask hmonitoring hsound htask
  | tick timer => exact h.tick hs

end Inv

/-! ### Without monitoring -/

/-- Nothing is recorded. -/
structure Idle (s : Job I) : Prop where
  record : s.record = none
  timers : s.timers = []
  sent : s.sent = []
  tasks : ∀ processInfo, Task.measureStart processInfo ∉ s.tasks

namespace Idle

variable {setup : Setup I} {s s' : Job I}

private theorem concat (h : Idle s) (task : Task I) (htask : ∀ processInfo, task ≠ .measureStart processInfo)
    (handler : HandlerState) : Idle { s with handler := handler, tasks := s.tasks ++ [task] } := by
  refine ⟨h.record, h.timers, h.sent, fun processInfo hmem => ?_⟩
  rcases List.mem_append.1 hmem with hmem | hmem
  · exact h.tasks processInfo hmem
  · exact htask processInfo (List.mem_singleton.1 hmem).symm

theorem goOn (h : Idle s) (handler : HandlerState) : Idle { s with handler := handler } :=
  ⟨h.record, h.timers, h.sent, h.tasks⟩

theorem fail (h : Idle s) (err : Thrown) : Idle (s.fail setup err) := by
  unfold Job.fail
  split <;> exact h.goOn _

theorem resume (h : Idle s) (hmonitoring : setup.monitoring = false) {ok : Bool} (hs : s.resume setup ok = some s') :
    Idle s' := by
  have hstart : ∀ program, Idle (s.start setup program) := fun program =>
    h.concat (.checkStart setup.processInfo) nofun _
  unfold Job.resume at hs
  split at hs
  · obtain rfl := Option.some.inj hs
    split
    · exact hstart _
    · exact h.fail _
  · cases hs
  · obtain rfl := Option.some.inj hs
    exact h.fail _
  · obtain rfl := Option.some.inj hs
    split
    · exact h.goOn _
    · exact hstart _
  · obtain rfl := Option.some.inj hs
    exact h.goOn _
  · obtain rfl := Option.some.inj hs
    split
    · exact hstart _
    · exact h.fail _
  · rw [hmonitoring] at hs
    obtain rfl := Option.some.inj hs
    exact h.goOn _
  · obtain rfl := Option.some.inj hs
    exact h.goOn _
  · obtain rfl := Option.some.inj hs
    exact ⟨rfl, h.timers, h.sent, h.tasks⟩
  · rw [hmonitoring] at hs
    obtain rfl := Option.some.inj hs
    exact h.goOn _
  · obtain rfl := Option.some.inj hs
    exact ⟨rfl, h.timers, h.sent, h.tasks⟩
  · obtain rfl := Option.some.inj hs
    exact h.goOn _
  · cases hs

theorem continueTask (h : Idle s) (hmonitoring : setup.monitoring = false) {i : ℕ} {task : Task I}
    (htask : s.tasks[i]? = some task) (memory now : ℤ) :
    Idle ({ s with tasks := s.tasks.eraseIdx i }.continueTask setup task memory now) := by
  have herase : Idle { s with tasks := s.tasks.eraseIdx i } :=
    ⟨h.record, h.timers, h.sent, fun processInfo hmem => h.tasks processInfo (List.mem_of_mem_eraseIdx hmem)⟩
  unfold Job.continueTask
  rw [hmonitoring]
  cases task with
  | checkStart => exact herase
  | measureStart processInfo => exact absurd (List.mem_of_getElem? htask) (h.tasks processInfo)
  | checkStop => exact herase
  | sleepStop => exact herase
  | measureUpdate => exact ⟨by simp [h.record], herase.timers, herase.sent, herase.tasks⟩

theorem step (h : Idle s) (hmonitoring : setup.monitoring = false) {a : Action} (hs : step setup s a = some s') :
    Idle s' := by
  cases a with
  | message decoded =>
    obtain ⟨handler, tasks, record, timers, nextTimer, sent⟩ := s
    cases handler with
    | finished =>
      obtain rfl := Option.some.inj hs
      split
      · exact h.goOn .pause
      · exact h
    | _ => cases hs
  | handler ok => exact h.resume hmonitoring hs
  | close code isTimeout =>
    change s.close code isTimeout = some s' at hs
    unfold Job.close at hs
    split at hs
    · obtain rfl := Option.some.inj hs
      exact h.concat (.checkStop _) nofun _
    · cases hs
  | task i memory now =>
    obtain ⟨task, htask, rfl⟩ := Option.map_eq_some_iff.1 hs
    exact h.continueTask hmonitoring htask memory now
  | tick timer =>
    change s.tick timer = some s' at hs
    rw [Job.tick, h.timers, if_neg List.not_mem_nil] at hs
    cases hs

end Idle

/-! ### Nothing is left behind -/

/-- What is sent carries a return code, and in the end there is neither a record nor a timer. -/
structure LeavesNothing (s : Job I) : Prop where
  sent : ∀ record ∈ s.sent, record.CarriesCode
  clean : s.IsQuiet → s.IsClean

theorem Inv.nothingLeft {setup : Setup I} {s : Job I} (h : Inv setup s) : LeavesNothing s where
  sent := h.sentCode
  clean hquiet := by
    obtain ⟨hrecord, -⟩ := h.ended (by rw [hquiet.1]; rfl)
    refine ⟨hrecord, ?_⟩
    rw [h.timers, hrecord]
    rfl

theorem Idle.nothingLeft {s : Job I} (h : Idle s) : LeavesNothing s where
  sent record hrecord := by
    rw [h.sent] at hrecord
    exact absurd hrecord List.not_mem_nil
  clean _ := ⟨h.record, h.timers⟩

/-- If every step is sound in the state in which it is taken, nothing is left behind by any job. -/
theorem leavesNothing (setup : Rid → Setup I) (steps : List (Rid × Action)) (s : Rid → Job I)
    (h : steps.foldlM (soundStepOf setup) initial = some s) (rid : Rid) : LeavesNothing (s rid) := by
  have hkept : ∀ rid, if (setup rid).monitoring then Inv (setup rid) (s rid) else Idle (s rid) := by
    refine foldlM_keeps (Q := fun s => ∀ rid, if (setup rid).monitoring then Inv (setup rid) (s rid) else Idle (s rid))
      ?_ h ?_
    · intro s x s' hs hkept rid
      unfold soundStepOf at hs
      split at hs
      next hsound =>
        obtain ⟨job, hjob, rfl⟩ := Option.map_eq_some_iff.1 hs
        by_cases hrid : rid = x.1
        · subst hrid
          have hkept := hkept x.1
          rw [Function.update_self]
          split at hkept
          next hmonitoring => exact if_pos hmonitoring ▸ hkept.step hmonitoring hsound hjob
          next hmonitoring => exact if_neg hmonitoring ▸ hkept.step (by simpa using hmonitoring) hjob
        · rw [Function.update_of_ne hrid]
          exact hkept rid
      next => cases hs
    · intro rid
      split
      · exact .idle
      · exact ⟨rfl, rfl, rfl, nofun⟩
  have hkept := hkept rid
  split at hkept
  · exact hkept.nothingLeft
  · exact hkept.nothingLeft

/-! ### A drawing and two failures -/

section Runs

def plan (queue : QueueLabel) : ℕ → Setup String := fun _ => ⟨true, true, queue, true, "plan"⟩

/-- The job with the id zero does this. -/
def alone (actions : List Action) : List (ℕ × Action) := actions.map fun a => (0, a)

/-- The image of a drawing is made and then the drawing, and one report is sent for both. -/
def drawingRun : List (ℕ × Action) :=
  alone [.message true, .handler true, .task 0 0 0, .task 0 100 1000, .tick 0, .close (some 0) false, .task 1 0 2000,
    .handler true, .handler true, .task 0 120 0, .task 1 0 0, .task 1 90 3000, .task 0 0 0, .close (some 0) false,
    .handler true, .task 0 0 4000, .handler true, .handler true, .task 0 0 0, .handler true]

theorem leavesNothing_drawing : ∃ s, drawingRun.foldlM (soundStepOf (plan .drawing)) initial = some s ∧
    LeavesNothing (s 0) := by
  have hrun : (drawingRun.foldlM (soundStepOf (plan .drawing)) initial).isSome = true := by decide +kernel
  exact ⟨_, (Option.some_get hrun).symm, leavesNothing (plan .drawing) drawingRun _ (Option.some_get hrun).symm 0⟩

/-- The process of the clash queue fails. -/
def clashRun : List (ℕ × Action) :=
  alone [.message true, .handler true, .task 0 0 0, .task 0 100 1000, .close (some 1) false, .task 0 0 2000, .task 0 0 0,
    .handler true]

/-- The process closes before `startMonitor` has measured the memory. -/
def earlyRun : List (ℕ × Action) :=
  alone [.message true, .handler true, .task 0 0 0, .close (some 0) false, .task 1 0 1000, .handler true, .handler true,
    .task 0 100 2000]

/-- A signal ends the process. -/
def killedRun : List (ℕ × Action) :=
  alone [.message true, .handler true, .task 0 0 0, .task 0 100 1000, .close none false, .task 0 0 2000, .handler true,
    .handler true]

/-- What `LeavesNothing` says, for a job whose state is computed. -/
def Job.leaves (s : Job String) : Bool :=
  (s.sent.any fun
    | .report _ none _ _ => true
    | .running _ _ _ _ _ _ => true
    | _ => false) ||
  (s.handler matches .finished) && s.tasks.isEmpty && (s.record.isSome || !s.timers.isEmpty)

private theorem not_leavesNothing {s : Job String} (h : s.leaves = true) : ¬ LeavesNothing s := by
  intro hnothing
  unfold Job.leaves at h
  rw [Bool.or_eq_true, List.any_eq_true] at h
  rcases h with ⟨record, hmem, hrecord⟩ | h
  · have hcode := hnothing.sent record hmem
    cases record with
    | running => exact hcode
    | report processInfo ReturnCode =>
      cases ReturnCode with
      | none => exact hcode rfl
      | some code => cases hrecord
  · obtain ⟨handler, tasks, record, timers, nextTimer, sent⟩ := s
    simp only [Bool.and_eq_true, List.isEmpty_iff] at h
    obtain ⟨⟨hhandler, rfl⟩, hleft⟩ := h
    cases handler with
    | finished =>
      obtain ⟨hrecord, htimers⟩ := hnothing.clean ⟨rfl, rfl⟩
      dsimp only at hrecord htimers
      subst hrecord htimers
      cases hleft
    | _ => cases hhandler

/-- The clash queue leaves its report, a monitor that starts late leaves its record and its timer, and the report of a process
that was killed is sent without a return code. -/
theorem not_leavesNothing_runs :
    (∃ s, clashRun.foldlM (stepOf (plan .clash)) initial = some s ∧ ¬ LeavesNothing (s 0)) ∧
    (∃ s, earlyRun.foldlM (stepOf (plan .model)) initial = some s ∧ ¬ LeavesNothing (s 0)) ∧
    ∃ s, killedRun.foldlM (stepOf (plan .model)) initial = some s ∧ ¬ LeavesNothing (s 0) := by
  have hleaves : ∀ o : Option (ℕ → Job String), (o.any fun s => (s 0).leaves) = true →
      ∃ s, o = some s ∧ ¬ LeavesNothing (s 0) := by
    intro o ho
    cases o with
    | none => cases ho
    | some s => exact ⟨s, rfl, not_leavesNothing ho⟩
  exact ⟨hleaves _ (by decide +kernel), hleaves _ (by decide +kernel), hleaves _ (by decide +kernel)⟩

end Runs

end Bouncer.Worker.ProcessMonitor
