import Bouncer.Worker.MessageDecoder

/-!
# The queues of the worker

The handler of a queue decodes a message, says that it is being processed, runs the programs, and replies with an error
code.  If the handler ends well the message is acknowledged, and if it throws the message goes back to the queue, which is
meant for an invalid licence only.

But an error need not be a code.  On the model queue a file that is missing, or that the command does not have, gives an
`Error` for a value, and on the clash queue a command without a file of settings throws outside the `try`, so that its
message comes back for ever.  `settledOnce_iff` says when a message is settled as it should be.
-/

namespace Bouncer.Worker

/-- What is sent back.  `undefined` is left out.  The message of an `Error` is a text of its library. -/
structure Reply where
  value : Option Thrown := none
  status : Option Text := none
  type : Option Text := none
  results : Option Text := none
  message : Option Thrown := none
  teamspace : JsValue := none
  container : JsValue := none
  project : JsValue := none
  drawing : JsValue := none
  user : JsValue := none

/-- The replies, and the programs that were run. -/
structure Progress where
  replies : List Reply
  spawned : List (Program × Outcome)

/-- An asynchronous function that may throw. -/
abbrev Handler := EStateM Thrown Progress

inductive QueueLabel where
  | model
  | drawing
  | clash

/-- Whether a message is acknowledged, or goes back to its queue. -/
inductive Settlement where
  | ack
  | nack
  deriving DecidableEq

def PROCESSING : Text := "processing".toList
def CLASH : Text := "clash".toList
def IMPORT : Text := "import".toList
def DRAWING : Text := "drawing".toList
def MODEL : Text := "model".toList

def callback (reply : Reply) : Handler Unit := modify fun s => { s with replies := s.replies ++ [reply] }

def orThrow {α : Type} : Except Thrown α → Handler α
  | .ok a => pure a
  | .error err => throw err

/-- `err || ERRCODE_BOUNCER_CRASH`. -/
def Thrown.orCrash : Thrown → Thrown
  | .code 0 => .code ERRCODE_BOUNCER_CRASH
  | err => err

variable (m : Machine)

/-! ### Running programs -/

/-- `run`.  The parameters are joined for the log before there is a process. -/
def run (program : Program) (params : List JsValue) (codesAsSuccess : List ℕ) : Handler ℕ :=
  if params.all fun param => param.all convertible then
    match m.spawn program params with
    | .refused => throw .error
    | .closed code isTimeout => do
      modify fun s => { s with spawned := s.spawned ++ [(program, .closed code isTimeout)] }
      if isTimeout then throw (.code ERRCODE_TIMEOUT)
      else
        match code with
        | some code => if code = 0 ∨ code ∈ codesAsSuccess then return code else throw (.code code)
        | none => throw (.code ERRCODE_UNKNOWN_ERROR)
  else throw .error

def runBouncerCommand (cmdParams : List Text) : Handler ℕ := run m .bouncer (cmdParams.map JsValue.text) BOUNCER_SOFT_FAILS

def pdf2svgParams (file : JsValue) (output : Text) : List JsValue := [file, JsValue.text output, JsValue.text "all".toList]

def generateSVG (file : JsValue) (output : Text) : Handler ℕ := do
  let retVal ← run m .pdf2svg (pdf2svgParams file output) []
  if retVal ≠ ERRCODE_OK then return retVal
  else if m.access output then return ERRCODE_OK
  else throw (.code ERRCODE_IMAGE_PROCESSING_FAILED)

/-! ### The handlers -/

/-- What the handlers of models and of drawings try.  If the licence is invalid they throw, so that the message goes back. -/
def replyOrRequeue (returnMessage : Reply) (work : Handler ℕ) : Handler Unit :=
  tryCatch
    (do
      let value ← work
      callback { returnMessage with value := some (.code value) })
    fun err =>
      if err = .code ERRCODE_REPO_LICENCE_INVALID then throw err
      else callback { returnMessage with value := some err.orCrash }

/-- `fs.statSync`, of any value. -/
def statSync : JsValue → Except Thrown ℕ
  | some (.scalar (.string path)) => orError (m.statSync path)
  | _ => .error .error

namespace ModelQueue

def work (decoded : Decoded) : Handler ℕ := do
  let _ ← orThrow (statSync m decoded.file)
  runBouncerCommand m decoded.cmdParams

def onMessageReceived (cmd : Text) : Handler Unit :=
  let decoded := messageDecoder m cmd
  match decoded.errorCode with
  | some errorCode => callback { value := some (.code errorCode) }
  | none => do
    callback { status := some PROCESSING, type := some MODEL, teamspace := decoded.teamspace, container := decoded.container }
    replyOrRequeue
      { value := some (.code ERRCODE_OK), teamspace := decoded.teamspace, container := decoded.container,
        user := decoded.user, type := some IMPORT }
      (work m decoded)

end ModelQueue

namespace DrawingQueue

/-- Where the image is put: in the log directory of the message. -/
def svgPath (rid : Text) : Text := m.join [m.join [m.taskLogDir, rid], rid ++ ".svg".toList]

def isPdf (decoded : Decoded) : Bool :=
  match decoded.format with
  | some (.scalar (.string format)) => decide (format = ".pdf".toList)
  | _ => false

def work (rid : Text) (decoded : Decoded) : Handler ℕ := do
  if isPdf decoded then
    let _ ← generateSVG m decoded.file (svgPath m rid)
    runBouncerCommand m (decoded.cmdParams ++ [svgPath m rid])
  else runBouncerCommand m decoded.cmdParams

def onMessageReceived (cmd rid : Text) : Handler Unit :=
  let decoded := messageDecoder m cmd
  match decoded.errorCode with
  | some errorCode => callback { value := some (.code errorCode) }
  | none => do
    callback { status := some PROCESSING, teamspace := decoded.teamspace, drawing := decoded.drawing }
    replyOrRequeue
      { value := some (.code ERRCODE_OK), teamspace := decoded.teamspace, drawing := decoded.drawing, user := decoded.user,
        type := some DRAWING }
      (work m rid decoded)

end DrawingQueue

namespace ClashQueue

/-- The results are put beside the file of settings. -/
def resultsFile (configFile : Text) : Text := m.join [m.dirname configFile, "results.json".toList]

def bouncerParams (decoded : Decoded) (configFile : Text) : List Text :=
  decoded.cmdParams ++
    ["clash".toList, replaceSharedDirTag m configFile, replaceSharedDirTag m (resultsFile m configFile)]

def onMessageReceived (cmd : Text) : Handler Unit :=
  let decoded := messageDecoder m cmd
  match decoded.errorCode with
  | some errorCode => callback { value := some (.code errorCode) }
  | none => do
    callback { status := some PROCESSING, type := some CLASH, teamspace := decoded.teamspace, project := decoded.project }
    -- `path.dirname` throws if there is no file of settings
    let configFile ← orThrow (orError decoded.configFile)
    let returnMessage : Reply :=
      { value := some (.code ERRCODE_OK), results := some (resultsFile m configFile), teamspace := decoded.teamspace,
        project := decoded.project, type := some CLASH }
    let returnMessage ← tryCatch
      (do
        let value ← runBouncerCommand m (bouncerParams m decoded configFile)
        return { returnMessage with value := some (.code value) })
      fun err => return { returnMessage with value := some err, message := some err }
    callback returnMessage

end ClashQueue

/-- The handler of a queue. -/
def onMessageReceived : QueueLabel → Text → Text → Handler Unit
  | .model, cmd, _ => ModelQueue.onMessageReceived m cmd
  | .drawing, cmd, rid => DrawingQueue.onMessageReceived m cmd rid
  | .clash, cmd, _ => ClashQueue.onMessageReceived m cmd

/-- What is done when a handler has ended. -/
def settle : EStateM.Result Thrown Progress Unit → Progress × Settlement
  | .ok _ progress => (progress, .ack)
  | .error _ progress => (progress, .nack)

/-- `listenToQueue`: what becomes of a message with this correlation id. -/
def consume (queue : QueueLabel) (cmd rid : Text) : Progress × Settlement :=
  settle (onMessageReceived m queue cmd rid ⟨[], []⟩)

/-! ### What is to become of a message -/

/-- The replies with a value. -/
def Progress.finalReplies (progress : Progress) : List Reply := progress.replies.filter fun reply => reply.value.isSome

/-- Bouncer has said that its licence is invalid. -/
def Progress.Unlicensed (progress : Progress) : Prop :=
  (.bouncer, .closed (some ERRCODE_REPO_LICENCE_INVALID) false) ∈ progress.spawned

/-- There is one final reply, and its value is an error code. -/
def Progress.Replied (progress : Progress) : Prop :=
  ∃ reply n, progress.finalReplies = [reply] ∧ reply.value = some (.code n)

/-- The message is acknowledged after one final reply, or goes back without one because the licence is invalid. -/
def SettledOnce (result : Progress × Settlement) : Prop :=
  (result.2 = .ack ∧ result.1.Replied) ∨ (result.2 = .nack ∧ result.1.finalReplies = [] ∧ result.1.Unlicensed)

/-- The programs that a queue runs for a message can be run, and the queue has what it needs for them: the model queue a
file, and the clash queue a file of settings.  The code of `pdf2svg` is not that for an invalid licence. -/
def Runnable (rid : Text) (decoded : Decoded) : QueueLabel → Prop
  | .model => (∃ path size, decoded.file = JsValue.text path ∧ m.statSync path = some size) ∧
      m.spawn .bouncer (decoded.cmdParams.map JsValue.text) ≠ .refused
  | .clash => ∃ configFile, decoded.configFile = some configFile ∧
      m.spawn .bouncer ((ClashQueue.bouncerParams m decoded configFile).map JsValue.text) ≠ .refused
  | .drawing =>
    if DrawingQueue.isPdf decoded then
      decoded.file.all convertible ∧ ∃ code isTimeout,
        m.spawn .pdf2svg (pdf2svgParams decoded.file (DrawingQueue.svgPath m rid)) = .closed code isTimeout ∧
        (isTimeout = false → code ≠ some ERRCODE_REPO_LICENCE_INVALID) ∧
        (isTimeout = false → code = some 0 → m.access (DrawingQueue.svgPath m rid) →
          m.spawn .bouncer ((decoded.cmdParams ++ [DrawingQueue.svgPath m rid]).map JsValue.text) ≠ .refused)
    else m.spawn .bouncer (decoded.cmdParams.map JsValue.text) ≠ .refused

/-! ### How programs end -/

section Programs

/-- What `run` makes of a process that is closed. -/
def exitResult (codesAsSuccess : List ℕ) (code : Option ℕ) (isTimeout : Bool) : Except Thrown ℕ :=
  if isTimeout then .error (.code ERRCODE_TIMEOUT)
  else
    match code with
    | some code => if code = 0 ∨ code ∈ codesAsSuccess then .ok code else .error (.code code)
    | none => .error (.code ERRCODE_UNKNOWN_ERROR)

variable {m} {program : Program} {params : List JsValue} {codesAsSuccess : List ℕ} {code : Option ℕ} {isTimeout : Bool}
  {s : Progress}

/-- A result, after which the state is this. -/
def endWith {α : Type} (progress : Progress) : Except Thrown α → EStateM.Result Thrown Progress α
  | .ok a => .ok a progress
  | .error err => .error err progress

def Progress.ran (s : Progress) (program : Program) (outcome : Outcome) : Progress :=
  { s with spawned := s.spawned ++ [(program, outcome)] }

private theorem run_of_closed (hparams : params.all fun param => param.all convertible)
    (hspawn : m.spawn program params = .closed code isTimeout) :
    run m program params codesAsSuccess s =
      endWith (s.ran program (.closed code isTimeout)) (exitResult codesAsSuccess code isTimeout) := by
  unfold run exitResult
  rw [if_pos hparams, hspawn]
  cases isTimeout with
  | true => rfl
  | false =>
    cases code with
    | none => rfl
    | some code =>
      simp only [Bool.false_eq_true, if_false]
      by_cases hcode : code = 0 ∨ code ∈ codesAsSuccess
      · rw [if_pos hcode]
        show EStateM.bind _ _ s = _
        simp only [if_pos hcode]
        rfl
      · rw [if_neg hcode]
        show EStateM.bind _ _ s = _
        simp only [if_neg hcode]
        rfl

private theorem run_of_refused (hspawn : m.spawn program params = .refused) :
    run m program params codesAsSuccess s = .error .error s := by
  unfold run
  by_cases hparams : params.all fun param => param.all convertible
  · rw [if_pos hparams, hspawn]
    rfl
  · rw [if_neg hparams]
    rfl

private theorem run_of_not_convertible (hparams : ¬ params.all fun param => param.all convertible) :
    run m program params codesAsSuccess s = .error .error s := by
  unfold run
  rw [if_neg hparams]
  rfl

private theorem exitResult_eq_error {err : Thrown} (h : exitResult codesAsSuccess code isTimeout = .error err) :
    ∃ n, err = .code n ∧ (n = ERRCODE_REPO_LICENCE_INVALID → isTimeout = false ∧ code = some n) := by
  unfold exitResult at h
  cases isTimeout with
  | true =>
    cases h
    exact ⟨_, rfl, nofun⟩
  | false =>
    cases code with
    | none =>
      cases h
      exact ⟨_, rfl, nofun⟩
    | some code =>
      simp only [Bool.false_eq_true, if_false] at h
      split_ifs at h
      cases h
      exact ⟨code, rfl, fun _ => ⟨rfl, rfl⟩⟩

private theorem exitResult_licence (h : ERRCODE_REPO_LICENCE_INVALID ∉ codesAsSuccess) :
    exitResult codesAsSuccess (some ERRCODE_REPO_LICENCE_INVALID) false =
      .error (.code ERRCODE_REPO_LICENCE_INVALID) := by
  have hneg : ¬ (ERRCODE_REPO_LICENCE_INVALID = 0 ∨ ERRCODE_REPO_LICENCE_INVALID ∈ codesAsSuccess) := by
    rintro (h0 | hmem)
    · exact absurd h0 (by decide)
    · exact h hmem
  unfold exitResult
  simp only [Bool.false_eq_true, if_false, if_neg hneg]

private theorem convertible_texts (texts : List Text) :
    (texts.map JsValue.text).all fun param => param.all convertible := by
  rw [List.all_map, List.all_eq_true]
  intro text _
  rfl

end Programs

/-! ### What is tried -/

section Tried

/-- What is tried ends with a code, for an invalid licence only if Bouncer said so, and without a final reply. -/
def Coded : EStateM.Result Thrown Progress ℕ → Prop
  | .ok _ s => s.finalReplies = []
  | .error (.code n) s => s.finalReplies = [] ∧ (n = ERRCODE_REPO_LICENCE_INVALID → s.Unlicensed)
  | .error .error _ => False

variable {m} {s : Progress}

private theorem coded_runBouncerCommand_iff (hs : s.finalReplies = []) (cmdParams : List Text) :
    Coded (runBouncerCommand m cmdParams s) ↔ m.spawn .bouncer (cmdParams.map JsValue.text) ≠ .refused := by
  unfold runBouncerCommand
  cases hspawn : m.spawn .bouncer (cmdParams.map JsValue.text) with
  | refused =>
    rw [run_of_refused hspawn]
    exact ⟨fun h => h.elim, fun h => absurd rfl h⟩
  | closed code isTimeout =>
    rw [run_of_closed (convertible_texts cmdParams) hspawn]
    refine ⟨fun _ => nofun, fun _ => ?_⟩
    cases hexit : exitResult BOUNCER_SOFT_FAILS code isTimeout with
    | ok n => exact hs
    | error err =>
      obtain ⟨n, rfl, hlicence⟩ := exitResult_eq_error hexit
      refine ⟨hs, ?_⟩
      rintro rfl
      obtain ⟨rfl, rfl⟩ := hlicence rfl
      exact List.mem_append_right _ (List.mem_singleton.2 rfl)

private theorem coded_model_iff (hs : s.finalReplies = []) (rid : Text) (decoded : Decoded) :
    Coded (ModelQueue.work m decoded s) ↔ Runnable m rid decoded .model := by
  have hwork : ModelQueue.work m decoded s = match statSync m decoded.file with
      | .ok _ => runBouncerCommand m decoded.cmdParams s
      | .error err => .error err s := by
    unfold ModelQueue.work
    show EStateM.bind _ _ s = _
    cases statSync m decoded.file <;> rfl
  have hstat : (∃ size, statSync m decoded.file = .ok size) ↔
      ∃ path size, decoded.file = JsValue.text path ∧ m.statSync path = some size := by
    constructor
    · rintro ⟨size, hsize⟩
      unfold statSync at hsize
      split at hsize
      case h_1 path hfile =>
        refine ⟨path, size, hfile, ?_⟩
        cases hpath : m.statSync path with
        | none =>
          rw [hpath] at hsize
          exact nomatch hsize
        | some size' =>
          rw [hpath] at hsize
          cases hsize
          rfl
      case h_2 => exact nomatch hsize
    · rintro ⟨path, size, hfile, hsize⟩
      refine ⟨size, ?_⟩
      rw [hfile]
      show orError (m.statSync path) = .ok size
      rw [hsize]
      rfl
  rw [hwork, Runnable, ← hstat]
  cases hresult : statSync m decoded.file with
  | ok size =>
    dsimp only
    rw [coded_runBouncerCommand_iff hs]
    exact ⟨fun h => ⟨⟨size, rfl⟩, h⟩, And.right⟩
  | error err =>
    -- there is no code for a file that is missing
    have herr : err = .error := by
      unfold statSync at hresult
      split at hresult
      case h_1 path hfile =>
        cases hpath : m.statSync path with
        | none =>
          rw [hpath] at hresult
          cases hresult
          rfl
        | some size =>
          rw [hpath] at hresult
          exact nomatch hresult
      case h_2 =>
        cases hresult
        rfl
    rw [herr]
    exact ⟨fun h => h.elim, fun ⟨⟨_, h⟩, _⟩ => nomatch h⟩

/-- The two steps of a drawing, one after the other. -/
theorem generateSVG_bind (file : JsValue) (output : Text) (cmdParams : List Text)
    {r : EStateM.Result Thrown Progress ℕ} : run m .pdf2svg (pdf2svgParams file output) [] s = r →
    (do
      let _ ← generateSVG m file output
      runBouncerCommand m cmdParams : Handler ℕ) s =
    match r with
    | .error err s' => .error err s'
    | .ok n s' => if n ≠ ERRCODE_OK then runBouncerCommand m cmdParams s'
      else if m.access output then runBouncerCommand m cmdParams s'
      else .error (.code ERRCODE_IMAGE_PROCESSING_FAILED) s' := by
  intro hr
  show EStateM.bind (EStateM.bind _ _) _ s = _
  unfold EStateM.bind
  rw [hr]
  cases r with
  | error err s' => rfl
  | ok n s' =>
    dsimp only
    by_cases hn : n ≠ ERRCODE_OK
    · rw [if_pos hn, if_pos hn]
      rfl
    · rw [if_neg hn, if_neg hn]
      by_cases haccess : m.access output
      · rw [if_pos haccess, if_pos haccess]
        rfl
      · rw [if_neg haccess, if_neg haccess]
        rfl

/-- What is left of a drawing once `pdf2svg` has ended. -/
theorem coded_generateSVG_iff (hs : s.finalReplies = []) (hnone : s.spawned = []) {file : JsValue} {output : Text}
    (cmdParams : List Text) :
    Coded ((do
      let _ ← generateSVG m file output
      runBouncerCommand m cmdParams : Handler ℕ) s) ↔
    file.all convertible ∧ ∃ code isTimeout, m.spawn .pdf2svg (pdf2svgParams file output) = .closed code isTimeout ∧
      (isTimeout = false → code ≠ some ERRCODE_REPO_LICENCE_INVALID) ∧
      (isTimeout = false → code = some 0 → m.access output →
        m.spawn .bouncer (cmdParams.map JsValue.text) ≠ .refused) := by
  have hparams : ((pdf2svgParams file output).all fun param => param.all convertible) = file.all convertible :=
    Bool.and_true _
  by_cases hfile : file.all convertible
  · cases hspawn : m.spawn .pdf2svg (pdf2svgParams file output) with
    | refused =>
      rw [generateSVG_bind _ _ _ (run_of_refused hspawn)]
      refine ⟨fun h => h.elim, ?_⟩
      rintro ⟨_, _, _, h, _⟩
      cases h
    | closed code isTimeout =>
      rw [generateSVG_bind _ _ _ (run_of_closed (hparams.trans hfile) hspawn)]
      have hclosed : (∃ code' isTimeout', Outcome.closed code isTimeout = .closed code' isTimeout' ∧
          (isTimeout' = false → code' ≠ some ERRCODE_REPO_LICENCE_INVALID) ∧
          (isTimeout' = false → code' = some 0 → m.access output →
            m.spawn .bouncer (cmdParams.map JsValue.text) ≠ .refused)) ↔
          (isTimeout = false → code ≠ some ERRCODE_REPO_LICENCE_INVALID) ∧
          (isTimeout = false → code = some 0 → m.access output →
            m.spawn .bouncer (cmdParams.map JsValue.text) ≠ .refused) := by
        constructor
        · rintro ⟨_, _, ⟨⟩, h⟩
          exact h
        · exact fun h => ⟨code, isTimeout, rfl, h⟩
      rw [hclosed]
      cases hexit : exitResult [] code isTimeout with
      | error err =>
        obtain ⟨n, rfl, hlicence⟩ := exitResult_eq_error hexit
        have hcode : isTimeout = false → code = some 0 → False := by
          rintro rfl rfl
          cases hexit
        constructor
        · rintro ⟨-, hunlicensed⟩
          refine ⟨hfile, ?_, fun htimeout hzero => (hcode htimeout hzero).elim⟩
          rintro rfl rfl
          rw [exitResult_licence List.not_mem_nil] at hexit
          cases hexit
          have hmem := hunlicensed rfl
          rw [Progress.Unlicensed, Progress.ran, hnone] at hmem
          cases List.mem_singleton.1 hmem
        · rintro ⟨-, hcode', -⟩
          refine ⟨hs, ?_⟩
          rintro rfl
          obtain ⟨htimeout, hn⟩ := hlicence rfl
          exact absurd hn (hcode' htimeout)
      | ok n =>
        have hzero : isTimeout = false ∧ code = some 0 ∧ n = 0 := by
          unfold exitResult at hexit
          cases isTimeout with
          | true => cases hexit
          | false =>
            cases code with
            | none => cases hexit
            | some code =>
              simp only [Bool.false_eq_true, if_false, List.not_mem_nil, or_false] at hexit
              split_ifs at hexit with h0
              cases hexit
              exact ⟨rfl, congrArg some h0, h0⟩
        obtain ⟨rfl, rfl, rfl⟩ := hzero
        have hlicence : (0 : ℕ) ≠ ERRCODE_REPO_LICENCE_INVALID := by decide
        show Coded (if (0 : ℕ) ≠ ERRCODE_OK then _ else if m.access output then _ else _) ↔ _
        have hok : ¬ (0 : ℕ) ≠ ERRCODE_OK := not_not.2 rfl
        rw [if_neg hok]
        by_cases haccess : m.access output
        · have hran : (s.ran .pdf2svg (.closed (some 0) false)).finalReplies = [] := hs
          rw [if_pos haccess, coded_runBouncerCommand_iff hran]
          exact ⟨fun h => ⟨hfile, fun _ hzero => hlicence (Option.some.inj hzero), fun _ _ _ => h⟩,
            fun h => h.2.2 rfl rfl haccess⟩
        · rw [if_neg haccess]
          exact ⟨fun _ => ⟨hfile, fun _ hzero => hlicence (Option.some.inj hzero), fun _ _ h => absurd h haccess⟩,
            fun _ => ⟨hs, fun h => by cases h⟩⟩
  · rw [generateSVG_bind _ _ _ (run_of_not_convertible (hparams ▸ hfile))]
    exact ⟨fun h => h.elim, fun h => absurd h.1 hfile⟩

private theorem coded_drawing_iff (hs : s.finalReplies = []) (hnone : s.spawned = []) (rid : Text) (decoded : Decoded) :
    Coded (DrawingQueue.work m rid decoded s) ↔ Runnable m rid decoded .drawing := by
  unfold DrawingQueue.work Runnable
  dsimp only
  by_cases hpdf : DrawingQueue.isPdf decoded
  · rw [if_pos hpdf, if_pos hpdf]
    exact coded_generateSVG_iff hs hnone _
  · rw [if_neg hpdf, if_neg hpdf]
    exact coded_runBouncerCommand_iff hs _

end Tried

/-! ### What becomes of a message -/

section Settled

variable {m} {s : Progress}

private theorem finalReplies_append (s : Progress) (reply : Reply) :
    ({ s with replies := s.replies ++ [reply] } : Progress).finalReplies =
      s.finalReplies ++ if reply.value.isSome then [reply] else [] := by
  unfold Progress.finalReplies
  rw [List.filter_append]
  cases hvalue : reply.value.isSome <;> simp [hvalue]

private theorem finalReplies_callback (hs : s.finalReplies = []) {reply : Reply} {err : Thrown} (hvalue : reply.value = some err) :
    ({ s with replies := s.replies ++ [reply] } : Progress).finalReplies = [reply] := by
  rw [finalReplies_append, hs, hvalue]
  rfl

private theorem settledOnce_callback_iff (hs : s.finalReplies = []) {reply : Reply} {err : Thrown}
    (hvalue : reply.value = some err) : SettledOnce (settle (callback reply s)) ↔ ∃ n, err = .code n := by
  have hcallback : settle (callback reply s) = ({ s with replies := s.replies ++ [reply] }, .ack) := rfl
  rw [hcallback]
  constructor
  · rintro (⟨-, reply', n, hreplies, hcode⟩ | ⟨hnack, -⟩)
    · rw [finalReplies_callback hs hvalue] at hreplies
      cases hreplies
      rw [hvalue] at hcode
      exact ⟨n, Option.some.inj hcode⟩
    · exact nomatch hnack
  · rintro ⟨n, rfl⟩
    exact .inl ⟨rfl, reply, n, finalReplies_callback hs hvalue, hvalue⟩

private theorem settledOnce_throw_iff {err : Thrown} : SettledOnce (settle (.error err s)) ↔ s.finalReplies = [] ∧ s.Unlicensed := by
  constructor
  · rintro (⟨hack, -⟩ | ⟨-, h⟩)
    · exact nomatch hack
    · exact h
  · exact fun h => .inr ⟨rfl, h⟩

private theorem orCrash_code (n : ℕ) : ∃ n', (Thrown.code n).orCrash = .code n' := by
  cases n with
  | zero => exact ⟨_, rfl⟩
  | succ n => exact ⟨n + 1, rfl⟩

/-- The replies of what is tried are those before it. -/
def Quiet (s : Progress) : EStateM.Result Thrown Progress ℕ → Prop
  | .ok _ s' => s'.finalReplies = s.finalReplies
  | .error _ s' => s'.finalReplies = s.finalReplies

private theorem settledOnce_replyOrRequeue_iff {work : Handler ℕ} (returnMessage : Reply) (hs : s.finalReplies = [])
    (hquiet : Quiet s (work s)) : SettledOnce (settle (replyOrRequeue returnMessage work s)) ↔ Coded (work s) := by
  have hreply : replyOrRequeue returnMessage work s = match work s with
      | .ok value s' => callback { returnMessage with value := some (.code value) } s'
      | .error err s' => if err = .code ERRCODE_REPO_LICENCE_INVALID then .error err s'
        else callback { returnMessage with value := some err.orCrash } s' := by
    show EStateM.tryCatch (EStateM.bind work _) _ s = _
    unfold EStateM.tryCatch EStateM.bind
    cases work s with
    | ok value s' => rfl
    | error err s' =>
      dsimp only
      by_cases herr : err = .code ERRCODE_REPO_LICENCE_INVALID
      · rw [if_pos herr, if_pos herr]
        rfl
      · rw [if_neg herr, if_neg herr]
        rfl
  rw [hreply]
  cases hwork : work s with
  | ok value s' =>
    rw [hwork] at hquiet
    have hs' : s'.finalReplies = [] := hquiet.trans hs
    dsimp only
    rw [settledOnce_callback_iff hs' rfl]
    exact ⟨fun _ => hs', fun _ => ⟨value, rfl⟩⟩
  | error err s' =>
    rw [hwork] at hquiet
    have hs' : s'.finalReplies = [] := hquiet.trans hs
    dsimp only
    by_cases herr : err = .code ERRCODE_REPO_LICENCE_INVALID
    · rw [if_pos herr, settledOnce_throw_iff, herr]
      exact ⟨fun h => ⟨h.1, fun _ => h.2⟩, fun h => ⟨h.1, h.2 rfl⟩⟩
    · rw [if_neg herr, settledOnce_callback_iff hs' rfl]
      cases err with
      | error => exact ⟨fun ⟨_, h⟩ => (nomatch h), fun h => h.elim⟩
      | code n => exact ⟨fun _ => ⟨hs', fun hn => absurd (congrArg Thrown.code hn) herr⟩, fun _ => orCrash_code n⟩

private theorem quiet_run (program : Program) (params : List JsValue) (codesAsSuccess : List ℕ) (s : Progress) :
    Quiet s (run m program params codesAsSuccess s) := by
  by_cases hparams : params.all fun param => param.all convertible
  · cases hspawn : m.spawn program params with
    | refused =>
      rw [run_of_refused hspawn]
      exact rfl
    | closed code isTimeout =>
      rw [run_of_closed hparams hspawn]
      cases exitResult codesAsSuccess code isTimeout <;> exact rfl
  · rw [run_of_not_convertible hparams]
    exact rfl

private theorem quiet_model (decoded : Decoded) (s : Progress) : Quiet s (ModelQueue.work m decoded s) := by
  unfold ModelQueue.work
  show Quiet s (EStateM.bind _ _ s)
  cases statSync m decoded.file with
  | error err => exact rfl
  | ok size => exact quiet_run _ _ _ s

private theorem quiet_drawing (rid : Text) (decoded : Decoded) (s : Progress) : Quiet s (DrawingQueue.work m rid decoded s) := by
  unfold DrawingQueue.work
  by_cases hpdf : DrawingQueue.isPdf decoded
  · rw [if_pos hpdf]
    have hpdf2svg := quiet_run (m := m) .pdf2svg (pdf2svgParams decoded.file (DrawingQueue.svgPath m rid)) [] s
    rw [generateSVG_bind _ _ _ rfl]
    cases hrun : run m .pdf2svg (pdf2svgParams decoded.file (DrawingQueue.svgPath m rid)) [] s with
    | error err s' =>
      rw [hrun] at hpdf2svg
      exact hpdf2svg
    | ok n s' =>
      rw [hrun] at hpdf2svg
      have hs' : s'.finalReplies = s.finalReplies := hpdf2svg
      have hbouncer : Quiet s (runBouncerCommand m (decoded.cmdParams ++ [DrawingQueue.svgPath m rid]) s') := by
        have hquiet := quiet_run (m := m) .bouncer
          ((decoded.cmdParams ++ [DrawingQueue.svgPath m rid]).map JsValue.text) BOUNCER_SOFT_FAILS s'
        unfold runBouncerCommand
        unfold Quiet at hquiet ⊢
        rwa [hs'] at hquiet
      dsimp only
      by_cases hn : n ≠ ERRCODE_OK
      · rwa [if_pos hn]
      · rw [if_neg hn]
        by_cases haccess : m.access (DrawingQueue.svgPath m rid)
        · rwa [if_pos haccess]
        · rw [if_neg haccess]
          exact hs'
  · rw [if_neg hpdf]
    exact quiet_run _ _ _ s

/-- The clash queue replies with whatever was thrown. -/
theorem settledOnce_runClash_iff {decoded : Decoded} {configFile : Text} (returnMessage : Reply)
    (hs : s.finalReplies = []) :
    SettledOnce (settle ((do
      let returnMessage ← tryCatch
        (do
          let value ← runBouncerCommand m (ClashQueue.bouncerParams m decoded configFile)
          return { returnMessage with value := some (.code value) })
        fun err => return { returnMessage with value := some err, message := some err }
      callback returnMessage : Handler Unit) s)) ↔
    m.spawn .bouncer ((ClashQueue.bouncerParams m decoded configFile).map JsValue.text) ≠ .refused := by
  have hreply : (do
      let returnMessage ← tryCatch
        (do
          let value ← runBouncerCommand m (ClashQueue.bouncerParams m decoded configFile)
          return { returnMessage with value := some (.code value) })
        fun err => return { returnMessage with value := some err, message := some err }
      callback returnMessage : Handler Unit) s =
      match runBouncerCommand m (ClashQueue.bouncerParams m decoded configFile) s with
      | .ok value s' => callback { returnMessage with value := some (.code value) } s'
      | .error err s' => callback { returnMessage with value := some err, message := some err } s' := by
    show EStateM.bind (EStateM.tryCatch (EStateM.bind _ _) _) _ s = _
    unfold EStateM.bind EStateM.tryCatch
    dsimp only
    cases runBouncerCommand m (ClashQueue.bouncerParams m decoded configFile) s <;> rfl
  rw [hreply, ← coded_runBouncerCommand_iff hs]
  have hquiet := quiet_run (m := m) .bouncer
    ((ClashQueue.bouncerParams m decoded configFile).map JsValue.text) BOUNCER_SOFT_FAILS s
  unfold runBouncerCommand
  cases hrun : run m .bouncer ((ClashQueue.bouncerParams m decoded configFile).map JsValue.text) BOUNCER_SOFT_FAILS s with
  | ok value s' =>
    rw [hrun] at hquiet
    have hs' : s'.finalReplies = [] := hquiet.trans hs
    dsimp only
    rw [settledOnce_callback_iff hs' rfl]
    exact ⟨fun _ => hs', fun _ => ⟨value, rfl⟩⟩
  | error err s' =>
    rw [hrun] at hquiet
    have hs' : s'.finalReplies = [] := hquiet.trans hs
    dsimp only
    rw [settledOnce_callback_iff hs' rfl]
    cases err with
    | error => exact ⟨fun ⟨_, h⟩ => (nomatch h), fun h => h.elim⟩
    | code n =>
      refine ⟨fun _ => ?_, fun _ => ⟨n, rfl⟩⟩
      have hspawn : m.spawn .bouncer ((ClashQueue.bouncerParams m decoded configFile).map JsValue.text) ≠ .refused := by
        intro hrefused
        rw [run_of_refused hrefused] at hrun
        exact nomatch hrun
      have hcoded := (coded_runBouncerCommand_iff hs _).2 hspawn
      unfold runBouncerCommand at hcoded
      rwa [hrun] at hcoded

/-- What has been done once the status of a message was sent. -/
def started (status : Reply) : Progress := ⟨[status], []⟩

private theorem finalReplies_started {status : Reply} (h : status.value = none) : (started status).finalReplies = [] := by
  unfold Progress.finalReplies started
  rw [List.filter_cons_of_neg (by rw [h]; exact Bool.false_ne_true)]
  rfl

variable {cmd rid : Text}

private theorem settledOnce_model_iff (hcode : (messageDecoder m cmd).errorCode = none) :
    SettledOnce (consume m .model cmd rid) ↔ Runnable m rid (messageDecoder m cmd) .model := by
  have hstarted : ∃ status returnMessage, status.value = none ∧ onMessageReceived m .model cmd rid ⟨[], []⟩ =
      replyOrRequeue returnMessage (ModelQueue.work m (messageDecoder m cmd)) (started status) := by
    rw [onMessageReceived, ModelQueue.onMessageReceived, hcode]
    exact ⟨_, _, rfl, rfl⟩
  obtain ⟨status, returnMessage, hstatus, hmessage⟩ := hstarted
  have hs := finalReplies_started hstatus
  rw [consume, hmessage, settledOnce_replyOrRequeue_iff _ hs (quiet_model _ _)]
  exact coded_model_iff hs rid _

private theorem settledOnce_drawing_iff (hcode : (messageDecoder m cmd).errorCode = none) :
    SettledOnce (consume m .drawing cmd rid) ↔ Runnable m rid (messageDecoder m cmd) .drawing := by
  have hstarted : ∃ status returnMessage, status.value = none ∧ onMessageReceived m .drawing cmd rid ⟨[], []⟩ =
      replyOrRequeue returnMessage (DrawingQueue.work m rid (messageDecoder m cmd)) (started status) := by
    rw [onMessageReceived, DrawingQueue.onMessageReceived, hcode]
    exact ⟨_, _, rfl, rfl⟩
  obtain ⟨status, returnMessage, hstatus, hmessage⟩ := hstarted
  have hs := finalReplies_started hstatus
  rw [consume, hmessage, settledOnce_replyOrRequeue_iff _ hs (quiet_drawing _ _ _)]
  exact coded_drawing_iff hs rfl rid _

private theorem settledOnce_clash_iff (hcode : (messageDecoder m cmd).errorCode = none) :
    SettledOnce (consume m .clash cmd rid) ↔ Runnable m rid (messageDecoder m cmd) .clash := by
  cases hfile : (messageDecoder m cmd).configFile with
  | none =>
    -- it is thrown outside the `try`
    have hstarted : ∃ status, onMessageReceived m .clash cmd rid ⟨[], []⟩ = .error .error (started status) := by
      rw [onMessageReceived, ClashQueue.onMessageReceived, hcode, hfile]
      exact ⟨_, rfl⟩
    obtain ⟨status, hmessage⟩ := hstarted
    rw [consume, hmessage, settledOnce_throw_iff, Runnable, hfile]
    exact ⟨fun h => absurd h.2 List.not_mem_nil, fun ⟨_, h, _⟩ => nomatch h⟩
  | some configFile =>
    have hstarted : ∃ (status returnMessage : Reply), status.value = none ∧
        onMessageReceived m .clash cmd rid ⟨[], []⟩ = (do
        let returnMessage ← tryCatch
          (do
            let value ← runBouncerCommand m (ClashQueue.bouncerParams m (messageDecoder m cmd) configFile)
            return { returnMessage with value := some (.code value) })
          fun err => return { returnMessage with value := some err, message := some err }
        callback returnMessage : Handler Unit) (started status) := by
      rw [onMessageReceived, ClashQueue.onMessageReceived, hcode, hfile]
      exact ⟨_, _, rfl, rfl⟩
    obtain ⟨status, returnMessage, hstatus, hmessage⟩ := hstarted
    rw [consume, hmessage, settledOnce_runClash_iff _ (finalReplies_started hstatus), Runnable, hfile]
    constructor
    · exact fun h => ⟨configFile, rfl, h⟩
    · rintro ⟨_, ⟨⟩, h⟩
      exact h

end Settled

/-- A message on a queue is settled once exactly if it cannot be decoded, or what the queue runs for it can be run. -/
theorem settledOnce_iff (queue : QueueLabel) (cmd rid : Text) : SettledOnce (consume m queue cmd rid) ↔
    (messageDecoder m cmd).errorCode ≠ none ∨ Runnable m rid (messageDecoder m cmd) queue := by
  have hdecoded : ∀ errorCode, (messageDecoder m cmd).errorCode = some errorCode →
      onMessageReceived m queue cmd rid ⟨[], []⟩ = callback { value := some (.code errorCode) } ⟨[], []⟩ := by
    intro errorCode h
    cases queue
    · rw [onMessageReceived, ModelQueue.onMessageReceived, h]
    · rw [onMessageReceived, DrawingQueue.onMessageReceived, h]
    · rw [onMessageReceived, ClashQueue.onMessageReceived, h]
  cases hcode : (messageDecoder m cmd).errorCode with
  | some errorCode =>
    have hsettled : SettledOnce (consume m queue cmd rid) := by
      rw [consume, hdecoded errorCode hcode, settledOnce_callback_iff rfl rfl]
      exact ⟨errorCode, rfl⟩
    exact ⟨fun _ => .inl nofun, fun _ => hsettled⟩
  | none =>
    have hrunnable : SettledOnce (consume m queue cmd rid) ↔ Runnable m rid (messageDecoder m cmd) queue := by
      cases queue with
      | model => exact settledOnce_model_iff hcode
      | drawing => exact settledOnce_drawing_iff hcode
      | clash => exact settledOnce_clash_iff hcode
    rw [hrunnable]
    exact ⟨.inr, fun h => h.resolve_left (absurd rfl)⟩

/-- A machine without files, on which every program succeeds. -/
def emptyMachine : Machine where
  sharedDir := "/shared".toList
  configPath := "config.json".toList
  taskLogDir := "/log".toList
  readFileSync := fun _ => none
  writeFileSync := fun _ _ => none
  require := fun _ => none
  statSync := fun _ => none
  access := fun _ => false
  dirname := id
  join := List.flatten
  spawn := fun _ _ => .closed (some 0) false

/-- On the clash queue a command without a file of settings comes back, and on the model queue a command without a file is
answered with something that is no code. -/
theorem not_settledOnce :
    (consume emptyMachine .clash "genStash space container".toList []).2 = .nack ∧
    ¬ SettledOnce (consume emptyMachine .clash "genStash space container".toList []) ∧
    ¬ SettledOnce (consume emptyMachine .model "genStash space container".toList []) := by
  have hclash : (consume emptyMachine .clash "genStash space container".toList []).2 = .nack ∧
      (consume emptyMachine .clash "genStash space container".toList []).1.spawned = [] := by decide
  have hmodel : (consume emptyMachine .model "genStash space container".toList []).2 = .ack ∧
      (consume emptyMachine .model "genStash space container".toList []).1.finalReplies.map Reply.value =
        [some .error] := by decide
  refine ⟨hclash.1, ?_, ?_⟩
  · rintro (⟨hack, -⟩ | ⟨-, -, hunlicensed⟩)
    · exact nomatch hack.symm.trans hclash.1
    · rw [Progress.Unlicensed, hclash.2] at hunlicensed
      exact absurd hunlicensed List.not_mem_nil
  · rintro (⟨-, reply, n, hreplies, hvalue⟩ | ⟨hnack, -⟩)
    · have hvalues := hmodel.2
      rw [hreplies, List.map_singleton, hvalue] at hvalues
      exact nomatch hvalues
    · exact nomatch hnack.symm.trans hmodel.1

end Bouncer.Worker
