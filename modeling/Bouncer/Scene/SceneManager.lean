import Bouncer.Core.RepoBSON

/-!
# The commit of a scene

`commitScene` stores the files of a scene and the revision, and then the selection trees and the bundles.  The revision
is written with a status that says how far this is, and counts as uploaded when the status is `COMPLETE`.

What tells of a failed upload is the `bool` that it returns.  Of the reference files the last result replaces the ones
before, for the frame states none is looked at, and what the last two parts return does not matter in the end.  So a
revision is completed only if everything is stored exactly if the commit fails before, or if the last reference file is
not stored, or if nothing fails (`onlyIfStored_iff`).
-/

namespace Bouncer.SceneManager

variable {U : Type}

/-- The codes that a commit returns. -/
inductive ErrorCode where
  | ok
  | maxNodesExceeded
  | uploadFailed
  deriving DecidableEq

inductive UploadStatus where
  | complete
  | genDefault
  | genRepoStash
  | genWebStash
  | genSelTree
  | missingBundles
  | unknown
  deriving DecidableEq

structure ModelRevisionNode (U : Type) where
  uniqueId : U
  author : String
  message : String
  tag : String
  files : List String
  parents : List U
  status : UploadStatus

structure Scene (U : Type) where
  databaseName : String
  projectName : String
  hasRoot : Bool
  unRevisioned : Bool
  revNode : Option (ModelRevisionNode U)
  commitMsg : String
  refFiles : List String
  frameStates : List (String × List Byte)
  taskList : List Byte
  sequenceId : U

def Scene.isRevisioned (scene : Scene U) : Bool := !scene.unRevisioned

/-- What becomes of a reference file: it may be impossible to open or to read. -/
inductive FileRead where
  | notOpened
  | notRead
  | read (rawFile : List Byte)

def FileRead.isRead : FileRead → Bool
  | read _ => true
  | _ => false

/-- What a commit finds: files, a revision, selection trees, and how its parts end.  Uploads are counted. -/
structure Surroundings (U : Type) where
  toString : U → String
  filename : String → String
  readFile : String → FileRead
  loadRevision : Except String (ModelRevisionNode U)
  getSelectionTreeAsBuffer : List (String × List Byte)
  generatesBundles : Bool
  uploads : ℕ → Bool

structure Upload where
  collection : String
  fileName : String
  bytes : List Byte
  succeeds : Bool

/-- The scene, and what was written: revisions, files, and whether bundles were generated. -/
structure CommitState (U : Type) where
  scene : Scene U
  history : List (ModelRevisionNode U)
  uploads : List Upload
  webViewBuffers : List Bool
  errorStatus : Bool

/-- `std::string::find` finds something. -/
def contains (s pattern : String) : Bool := decide (pattern.toList <:+: s.toList)

def nameCheck (c : Char) : Bool := c = ' ' || c = '$' || c = '.'

def sanitizeName (name : String) : String := String.ofList (name.toList.map fun c => if nameCheck c then '_' else c)

/-! ### The code -/

namespace Surroundings

variable (env : Surroundings U)

def uploadFileAndCommit (collection fileName : String) (bytes : List Byte) (state : CommitState U) :
    Bool × CommitState U :=
  let succeeds := env.uploads state.uploads.length
  (succeeds, { state with uploads := state.uploads ++ [⟨collection, fileName, bytes, succeeds⟩] })

/-- One turn of the loop over the reference files, with the name that a file is stored under. -/
def commitRefFile (current : (Bool × String) × CommitState U) (file : String × String) :
    (Bool × String) × CommitState U :=
  match env.readFile file.1 with
  | .notOpened | .notRead => current
  | .read rawFile =>
    let uploaded := env.uploadFileAndCommit (current.2.scene.projectName ++ ".history") file.2 rawFile current.2
    ((uploaded.1, if uploaded.1 then current.1.2 else "Failed to save original file into file storage: " ++ file.2),
      uploaded.2)

/-- The names under which the reference files are stored. -/
def refFileNames (revId : U) (refFiles : List String) : List String :=
  refFiles.map fun name => env.toString revId ++ sanitizeName (env.filename name)

/-- The part of `commitRevisionNode` after its parents are known: the new revision, or the message. -/
def commitRefFiles (userName message tag : String) (revId : U) (parents : List U) (state : CommitState U) :
    Except String (ModelRevisionNode U) × CommitState U :=
  let fileNames := env.refFileNames revId state.scene.refFiles
  let newRevNode : ModelRevisionNode U := ⟨revId, userName, message, tag, fileNames, parents, .genDefault⟩
  let committed := (state.scene.refFiles.zip fileNames).foldl env.commitRefFile ((true, ""), state)
  if committed.1.1 then (.ok newRevNode, { committed.2 with history := committed.2.history ++ [newRevNode] })
  else (.error committed.1.2, committed.2)

def commitRevisionNode (userName message tag : String) (revId : U) (state : CommitState U) :
    Except String (ModelRevisionNode U) × CommitState U :=
  if !state.scene.unRevisioned && state.scene.revNode.isNone then
    match env.loadRevision with
    | .error errMsg => (.error errMsg, state)
    | .ok revNode => env.commitRefFiles userName message tag revId [revNode.uniqueId]
        { state with scene := { state.scene with revNode := some revNode } }
  else env.commitRefFiles userName message tag revId [] state

/-- The results of the uploads are not looked at. -/
def commitSequence (state : CommitState U) : CommitState U :=
  let sequenceCol := state.scene.projectName ++ ".sequences"
  let taskCol := state.scene.projectName ++ ".activities"
  let states := state.scene.frameStates.foldl
    (fun current frame => (env.uploadFileAndCommit sequenceCol frame.1 frame.2 current).2) state
  if state.scene.taskList ≠ [] then
    (env.uploadFileAndCommit taskCol (env.toString state.scene.sequenceId) state.scene.taskList states).2
  else states

/-- The code for a message. -/
def failureCode (errMsg : String) : ErrorCode :=
  if contains errMsg "exceeds maxBsonObjectSize" then .maxNodesExceeded else .uploadFailed

/-- The scene after its nodes were committed as this revision. -/
def revisioned (newRevNode : ModelRevisionNode U) (state : CommitState U) : CommitState U :=
  { state with scene := { state.scene with
    revNode := some newRevNode, commitMsg := "", refFiles := [], unRevisioned := false } }

def commit (userName message tag : String) (revId : U) (state : CommitState U) : ErrorCode × CommitState U :=
  let scene := state.scene
  if scene.databaseName = "" ∨ scene.projectName = "" then (.uploadFailed, state)
  else if !scene.hasRoot then (.uploadFailed, state)
  else
    let commitMsg := if message ≠ "" then message else scene.commitMsg
    let state := { state with scene := { scene with commitMsg := commitMsg } }
    match env.commitRevisionNode userName commitMsg tag revId state with
    | (.error errMsg, state) => (failureCode errMsg, state)
    | (.ok newRevNode, state) =>
      -- `commitSceneChanges` returns `true`, if nothing is thrown
      let state := revisioned newRevNode state
      (.ok, if state.scene.frameStates ≠ [] then env.commitSequence state else state)

/-- The loop over the selection trees, which ends at the first failure. -/
def commitTrees (collection fileNamePrefix : String) : List (String × List Byte) → CommitState U → Bool × CommitState U
  | [], state => (true, state)
  | file :: rest, state =>
    let uploaded := env.uploadFileAndCommit collection (fileNamePrefix ++ file.1) file.2 state
    if uploaded.1 then commitTrees collection fileNamePrefix rest uploaded.2 else (false, uploaded.2)

def generateAndCommitSelectionTree (state : CommitState U) : Bool × CommitState U :=
  match state.scene.isRevisioned, state.scene.revNode with
  | true, some revNode =>
    if env.getSelectionTreeAsBuffer ≠ [] then
      env.commitTrees (state.scene.projectName ++ ".stash.json_mpc") (env.toString revNode.uniqueId ++ "/")
        env.getSelectionTreeAsBuffer state
    else (false, state)
  | _, _ => (false, state)

def generateWebViewBuffers (state : CommitState U) : Bool × CommitState U :=
  let generated := state.scene.isRevisioned && state.scene.hasRoot && env.generatesBundles
  (generated, { state with webViewBuffers := state.webViewBuffers ++ [generated] })

def updateRevisionStatus (status : UploadStatus) (state : CommitState U) : Bool × CommitState U :=
  match state.scene.revNode with
  | some revNode =>
    let revNode := { revNode with status := status }
    (true, { state with scene := { state.scene with revNode := some revNode }, history := state.history ++ [revNode] })
  | none => (false, state)

def addErrorStatusToProjectSettings (state : CommitState U) : CommitState U := { state with errorStatus := true }

/-- The part of `commitScene` after a successful commit. -/
def completeRevision (state : CommitState U) : ErrorCode × CommitState U :=
  let state := (updateRevisionStatus .genSelTree state).2
  let tree := env.generateAndCommitSelectionTree state
  let state := (updateRevisionStatus .genWebStash tree.2).2
  let buffers := env.generateWebViewBuffers state
  -- the code that a failure of one of the two sets is overwritten
  (.ok, (updateRevisionStatus .complete buffers.2).2)

def commitScene (owner tag desc : String) (revId : U) (scene : Scene U) : ErrorCode × CommitState U :=
  let committed := env.commit owner desc tag revId ⟨scene, [], [], [], false⟩
  let result := if committed.1 = .ok then env.completeRevision committed.2 else committed
  if result.1 ≠ .ok then (result.1, addErrorStatusToProjectSettings result.2) else result

/-! ### What a commit should do -/

/-- The upload at each of these positions succeeds. -/
def Stores (start n : ℕ) : Prop := ∀ i < n, env.uploads (start + i) = true

/-- How many reference files can be read. -/
def readable (refFiles : List String) : ℕ := refFiles.countP fun name => (env.readFile name).isRead

/-- How many uploads there are in `commitSequence`. -/
def sequenceUploads (scene : Scene U) : ℕ :=
  if scene.frameStates ≠ [] then scene.frameStates.length + if scene.taskList ≠ [] then 1 else 0 else 0

/-- The commit ends before anything is uploaded. -/
def Rejects (scene : Scene U) : Prop :=
  scene.databaseName = "" ∨ scene.projectName = "" ∨ scene.hasRoot = false ∨
    (scene.unRevisioned = false ∧ scene.revNode.isNone ∧ env.loadRevision matches .error _)

/-- The last of the reference files is not stored. -/
def LastRefFileFails (scene : Scene U) : Prop :=
  0 < env.readable scene.refFiles ∧ env.uploads (env.readable scene.refFiles - 1) = false

/-- Every upload succeeds, and the bundles are generated. -/
def StoresAll (scene : Scene U) : Prop :=
  env.Stores 0 (env.readable scene.refFiles + sequenceUploads scene + env.getSelectionTreeAsBuffer.length) ∧
    env.generatesBundles = true

end Surroundings

/-- If the revision is reported or marked as completed, all that should be stored is. -/
def OnlyIfStored (result : ErrorCode × CommitState U) : Prop :=
  (result.1 = .ok ∨ ∃ revNode ∈ result.2.history, revNode.status = .complete) →
    (∀ upload ∈ result.2.uploads, upload.succeeds = true) ∧ ∀ generated ∈ result.2.webViewBuffers, generated = true

/-! ### Uploads -/

section Uploads

variable {env : Surroundings U} {state after final : CommitState U} {n m : ℕ}

theorem Surroundings.stores_add {start : ℕ} :
    env.Stores start (n + m) ↔ env.Stores start n ∧ env.Stores (start + n) m := by
  constructor
  · intro h
    refine ⟨fun i hi => h i (by omega), fun i hi => ?_⟩
    rw [Nat.add_assoc]
    exact h (n + i) (by omega)
  · rintro ⟨hfirst, hsecond⟩ i hi
    by_cases hin : i < n
    · exact hfirst i hin
    · have hrest := hsecond (i - n) (by omega)
      have hposition : start + n + (i - n) = start + i := by omega
      rwa [hposition] at hrest

theorem Surroundings.stores_one {start : ℕ} : env.Stores start 1 ↔ env.uploads start = true := by
  constructor
  · exact fun h => h 0 Nat.one_pos
  · intro h i hi
    have hzero : i = 0 := by omega
    rwa [hzero]

/-- Every upload so far succeeded. -/
def AllStored (state : CommitState U) : Prop := ∀ upload ∈ state.uploads, upload.succeeds = true

/-- Between two states nothing happens but uploads, all of which succeed exactly if `n` do by their positions. -/
structure Uploaded (env : Surroundings U) (n : ℕ) (state after : CommitState U) : Prop where
  scene : after.scene = state.scene
  history : after.history = state.history
  webViewBuffers : after.webViewBuffers = state.webViewBuffers
  stored : AllStored after ↔ AllStored state ∧ env.Stores state.uploads.length n

theorem Uploaded.refl (state : CommitState U) : Uploaded env 0 state state := by
  refine ⟨rfl, rfl, rfl, ?_⟩
  rw [and_iff_left]
  intro i hi
  omega

theorem Uploaded.trans (h : Uploaded env n state after) (hlength : after.uploads.length = state.uploads.length + n)
    (h' : Uploaded env m after final) : Uploaded env (n + m) state final := by
  refine ⟨h'.scene.trans h.scene, h'.history.trans h.history, h'.webViewBuffers.trans h.webViewBuffers, ?_⟩
  rw [h'.stored, h.stored, hlength, Surroundings.stores_add, and_assoc]

variable (env)

private theorem uploaded_uploadFileAndCommit (collection fileName : String) (bytes : List Byte) (state : CommitState U) :
    Uploaded env 1 state (env.uploadFileAndCommit collection fileName bytes state).2 := by
  refine ⟨rfl, rfl, rfl, ?_⟩
  rw [Surroundings.stores_one]
  show (∀ upload ∈ state.uploads ++ [_], upload.succeeds = true) ↔ _
  rw [List.forall_mem_append, List.forall_mem_singleton]
  rfl

private theorem length_uploadFileAndCommit (collection fileName : String) (bytes : List Byte) (state : CommitState U) :
    (env.uploadFileAndCommit collection fileName bytes state).2.uploads.length = state.uploads.length + 1 :=
  List.length_append

/-- The result of the loop over the reference files is that of the last one that can be read. -/
theorem foldl_commitRefFile (files : List (String × String)) (current : (Bool × String) × CommitState U) :
    let read := files.countP fun file => (env.readFile file.1).isRead
    let result := files.foldl env.commitRefFile current
    Uploaded env read current.2 result.2 ∧ result.2.uploads.length = current.2.uploads.length + read ∧
      result.1.1 = if read = 0 then current.1.1 else env.uploads (current.2.uploads.length + (read - 1)) := by
  induction files generalizing current with
  | nil => exact ⟨.refl _, rfl, rfl⟩
  | cons file files ih =>
    intro read result
    by_cases hread : (env.readFile file.1).isRead = true
    · obtain ⟨rawFile, hraw⟩ : ∃ rawFile, env.readFile file.1 = .read rawFile := by
        cases h : env.readFile file.1 with
        | read rawFile => exact ⟨rawFile, rfl⟩
        | notOpened => rw [h] at hread; exact absurd hread nofun
        | notRead => rw [h] at hread; exact absurd hread nofun
      obtain ⟨hrest, hlength, hsuccess⟩ := ih (env.commitRefFile current file)
      have hturn : (env.commitRefFile current file).2 = (env.uploadFileAndCommit
          (current.2.scene.projectName ++ ".history") file.2 rawFile current.2).2 := by
        rw [Surroundings.commitRefFile, hraw]
      have hfirst : (env.commitRefFile current file).1.1 = env.uploads current.2.uploads.length := by
        rw [Surroundings.commitRefFile, hraw]
        rfl
      have hone := length_uploadFileAndCommit env (current.2.scene.projectName ++ ".history") file.2 rawFile
        current.2
      have hcount : read = 1 + files.countP fun file => (env.readFile file.1).isRead := by
        show List.countP _ (file :: files) = _
        rw [List.countP_cons, if_pos hread, Nat.add_comm]
      rw [hturn] at hrest hlength hsuccess
      rw [hfirst, hone] at hsuccess
      rw [hone] at hlength
      refine ⟨?_, ?_, ?_⟩
      · rw [hcount]
        exact (uploaded_uploadFileAndCommit env _ _ _ _).trans hone hrest
      · rw [hcount, ← Nat.add_assoc]
        exact hlength
      · rw [if_neg (by omega)]
        refine hsuccess.trans ?_
        by_cases hlast : (files.countP fun file => (env.readFile file.1).isRead) = 0
        · rw [if_pos hlast, hcount, hlast]
          rfl
        · rw [if_neg hlast]
          congr 1
          omega
    · have hturn : env.commitRefFile current file = current := by
        rw [Surroundings.commitRefFile]
        cases h : env.readFile file.1 with
        | read rawFile => rw [h] at hread; exact absurd rfl hread
        | notOpened => rfl
        | notRead => rfl
      have hcount : read = files.countP fun file => (env.readFile file.1).isRead := by
        show List.countP _ (file :: files) = _
        rw [List.countP_cons, if_neg hread, Nat.add_zero]
      have hrest := ih current
      show Uploaded env read current.2 ((file :: files).foldl env.commitRefFile current).2 ∧ _
      simp only [result, List.foldl_cons, hturn, hcount]
      exact hrest

private theorem uploaded_foldl_frameStates (collection : String) (frames : List (String × List Byte)) (state : CommitState U) :
    let after := frames.foldl (fun current frame => (env.uploadFileAndCommit collection frame.1 frame.2 current).2) state
    Uploaded env frames.length state after ∧ after.uploads.length = state.uploads.length + frames.length := by
  induction frames generalizing state with
  | nil => exact ⟨.refl _, rfl⟩
  | cons frame frames ih =>
    obtain ⟨hrest, hlength⟩ := ih (env.uploadFileAndCommit collection frame.1 frame.2 state).2
    have hone := length_uploadFileAndCommit env collection frame.1 frame.2 state
    rw [hone] at hlength
    rw [List.length_cons, Nat.add_comm frames.length 1]
    refine ⟨(uploaded_uploadFileAndCommit env collection frame.1 frame.2 state).trans hone hrest, ?_⟩
    rw [← Nat.add_assoc]
    exact hlength

private theorem uploaded_commitSequence (state : CommitState U) :
    let n := state.scene.frameStates.length + if state.scene.taskList ≠ [] then 1 else 0
    Uploaded env n state (env.commitSequence state) ∧
      (env.commitSequence state).uploads.length = state.uploads.length + n := by
  obtain ⟨hframes, hlength⟩ := uploaded_foldl_frameStates env (state.scene.projectName ++ ".sequences")
    state.scene.frameStates state
  unfold Surroundings.commitSequence
  by_cases htasks : state.scene.taskList ≠ []
  · simp only [if_pos htasks]
    refine ⟨hframes.trans hlength (uploaded_uploadFileAndCommit env _ _ _ _), ?_⟩
    rw [length_uploadFileAndCommit, hlength, Nat.add_assoc]
  · simp only [if_neg htasks]
    exact ⟨hframes, hlength⟩

private theorem uploaded_commitTrees (collection fileNamePrefix : String) (files : List (String × List Byte))
    (state : CommitState U) :
    Uploaded env files.length state (env.commitTrees collection fileNamePrefix files state).2 := by
  induction files generalizing state with
  | nil => exact .refl _
  | cons file files ih =>
    have hfirst := uploaded_uploadFileAndCommit env collection (fileNamePrefix ++ file.1) file.2 state
    have hone := length_uploadFileAndCommit env collection (fileNamePrefix ++ file.1) file.2 state
    rw [Surroundings.commitTrees, List.length_cons, Nat.add_comm]
    by_cases hok : (env.uploadFileAndCommit collection (fileNamePrefix ++ file.1) file.2 state).1 = true
    · rw [if_pos hok]
      exact hfirst.trans hone (ih _)
    · rw [if_neg hok]
      refine ⟨hfirst.scene, hfirst.history, hfirst.webViewBuffers, ?_⟩
      have hfailed : ¬ env.uploads state.uploads.length = true := hok
      rw [hfirst.stored, Surroundings.stores_add, Surroundings.stores_one]
      constructor
      · exact fun h => absurd h.2 hfailed
      · exact fun h => absurd h.2.1 hfailed

/-! ### The parts of a commit -/

/-- The flag of the last reference file decides. -/
theorem commitRefFiles_cases (userName message tag : String) (revId : U) (parents : List U) (state : CommitState U) :
    let read := env.readable state.scene.refFiles
    let result := env.commitRefFiles userName message tag revId parents state
    (0 < read → env.uploads (state.uploads.length + (read - 1)) = false →
        ∃ errMsg after, result = (.error errMsg, after) ∧ after.history = state.history) ∧
      (¬ (0 < read ∧ env.uploads (state.uploads.length + (read - 1)) = false) →
        ∃ newRevNode after, result = (.ok newRevNode, { after with history := after.history ++ [newRevNode] }) ∧
          Uploaded env read state after ∧ after.uploads.length = state.uploads.length + read) := by
  intro read result
  obtain ⟨huploaded, hlength, hsuccess⟩ := foldl_commitRefFile env
    (state.scene.refFiles.zip (env.refFileNames revId state.scene.refFiles)) ((true, ""), state)
  have hcount : ((state.scene.refFiles.zip (env.refFileNames revId state.scene.refFiles)).countP fun file =>
      (env.readFile file.1).isRead) = read := by
    rw [Surroundings.refFileNames, ← List.map_prod_left_eq_zip, List.countP_map]
    rfl
  rw [hcount] at huploaded hlength hsuccess
  generalize hcommitted : (state.scene.refFiles.zip (env.refFileNames revId state.scene.refFiles)).foldl
    env.commitRefFile ((true, ""), state) = committed at huploaded hlength hsuccess
  have hresult : result = if committed.1.1 then
      (.ok ⟨revId, userName, message, tag, env.refFileNames revId state.scene.refFiles, parents, .genDefault⟩,
        { committed.2 with history := committed.2.history ++
          [⟨revId, userName, message, tag, env.refFileNames revId state.scene.refFiles, parents, .genDefault⟩] })
      else (.error committed.1.2, committed.2) := by
    rw [← hcommitted]
    rfl
  rw [hresult]
  constructor
  · intro hread hfailed
    rw [if_neg (by omega), hfailed] at hsuccess
    rw [hsuccess]
    exact ⟨committed.1.2, committed.2, rfl, huploaded.history⟩
  · intro hlast
    have hok : committed.1.1 = true := by
      rw [hsuccess]
      by_cases hread : read = 0
      · exact if_pos hread
      · rw [if_neg hread]
        exact Bool.eq_true_of_not_eq_false fun hfailed => hlast ⟨by omega, hfailed⟩
    rw [if_pos hok]
    exact ⟨_, committed.2, rfl, huploaded, hlength⟩

private theorem commitRevisionNode_cases (userName message tag : String) (revId : U) (state : CommitState U)
    (hloads : ¬ (state.scene.unRevisioned = false ∧ state.scene.revNode.isNone ∧ env.loadRevision matches .error _)) :
    ∃ parents state', env.commitRevisionNode userName message tag revId state =
        env.commitRefFiles userName message tag revId parents state' ∧
      ∃ revNode, state' = { state with scene := { state.scene with revNode := revNode } } := by
  unfold Surroundings.commitRevisionNode
  by_cases hload : (!state.scene.unRevisioned && state.scene.revNode.isNone) = true
  · rw [if_pos hload]
    rw [Bool.and_eq_true, Bool.not_eq_true'] at hload
    cases hrevision : env.loadRevision with
    | error errMsg => exact absurd ⟨hload.1, hload.2, by rw [hrevision]⟩ hloads
    | ok revNode => exact ⟨_, _, rfl, some revNode, rfl⟩
  · rw [if_neg hload]
    exact ⟨[], state, rfl, state.scene.revNode, rfl⟩

theorem Surroundings.failureCode_ne_ok (errMsg : String) : Surroundings.failureCode errMsg ≠ .ok := by
  unfold Surroundings.failureCode
  split <;> exact nofun

variable {scene : Scene U}

private theorem commit_of_ready (userName message tag : String) (revId : U)
    (hnames : ¬ (scene.databaseName = "" ∨ scene.projectName = "")) (hroot : scene.hasRoot = true) :
    ∃ commitMsg, env.commit userName message tag revId ⟨scene, [], [], [], false⟩ =
      match env.commitRevisionNode userName commitMsg tag revId
        ⟨{ scene with commitMsg := commitMsg }, [], [], [], false⟩ with
      | (.error errMsg, state) => (Surroundings.failureCode errMsg, state)
      | (.ok newRevNode, state) =>
        (.ok, if (Surroundings.revisioned newRevNode state).scene.frameStates ≠ [] then
            env.commitSequence (Surroundings.revisioned newRevNode state)
          else Surroundings.revisioned newRevNode state) := by
  refine ⟨if message ≠ "" then message else scene.commitMsg, ?_⟩
  rw [Surroundings.commit]
  dsimp only
  rw [if_neg hnames, hroot]
  rfl

/-- A commit that cannot begin completes nothing. -/
theorem commit_of_rejects (userName message tag : String) (revId : U) (h : env.Rejects scene) :
    let result := env.commit userName message tag revId ⟨scene, [], [], [], false⟩
    result.1 ≠ .ok ∧ result.2.history = [] := by
  intro result
  by_cases hnames : scene.databaseName = "" ∨ scene.projectName = ""
  · have hresult : result = (.uploadFailed, ⟨scene, [], [], [], false⟩) := if_pos hnames
    rw [hresult]
    exact ⟨nofun, rfl⟩
  · cases hroot : scene.hasRoot with
    | false =>
      have hresult : result = (.uploadFailed, ⟨scene, [], [], [], false⟩) := by
        refine (if_neg hnames).trans ?_
        rw [hroot]
        rfl
      rw [hresult]
      exact ⟨nofun, rfl⟩
    | true =>
      rcases h with hdatabase | hproject | hempty | ⟨hrevisioned, hnone, hload⟩
      · exact absurd (.inl hdatabase) hnames
      · exact absurd (.inr hproject) hnames
      · rw [hroot] at hempty
        exact absurd hempty nofun
      · cases hrevision : env.loadRevision with
        | ok revNode =>
          rw [hrevision] at hload
          exact absurd hload nofun
        | error errMsg =>
          obtain ⟨commitMsg, hcommit⟩ := commit_of_ready env userName message tag revId hnames hroot
          have hresult : result = (Surroundings.failureCode errMsg,
              ⟨{ scene with commitMsg := commitMsg }, [], [], [], false⟩) := by
            refine hcommit.trans ?_
            rw [Surroundings.commitRevisionNode]
            simp only [hrevisioned, hnone, hrevision, Bool.not_false, Bool.and_self, if_true]
          rw [hresult]
          exact ⟨Surroundings.failureCode_ne_ok errMsg, rfl⟩

private theorem commit_of_lastRefFileFails (userName message tag : String) (revId : U)
    (hbegins : ¬ env.Rejects scene) (h : env.LastRefFileFails scene) :
    let result := env.commit userName message tag revId ⟨scene, [], [], [], false⟩
    result.1 ≠ .ok ∧ result.2.history = [] := by
  simp only [Surroundings.Rejects, not_or] at hbegins
  obtain ⟨hdatabase, hproject, hroot, hload⟩ := hbegins
  obtain ⟨commitMsg, hcommit⟩ := commit_of_ready env userName message tag revId (not_or.2 ⟨hdatabase, hproject⟩)
    (Bool.eq_true_of_not_eq_false hroot)
  obtain ⟨parents, state', heq, revNode, rfl⟩ := commitRevisionNode_cases env userName commitMsg tag revId
    ⟨{ scene with commitMsg := commitMsg }, [], [], [], false⟩ hload
  obtain ⟨errMsg, after, hfiles, hhistory⟩ := (commitRefFiles_cases env userName commitMsg tag revId parents
    ⟨{ scene with commitMsg := commitMsg, revNode := revNode }, [], [], [], false⟩).1 h.1
      (by rw [List.length_nil, Nat.zero_add]; exact h.2)
  rw [hcommit, heq, hfiles]
  exact ⟨Surroundings.failureCode_ne_ok errMsg, hhistory⟩

/-- The state after a successful commit: the scene has a revision, and these uploads were made. -/
structure Committed (scene : Scene U) (state : CommitState U) : Prop where
  revNode : state.scene.revNode.isSome = true
  isRevisioned : state.scene.isRevisioned = true
  hasRoot : state.scene.hasRoot = true
  webViewBuffers : state.webViewBuffers = []
  length : state.uploads.length = env.readable scene.refFiles + Surroundings.sequenceUploads scene
  stored : AllStored state ↔ env.Stores 0 (env.readable scene.refFiles + Surroundings.sequenceUploads scene)

private theorem commit_of_stored (userName message tag : String) (revId : U)
    (hbegins : ¬ env.Rejects scene) (h : ¬ env.LastRefFileFails scene) :
    let result := env.commit userName message tag revId ⟨scene, [], [], [], false⟩
    result.1 = .ok ∧ Committed env scene result.2 := by
  simp only [Surroundings.Rejects, not_or] at hbegins
  obtain ⟨hdatabase, hproject, hroot, hload⟩ := hbegins
  obtain ⟨commitMsg, hcommit⟩ := commit_of_ready env userName message tag revId (not_or.2 ⟨hdatabase, hproject⟩)
    (Bool.eq_true_of_not_eq_false hroot)
  obtain ⟨parents, state', heq, revNode, rfl⟩ := commitRevisionNode_cases env userName commitMsg tag revId
    ⟨{ scene with commitMsg := commitMsg }, [], [], [], false⟩ hload
  obtain ⟨newRevNode, after, hfiles, huploaded, hlength⟩ := (commitRefFiles_cases env userName commitMsg tag revId parents
    ⟨{ scene with commitMsg := commitMsg, revNode := revNode }, [], [], [], false⟩).2
      (by rw [List.length_nil, Nat.zero_add]; exact h)
  rw [hcommit, heq, hfiles]
  refine ⟨rfl, ?_⟩
  have hroot : after.scene.hasRoot = true := by
    rw [huploaded.scene]
    exact Bool.eq_true_of_not_eq_false hroot
  have hframes : after.scene.frameStates = scene.frameStates := by rw [huploaded.scene]
  have htasks : after.scene.taskList = scene.taskList := by rw [huploaded.scene]
  have hlength : after.uploads.length = env.readable scene.refFiles := hlength.trans (Nat.zero_add _)
  have hstored : AllStored after ↔ env.Stores 0 (env.readable scene.refFiles) :=
    huploaded.stored.trans (and_iff_right nofun)
  -- the uploads of a sequence come after those of the reference files
  let revised := Surroundings.revisioned newRevNode { after with history := after.history ++ [newRevNode] }
  show Committed env scene (if revised.scene.frameStates ≠ [] then env.commitSequence revised else revised)
  by_cases hsequence : scene.frameStates ≠ []
  · obtain ⟨hmade, hcount⟩ := uploaded_commitSequence env revised
    have hn : revised.scene.frameStates.length + (if revised.scene.taskList ≠ [] then 1 else 0) =
        Surroundings.sequenceUploads scene := by
      show after.scene.frameStates.length + (if after.scene.taskList ≠ [] then 1 else 0) = _
      rw [hframes, htasks, Surroundings.sequenceUploads, if_pos hsequence]
    have hrevised : revised.scene.frameStates ≠ [] := hframes ▸ hsequence
    rw [hn] at hmade hcount
    rw [if_pos hrevised]
    refine ⟨?_, ?_, ?_, ?_, ?_, ?_⟩
    · rw [hmade.scene]
      rfl
    · rw [hmade.scene]
      rfl
    · rw [hmade.scene]
      exact hroot
    · exact hmade.webViewBuffers.trans huploaded.webViewBuffers
    · exact hcount.trans (congrArg (· + _) hlength)
    · have hposition : revised.uploads.length = 0 + env.readable scene.refFiles := by
        rw [Nat.zero_add]
        exact hlength
      rw [hmade.stored, hposition, Surroundings.stores_add]
      exact and_congr_left fun _ => hstored
  · have hn : Surroundings.sequenceUploads scene = 0 := if_neg hsequence
    have hrevised : ¬ revised.scene.frameStates ≠ [] := hframes ▸ hsequence
    rw [if_neg hrevised]
    refine ⟨rfl, rfl, hroot, huploaded.webViewBuffers, ?_, ?_⟩
    · rw [hn]
      exact hlength
    · rw [hn]
      exact hstored

private theorem uploaded_generateAndCommitSelectionTree {state : CommitState U} (hrevisioned : state.scene.isRevisioned = true)
    (hrevNode : state.scene.revNode.isSome = true) :
    Uploaded env env.getSelectionTreeAsBuffer.length state (env.generateAndCommitSelectionTree state).2 := by
  obtain ⟨revNode, hrevNode⟩ := Option.isSome_iff_exists.1 hrevNode
  rw [Surroundings.generateAndCommitSelectionTree, hrevisioned, hrevNode]
  dsimp only
  by_cases htrees : env.getSelectionTreeAsBuffer ≠ []
  · rw [if_pos htrees]
    exact uploaded_commitTrees env _ _ _ state
  · rw [if_neg htrees, not_not.1 htrees]
    exact .refl state

private theorem updateRevisionStatus_same (status : UploadStatus) (state : CommitState U) :
    let after := (Surroundings.updateRevisionStatus status state).2
    after.uploads = state.uploads ∧ after.webViewBuffers = state.webViewBuffers ∧
      after.scene.isRevisioned = state.scene.isRevisioned ∧ after.scene.hasRoot = state.scene.hasRoot ∧
        after.scene.revNode.isSome = state.scene.revNode.isSome := by
  unfold Surroundings.updateRevisionStatus
  cases hrevNode : state.scene.revNode with
  | none =>
    refine ⟨rfl, rfl, rfl, rfl, ?_⟩
    rw [hrevNode]
  | some revNode => exact ⟨rfl, rfl, rfl, rfl, rfl⟩

/-- After a successful commit the revision is completed in any case. -/
theorem completeRevision_of_committed {state : CommitState U} (h : Committed env scene state) :
    let result := env.completeRevision state
    result.1 = .ok ∧ ((AllStored result.2 ∧ ∀ generated ∈ result.2.webViewBuffers, generated = true) ↔
      env.StoresAll scene) := by
  refine ⟨rfl, ?_⟩
  let selTree := (Surroundings.updateRevisionStatus .genSelTree state).2
  let trees := (env.generateAndCommitSelectionTree selTree).2
  let webStash := (Surroundings.updateRevisionStatus .genWebStash trees).2
  let buffers := (env.generateWebViewBuffers webStash).2
  let complete := (Surroundings.updateRevisionStatus .complete buffers).2
  show (AllStored complete ∧ ∀ generated ∈ complete.webViewBuffers, generated = true) ↔ _
  obtain ⟨hfiles₁, hbuffers₁, hrevisioned₁, hroot₁, hrevNode₁⟩ := updateRevisionStatus_same .genSelTree state
  obtain ⟨hfiles₂, hbuffers₂, hrevisioned₂, hroot₂, -⟩ := updateRevisionStatus_same .genWebStash trees
  obtain ⟨hfiles₃, hbuffers₃, -⟩ := updateRevisionStatus_same .complete buffers
  have htrees : Uploaded env env.getSelectionTreeAsBuffer.length selTree trees :=
    uploaded_generateAndCommitSelectionTree env (hrevisioned₁.trans h.isRevisioned) (hrevNode₁.trans h.revNode)
  have hrevisioned : webStash.scene.isRevisioned = true := by
    rw [hrevisioned₂, htrees.scene, hrevisioned₁, h.isRevisioned]
  have hroot : webStash.scene.hasRoot = true := by
    rw [hroot₂, htrees.scene, hroot₁, h.hasRoot]
  have hgenerated : complete.webViewBuffers = [env.generatesBundles] := by
    have hnone : webStash.webViewBuffers = [] := by
      rw [hbuffers₂, htrees.webViewBuffers, hbuffers₁, h.webViewBuffers]
    rw [hbuffers₃]
    show webStash.webViewBuffers ++
      [webStash.scene.isRevisioned && webStash.scene.hasRoot && env.generatesBundles] = _
    rw [hnone, hrevisioned, hroot]
    rfl
  have hstored : AllStored complete ↔ AllStored trees := by
    rw [AllStored, hfiles₃]
    show AllStored webStash ↔ _
    rw [AllStored, hfiles₂]
    rfl
  have hstart : AllStored selTree ↔ AllStored state := by
    rw [AllStored, hfiles₁]
    rfl
  have hposition : selTree.uploads.length = 0 + (env.readable scene.refFiles + Surroundings.sequenceUploads scene) := by
    rw [hfiles₁, h.length, Nat.zero_add]
  rw [hgenerated, List.forall_mem_singleton, hstored, htrees.stored, hstart, h.stored, hposition,
    ← Surroundings.stores_add]
  rfl

end Uploads

/-- A revision is completed only if all is stored, exactly if the commit fails before, because it cannot begin or the
last reference file that can be read is not stored, or if everything succeeds. -/
theorem onlyIfStored_iff (env : Surroundings U) (owner tag desc : String) (revId : U) (scene : Scene U) :
    OnlyIfStored (env.commitScene owner tag desc revId scene) ↔
      env.Rejects scene ∨ env.LastRefFileFails scene ∨ env.StoresAll scene := by
  by_cases hfails : env.Rejects scene ∨ env.LastRefFileFails scene
  · have hcommit : let result := env.commit owner desc tag revId ⟨scene, [], [], [], false⟩
        result.1 ≠ .ok ∧ result.2.history = [] := by
      by_cases hrejects : env.Rejects scene
      · exact commit_of_rejects env owner desc tag revId hrejects
      · exact commit_of_lastRefFileFails env owner desc tag revId hrejects (hfails.resolve_left hrejects)
    obtain ⟨hcode, hhistory⟩ := hcommit
    rw [← or_assoc]
    refine iff_of_true ?_ (.inl hfails)
    rw [Surroundings.commitScene, if_neg hcode, if_pos hcode]
    rintro (hok | ⟨revNode, hmem, -⟩)
    · exact absurd hok hcode
    · have hmem : revNode ∈ (env.commit owner desc tag revId ⟨scene, [], [], [], false⟩).2.history := hmem
      rw [hhistory] at hmem
      exact absurd hmem List.not_mem_nil
  · obtain ⟨hrejects, hlast⟩ := not_or.1 hfails
    obtain ⟨hcode, hcommitted⟩ := commit_of_stored env owner desc tag revId hrejects hlast
    obtain ⟨hok, hstored⟩ := completeRevision_of_committed env hcommitted
    rw [Surroundings.commitScene, if_pos hcode, if_neg (not_not.2 hok), or_iff_right hrejects, or_iff_right hlast, ← hstored]
    exact ⟨fun h => h (.inl hok), fun h _ => h⟩

/-- One frame state, which is not stored. -/
def exampleSurroundings : Surroundings ℕ :=
  ⟨fun _ => "", id, fun _ => .notOpened, .error "", [("fulltree.json", [1])], true, fun n => decide (n ≠ 0)⟩

def exampleScene : Scene ℕ := ⟨"teamspace", "model", true, true, none, "", [], [("frame", [1])], [], 0⟩

theorem not_onlyIfStored : ¬ OnlyIfStored (exampleSurroundings.commitScene "" "" "" 1 exampleScene) := by
  intro h
  have hstored := (h (.inl rfl)).1 ⟨"model.sequences", "frame", [1], false⟩ (List.mem_cons_self)
  exact absurd hstored nofun

end Bouncer.SceneManager
