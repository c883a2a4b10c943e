import Bouncer.Core.BlobFiles
import Bouncer.Handler.FileManager
import Bouncer.Library.Chunking
import Bouncer.Library.Schedules

/-!
# The insertion of many documents

`insertManyDocuments` inserts documents in batches.  It takes the buffers out of them and puts them into blob files,
which are uploaded when they are full, and at the end.  A batch insert or an upload may throw.  An upload may also
return `false`, and this is ignored.  When something was thrown, the destructor of the blob handler uploads the active
file once more, and the program ends if this throws too.

The steps that a call takes are known from the sizes of the buffers (`schedule`).  A call that returns has inserted
all documents with their buffers, and one with a failed step throws, exactly if no step fails, or one throws and the
destructor does not (`succeedsOrThrows_iff`).
-/

namespace Bouncer.InsertMany

open Library Library.Schedules FileManager
open BlobFilesHandler (At Keeps)

variable {U R : Type}

abbrev Fields (U R : Type) := List (String × Value (RepoVariant U R))

/-- What a call is given besides the documents, and what happens in it: how each of its steps ends, by their positions,
and which identifiers are created.  A batch insert that throws has inserted some number of documents. -/
structure Call (U R : Type) where
  database : String
  collection : String
  binaryStorageMetadata : Metadata U R
  uploads : ℕ → UploadSteps
  insertMany : ℕ → Option ℕ
  createUUID : ℕ → String

/-- How a step ended. -/
inductive StepResult where
  | upload (result : Except Failure Bool)
  | insertMany (succeeds : Bool)

namespace StepResult

def ok : StepResult → Bool
  | upload (.ok success) => success
  | upload (.error _) => false
  | insertMany succeeds => succeeds

def throws : StepResult → Bool
  | upload (.ok _) => false
  | upload (.error _) => true
  | insertMany succeeds => !succeeds

private theorem ok_of_throws {result : StepResult} (h : result.throws = true) : result.ok = false := by
  cases result with
  | upload r => cases r with
    | ok b => exact absurd h nofun
    | error e => rfl
  | insertMany b => exact (Bool.not_eq_true' b).mp h

end StepResult

structure InsertState (U R : Type) where
  stores : FileStores U R
  /-- The documents in the collection. -/
  inserted : List (Fields U R)
  activeFile : Option FileEntry
  /-- How many identifiers were created. -/
  created : ℕ
  results : List StepResult

abbrev Insert (U R : Type) := EStateM Failure (InsertState U R)

inductive Outcome where
  | returned
  | thrown (failure : Failure)
  | terminated
  deriving DecidableEq

def maxParallelBSON : ℕ := 10000

/-! ### The code -/

namespace Call

variable (call : Call U R)

/-- Where the reference of a blob file is. -/
def key (name : String) : RefKey U := ⟨call.database, call.collection, .string name⟩

/-- The link of a file that is uploaded by the step at this position. -/
def link (n : ℕ) : String := linkName (call.uploads n).hierachy (call.uploads n).fileUUID

variable [DecidableEq U]

/-- Blob files are not compressed.  If an exception is thrown the file stays active. -/
def commitActiveFile : Insert U R Unit := fun state =>
  match state.activeFile with
  | some file =>
    let uploaded := uploadFileAndCommit id (call.key file.name) file.buffer call.binaryStorageMetadata .none
      (call.uploads state.results.length) state.stores
    let after := { state with stores := uploaded.1, results := state.results ++ [.upload uploaded.2] }
    match uploaded.2 with
    | .error failure => .error failure after
    | .ok _ => .ok () { after with activeFile := none }
  | none => .ok () state

def newActiveFile : Insert U R FileEntry := do
  call.commitActiveFile
  modifyGet fun state =>
    let file : FileEntry := ⟨call.createUUID state.created, []⟩
    (file, { state with activeFile := some file, created := state.created + 1 })

/-- The active file to which a buffer of this size is added. -/
def fileFor (size : ℕ) : Insert U R FileEntry := fun state =>
  match state.activeFile with
  | some file => if file.buffer.length + size > maxFileSizeBytes then call.newActiveFile state else .ok file state
  | none => call.newActiveFile state

def insertBinary (data : List Byte) : Insert U R DataRef := do
  let file ← call.fileFor data.length
  modify fun state => { state with activeFile := some { file with buffer := file.buffer ++ data } }
  return ⟨file.name, int64 file.buffer.length, int64 data.length⟩

/-- A document as it is committed. -/
def toCommit (node : LoadedBSON (RepoVariant U R)) : Insert U R (Fields U R) :=
  let data := node.getBinariesAsBuffer
  if data.2.length ≠ 0 then do
    let ref ← call.insertBinary data.2
    return (node.replaceBinaryWithReference ref.serialise data.1).fields
  else return node.fields

def insertBatch (documents : List (Fields U R)) : Insert U R Unit := fun state =>
  match call.insertMany state.results.length with
  | none => .ok () { state with
      inserted := state.inserted ++ documents, results := state.results ++ [.insertMany true] }
  | some n => .error .database { state with
      inserted := state.inserted ++ documents.take n, results := state.results ++ [.insertMany false] }

def commitBatch (nodes : List (LoadedBSON (RepoVariant U R))) : Insert U R Unit := do
  call.insertBatch (← nodes.mapM call.toCommit)

def commitBatches (objs : List (LoadedBSON (RepoVariant U R))) : Insert U R Unit := do
  let _ ← (batches maxParallelBSON objs).mapM call.commitBatch
  call.commitActiveFile

/-- The destructor of the handler runs in any case. -/
def insertManyDocuments (objs : List (LoadedBSON (RepoVariant U R))) (stores : FileStores U R)
    (inserted : List (Fields U R)) : InsertState U R × Outcome :=
  let destroyed (state : InsertState U R) (outcome : Outcome) : InsertState U R × Outcome :=
    match call.commitActiveFile state with
    | .ok _ state => (state, outcome)
    | .error _ state => (state, .terminated)
  match call.commitBatches objs ⟨stores, inserted, none, 0, []⟩ with
  | .ok _ state => destroyed state .returned
  | .error failure state => destroyed state (.thrown failure)

end Call

/-! ### The steps of a call -/

inductive StepKind where
  | upload
  | insertMany
  deriving DecidableEq

/-- A step, and whether a file is active if it throws. -/
structure ScheduledStep where
  kind : StepKind
  active : Bool
  deriving DecidableEq

/-- The upload of the active file; the state is its length. -/
def commitSteps (active : Option ℕ) : List ScheduledStep := if active.isSome then [⟨.upload, true⟩] else []

/-- The steps until there is a file for a buffer, and its length then. -/
def fileSteps (active : Option ℕ) (size : ℕ) : List ScheduledStep × ℕ :=
  match active with
  | some length => if length + size > maxFileSizeBytes then (commitSteps active, 0) else ([], length)
  | none => ([], 0)

def documentSteps (active : Option ℕ) (node : LoadedBSON (RepoVariant U R)) : List ScheduledStep × Option ℕ :=
  let size := node.getBinariesAsBuffer.2.length
  if size ≠ 0 then ((fileSteps active size).1, some ((fileSteps active size).2 + size)) else ([], active)

def batchSteps (active : Option ℕ) (nodes : List (LoadedBSON (RepoVariant U R))) : List ScheduledStep × Option ℕ :=
  let documents := planAll documentSteps active nodes
  (documents.1 ++ [⟨.insertMany, documents.2.isSome⟩], documents.2)

/-- The steps that a call takes if none of them throws. -/
def schedule (objs : List (LoadedBSON (RepoVariant U R))) : List ScheduledStep :=
  let all := planAll batchSteps none (batches maxParallelBSON objs)
  all.1 ++ commitSteps all.2

def uploadResult (steps : UploadSteps) : Except Failure Bool :=
  match steps.uploadFile with
  | .error _ => .error (.fileUpload steps.fileUUID)
  | .ok stored => .ok (stored && decide (linkName steps.hierachy steps.fileUUID ≠ "") && steps.upsertDocument)

def Call.result (call : Call U R) (n : ℕ) (step : ScheduledStep) : StepResult :=
  match step.kind with
  | .upload => .upload (uploadResult (call.uploads n))
  | .insertMany => .insertMany (call.insertMany n).isNone

/-- No step fails; or one throws, and then no file is active or its upload does not throw. -/
def Reports (call : Call U R) (objs : List (LoadedBSON (RepoVariant U R))) : Prop :=
  (∀ n step, (schedule objs)[n]? = some step → (call.result n step).ok = true) ∨
    ∃ n step, thrown call.result StepResult.throws 0 (schedule objs) = some (n, step) ∧
      (step.active = true → (call.result (n + 1) ⟨.upload, true⟩).throws = false)

/-! ### What a call should do -/

/-- Either the document has no bytes in its buffers, or it is inserted with a reference to where they are. -/
def Refers (isAt : String → ℕ → List Byte → Prop) (node : LoadedBSON (RepoVariant U R)) (fields : Fields U R) : Prop :=
  let data := node.getBinariesAsBuffer
  (data.2 = [] → fields = node.fields) ∧
    (data.2 ≠ [] → ∃ (name : String) (start : ℕ),
      fields = (node.replaceBinaryWithReference (DataRef.serialise ⟨name, start, data.2.length⟩) data.1).fields ∧
        isAt name start data.2)

/-- The reference resolves to a file with the bytes at this place. -/
def Stored (call : Call U R) (stores : FileStores U R) (name : String) (start : ℕ) (data : List Byte) : Prop :=
  ∃ ref bytes, stores.refs (call.key name) = some ref ∧ stores.files ref.link = some bytes ∧ At bytes start data

/-- If a call returns all documents are inserted once, in order, and their references resolve; if a step of it failed
it throws. -/
structure SucceedsOrThrows [DecidableEq U] (call : Call U R) (objs : List (LoadedBSON (RepoVariant U R)))
    (stores : FileStores U R) (inserted : List (Fields U R)) : Prop where
  complete : (call.insertManyDocuments objs stores inserted).2 = .returned →
    ∃ documents, (call.insertManyDocuments objs stores inserted).1.inserted = inserted ++ documents ∧
      List.Forall₂ (Refers (Stored call (call.insertManyDocuments objs stores inserted).1.stores)) objs documents
  reported : (∃ result ∈ (call.insertManyDocuments objs stores inserted).1.results, result.ok = false) →
    ∃ failure, (call.insertManyDocuments objs stores inserted).2 = .thrown failure

/-- New identifiers and new links are different from each other. -/
structure Call.Distinct (call : Call U R) : Prop where
  createUUID : Function.Injective call.createUUID
  link : Function.Injective call.link

theorem Refers.mono {isAt isAt' : String → ℕ → List Byte → Prop} {node : LoadedBSON (RepoVariant U R)}
    {fields : Fields U R} (h : Refers isAt node fields)
    (himp : ∀ name start data, isAt name start data → isAt' name start data) : Refers isAt' node fields := by
  refine ⟨h.1, fun hdata => ?_⟩
  obtain ⟨name, start, hfields, hat⟩ := h.2 hdata
  exact ⟨name, start, hfields, himp _ _ _ hat⟩

/-! ### The blob files of the handler -/

/-- The files of a blob handler are the ones that the references lead to. -/
structure Mirrors (call : Call U R) (handler : BlobFilesHandler) (state : InsertState U R) : Prop where
  activeFile : handler.activeFile = state.activeFile
  files : ∀ name bytes, handler.files.find name = some bytes → ∃ ref n, state.stores.refs (call.key name) = some ref ∧
    state.stores.files ref.link = some bytes ∧ n < state.results.length ∧ ref.link = call.link n
  names : ∀ name ∈ handler.files.names, ∃ n < state.created, name = call.createUUID n
  activeName : ∀ file, state.activeFile = some file → ∃ n < state.created, file.name = call.createUUID n

section Files

variable {call : Call U R} {handler : BlobFilesHandler} {state : InsertState U R}

theorem Mirrors.fresh (h : Mirrors call handler state) (hdistinct : call.Distinct) :
    BlobFilesHandler.Fresh (call.createUUID state.created) handler := by
  constructor
  · intro hname
    obtain ⟨n, hn, heq⟩ := h.names _ hname
    exact absurd (hdistinct.createUUID heq) (by omega)
  · intro file hactive heq
    obtain ⟨n, hn, hname⟩ := h.activeName file (h.activeFile ▸ hactive)
    exact absurd (hdistinct.createUUID (hname.symm.trans heq)) (by omega)

private theorem Mirrors.stored (h : Mirrors call handler state) (hnone : state.activeFile = none) {name : String} {start : ℕ}
    {data : List Byte} (hkeeps : Keeps name start data handler) : Stored call state.stores name start data := by
  rcases hkeeps with ⟨file, hactive, -⟩ | ⟨⟨bytes, hfind, hat⟩, -⟩
  · rw [h.activeFile, hnone] at hactive
    exact absurd hactive nofun
  · obtain ⟨ref, n, href, hfile, -⟩ := h.files _ _ hfind
    exact ⟨ref, bytes, href, hfile, hat⟩

variable [DecidableEq U]

private theorem uploadFileAndCommit_snd (key : RefKey U) (bin : List Byte) (metadata : Metadata U R) (steps : UploadSteps)
    (stores : FileStores U R) :
    (uploadFileAndCommit id key bin metadata .none steps stores).2 = uploadResult steps := by
  unfold uploadFileAndCommit uploadResult
  rcases steps.uploadFile with _ | _ | _
  · rfl
  · rfl
  · dsimp only
    by_cases hlink : linkName steps.hierachy steps.fileUUID ≠ ""
    · rw [if_pos hlink, decide_eq_true hlink]
      cases steps.upsertDocument <;> rfl
    · rw [if_neg hlink, decide_eq_false hlink]
      rfl

/-- An upload that succeeds, of the active file. -/
theorem Mirrors.commit (h : Mirrors call handler state) (hdistinct : call.Distinct) {file : FileEntry}
    (hactive : state.activeFile = some file) (hok : uploadResult (call.uploads state.results.length) = .ok true)
    (result : StepResult) :
    Mirrors call handler.commitActiveFile { state with
      stores := (uploadFileAndCommit id (call.key file.name) file.buffer call.binaryStorageMetadata .none
        (call.uploads state.results.length) state.stores).1
      results := state.results ++ [result]
      activeFile := none } := by
  have hstores : (uploadFileAndCommit id (call.key file.name) file.buffer call.binaryStorageMetadata .none
      (call.uploads state.results.length) state.stores).1 =
        (state.stores.putFile (call.link state.results.length) file.buffer).putRef (call.key file.name)
          (makeRefNode (call.link state.results.length) file.buffer.length call.binaryStorageMetadata) := by
    have hresult := uploadFileAndCommit_snd (call.key file.name) file.buffer call.binaryStorageMetadata
      (call.uploads state.results.length) state.stores
    rw [hok] at hresult
    rcases @upload_cases U R _ id (call.key file.name) file.buffer call.binaryStorageMetadata .none
      (call.uploads state.results.length) state.stores with ⟨-, hne⟩ | ⟨-, hne⟩ | ⟨he, -⟩
    · exact absurd hresult hne
    · exact absurd hresult hne
    · exact he
  have hcommit : handler.commitActiveFile = ⟨none, handler.files.set file.name file.buffer⟩ := by
    rw [BlobFilesHandler.commitActiveFile, h.activeFile, hactive]
  rw [hstores, hcommit]
  refine ⟨rfl, ?_, ?_, fun _ h => by cases h⟩
  · intro name bytes hfind
    show ∃ ref n, ((state.stores.putFile _ _).putRef _ _).refs (call.key name) = some ref ∧
      (state.stores.putFile _ _).files ref.link = some bytes ∧ n < (state.results ++ [result]).length ∧ _
    rw [List.length_append, List.length_singleton]
    by_cases hname : name = file.name
    · rw [hname, BinMapping.find_set_self] at hfind
      cases hfind
      refine ⟨makeRefNode (call.link state.results.length) file.buffer.length call.binaryStorageMetadata,
        state.results.length, ?_, ?_, by omega, rfl⟩
      · rw [Stores.refs_putRef, hname, if_pos rfl]
      · rw [Stores.files_putFile]
        exact if_pos rfl
    · rw [BinMapping.find_set_of_ne _ hname] at hfind
      obtain ⟨ref, n, href, hfile, hn, hlink⟩ := h.files name bytes hfind
      refine ⟨ref, n, ?_, ?_, by omega, hlink⟩
      · have hkey : call.key name ≠ call.key file.name := by
          intro he
          injection he with _ _ hid
          injection hid with hid
          exact hname hid
        rw [Stores.refs_putRef, if_neg hkey]
        exact href
      · -- the link of an earlier upload is another one
        have hother : ref.link ≠ call.link state.results.length := by
          rw [hlink]
          intro he
          exact absurd (hdistinct.link he) (by omega)
        rw [Stores.files_putFile, if_neg hother]
        exact hfile
  · intro name hname
    rcases BinMapping.mem_names_set hname with rfl | hname
    · exact h.activeName file hactive
    · exact h.names name hname

end Files

/-! ### What the parts of a call do -/

/-- Unless a step failed, the files are those of a handler for which this holds. -/
def Mirrored (call : Call U R) (P : BlobFilesHandler → Prop) (state : InsertState U R) : Prop :=
  (∀ result ∈ state.results, result.ok = true) → ∃ handler, Mirrors call handler state ∧ P handler

theorem Mirrored.mono {call : Call U R} {P Q : BlobFilesHandler → Prop} {state : InsertState U R}
    (h : Mirrored call P state) (himp : ∀ handler, Mirrors call handler state → P handler → Q handler) :
    Mirrored call Q state := by
  intro hok
  obtain ⟨handler, hmirrors, hP⟩ := h hok
  exact ⟨handler, hmirrors, himp handler hmirrors hP⟩

/-- The length of the active file. -/
def InsertState.active (state : InsertState U R) : Option ℕ := state.activeFile.map fun file => file.buffer.length

/-- The steps that a part of a call takes, and what holds after them.  A file is active when one of them throws if the
schedule says so. -/
abbrev Follows {α : Type} (call : Call U R) (c : Insert U R α) (state : InsertState U R) (steps : List ScheduledStep)
    (done : α → InsertState U R → Prop) : Prop :=
  Runs call.result StepResult.throws InsertState.results c state steps done
    fun step state => state.activeFile.isSome = step.active

section Parts

variable [DecidableEq U] {call : Call U R} {state : InsertState U R} {Q : BlobFilesHandler → Prop}

private theorem follows_commitActiveFile (hdistinct : call.Distinct)
    (h : Mirrored call (fun handler => Q handler.commitActiveFile) state) :
    Follows call call.commitActiveFile state (commitSteps state.active) fun _ after =>
      after.activeFile = none ∧ after.inserted = state.inserted ∧ after.created = state.created ∧
        Mirrored call Q after := by
  cases hactive : state.activeFile with
  | none =>
    have hsteps : commitSteps state.active = [] := by rw [InsertState.active, hactive]; rfl
    have hcommit : call.commitActiveFile state = .ok () state := by rw [Call.commitActiveFile, hactive]
    rw [hsteps]
    refine Runs.of_ok hcommit rfl ⟨hactive, rfl, rfl, ?_⟩
    refine h.mono fun handler hmirrors hQ => ?_
    have hsame : handler.commitActiveFile = handler := by
      rw [BlobFilesHandler.commitActiveFile, hmirrors.activeFile, hactive]
    rwa [hsame] at hQ
  | some file =>
    have hsteps : commitSteps state.active = [⟨.upload, true⟩] := by rw [InsertState.active, hactive]; rfl
    have huploaded := uploadFileAndCommit_snd (call.key file.name) file.buffer call.binaryStorageMetadata
      (call.uploads state.results.length) state.stores
    rw [hsteps]
    cases hresult : uploadResult (call.uploads state.results.length) with
    | error failure =>
      rw [hresult] at huploaded
      apply Runs.single
      · rw [Call.result, hresult]
        intro h
        cases h
      · intro _
        rw [Call.result, hresult]
        refine ⟨failure, { state with
          stores := (uploadFileAndCommit id (call.key file.name) file.buffer call.binaryStorageMetadata .none
            (call.uploads state.results.length) state.stores).1
          results := state.results ++ [.upload (.error failure)] }, ?_, rfl, ?_⟩
        · rw [Call.commitActiveFile, hactive]
          simp only [huploaded]
        · show state.activeFile.isSome = true
          rw [hactive]
          rfl
    | ok success =>
      rw [hresult] at huploaded
      apply Runs.single
      · intro _
        rw [Call.result, hresult]
        refine ⟨(), { state with
          stores := (uploadFileAndCommit id (call.key file.name) file.buffer call.binaryStorageMetadata .none
            (call.uploads state.results.length) state.stores).1
          results := state.results ++ [.upload (.ok success)]
          activeFile := none }, ?_, rfl, rfl, rfl, rfl, ?_⟩
        · rw [Call.commitActiveFile, hactive]
          simp only [huploaded]
        · intro hok
          have hsuccess : success = true := hok _ (List.mem_append_right _ (List.mem_singleton_self _))
          obtain ⟨handler, hmirrors, hQ⟩ := h fun result hmem => hok result (List.mem_append_left _ hmem)
          exact ⟨_, hmirrors.commit hdistinct hactive (hsuccess ▸ hresult) _, hQ⟩
      · rw [Call.result, hresult]
        intro h
        cases h

private theorem follows_newActiveFile (hdistinct : call.Distinct)
    (h : Mirrored call (fun handler => Q (handler.newActiveFile (call.createUUID state.created))) state) :
    Follows call call.newActiveFile state (commitSteps state.active) fun file after =>
      file.buffer = [] ∧ after.activeFile = some file ∧ after.inserted = state.inserted ∧ Mirrored call Q after := by
  have hcommit := follows_commitActiveFile (Q := fun handler =>
    Q { handler with activeFile := some ⟨call.createUUID state.created, []⟩ }) hdistinct h
  rw [← List.append_nil (commitSteps state.active)]
  refine hcommit.bind fun _ after ⟨_, hinserted, hcreated, hmirrored⟩ => ?_
  rw [← hcreated] at hmirrored
  refine Runs.of_ok rfl rfl ⟨rfl, rfl, hinserted, ?_⟩
  intro hok
  obtain ⟨handler, hmirrors, hQ⟩ := hmirrored hok
  refine ⟨{ handler with activeFile := some ⟨call.createUUID after.created, []⟩ }, ⟨rfl, hmirrors.files, ?_, ?_⟩, hQ⟩
  · intro name hname
    obtain ⟨n, hn, heq⟩ := hmirrors.names name hname
    exact ⟨n, Nat.lt_succ_of_lt hn, heq⟩
  · rintro file ⟨⟩
    exact ⟨after.created, Nat.lt_succ_self _, rfl⟩

private theorem follows_fileFor (hdistinct : call.Distinct) (size : ℕ)
    (h : Mirrored call (fun handler => Q (handler.fileFor (call.createUUID state.created) size).1) state) :
    Follows call (call.fileFor size) state (fileSteps state.active size).1 fun file after =>
      file.buffer.length = (fileSteps state.active size).2 ∧ after.activeFile = some file ∧
        after.inserted = state.inserted ∧ Mirrored call Q after := by
  cases hactive : state.activeFile with
  | none =>
    have hsteps : fileSteps state.active size = (commitSteps state.active, 0) := by
      rw [InsertState.active, hactive]
      rfl
    have hfile : call.fileFor size state = call.newActiveFile state := by rw [Call.fileFor, hactive]
    have hnew := follows_newActiveFile (Q := Q) hdistinct (h.mono fun handler hmirrors hQ => by
      rwa [BlobFilesHandler.fileFor_of_none _ _ (hmirrors.activeFile.trans hactive)] at hQ)
    rw [hsteps]
    refine Runs.congr hfile (hnew.mono fun file after ⟨hbuffer, hafter⟩ => ?_)
    exact ⟨congrArg List.length hbuffer, hafter⟩
  | some file =>
    have hlength : state.active = some file.buffer.length := by rw [InsertState.active, hactive]; rfl
    by_cases hsize : file.buffer.length + size > maxFileSizeBytes
    · have hsteps : fileSteps state.active size = (commitSteps state.active, 0) := by
        rw [hlength]
        exact if_pos hsize
      have hfile : call.fileFor size state = call.newActiveFile state := by
        rw [Call.fileFor, hactive]
        exact if_pos hsize
      have hnew := follows_newActiveFile (Q := Q) hdistinct (h.mono fun handler hmirrors hQ => by
        rwa [BlobFilesHandler.fileFor_of_full _ (hmirrors.activeFile.trans hactive) hsize] at hQ)
      rw [hsteps]
      refine Runs.congr hfile (hnew.mono fun file after ⟨hbuffer, hafter⟩ => ?_)
      exact ⟨congrArg List.length hbuffer, hafter⟩
    · have hsteps : fileSteps state.active size = ([], file.buffer.length) := by
        rw [hlength]
        exact if_neg hsize
      have hfile : call.fileFor size state = .ok file state := by
        rw [Call.fileFor, hactive]
        exact if_neg hsize
      rw [hsteps]
      refine Runs.of_ok hfile rfl ⟨rfl, hactive, rfl, h.mono fun handler hmirrors hQ => ?_⟩
      rwa [BlobFilesHandler.fileFor_of_fits _ (hmirrors.activeFile.trans hactive) hsize] at hQ

/-- The reference is the one that a handler gives. -/
theorem follows_insertBinary {P : DataRef → BlobFilesHandler → Prop} (hdistinct : call.Distinct) (data : List Byte)
    (h : Mirrored call (fun handler => P (handler.insertBinary (call.createUUID state.created) data).2
      (handler.insertBinary (call.createUUID state.created) data).1) state) :
    Follows call (call.insertBinary data) state (fileSteps state.active data.length).1 fun ref after =>
      after.active = some ((fileSteps state.active data.length).2 + data.length) ∧ after.inserted = state.inserted ∧
        Mirrored call (P ref) after := by
  have hfile := follows_fileFor (Q := fun handler => ∀ file, handler.activeFile = some file →
    P ⟨file.name, int64 file.buffer.length, int64 data.length⟩
      { handler with activeFile := some { file with buffer := file.buffer ++ data } }) hdistinct data.length
    (h.mono fun handler _ hP file hactive => by
      have hsame := BlobFilesHandler.activeFile_fileFor (call.createUUID state.created) data.length handler
      rw [hsame] at hactive
      cases hactive
      exact hP)
  rw [← List.append_nil (fileSteps state.active data.length).1]
  refine hfile.bind fun file after ⟨hlength, hactive, hinserted, hmirrored⟩ => ?_
  refine Runs.of_ok rfl rfl ⟨?_, hinserted, ?_⟩
  · show some (file.buffer ++ data).length = _
    rw [List.length_append, hlength]
  · intro hok
    obtain ⟨handler, hmirrors, hP⟩ := hmirrored hok
    refine ⟨{ handler with activeFile := some { file with buffer := file.buffer ++ data } },
      ⟨rfl, hmirrors.files, hmirrors.names, ?_⟩, hP file (hmirrors.activeFile.trans hactive)⟩
    rintro file' ⟨⟩
    exact hmirrors.activeName file hactive

/-- The buffers of these documents are in the files of the handler. -/
def PlacedIn (placed : List (LoadedBSON (RepoVariant U R) × Fields U R)) (handler : BlobFilesHandler) : Prop :=
  ∀ pair ∈ placed, Refers (fun name start data => Keeps name start data handler) pair.1 pair.2

omit [DecidableEq U] in
theorem PlacedIn.step {placed : List (LoadedBSON (RepoVariant U R) × Fields U R)} {handler handler' : BlobFilesHandler}
    (h : PlacedIn placed handler) (hstep : BlobFilesHandler.Step handler handler') : PlacedIn placed handler' :=
  fun pair hpair => (h pair hpair).mono fun _ _ _ hkeeps => hkeeps.step hstep

omit [DecidableEq U] in
theorem PlacedIn.concat {placed : List (LoadedBSON (RepoVariant U R) × Fields U R)} {handler : BlobFilesHandler}
    (h : PlacedIn placed handler) {node : LoadedBSON (RepoVariant U R)} {fields : Fields U R}
    (hnew : Refers (fun name start data => Keeps name start data handler) node fields) :
    PlacedIn (placed ++ [(node, fields)]) handler := by
  intro pair hpair
  rcases List.mem_append.1 hpair with hpair | hpair
  · exact h pair hpair
  · rw [List.mem_singleton.1 hpair]
    exact hnew

/-- What was inserted, the length of the active file, and documents whose buffers are in the files of a handler, if no
step failed. -/
structure Consistent (call : Call U R) (inserted : List (Fields U R)) (active : Option ℕ)
    (placed : List (LoadedBSON (RepoVariant U R) × Fields U R)) (state : InsertState U R) : Prop where
  inserted : state.inserted = inserted
  active : state.active = active
  placed : Mirrored call (PlacedIn placed) state

variable {inserted : List (Fields U R)} {active : Option ℕ}
  {placed : List (LoadedBSON (RepoVariant U R) × Fields U R)}

theorem Consistent.toCommit (h : Consistent call inserted active placed state) (hdistinct : call.Distinct)
    (node : LoadedBSON (RepoVariant U R)) :
    Follows call (call.toCommit node) state (documentSteps active node).1 fun fields after =>
      Consistent call inserted (documentSteps active node).2 (placed ++ [(node, fields)]) after := by
  let data := node.getBinariesAsBuffer
  by_cases hempty : data.2.length ≠ 0
  · have hsteps : documentSteps active node =
        ((fileSteps active data.2.length).1, some ((fileSteps active data.2.length).2 + data.2.length)) := if_pos hempty
    have hcommit : call.toCommit node = do
        let ref ← call.insertBinary data.2
        return (node.replaceBinaryWithReference ref.serialise data.1).fields := if_pos hempty
    have hsize : data.2.length < 2 ^ 63 := by
      show node.getBinariesAsBuffer.2.length < 2 ^ 63
      rw [RepoBSON.getBinariesAsBuffer_eq _ node.size_lt, RepoBSON.length_flatten]
      exact node.size_lt
    -- what was placed before stays, and the new reference is to the bytes of this document
    have hinsert := follows_insertBinary (P := fun ref handler =>
      PlacedIn placed handler ∧
        ∃ (name : String) (start : ℕ), ref = ⟨name, start, data.2.length⟩ ∧ Keeps name start data.2 handler)
      hdistinct data.2 (h.placed.mono fun handler hmirrors hplaced => by
        have hstep := BlobFilesHandler.Step.insert data.2 (hmirrors.fresh hdistinct)
        exact ⟨hplaced.step hstep, BlobFilesHandler.keeps_insertBinary _ _ hsize handler⟩)
    rw [hsteps, hcommit, ← List.append_nil (fileSteps active data.2.length).1]
    rw [h.active] at hinsert
    refine hinsert.bind fun ref after ⟨hactive, hinserted, hmirrored⟩ => ?_
    refine Runs.of_ok rfl rfl ⟨hinserted.trans h.inserted, hactive, hmirrored.mono fun handler _ ⟨hplaced, hnew⟩ => ?_⟩
    obtain ⟨name, start, rfl, hkeeps⟩ := hnew
    exact hplaced.concat
      ⟨fun hnil => absurd (congrArg List.length hnil) hempty, fun _ => ⟨name, start, rfl, hkeeps⟩⟩
  · have hsteps : documentSteps active node = ([], active) := if_neg hempty
    have hcommit : call.toCommit node = pure node.fields := if_neg hempty
    rw [hsteps, hcommit]
    refine Runs.of_ok rfl rfl ⟨h.inserted, h.active, h.placed.mono fun handler _ hplaced => ?_⟩
    have hnil : data.2 = [] := List.length_eq_zero_iff.1 (not_not.1 hempty)
    exact hplaced.concat ⟨fun _ => rfl, fun hne => absurd hnil hne⟩

omit [DecidableEq U] in
theorem Consistent.insertBatch (h : Consistent call inserted active placed state) (documents : List (Fields U R)) :
    Follows call (call.insertBatch documents) state [⟨.insertMany, active.isSome⟩] fun _ after =>
      Consistent call (inserted ++ documents) active placed after := by
  have hsome : state.activeFile.isSome = active.isSome := by
    rw [← h.active, InsertState.active, Option.isSome_map]
  cases hresult : call.insertMany state.results.length with
  | none =>
    apply Runs.single
    · intro _
      rw [Call.result, hresult]
      refine ⟨(), { state with
        inserted := state.inserted ++ documents, results := state.results ++ [.insertMany true] }, ?_, rfl,
          congrArg (· ++ documents) h.inserted, h.active, ?_⟩
      · rw [Call.insertBatch, hresult]
      · intro hok
        obtain ⟨handler, hmirrors, hplaced⟩ := h.placed fun result hmem => hok result (List.mem_append_left _ hmem)
        refine ⟨handler, ⟨hmirrors.activeFile, ?_, hmirrors.names, hmirrors.activeName⟩, hplaced⟩
        intro name bytes hfind
        obtain ⟨ref, n, href, hfile, hn, hlink⟩ := hmirrors.files name bytes hfind
        refine ⟨ref, n, href, hfile, ?_, hlink⟩
        show n < (state.results ++ [_]).length
        rw [List.length_append]
        omega
    · rw [Call.result, hresult]
      exact nofun
  | some n =>
    apply Runs.single
    · rw [Call.result, hresult]
      exact nofun
    · intro _
      rw [Call.result, hresult]
      refine ⟨.database, { state with
        inserted := state.inserted ++ documents.take n, results := state.results ++ [.insertMany false] }, ?_, rfl,
          hsome⟩
      rw [Call.insertBatch, hresult]

theorem Consistent.commitBatch (h : Consistent call inserted active placed state) (hdistinct : call.Distinct)
    (nodes : List (LoadedBSON (RepoVariant U R))) :
    Follows call (call.commitBatch nodes) state (batchSteps active nodes).1 fun _ after =>
      ∃ documents : List (Fields U R), documents.length = nodes.length ∧
        Consistent call (inserted ++ documents) (batchSteps active nodes).2 (placed ++ nodes.zip documents) after := by
  have hturn : ∀ t pairs s node, Consistent call inserted t (placed ++ pairs) s →
      Follows call (call.toCommit node) s (documentSteps t node).1 fun fields after =>
        Consistent call inserted (documentSteps t node).2 (placed ++ (pairs ++ [(node, fields)])) after := by
    intro t pairs s node hs
    refine (hs.toCommit hdistinct node).mono fun fields after hafter => ?_
    rwa [← List.append_assoc]
  have hstart : Consistent call inserted active (placed ++ []) state := by rwa [List.append_nil]
  refine (Runs.mapM hturn nodes hstart).bind fun documents after ⟨hlength, hafter⟩ => ?_
  rw [List.nil_append] at hafter
  exact (hafter.insertBatch documents).mono fun _ after hinserted => ⟨documents, hlength, hinserted⟩

private theorem follows_commitBatches (hdistinct : call.Distinct) (objs : List (LoadedBSON (RepoVariant U R)))
    (stores : FileStores U R) (inserted : List (Fields U R)) :
    Follows call (call.commitBatches objs) ⟨stores, inserted, none, 0, []⟩ (schedule objs) fun _ after =>
      after.activeFile = none ∧ ∃ placed : List (LoadedBSON (RepoVariant U R) × Fields U R),
        placed.map Prod.fst = objs ∧ after.inserted = inserted ++ placed.map Prod.snd ∧
          Mirrored call (PlacedIn placed) after := by
  have hturn : ∀ t (turns : List (List (LoadedBSON (RepoVariant U R)) × Unit)) s nodes,
      (∃ placed, placed.map Prod.fst = (turns.map Prod.fst).flatten ∧
        Consistent call (inserted ++ placed.map Prod.snd) t placed s) →
      Follows call (call.commitBatch nodes) s (batchSteps t nodes).1 fun y after =>
        ∃ placed, placed.map Prod.fst = ((turns ++ [(nodes, y)]).map Prod.fst).flatten ∧
          Consistent call (inserted ++ placed.map Prod.snd) (batchSteps t nodes).2 placed after := by
    rintro t turns s nodes ⟨placed, hplaced, hs⟩
    refine (hs.commitBatch hdistinct nodes).mono fun _ after ⟨documents, hlength, hafter⟩ => ?_
    refine ⟨placed ++ nodes.zip documents, ?_, ?_⟩
    · rw [List.map_append, List.map_append, List.flatten_append, hplaced, List.map_fst_zip hlength.ge]
      simp
    · rw [List.map_append, List.map_snd_zip hlength.le, ← List.append_assoc]
      exact hafter
  have hstart : ∃ placed : List (LoadedBSON (RepoVariant U R) × Fields U R),
      placed.map Prod.fst = (([] : List (List (LoadedBSON (RepoVariant U R)) × Unit)).map Prod.fst).flatten ∧
        Consistent call (inserted ++ placed.map Prod.snd) none placed ⟨stores, inserted, none, 0, []⟩ := by
    refine ⟨[], rfl, List.append_nil _ |>.symm, rfl, fun _ => ⟨⟨none, []⟩, ⟨rfl, nofun, nofun, nofun⟩, nofun⟩⟩
  refine (Runs.mapM hturn (batches maxParallelBSON objs) hstart).bind fun turns after hafter => ?_
  obtain ⟨hlength, placed, hplaced, hconsistent⟩ := hafter
  have hobjs : placed.map Prod.fst = objs := by
    rw [hplaced, List.nil_append, List.map_fst_zip hlength.ge]
    exact flatten_batches (by decide) objs
  have hkept : Mirrored call (fun handler => PlacedIn placed handler.commitActiveFile) after :=
    hconsistent.placed.mono fun _ _ hplaced => hplaced.step .finished
  rw [← hconsistent.active]
  refine (follows_commitActiveFile (Q := PlacedIn placed) hdistinct hkept).mono ?_
  rintro _ final ⟨hnone, hinserted, -, hmirrored⟩
  exact ⟨hnone, placed, hobjs, hinserted.trans hconsistent.inserted, hmirrored⟩

/-- After a failure the destructor throws exactly if a file is active and its upload throws. -/
theorem commitActiveFile_of_failed (hdistinct : call.Distinct) {active : Bool}
    (hactive : state.activeFile.isSome = active) (hfailed : ∃ result ∈ state.results, result.ok = false) :
    ((active = true → (call.result state.results.length ⟨.upload, true⟩).throws = false) →
        ∃ after, call.commitActiveFile state = .ok () after) ∧
      (¬ (active = true → (call.result state.results.length ⟨.upload, true⟩).throws = false) →
        ∃ failure after, call.commitActiveFile state = .error failure after ∧
          ∃ result ∈ after.results, result.ok = false) := by
  obtain ⟨result, hmem, hresult⟩ := hfailed
  have hmirrored : Mirrored call (fun _ => True) state := fun hok => by
    rw [hok result hmem] at hresult
    exact absurd hresult nofun
  have hrun := follows_commitActiveFile (Q := fun _ => True) hdistinct hmirrored
  have hsteps : commitSteps state.active = if active then [⟨.upload, true⟩] else [] := by
    rw [commitSteps, InsertState.active, Option.isSome_map, hactive]
  rw [hsteps] at hrun
  constructor
  · intro hquiet
    have hthrown : thrown call.result StepResult.throws state.results.length
        (if active then [⟨.upload, true⟩] else []) = none := by
      cases active with
      | false => rfl
      | true => rw [if_pos rfl, thrown, hquiet rfl]; rfl
    obtain ⟨_, after, hc, -⟩ := (runs_of_none hthrown).1 hrun
    exact ⟨after, hc⟩
  · intro hloud
    rw [Classical.not_imp] at hloud
    obtain ⟨rfl, hthrows⟩ := hloud
    have hthrown : thrown call.result StepResult.throws state.results.length [⟨.upload, true⟩] =
        some (state.results.length, ⟨.upload, true⟩) := by
      rw [thrown, Bool.eq_true_of_not_eq_false hthrows]
      rfl
    rw [if_pos rfl] at hrun
    obtain ⟨failure, after, hc, htrace, -⟩ := (runs_of_some hthrown).1 hrun
    exact ⟨failure, after, hc, result, htrace ▸ List.mem_append_left _ hmem, hresult⟩

/-- A call that returns has inserted everything, and one with a failed step throws, exactly if no step fails, or if one
throws and the destructor then does not. -/
theorem succeedsOrThrows_iff (call : Call U R) (hdistinct : call.Distinct) (objs : List (LoadedBSON (RepoVariant U R)))
    (stores : FileStores U R) (inserted : List (Fields U R)) :
    SucceedsOrThrows call objs stores inserted ↔ Reports call objs := by
  have hrun := follows_commitBatches hdistinct objs stores inserted
  cases hthrown : thrown call.result StepResult.throws 0 (schedule objs) with
  | none =>
    obtain ⟨_, after, hc, htrace, hnone, placed, hobjs, hinserted, hmirrored⟩ := (runs_of_none hthrown).1 hrun
    have htrace : after.results = performed call.result StepResult.throws 0 (schedule objs) := htrace
    have hreturned : call.insertManyDocuments objs stores inserted = (after, .returned) := by
      rw [Call.insertManyDocuments, hc]
      simp only [Call.commitActiveFile, hnone]
    have hall := forall_performed_iff (fun result => result.ok = true) hthrown
    rw [← htrace] at hall
    simp only [Nat.zero_add] at hall
    constructor
    · intro h
      refine .inl (hall.1 fun result hmem => Bool.eq_true_of_not_eq_false fun hfailed => ?_)
      obtain ⟨failure, he⟩ := h.reported (by rw [hreturned]; exact ⟨result, hmem, hfailed⟩)
      rw [hreturned] at he
      exact absurd he nofun
    · rintro (hok | ⟨n, step, he, -⟩)
      · have hresults := hall.2 hok
        constructor
        · intro _
          rw [hreturned]
          obtain ⟨handler, hmirrors, hplaced⟩ := hmirrored hresults
          refine ⟨placed.map Prod.snd, hinserted, ?_⟩
          rw [← hobjs, List.forall₂_map_left_iff, List.forall₂_map_right_iff, List.forall₂_same]
          exact fun pair hpair => (hplaced pair hpair).mono fun _ _ _ hkeeps => hmirrors.stored hnone hkeeps
        · rw [hreturned]
          rintro ⟨result, hmem, hfailed⟩
          rw [hresults result hmem] at hfailed
          exact absurd hfailed nofun
      · rw [hthrown] at he
        exact absurd he nofun
  | some p =>
    obtain ⟨n, step⟩ := p
    obtain ⟨failure, after, hc, htrace, hactive⟩ := (runs_of_some hthrown).1 hrun
    have htrace : after.results = performed call.result StepResult.throws 0 (schedule objs) := htrace
    obtain ⟨hlength, hthrows, hmem⟩ := performed_of_some hthrown
    rw [← htrace] at hlength hmem
    rw [Nat.zero_add] at hlength
    have hfailed : ∃ result ∈ after.results, result.ok = false := ⟨_, hmem, StepResult.ok_of_throws hthrows⟩
    have hdestroyed := commitActiveFile_of_failed hdistinct hactive hfailed
    rw [hlength] at hdestroyed
    have hreports : Reports call objs ↔
        (step.active = true → (call.result (n + 1) ⟨.upload, true⟩).throws = false) := by
      constructor
      · rintro (hok | ⟨n', step', he, hquiet⟩)
        · obtain ⟨i, hi, rfl⟩ := exists_of_thrown hthrown
          have hok := hok i step hi
          rw [Nat.zero_add] at hthrows
          rw [StepResult.ok_of_throws hthrows] at hok
          exact absurd hok nofun
        · rw [hthrown] at he
          cases he
          exact hquiet
      · exact fun hquiet => .inr ⟨n, step, hthrown, hquiet⟩
    rw [hreports]
    constructor
    · intro h
      by_contra hloud
      obtain ⟨failure', final, hcommit, hfinal⟩ := hdestroyed.2 hloud
      have hterminated : call.insertManyDocuments objs stores inserted = (final, .terminated) := by
        rw [Call.insertManyDocuments, hc]
        simp only [hcommit]
      obtain ⟨_, he⟩ := h.reported (by rw [hterminated]; exact hfinal)
      rw [hterminated] at he
      exact absurd he nofun
    · intro hquiet
      obtain ⟨final, hcommit⟩ := hdestroyed.1 hquiet
      have hends : call.insertManyDocuments objs stores inserted = (final, .thrown failure) := by
        rw [Call.insertManyDocuments, hc]
        simp only [hcommit]
      constructor
      · rw [hends]
        exact nofun
      · exact fun _ => ⟨failure, by rw [hends]⟩

end Parts

/-! ### A document with one buffer -/

section Example

/-- Identifiers of different lengths. -/
def exampleUUID (n : ℕ) : String := String.ofList ('f' :: List.replicate n 'f')

private theorem exampleUUID_injective : Function.Injective exampleUUID := by
  intro n m h
  have hlength := congrArg List.length (String.ofList_injective h)
  simpa using hlength

/-- In this call all uploads end in the same way, and so do all batch inserts. -/
def exampleCall (uploadFile : Except Unit Bool) (insertMany : Option ℕ) : Call ℕ ℕ :=
  ⟨"teamspace", "model.scene", [], fun n => ⟨exampleUUID n, [], uploadFile, true⟩, fun _ => insertMany, exampleUUID⟩

private theorem distinct_exampleCall (uploadFile : Except Unit Bool) (insertMany : Option ℕ) :
    (exampleCall uploadFile insertMany).Distinct := ⟨exampleUUID_injective, exampleUUID_injective⟩

def exampleDocument : LoadedBSON (RepoVariant ℕ ℕ) :=
  ⟨⟨[("type", .scalar (.string "mesh"))], [("vertices", [1])], by decide⟩, by decide⟩

theorem succeedsOrThrows_example :
    SucceedsOrThrows (exampleCall (.ok true) none) [exampleDocument] Stores.empty [] := by
  refine (succeedsOrThrows_iff _ (distinct_exampleCall _ _) _ _ _).2 (.inl ?_)
  rintro n ⟨_ | _, active⟩ -
  · have hlink : linkName [] (exampleUUID n) ≠ "" := by
      intro h
      exact absurd (congrArg String.toList h) (by simp [linkName, exampleUUID])
    show (decide (linkName [] (exampleUUID n) ≠ "") && true) = true
    rw [decide_eq_true hlink]
    rfl
  · rfl

/-- If the file is not written the call returns, and if the batch insert and the upload after it throw the program
ends. -/
theorem not_succeedsOrThrows :
    ¬ SucceedsOrThrows (exampleCall (.ok false) none) [exampleDocument] Stores.empty [] ∧
      ¬ SucceedsOrThrows (exampleCall (.error ()) (some 0)) [exampleDocument] Stores.empty [] := by
  constructor
  · intro h
    obtain ⟨failure, he⟩ := h.reported ⟨.upload (.ok false), List.mem_of_getElem? (i := 1) rfl, rfl⟩
    exact absurd he nofun
  · intro h
    obtain ⟨failure, he⟩ := h.reported ⟨.insertMany false, List.mem_of_getElem? (i := 0) rfl, rfl⟩
    exact absurd he nofun

end Example

end Bouncer.InsertMany
