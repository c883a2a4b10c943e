import Bouncer.Core.BlobPacking
import Bouncer.Handler.QueryFilter

/-!
# Writing in bulk

A `MongoWriteContext` collects inserts and updates in a bulk, which is executed when it is larger than 16 MiB, and when
the context is flushed.  The buffers of a document go to a blob file before it, and the document refers to them.

A bulk whose execution fails throws.  An upload of a file may throw too, and when it fails otherwise this is ignored.  If
all of them succeed, the bulks that are executed hold the calls in their order, whatever their sizes, and after a flush
every document that was inserted can be loaded with its buffers (`session_persists`).
-/

namespace Bouncer.MongoWriteContext

open Library (Value lookup)
open Query (FilterDocument makeQueryFilterDocument)

variable {U R : Type}

structure AddParent (U : Type) where
  uniqueId : U
  /-- The elements of the `std::set`, in its order. -/
  parentIds : List U

/-- The documents that `MongoUpdateVisitor` makes. -/
def AddParent.query (u : AddParent U) : FilterDocument (RepoVariant U R) :=
  makeQueryFilterDocument (.eq "_id" [.uuid u.uniqueId])

def AddParent.update (u : AddParent U) : RepoBSON (RepoVariant U R) :=
  let operation : Value (RepoVariant U R) :=
    match u.parentIds with
    | [parent] => .scalar (.uuid parent)
    | parents => .object [("$each", .array (parents.map fun parent => .scalar (.uuid parent)))]
  .ofFields [("$addToSet", .object [("parents", operation)])]

/-- An operation in a bulk. -/
inductive WriteModel (U R : Type) where
  | insertOne (document : RepoBSON (RepoVariant U R))
  | updateOne (filter : FilterDocument (RepoVariant U R)) (update : RepoBSON (RepoVariant U R))

/-- `objsize`.  No document is encoded in no bytes. -/
structure Sizes (U R : Type) where
  document : RepoBSON (RepoVariant U R) → ℕ
  filter : FilterDocument (RepoVariant U R) → ℕ
  document_pos : ∀ bson, 0 < document bson

def Sizes.objsize (sizes : Sizes U R) : WriteModel U R → ℕ
  | .insertOne document => sizes.document document
  | .updateOne filter update => sizes.filter filter + sizes.document update

/-- The context, and the bulks that have been executed. -/
structure State (U R : Type) where
  blobHandler : BlobFilesHandler
  bulk : List (WriteModel U R)
  bulkSize : ℕ
  executed : List (List (WriteModel U R))

def maxBulkSize : ℕ := 16 * 1024 * 1024

/-- How the steps of a call end, of which there is one of each kind at most: whether a bulk is executed, or it throws, and
whether a file is stored that is uploaded.  The upload has no result if it throws. -/
structure Outcome where
  execute : Bool
  upload : Option Bool

def Outcome.Succeeds (o : Outcome) : Prop := o.execute = true ∧ o.upload = some true

instance (o : Outcome) : Decidable o.Succeeds := inferInstanceAs (Decidable (_ ∧ _))

/-- Nothing, here and in what follows, is an exception. -/
def executeBulkWrite (o : Outcome) (s : State U R) : Option (State U R) :=
  if s.bulkSize ≠ 0 then
    if o.execute then some { s with bulk := [], bulkSize := 0, executed := s.executed ++ [s.bulk] } else none
  else some { s with bulk := [], bulkSize := 0 }

def checkBulkWrite (o : Outcome) (s : State U R) : Option (State U R) :=
  if s.bulkSize > maxBulkSize then executeBulkWrite o s else some s

/-- `bulk->append`, and what follows it in `insertDocument` and `updateDocument`. -/
def append (sizes : Sizes U R) (op : WriteModel U R) (o : Outcome) (s : State U R) : Option (State U R) :=
  checkBulkWrite o { s with bulk := s.bulk ++ [op], bulkSize := s.bulkSize + sizes.objsize op }

/-- `BlobFilesHandler::commitActiveFile`.  The result of the upload is ignored. -/
def commitActiveFile (o : Outcome) (handler : BlobFilesHandler) : Option BlobFilesHandler :=
  if handler.activeFile.isSome then
    o.upload.map fun success => if success then handler.commitActiveFile else { handler with activeFile := none }
  else some handler

/-- `BlobFilesHandler::insertBinary`, where a file that is full is committed before. -/
def insertBinary (o : Outcome) (uuid : String) (data : List Byte) (handler : BlobFilesHandler) :
    Option (BlobFilesHandler × DataRef) := do
  let full := handler.activeFile.any fun file => file.buffer.length + data.length > maxFileSizeBytes
  let handler ← if full then commitActiveFile o handler else some handler
  return handler.insertBinary uuid data

/-- The document that is sent: the fields without the buffers. -/
def view (obj : RepoBSON (RepoVariant U R)) : RepoBSON (RepoVariant U R) := .ofFields obj.fields

/-- `uuid` is what `createUUID` gives, if a file is started. -/
def insertDocument (sizes : Sizes U R) (uuid : String) (obj : RepoBSON (RepoVariant U R)) (o : Outcome) (s : State U R) :
    Option (State U R) :=
  let data := obj.getBinariesAsBuffer
  if data.2.length ≠ 0 then do
    let inserted ← insertBinary o uuid data.2 s.blobHandler
    append sizes (.insertOne (obj.replaceBinaryWithReference inserted.2.serialise data.1)) o
      { s with blobHandler := inserted.1 }
  else append sizes (.insertOne (view obj)) o s

def updateDocument (sizes : Sizes U R) (u : AddParent U) (o : Outcome) (s : State U R) : Option (State U R) :=
  append sizes (.updateOne u.query u.update) o s

/-- Also what the destructor does. -/
def flush (o : Outcome) (s : State U R) : Option (State U R) := do
  let s ← executeBulkWrite o s
  let handler ← commitActiveFile o s.blobHandler
  return { s with blobHandler := handler }

inductive Call (U R : Type) where
  | insertDocument (uuid : String) (obj : LoadedBSON (RepoVariant U R))
  | updateDocument (u : AddParent U)
  | flush

def Call.isWrite : Call U R → Bool
  | flush => false
  | _ => true

/-- The identifier that the call takes for a new file. -/
def Call.uuid? : Call U R → Option String
  | insertDocument uuid _ => some uuid
  | _ => none

def call (sizes : Sizes U R) (s : State U R) : Call U R × Outcome → Option (State U R)
  | (.insertDocument uuid obj, o) => insertDocument sizes uuid obj.toRepoBSON o s
  | (.updateDocument u, o) => updateDocument sizes u o s
  | (.flush, o) => flush o s

def start (files : BinMapping) : State U R := ⟨⟨none, files⟩, [], 0, []⟩

/-- A context from its constructor to its destructor, for a file manager with these files. -/
def session (sizes : Sizes U R) (files : BinMapping) (calls : List (Call U R × Outcome)) (last : Outcome) :
    Option (State U R) := do
  flush last (← calls.foldlM (call sizes) (start files))

/-- Loaded with the files, the document has the buffers and the fields of `obj`. -/
def Restores (handler : BlobFilesHandler) (obj : LoadedBSON (RepoVariant U R)) (document : RepoBSON (RepoVariant U R)) :
    Prop :=
  ∃ restored, handler.loadBinaryBuffers document = .ok restored ∧ restored.bigFiles.Perm obj.bigFiles ∧
    ∀ name, name ≠ "_blobRef" → lookup restored.fields name = lookup obj.fields name

/-- The server was told what was asked for. -/
def Persists (handler : BlobFilesHandler) : Call U R → WriteModel U R → Prop
  | .insertDocument _ obj, .insertOne document =>
    if obj.bigFiles.size = 0 then document = view obj.toRepoBSON else Restores handler obj document
  | .updateDocument u, .updateOne filter update => filter = u.query ∧ update = u.update
  | _, _ => False

/-! ### The bulks -/

section Bulks

variable {sizes : Sizes U R} {ops : List (WriteModel U R)} {s : State U R} {o : Outcome}

theorem Sizes.objsize_pos (sizes : Sizes U R) (op : WriteModel U R) : 0 < sizes.objsize op := by
  cases op with
  | insertOne document => exact sizes.document_pos document
  | updateOne filter update =>
    have := sizes.document_pos update
    rw [Sizes.objsize]
    omega

/-- The operations so far, in the bulks that have been executed and in the one that is filled.  Without its last operation
no bulk is too large. -/
structure Batched (sizes : Sizes U R) (ops : List (WriteModel U R)) (s : State U R) : Prop where
  flatten : s.executed.flatten ++ s.bulk = ops
  size_eq : s.bulkSize = (s.bulk.map sizes.objsize).sum
  size_le : s.bulkSize ≤ maxBulkSize
  bounded : ∀ bulk ∈ s.executed, bulk ≠ [] ∧ (bulk.dropLast.map sizes.objsize).sum ≤ maxBulkSize

theorem Batched.start (files : BinMapping) : Batched sizes [] (start files) := ⟨rfl, rfl, Nat.zero_le _, nofun⟩

private theorem executeBulkWrite_eq (ho : o.Succeeds) (hsize : s.bulkSize = (s.bulk.map sizes.objsize).sum) :
    executeBulkWrite o s = some { s with
      bulk := [], bulkSize := 0, executed := if s.bulk = [] then s.executed else s.executed ++ [s.bulk] } := by
  unfold executeBulkWrite
  cases hbulk : s.bulk with
  | nil => simp [hsize, hbulk]
  | cons op bulk =>
    have hpos := sizes.objsize_pos op
    have hne : s.bulkSize ≠ 0 := by
      rw [hsize, hbulk, List.map_cons, List.sum_cons]
      omega
    simp [hne, ho.1]

theorem Batched.execute (ho : o.Succeeds) (h : (s.executed.flatten ++ s.bulk) = ops)
    (hsize : s.bulkSize = (s.bulk.map sizes.objsize).sum)
    (hlast : (s.bulk.dropLast.map sizes.objsize).sum ≤ maxBulkSize)
    (hbounded : ∀ bulk ∈ s.executed, bulk ≠ [] ∧ (bulk.dropLast.map sizes.objsize).sum ≤ maxBulkSize) :
    ∃ s', executeBulkWrite o s = some s' ∧ Batched sizes ops s' ∧ s'.blobHandler = s.blobHandler ∧ s'.bulk = [] := by
  refine ⟨_, executeBulkWrite_eq ho hsize, ⟨?_, rfl, Nat.zero_le _, ?_⟩, rfl, rfl⟩
  · dsimp only
    rw [← h]
    split
    next hnil => rw [hnil]
    next => simp
  · intro bulk hbulk
    dsimp only at hbulk
    split at hbulk
    next => exact hbounded bulk hbulk
    next hne =>
      rcases List.mem_append.1 hbulk with hbulk | hbulk
      · exact hbounded bulk hbulk
      · rw [List.mem_singleton.1 hbulk]
        exact ⟨hne, hlast⟩

theorem Batched.append (h : Batched sizes ops s) (ho : o.Succeeds) (op : WriteModel U R) :
    ∃ s', append sizes op o s = some s' ∧ Batched sizes (ops ++ [op]) s' ∧ s'.blobHandler = s.blobHandler := by
  let s' : State U R := { s with bulk := s.bulk ++ [op], bulkSize := s.bulkSize + sizes.objsize op }
  have hflatten : s'.executed.flatten ++ s'.bulk = ops ++ [op] := by
    rw [← h.flatten, List.append_assoc]
  have hsize : s'.bulkSize = (s'.bulk.map sizes.objsize).sum := by
    show s.bulkSize + sizes.objsize op = ((s.bulk ++ [op]).map sizes.objsize).sum
    rw [h.size_eq, List.map_append, List.sum_append, List.map_singleton, List.sum_singleton]
  have hlast : (s'.bulk.dropLast.map sizes.objsize).sum ≤ maxBulkSize := by
    show ((s.bulk ++ [op]).dropLast.map sizes.objsize).sum ≤ maxBulkSize
    rw [List.dropLast_concat, ← h.size_eq]
    exact h.size_le
  unfold MongoWriteContext.append checkBulkWrite
  split
  next =>
    obtain ⟨s'', hs'', hbatched, hhandler, -⟩ := Batched.execute ho hflatten hsize hlast h.bounded
    exact ⟨s'', hs'', hbatched, hhandler⟩
  next hle => exact ⟨s', rfl, ⟨hflatten, hsize, not_lt.1 hle, h.bounded⟩, rfl⟩

theorem Batched.withHandler (h : Batched sizes ops s) (handler : BlobFilesHandler) :
    Batched sizes ops { s with blobHandler := handler } :=
  ⟨h.flatten, h.size_eq, h.size_le, h.bounded⟩

private theorem commitActiveFile_eq (ho : o.Succeeds) (handler : BlobFilesHandler) :
    commitActiveFile o handler = some handler.commitActiveFile := by
  unfold commitActiveFile BlobFilesHandler.commitActiveFile
  rw [ho.2]
  cases handler.activeFile <;> rfl

private theorem insertBinary_eq (ho : o.Succeeds) (uuid : String) (data : List Byte) (handler : BlobFilesHandler) :
    insertBinary o uuid data handler = some (handler.insertBinary uuid data) := by
  unfold insertBinary
  cases hactive : handler.activeFile with
  | none => rfl
  | some file =>
    rw [Option.any_some, commitActiveFile_eq ho]
    by_cases hsize : file.buffer.length + data.length > maxFileSizeBytes
    · have hnone := BlobFilesHandler.activeFile_commitActiveFile handler
      have hcommit : handler.commitActiveFile.commitActiveFile = handler.commitActiveFile := by
        rw [BlobFilesHandler.commitActiveFile, hnone]
      rw [if_pos (decide_eq_true hsize), BlobFilesHandler.insertBinary_of_new
        (BlobFilesHandler.fileFor_of_full uuid hactive hsize)]
      exact congrArg some ((BlobFilesHandler.insertBinary_of_new
        (BlobFilesHandler.fileFor_of_none uuid data.length hnone)).trans (by rw [hcommit]))
    · rw [if_neg (by simpa using hsize)]
      rfl

theorem Batched.flush (h : Batched sizes ops s) (ho : o.Succeeds) : ∃ s', flush o s = some s' ∧ Batched sizes ops s' ∧
    s'.blobHandler = s.blobHandler.finished ∧ s'.bulk = [] := by
  have hlast : (s.bulk.dropLast.map sizes.objsize).sum ≤ maxBulkSize := by
    refine (List.Sublist.sum_le_sum ((List.dropLast_sublist _).map _) fun _ _ => Nat.zero_le _).trans ?_
    rw [← h.size_eq]
    exact h.size_le
  obtain ⟨s', hs', hbatched, hhandler, hbulk⟩ := Batched.execute ho h.flatten h.size_eq hlast h.bounded
  refine ⟨{ s' with blobHandler := s.blobHandler.finished }, ?_, hbatched.withHandler _, rfl, hbulk⟩
  rw [MongoWriteContext.flush, hs', Option.bind_eq_bind, Option.bind_some, commitActiveFile_eq ho, hhandler]
  rfl

end Bulks

/-! ### The files -/

section Files

open BlobFilesHandler

variable {files : BinMapping} {used : List String} {handler : BlobFilesHandler} {uuid : String}

/-- The files of the handler were there before, or have the identifiers that were given to them. -/
structure Filed (files : BinMapping) (used : List String) (handler : BlobFilesHandler) : Prop where
  names : ∀ name ∈ handler.files.names, name ∈ files.names ∨ name ∈ used
  active : ∀ file, handler.activeFile = some file → file.name ∈ used

theorem Filed.fresh (h : Filed files used handler) (hnew : uuid ∉ used) (hfiles : uuid ∉ files.names) :
    Fresh uuid handler := by
  refine ⟨fun hname => (h.names uuid hname).elim hfiles hnew, fun file hactive heq => hnew ?_⟩
  rw [← heq]
  exact h.active file hactive

theorem Filed.mono (h : Filed files used handler) (more : List String) : Filed files (used ++ more) handler :=
  ⟨fun name hname => (h.names name hname).imp_right (List.mem_append_left more),
    fun file hactive => List.mem_append_left more (h.active file hactive)⟩

theorem Filed.insertBinary (h : Filed files used handler) (uuid : String) (data : List Byte) :
    Filed files (used ++ [uuid]) (handler.insertBinary uuid data).1 := by
  refine ⟨fun name hname => ?_, fun file hactive => ?_⟩
  · rcases names_insertBinary hname with hname | ⟨file, hactive, rfl⟩
    · exact (h.names name hname).imp_right (List.mem_append_left _)
    · exact Or.inr (List.mem_append_left _ (h.active file hactive))
  · rcases insertBinary_cases uuid data handler with ⟨file', hactive', hinsert, -⟩ | hinsert
    · rw [hinsert] at hactive
      cases hactive
      exact List.mem_append_left _ (h.active file' hactive')
    · rw [hinsert] at hactive
      cases hactive
      exact List.mem_append_right _ (List.mem_singleton_self uuid)

theorem Filed.finished (h : Filed files used handler) : Filed files used handler.finished := by
  refine ⟨fun name hname => ?_, fun file hactive => nomatch (activeFile_commitActiveFile handler).symm.trans hactive⟩
  rw [BlobFilesHandler.finished, BlobFilesHandler.commitActiveFile] at hname
  split at hname
  next file hactive =>
    rcases BinMapping.mem_names_set hname with rfl | hname
    · exact Or.inr (h.active file hactive)
    · exact h.names name hname
  next => exact h.names name hname

/-- The document refers to its buffers, which are in a file. -/
def Refers (handler : BlobFilesHandler) (obj : LoadedBSON (RepoVariant U R)) (document : RepoBSON (RepoVariant U R)) :
    Prop :=
  ∃ (name : String) (start : ℕ), document = obj.replaceBinaryWithReference
      (DataRef.serialise ⟨name, start, obj.getBinariesAsBuffer.2.length⟩) obj.getBinariesAsBuffer.1 ∧
    Keeps name start obj.getBinariesAsBuffer.2 handler

/-- The operation says what the call asked for. -/
def Performs (handler : BlobFilesHandler) : Call U R → WriteModel U R → Prop
  | .insertDocument _ obj, .insertOne document =>
    if obj.bigFiles.size = 0 then document = view obj.toRepoBSON else Refers handler obj document
  | .updateDocument u, .updateOne filter update => filter = u.query ∧ update = u.update
  | _, _ => False

variable {handler' : BlobFilesHandler} {c : Call U R} {op : WriteModel U R} {obj : LoadedBSON (RepoVariant U R)}
  {document : RepoBSON (RepoVariant U R)}

theorem Refers.step (h : Refers handler obj document) (hs : Step handler handler') : Refers handler' obj document := by
  obtain ⟨name, start, hdocument, hkeeps⟩ := h
  exact ⟨name, start, hdocument, hkeeps.step hs⟩

private theorem length_getBinariesAsBuffer (obj : LoadedBSON (RepoVariant U R)) :
    obj.getBinariesAsBuffer.2.length = obj.bigFiles.size := by
  rw [RepoBSON.getBinariesAsBuffer_eq _ obj.size_lt, RepoBSON.length_flatten]

private theorem Refers.restores (h : Refers handler obj document) : Restores handler.finished obj document := by
  obtain ⟨name, start, rfl, hkeeps⟩ := h
  have hread := readToBuffer_of_keeps hkeeps (length_getBinariesAsBuffer obj ▸ obj.size_lt)
  let fileRef : Value (RepoVariant U R) := DataRef.serialise ⟨name, start, obj.getBinariesAsBuffer.2.length⟩
  have hlookup := RepoBSON.lookup_replaced obj.toRepoBSON fileRef obj.getBinariesAsBuffer.1
  let stored := obj.replaceBinaryWithReference fileRef obj.getBinariesAsBuffer.1
  have hhas : stored.hasField "_blobRef" := by
    rw [RepoBSON.hasField, hlookup]
    rfl
  have hreference : stored.getBinaryReference = .ok (RepoBSON.ofFields
      [("start", .scalar (.int start)), ("size", .scalar (.int obj.getBinariesAsBuffer.2.length)),
        ("name", .scalar (.string name))]) := by
    rw [RepoBSON.getBinaryReference, if_pos hhas]
    simp only [RepoBSON.getObjectField, RepoBSON.getField, stored, hlookup, bind, Except.bind]
    rfl
  obtain ⟨restored, hrestored, hfiles, hfields⟩ := RepoBSON.initBinaryBuffer_replaced obj fileRef
  refine ⟨restored, loadBinaryBuffers_eq hhas hreference rfl hread hrestored, hfiles, fun name' hname' => ?_⟩
  rw [hfields]
  exact RepoBSON.lookup_replaced_of_ne _ _ _ hname'

private theorem Performs.cases (h : Performs handler c op) :
    (∃ uuid obj document, c = .insertDocument uuid obj ∧ op = .insertOne document ∧
      if obj.bigFiles.size = 0 then document = view obj.toRepoBSON else Refers handler obj document) ∨
      ∃ u, c = .updateDocument u ∧ op = .updateOne u.query u.update := by
  cases c with
  | insertDocument uuid obj =>
    cases op with
    | insertOne document => exact Or.inl ⟨uuid, obj, document, rfl, rfl, h⟩
    | updateOne filter update => exact h.elim
  | updateDocument u =>
    cases op with
    | insertOne document => exact h.elim
    | updateOne filter update =>
      obtain ⟨rfl, rfl⟩ := h
      exact Or.inr ⟨u, rfl, rfl⟩
  | flush => cases op <;> exact h.elim

theorem Performs.step (h : Performs handler c op) (hs : Step handler handler') : Performs handler' c op := by
  obtain ⟨uuid, obj, document, rfl, rfl, hdocument⟩ | ⟨u, rfl, rfl⟩ := h.cases
  · by_cases hempty : obj.bigFiles.size = 0
    · rw [if_pos hempty] at hdocument
      rw [Performs, if_pos hempty]
      exact hdocument
    · rw [if_neg hempty] at hdocument
      rw [Performs, if_neg hempty]
      exact hdocument.step hs
  · exact ⟨rfl, rfl⟩

theorem Performs.persists (h : Performs handler c op) : Persists handler.finished c op := by
  obtain ⟨uuid, obj, document, rfl, rfl, hdocument⟩ | ⟨u, rfl, rfl⟩ := h.cases
  · by_cases hempty : obj.bigFiles.size = 0
    · rw [if_pos hempty] at hdocument
      rw [Persists, if_pos hempty]
      exact hdocument
    · rw [if_neg hempty] at hdocument
      rw [Persists, if_neg hempty]
      exact hdocument.restores
  · exact ⟨rfl, rfl⟩

end Files

/-! ### Runs -/

section Runs

variable {sizes : Sizes U R} {files : BinMapping} {used : List String} {calls : List (Call U R)} {s : State U R} {o : Outcome}

/-- The context after these calls. -/
structure Follows (sizes : Sizes U R) (files : BinMapping) (used : List String) (calls : List (Call U R))
    (s : State U R) : Prop where
  batched : ∃ ops, Batched sizes ops s ∧ List.Forall₂ (Performs s.blobHandler) (calls.filter Call.isWrite) ops
  filed : Filed files used s.blobHandler

private theorem follows_start (sizes : Sizes U R) (files : BinMapping) : Follows sizes files [] [] (start files) where
  batched := ⟨[], .start files, .nil⟩
  filed := ⟨fun _ hname => Or.inl hname, nofun⟩

/-- The buffers are put into a file that no other has the name of. -/
theorem Follows.insertDocument (h : Follows sizes files used calls s) (ho : o.Succeeds) {uuid : String} (hnew : uuid ∉ used)
    (hfiles : uuid ∉ files.names) (obj : LoadedBSON (RepoVariant U R)) :
    ∃ s', insertDocument sizes uuid obj.toRepoBSON o s = some s' ∧
      Follows sizes files (used ++ [uuid]) (calls ++ [.insertDocument uuid obj]) s' := by
  obtain ⟨ops, hbatched, hperforms⟩ := h.batched
  have hlength := length_getBinariesAsBuffer obj
  unfold MongoWriteContext.insertDocument
  by_cases hempty : obj.bigFiles.size = 0
  · rw [if_neg (by omega)]
    have hop : Performs s.blobHandler (.insertDocument uuid obj) (.insertOne (view obj.toRepoBSON)) := by
      rw [Performs, if_pos hempty]
    obtain ⟨s', hs', hbatched', hhandler⟩ := hbatched.append ho (.insertOne (view obj.toRepoBSON))
    refine ⟨s', hs', ⟨_, hbatched', ?_⟩, hhandler ▸ h.filed.mono [uuid]⟩
    rw [hhandler, List.filter_append]
    exact List.rel_append hperforms (.cons hop .nil)
  · rw [if_pos (by omega), insertBinary_eq ho]
    have hstep := BlobFilesHandler.Step.insert obj.getBinariesAsBuffer.2 (h.filed.fresh hnew hfiles)
    obtain ⟨name, start, href, hkeeps⟩ := BlobFilesHandler.keeps_insertBinary uuid obj.getBinariesAsBuffer.2
      (hlength ▸ obj.size_lt) s.blobHandler
    have hop : Performs (s.blobHandler.insertBinary uuid obj.getBinariesAsBuffer.2).1 (.insertDocument uuid obj)
        (.insertOne (obj.replaceBinaryWithReference
          (s.blobHandler.insertBinary uuid obj.getBinariesAsBuffer.2).2.serialise obj.getBinariesAsBuffer.1)) := by
      rw [Performs, if_neg hempty, href]
      exact ⟨name, start, rfl, hkeeps⟩
    obtain ⟨s', hs', hbatched', hhandler⟩ := (hbatched.withHandler _).append ho _
    refine ⟨s', hs', ⟨_, hbatched', ?_⟩, hhandler ▸ h.filed.insertBinary uuid _⟩
    rw [hhandler, List.filter_append]
    exact List.rel_append (hperforms.imp fun _ _ hp => hp.step hstep) (.cons hop .nil)

theorem Follows.updateDocument (h : Follows sizes files used calls s) (ho : o.Succeeds) (u : AddParent U) :
    ∃ s', updateDocument sizes u o s = some s' ∧ Follows sizes files used (calls ++ [.updateDocument u]) s' := by
  obtain ⟨ops, hbatched, hperforms⟩ := h.batched
  have hop : Performs s.blobHandler (.updateDocument u) (.updateOne u.query (R := R) u.update) := ⟨rfl, rfl⟩
  obtain ⟨s', hs', hbatched', hhandler⟩ := hbatched.append ho (.updateOne u.query u.update)
  refine ⟨s', hs', ⟨_, hbatched', ?_⟩, hhandler ▸ h.filed⟩
  rw [hhandler, List.filter_append]
  exact List.rel_append hperforms (.cons hop .nil)

theorem Follows.flush (h : Follows sizes files used calls s) (ho : o.Succeeds) :
    ∃ s', flush o s = some s' ∧ Follows sizes files used (calls ++ [.flush]) s' ∧ s'.bulk = [] ∧
      s'.blobHandler = s.blobHandler.finished := by
  obtain ⟨ops, hbatched, hperforms⟩ := h.batched
  obtain ⟨s', hs', hbatched', hhandler, hbulk⟩ := hbatched.flush ho
  refine ⟨s', hs', ⟨⟨ops, hbatched', ?_⟩, hhandler ▸ h.filed.finished⟩, hbulk, hhandler⟩
  rw [hhandler, List.filter_append]
  exact (List.append_nil (calls.filter Call.isWrite)).symm ▸ hperforms.imp fun _ _ hp => hp.step .finished

theorem Follows.call (h : Follows sizes files used calls s) {c : Call U R} (ho : o.Succeeds)
    (hnew : ∀ uuid ∈ c.uuid?, uuid ∉ used) (hfiles : ∀ uuid ∈ c.uuid?, uuid ∉ files.names) :
    ∃ s', call sizes s (c, o) = some s' ∧ Follows sizes files (used ++ c.uuid?.toList) (calls ++ [c]) s' := by
  cases c with
  | insertDocument uuid obj => exact h.insertDocument ho (hnew uuid rfl) (hfiles uuid rfl) obj
  | updateDocument u => exact (List.append_nil used).symm ▸ h.updateDocument ho u
  | flush =>
    obtain ⟨s', hs', hfollows, -⟩ := h.flush ho
    exact ⟨s', hs', (List.append_nil used).symm ▸ hfollows⟩

theorem Follows.foldlM (h : Follows sizes files used calls s) (more : List (Call U R × Outcome))
    (hsucceeds : ∀ c ∈ more, c.2.Succeeds) (hnodup : (used ++ more.filterMap fun c => c.1.uuid?).Nodup)
    (hfiles : ∀ uuid ∈ more.filterMap fun c => c.1.uuid?, uuid ∉ files.names) :
    ∃ s' used', more.foldlM (MongoWriteContext.call sizes) s = some s' ∧
      Follows sizes files used' (calls ++ more.map Prod.fst) s' := by
  induction more generalizing used calls s with
  | nil => exact ⟨s, used, rfl, (List.append_nil calls).symm ▸ h⟩
  | cons c more ih =>
    obtain ⟨c, o⟩ := c
    have huuids : ((c, o) :: more).filterMap (fun c => c.1.uuid?) = c.uuid?.toList ++ more.filterMap fun c => c.1.uuid? := by
      cases hc : c.uuid? <;> simp [hc]
    rw [huuids, ← List.append_assoc] at hnodup
    rw [huuids] at hfiles
    have hnew : ∀ uuid ∈ c.uuid?, uuid ∉ used := by
      intro uuid huuid hmem
      exact (List.nodup_append'.1 (List.nodup_append'.1 hnodup).1).2.2 hmem (Option.mem_toList.2 huuid)
    obtain ⟨s', hs', hfollows⟩ := h.call (hsucceeds _ List.mem_cons_self) hnew fun uuid huuid =>
      hfiles uuid (List.mem_append_left _ (Option.mem_toList.2 huuid))
    rw [List.foldlM_cons, hs', List.map_cons, List.append_cons calls]
    exact ih hfollows (fun c hc => hsucceeds c (List.mem_cons_of_mem _ hc)) hnodup
      fun uuid huuid => hfiles uuid (List.mem_append_right _ huuid)

end Runs

/-- Whatever is written, and however often the context is flushed meanwhile: if nothing is thrown and every upload succeeds,
then when it is destroyed the bulks that were executed have all that was written in its order, and what was inserted can be
loaded.  No bulk is empty, and without its last operation none is larger than 16 MiB. -/
theorem session_persists (sizes : Sizes U R) (files : BinMapping) (calls : List (Call U R × Outcome)) {last : Outcome}
    (hsucceeds : ∀ c ∈ calls, c.2.Succeeds) (hlast : last.Succeeds) (hnodup : (calls.filterMap fun c => c.1.uuid?).Nodup)
    (hfiles : ∀ uuid ∈ calls.filterMap fun c => c.1.uuid?, uuid ∉ files.names) :
    ∃ s, session sizes files calls last = some s ∧ s.bulk = [] ∧
      List.Forall₂ (Persists s.blobHandler) ((calls.map Prod.fst).filter Call.isWrite) s.executed.flatten ∧
      ∀ bulk ∈ s.executed, bulk ≠ [] ∧ (bulk.dropLast.map sizes.objsize).sum ≤ maxBulkSize := by
  obtain ⟨s, used, hs, ⟨ops, hbatched, hperforms⟩, -⟩ := (follows_start sizes files).foldlM calls hsucceeds hnodup hfiles
  obtain ⟨s', hs', hbatched', hhandler, hbulk⟩ := hbatched.flush hlast
  have hops : s'.executed.flatten = ops := by
    rw [← hbatched'.flatten, hbulk, List.append_nil]
  refine ⟨s', ?_, hbulk, ?_, hbatched'.bounded⟩
  · rw [session, hs]
    exact hs'
  · rw [hops, hhandler]
    exact hperforms.imp fun _ _ hp => hp.persists

/-- Five bytes for a document, and one for each field. -/
def fieldSizes : Sizes ℕ ℕ := ⟨fun bson => bson.fields.length + 5, fun filter => filter.length + 5, fun _ => by omega⟩

/-- A mesh with a buffer, and a group to which it is added, where all goes well. -/
def meshCalls : List (Call ℕ ℕ × Outcome) :=
  [(.insertDocument "a" ⟨⟨[("_id", .scalar (.uuid 1))], [("vertices", [1, 2, 3])], by decide⟩, by decide⟩, ⟨true, some true⟩),
    (.flush, ⟨true, some true⟩),
    (.insertDocument "b" ⟨⟨[("_id", .scalar (.uuid 2))], [], by decide⟩, by decide⟩, ⟨true, some true⟩),
    (.updateDocument ⟨1, [2]⟩, ⟨true, some true⟩)]

theorem session_meshCalls : ∃ s, session fieldSizes [("c", [0])] meshCalls ⟨true, some true⟩ = some s ∧ s.bulk = [] ∧
    List.Forall₂ (Persists s.blobHandler) ((meshCalls.map Prod.fst).filter Call.isWrite) s.executed.flatten ∧
    ∀ bulk ∈ s.executed, bulk ≠ [] ∧ (bulk.dropLast.map fieldSizes.objsize).sum ≤ maxBulkSize :=
  session_persists fieldSizes [("c", [0])] meshCalls (by decide) (by decide) (by decide) (by decide)

end Bouncer.MongoWriteContext
