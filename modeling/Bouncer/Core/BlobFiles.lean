import Bouncer.Core.RepoBSON

/-!
# Buffers in blob files

`BlobFilesHandler` puts buffers one after the other into a file, and starts the next file, under a new identifier, when
a buffer would make it larger than `MAX_FILE_SIZE_BYTES`.  A `DataRef` says in which file, and where in it, a buffer is.
A file is uploaded when the next one is started, or at the end.

Once a buffer is inserted it can be read where its `DataRef` says, whatever is inserted after it
(`Keeps.reachable`).  So the buffers of a document survive being stored in this way (`loadBinaryBuffers_stored`).
-/

namespace Bouncer

open Library (Value lookup)

structure DataRef where
  fileName : String
  startPos : ℤ
  size : ℤ

inductive BlobError where
  | bson (e : RepoBSONError)
  | refMissing (fileName : String)

namespace DataRef

variable {U R : Type}

def serialise (ref : DataRef) : Value (RepoVariant U R) :=
  .object [("start", .scalar (.int ref.startPos)), ("size", .scalar (.int ref.size)),
    ("name", .scalar (.string ref.fileName))]

def deserialise (serialisedObj : RepoBSON (RepoVariant U R)) : Except RepoBSONError DataRef := do
  return ⟨← serialisedObj.getStringField "name", ← serialisedObj.getLongField "start",
    ← serialisedObj.getLongField "size"⟩

end DataRef

def maxFileSizeBytes : ℕ := 104857600

structure FileEntry where
  name : String
  buffer : List Byte

structure BlobFilesHandler where
  activeFile : Option FileEntry
  /-- The files that the file manager has, by the names they were uploaded under. -/
  files : BinMapping

namespace BlobFilesHandler

def commitActiveFile (handler : BlobFilesHandler) : BlobFilesHandler :=
  match handler.activeFile with
  | some file => ⟨none, handler.files.set file.name file.buffer⟩
  | none => handler

/-- `uuid` is what `createUUID` gives. -/
def newActiveFile (uuid : String) (handler : BlobFilesHandler) : BlobFilesHandler :=
  { handler.commitActiveFile with activeFile := some ⟨uuid, []⟩ }

/-- The handler, and its active file, to which a buffer of this size is added. -/
def fileFor (uuid : String) (size : ℕ) (handler : BlobFilesHandler) : BlobFilesHandler × FileEntry :=
  match handler.activeFile with
  | some file =>
    if file.buffer.length + size > maxFileSizeBytes then (handler.newActiveFile uuid, ⟨uuid, []⟩) else (handler, file)
  | none => (handler.newActiveFile uuid, ⟨uuid, []⟩)

def insertBinary (uuid : String) (data : List Byte) (handler : BlobFilesHandler) : BlobFilesHandler × DataRef :=
  let active := handler.fileFor uuid data.length
  ({ active.1 with activeFile := some { active.2 with buffer := active.2.buffer ++ data } },
    ⟨active.2.name, int64 active.2.buffer.length, int64 data.length⟩)

def finished (handler : BlobFilesHandler) : BlobFilesHandler := handler.commitActiveFile

/-- What is not in the file is left zero. -/
def readToBuffer (handler : BlobFilesHandler) (ref : DataRef) : Except BlobError (List Byte) :=
  match handler.files.find ref.fileName with
  | some file =>
    let bytes := if 0 ≤ ref.startPos then (file.drop ref.startPos.toNat).take (sizeT ref.size) else []
    .ok (bytes ++ List.replicate (sizeT ref.size - bytes.length) 0)
  | none => .error (.refMissing ref.fileName)

section Load

variable {U R : Type}

def loadBinaryBuffers (handler : BlobFilesHandler) (bson : RepoBSON (RepoVariant U R)) :
    Except BlobError (RepoBSON (RepoVariant U R)) :=
  if bson.hasFileReference then do
    let ref ← bson.getBinaryReference.mapError .bson
    let dataRef ← (DataRef.deserialise ref).mapError .bson
    let buffer ← handler.readToBuffer dataRef
    (bson.initBinaryBuffer buffer).mapError .bson
  else .ok bson

end Load

/-- The name is that of no file. -/
def Fresh (uuid : String) (handler : BlobFilesHandler) : Prop :=
  uuid ∉ handler.files.names ∧ ∀ file, handler.activeFile = some file → file.name ≠ uuid

/-- What may happen to the files: a buffer is inserted, the active file is committed, or another file is uploaded. -/
inductive Step : BlobFilesHandler → BlobFilesHandler → Prop
  | insert {handler : BlobFilesHandler} {uuid : String} (data : List Byte) :
      Fresh uuid handler → Step handler (handler.insertBinary uuid data).1
  | finished {handler : BlobFilesHandler} : Step handler handler.finished
  | upload {handler : BlobFilesHandler} {uuid : String} (bytes : List Byte) :
      Fresh uuid handler → Step handler { handler with files := handler.files.set uuid bytes }

abbrev Reachable : BlobFilesHandler → BlobFilesHandler → Prop := Relation.ReflTransGen Step

/-! ### What was inserted stays where it is -/

/-- From the position on there are these bytes. -/
def At (file : List Byte) (start : ℕ) (data : List Byte) : Prop :=
  start + data.length ≤ file.length ∧ (file.drop start).take data.length = data

private theorem at_append_right (file data : List Byte) : At (file ++ data) file.length data := by
  constructor
  · rw [List.length_append]
  · rw [List.drop_left' rfl, List.take_length]

theorem At.append {file data : List Byte} {start : ℕ} (h : At file start data) (more : List Byte) :
    At (file ++ more) start data := by
  obtain ⟨hle, hslice⟩ := h
  constructor
  · rw [List.length_append]
    omega
  · have hdrop : data.length ≤ (file.drop start).length := by
      rw [List.length_drop]
      omega
    rw [List.drop_append_of_le_length (by omega), List.take_append_of_le_length hdrop, hslice]

/-- The bytes are in the active file, or in an uploaded one with a name that the active file has not. -/
def Keeps (name : String) (start : ℕ) (data : List Byte) (handler : BlobFilesHandler) : Prop :=
  (∃ file, handler.activeFile = some file ∧ file.name = name ∧ At file.buffer start data) ∨
    ((∃ bytes, handler.files.find name = some bytes ∧ At bytes start data) ∧
      ∀ file, handler.activeFile = some file → file.name ≠ name)

variable {name : String} {start : ℕ} {data : List Byte} {handler handler' : BlobFilesHandler}

private theorem Keeps.commit (h : Keeps name start data handler) :
    ∃ bytes, handler.commitActiveFile.files.find name = some bytes ∧ At bytes start data := by
  rcases h with ⟨file, hactive, rfl, hat⟩ | ⟨⟨bytes, hfind, hat⟩, hother⟩
  · refine ⟨file.buffer, ?_, hat⟩
    rw [commitActiveFile, hactive]
    exact BinMapping.find_set_self _ _ _
  · refine ⟨bytes, ?_, hat⟩
    cases hactive : handler.activeFile with
    | none =>
      rw [commitActiveFile, hactive]
      exact hfind
    | some file =>
      rw [commitActiveFile, hactive]
      exact (BinMapping.find_set_of_ne _ (hother file hactive).symm _).trans hfind

theorem activeFile_commitActiveFile (handler : BlobFilesHandler) : handler.commitActiveFile.activeFile = none := by
  cases hactive : handler.activeFile with
  | none =>
    rw [commitActiveFile, hactive]
    exact hactive
  | some file => rw [commitActiveFile, hactive]

private theorem Keeps.ne_fresh {uuid : String} (h : Keeps name start data handler) (hfresh : Fresh uuid handler) :
    uuid ≠ name := by
  rcases h with ⟨file, hactive, rfl, -⟩ | ⟨⟨bytes, hfind, -⟩, -⟩
  · exact (hfresh.2 file hactive).symm
  · exact fun he => hfresh.1 (he ▸ BinMapping.mem_names_of_find hfind)

theorem fileFor_of_none (uuid : String) (size : ℕ) (hactive : handler.activeFile = none) :
    handler.fileFor uuid size = (handler.newActiveFile uuid, ⟨uuid, []⟩) := by
  rw [fileFor, hactive]

theorem fileFor_of_full (uuid : String) {size : ℕ} {file : FileEntry} (hactive : handler.activeFile = some file)
    (hsize : file.buffer.length + size > maxFileSizeBytes) :
    handler.fileFor uuid size = (handler.newActiveFile uuid, ⟨uuid, []⟩) := by
  rw [fileFor, hactive]
  exact if_pos hsize

theorem fileFor_of_fits (uuid : String) {size : ℕ} {file : FileEntry} (hactive : handler.activeFile = some file)
    (hsize : ¬ file.buffer.length + size > maxFileSizeBytes) : handler.fileFor uuid size = (handler, file) := by
  rw [fileFor, hactive]
  exact if_neg hsize

theorem activeFile_fileFor (uuid : String) (size : ℕ) (handler : BlobFilesHandler) :
    (handler.fileFor uuid size).1.activeFile = some (handler.fileFor uuid size).2 := by
  cases hactive : handler.activeFile with
  | none =>
    rw [fileFor_of_none uuid size hactive]
    rfl
  | some file =>
    by_cases hsize : file.buffer.length + size > maxFileSizeBytes
    · rw [fileFor_of_full uuid hactive hsize]
      rfl
    · rw [fileFor_of_fits uuid hactive hsize]
      exact hactive

/-- A buffer for which there is no room goes to a file with the new name. -/
theorem insertBinary_of_new {uuid : String} {more : List Byte}
    (hfile : handler.fileFor uuid more.length = (handler.newActiveFile uuid, ⟨uuid, []⟩)) :
    handler.insertBinary uuid more =
      (⟨some ⟨uuid, more⟩, handler.commitActiveFile.files⟩, ⟨uuid, 0, int64 more.length⟩) := by
  have hzero : int64 0 = 0 := int64_eq (by decide)
  unfold insertBinary newActiveFile at *
  simp only [hfile, List.nil_append, List.length_nil, hzero]

theorem insertBinary_of_fits (uuid : String) {more : List Byte} {file : FileEntry} (hactive : handler.activeFile = some file)
    (hsize : ¬ file.buffer.length + more.length > maxFileSizeBytes) :
    handler.insertBinary uuid more = ({ handler with activeFile := some ⟨file.name, file.buffer ++ more⟩ },
      ⟨file.name, int64 file.buffer.length, int64 more.length⟩) := by
  have hfile := fileFor_of_fits uuid hactive hsize
  unfold insertBinary
  rw [hfile]

/-- A buffer that is added goes to the active file, or to one with the new name. -/
theorem insertBinary_cases (uuid : String) (more : List Byte) (handler : BlobFilesHandler) :
    (∃ file, handler.activeFile = some file ∧ handler.insertBinary uuid more =
        ({ handler with activeFile := some ⟨file.name, file.buffer ++ more⟩ },
          ⟨file.name, int64 file.buffer.length, int64 more.length⟩) ∧
        file.buffer.length + more.length ≤ maxFileSizeBytes) ∨
      handler.insertBinary uuid more =
        (⟨some ⟨uuid, more⟩, handler.commitActiveFile.files⟩, ⟨uuid, 0, int64 more.length⟩) := by
  cases hactive : handler.activeFile with
  | none => exact .inr (insertBinary_of_new (fileFor_of_none uuid more.length hactive))
  | some file =>
    by_cases hsize : file.buffer.length + more.length > maxFileSizeBytes
    · exact .inr (insertBinary_of_new (fileFor_of_full uuid hactive hsize))
    · exact .inl ⟨file, rfl, insertBinary_of_fits uuid hactive hsize, not_lt.1 hsize⟩

theorem Keeps.step (h : Keeps name start data handler) (hs : Step handler handler') :
    Keeps name start data handler' := by
  cases hs with
  | @insert uuid more hfresh =>
    rcases insertBinary_cases uuid more handler with ⟨file, hactive, hinsert, -⟩ | hinsert
    · rw [hinsert]
      rcases h with ⟨file', hactive', hname, hat⟩ | ⟨hfiles, hother⟩
      · rw [hactive] at hactive'
        cases hactive'
        exact .inl ⟨_, rfl, hname, hat.append more⟩
      · refine .inr ⟨hfiles, ?_⟩
        rintro file' ⟨⟩
        exact hother file hactive
    · rw [hinsert]
      refine .inr ⟨h.commit, ?_⟩
      rintro file' ⟨⟩
      exact h.ne_fresh hfresh
  | finished =>
    refine .inr ⟨h.commit, ?_⟩
    intro file hactive
    exact nomatch (activeFile_commitActiveFile handler).symm.trans hactive
  | @upload uuid bytes hfresh =>
    have hne := h.ne_fresh hfresh
    rcases h with hactive | ⟨⟨bytes', hfind, hat⟩, hother⟩
    · exact .inl hactive
    · exact .inr ⟨⟨bytes', (BinMapping.find_set_of_ne _ hne.symm _).trans hfind, hat⟩, hother⟩

private theorem Keeps.reachable (h : Keeps name start data handler) (hr : Reachable handler handler') :
    Keeps name start data handler' := by
  induction hr with
  | refl => exact h
  | tail _ hs ih => exact ih.step hs

/-- An inserted buffer is where the reference says. -/
theorem keeps_insertBinary (uuid : String) (data : List Byte) (hdata : data.length < 2 ^ 63)
    (handler : BlobFilesHandler) : ∃ name : String, ∃ start : ℕ,
      (handler.insertBinary uuid data).2 = ⟨name, start, data.length⟩ ∧
        Keeps name start data (handler.insertBinary uuid data).1 := by
  rcases insertBinary_cases uuid data handler with ⟨file, hactive, hinsert, hmax⟩ | hinsert
  · have hstart : int64 file.buffer.length = file.buffer.length := by
      apply int64_eq
      unfold maxFileSizeBytes at hmax
      omega
    refine ⟨file.name, file.buffer.length, ?_, ?_⟩
    · rw [hinsert, hstart, int64_eq hdata]
    · rw [hinsert]
      exact .inl ⟨_, rfl, rfl, at_append_right _ _⟩
  · refine ⟨uuid, 0, ?_, ?_⟩
    · rw [hinsert, int64_eq hdata]
      rfl
    · rw [hinsert]
      exact .inl ⟨_, rfl, rfl, by simpa using at_append_right [] data⟩

/-- What is loaded, if every step of it succeeds. -/
theorem loadBinaryBuffers_eq {U R : Type} {bson ref restored : RepoBSON (RepoVariant U R)} {dataRef : DataRef}
    {buffer : List Byte} (hhas : bson.hasFileReference) (href : bson.getBinaryReference = .ok ref)
    (hdata : DataRef.deserialise ref = .ok dataRef) (hread : handler.readToBuffer dataRef = .ok buffer)
    (hinit : bson.initBinaryBuffer buffer = .ok restored) : handler.loadBinaryBuffers bson = .ok restored := by
  rw [loadBinaryBuffers, if_pos hhas, href]
  simp only [Except.mapError, bind, Except.bind, hdata, hread, hinit]

theorem readToBuffer_of_keeps (h : Keeps name start data handler) (hdata : data.length < 2 ^ 63) :
    handler.finished.readToBuffer ⟨name, start, data.length⟩ = .ok data := by
  obtain ⟨bytes, hfind, -, hslice⟩ := h.commit
  have hfind : handler.finished.files.find name = some bytes := hfind
  rw [readToBuffer, hfind]
  simp only [Int.natCast_nonneg, if_true, Int.toNat_natCast, sizeT_natCast hdata, hslice, Nat.sub_self,
    List.replicate_zero, List.append_nil]

end BlobFilesHandler

/-- The buffers of a document are stored in a blob file, and are the same when it is loaded again; the other fields are
as they were, whether or not there was a reference among them. -/
theorem loadBinaryBuffers_stored {U R : Type} (bson : LoadedBSON (RepoVariant U R)) (handler : BlobFilesHandler)
    (uuid : String) {later : BlobFilesHandler}
    (hlater : BlobFilesHandler.Reachable (handler.insertBinary uuid bson.getBinariesAsBuffer.2).1 later) :
    ∃ restored, later.finished.loadBinaryBuffers (bson.replaceBinaryWithReference
        (handler.insertBinary uuid bson.getBinariesAsBuffer.2).2.serialise bson.getBinariesAsBuffer.1) = .ok restored ∧
      restored.bigFiles.Perm bson.bigFiles ∧
      (∀ name, name ≠ "_blobRef" → lookup restored.fields name = lookup bson.fields name) ∧
      ((bson.fields.map Prod.fst).Nodup → restored.others = bson.others) := by
  have hsize : bson.getBinariesAsBuffer.2.length < 2 ^ 63 := by
    rw [RepoBSON.getBinariesAsBuffer_eq _ bson.size_lt, RepoBSON.length_flatten]
    exact bson.size_lt
  obtain ⟨name, start, href, hkeeps⟩ := BlobFilesHandler.keeps_insertBinary uuid _ hsize handler
  have hread := BlobFilesHandler.readToBuffer_of_keeps (hkeeps.reachable hlater) hsize
  rw [href]
  let fileRef : Value (RepoVariant U R) := DataRef.serialise ⟨name, start, bson.getBinariesAsBuffer.2.length⟩
  let stored := bson.replaceBinaryWithReference fileRef bson.getBinariesAsBuffer.1
  have hlookup := RepoBSON.lookup_replaced bson.toRepoBSON fileRef bson.getBinariesAsBuffer.1
  have hhas : stored.hasField "_blobRef" := by
    rw [RepoBSON.hasField, hlookup]
    rfl
  have hreference : stored.getBinaryReference = .ok (RepoBSON.ofFields
      [("start", .scalar (.int start)), ("size", .scalar (.int bson.getBinariesAsBuffer.2.length)),
        ("name", .scalar (.string name))]) := by
    rw [RepoBSON.getBinaryReference, if_pos hhas]
    simp only [RepoBSON.getObjectField, RepoBSON.getField, stored, hlookup, bind, Except.bind]
    rfl
  obtain ⟨restored, hrestored, hfiles, hfields⟩ := RepoBSON.initBinaryBuffer_replaced bson fileRef
  refine ⟨restored, ?_, hfiles, ?_, ?_⟩
  · have hdata : DataRef.deserialise (RepoBSON.ofFields
        [("start", .scalar (.int start)), ("size", .scalar (.int bson.getBinariesAsBuffer.2.length)),
          ("name", .scalar (.string name))] : RepoBSON (RepoVariant U R)) =
        .ok ⟨name, start, bson.getBinariesAsBuffer.2.length⟩ := rfl
    exact BlobFilesHandler.loadBinaryBuffers_eq hhas hreference hdata hread hrestored
  · intro name' hname'
    rw [hfields]
    exact RepoBSON.lookup_replaced_of_ne _ _ _ hname'
  · intro hnodup
    have hothers : restored.others = stored.others := congrArg (List.filter _) hfields
    exact hothers.trans (RepoBSON.others_replaced _ _ _ hnodup)

/-- A document with two buffers, one of them empty, that was stored before. -/
def restoredDocument : LoadedBSON (RepoVariant ℕ ℕ) :=
  ⟨⟨[("type", .scalar (.string "mesh")), ("_blobRef", .object [("elements", .object []), ("buffer", .object [])])],
    [("vertices", [1, 2, 3]), ("faces", [])], by decide⟩, by decide⟩

theorem loadBinaryBuffers_restoredDocument :
    ∃ restored, (BlobFilesHandler.insertBinary "file" restoredDocument.getBinariesAsBuffer.2
        ⟨none, []⟩).1.finished.loadBinaryBuffers (restoredDocument.replaceBinaryWithReference
          (BlobFilesHandler.insertBinary "file" restoredDocument.getBinariesAsBuffer.2 ⟨none, []⟩).2.serialise
          restoredDocument.getBinariesAsBuffer.1) = .ok restored ∧
      restored.bigFiles.Perm restoredDocument.bigFiles ∧
      (∀ name, name ≠ "_blobRef" → lookup restored.fields name = lookup restoredDocument.fields name) ∧
      ((restoredDocument.fields.map Prod.fst).Nodup → restored.others = restoredDocument.others) :=
  loadBinaryBuffers_stored restoredDocument ⟨none, []⟩ "file" .refl

end Bouncer
