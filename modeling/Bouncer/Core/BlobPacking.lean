import Bouncer.Core.BlobFiles
import Bouncer.Library.NextFit

/-!
# Packing buffers into blob files

A handler from its construction to its destruction: buffers are inserted, and files are uploaded when the next one is
started and by the destructor.

The files are the bins of a `NextFit` over the buffers, and the references are its slots (`Session.Follows`).  So the
references into a file cover it without an overlap, and each file is uploaded once (`sound_run`).
-/

namespace Bouncer.BlobFilesHandler

open Library (NextFit)

/-- A call of `insertBinary`, and the identifier that `createUUID` gives if the call needs one. -/
structure Insertion where
  uuid : String
  data : List Byte
  /-- The data are in memory. -/
  size_lt : data.length < 2 ^ 63

/-- What is uploaded when a buffer of this size is inserted: the active file, if it has no room for it. -/
def insertUploads (handler : BlobFilesHandler) (size : ℕ) : List FileEntry :=
  match handler.activeFile with
  | some file => if file.buffer.length + size > maxFileSizeBytes then [file] else []
  | none => []

def commitUploads (handler : BlobFilesHandler) : List FileEntry := handler.activeFile.toList

/-- The handler, the calls of `uploadFileAndCommit` it has made, and the references it has returned. -/
structure Session where
  handler : BlobFilesHandler
  uploads : List FileEntry
  refs : List DataRef

namespace Session

/-- A new handler, for a file manager with these files. -/
def start (files : BinMapping) : Session := ⟨⟨none, files⟩, [], []⟩

def insert (session : Session) (insertion : Insertion) : Session :=
  let inserted := session.handler.insertBinary insertion.uuid insertion.data
  ⟨inserted.1, session.uploads ++ session.handler.insertUploads insertion.data.length, session.refs ++ [inserted.2]⟩

/-- The destructor. -/
def destroy (session : Session) : Session :=
  { session with
    handler := session.handler.commitActiveFile
    uploads := session.uploads ++ session.handler.commitUploads }

def refsTo (session : Session) (name : String) : List DataRef :=
  session.refs.filter fun ref => decide (ref.fileName = name)

/-- The references that were returned for the insertions are sound, now that the handler is destroyed. -/
structure Sound (session : Session) (insertions : List Insertion) : Prop where
  uploadedOnce : ∀ ref ∈ session.refs, (session.uploads.map FileEntry.name).count ref.fileName = 1
  inside : ∀ file ∈ session.uploads, ∀ ref ∈ session.refsTo file.name,
    0 ≤ ref.startPos ∧ 0 ≤ ref.size ∧ ref.startPos + ref.size ≤ file.buffer.length
  disjoint : ∀ file ∈ session.uploads,
    (session.refsTo file.name).Pairwise fun ref ref' => ref.startPos + ref.size ≤ ref'.startPos
  covered : ∀ file ∈ session.uploads, ∀ i < file.buffer.length, ∃ ref ∈ session.refsTo file.name,
    ref.startPos ≤ i ∧ i < ref.startPos + ref.size
  bounded : ∀ file ∈ session.uploads, file.buffer.length ≤ maxFileSizeBytes ∨
    ∃ ref, session.refsTo file.name = [ref] ∧ ref.size = file.buffer.length
  read : List.Forall₂ (fun insertion ref => session.handler.readToBuffer ref = .ok insertion.data) insertions
    session.refs

end Session

private theorem files_insertBinary (uuid : String) (data : List Byte) (handler : BlobFilesHandler) :
    (handler.insertBinary uuid data).1.files =
      (handler.insertUploads data.length).foldl (fun files file => files.set file.name file.buffer) handler.files := by
  unfold insertUploads
  cases hactive : handler.activeFile with
  | none =>
    rw [insertBinary_of_new (fileFor_of_none uuid data.length hactive), commitActiveFile, hactive]
    rfl
  | some file =>
    by_cases hsize : file.buffer.length + data.length > maxFileSizeBytes
    · rw [insertBinary_of_new (fileFor_of_full uuid hactive hsize), commitActiveFile, hactive]
      dsimp only
      rw [if_pos hsize]
      rfl
    · rw [insertBinary_of_fits uuid hactive hsize]
      dsimp only
      rw [if_neg hsize]
      rfl

/-! ### The files are bins -/

abbrev Bins := NextFit String (List Byte)

def fileOf (bin : String × List (List Byte)) : FileEntry := ⟨bin.1, bin.2.flatten⟩

def refOf (slot : String × (ℕ × ℕ)) : DataRef := ⟨slot.1, slot.2.1, (slot.2.2 : ℤ) - slot.2.1⟩

private theorem length_fileOf (bin : String × List (List Byte)) :
    (fileOf bin).buffer.length = NextFit.total List.length bin := List.length_flatten

/-- The session has packed its buffers into these bins, and has taken its identifiers from `used`. -/
structure Session.Follows (session : Session) (files : BinMapping) (used : List String) (bins : Bins)
    (insertions : List Insertion) : Prop where
  active : session.handler.activeFile = bins.current.map fileOf
  uploads : session.uploads = bins.closed.map fileOf
  refs : session.refs = (bins.slots List.length).map refOf
  names : ∀ name ∈ session.handler.files.names, name ∈ files.names ∨ name ∈ used
  binNames : ∀ name ∈ bins.bins.map Prod.fst, name ∈ used
  kept : List.Forall₂ (fun insertion ref => ∃ name : String, ∃ start : ℕ, ref = ⟨name, start, insertion.data.length⟩ ∧
    Keeps name start insertion.data session.handler) insertions session.refs

variable {session : Session} {files : BinMapping} {used : List String} {bins : Bins} {insertions : List Insertion}

theorem Session.follows_start (files : BinMapping) : (Session.start files).Follows files [] .empty [] where
  active := rfl
  uploads := rfl
  refs := rfl
  names := fun _ hname => .inl hname
  binNames := fun _ hname => absurd hname List.not_mem_nil
  kept := .nil

theorem Session.Follows.fresh (h : session.Follows files used bins insertions) {uuid : String} (hnew : uuid ∉ used)
    (hfiles : uuid ∉ files.names) : Fresh uuid session.handler := by
  constructor
  · intro hname
    rcases h.names uuid hname with hname | hname
    · exact hfiles hname
    · exact hnew hname
  · intro file hactive heq
    rw [h.active] at hactive
    obtain ⟨bin, hcurrent, rfl⟩ := Option.map_eq_some_iff.1 hactive
    have hbin : bin ∈ bins.bins := NextFit.bins_of_some hcurrent ▸ List.mem_append_right _ List.mem_cons_self
    exact hnew (h.binNames uuid (heq ▸ List.mem_map_of_mem hbin))

/-- What one call does to the active file, the uploads and the references. -/
theorem Session.Follows.insert_packing (h : session.Follows files used bins insertions) (insertion : Insertion) :
    (session.insert insertion).handler.activeFile =
        (bins.place List.length maxFileSizeBytes insertion.uuid insertion.data).current.map fileOf ∧
      (session.insert insertion).uploads =
        (bins.place List.length maxFileSizeBytes insertion.uuid insertion.data).closed.map fileOf ∧
      (session.handler.insertBinary insertion.uuid insertion.data).2 =
        refOf (bins.nextSlot List.length maxFileSizeBytes insertion.uuid insertion.data) := by
  have hdata := int64_eq insertion.size_lt
  have hone : fileOf (insertion.uuid, [insertion.data]) = ⟨insertion.uuid, insertion.data⟩ := by
    simp [fileOf]
  have hslot : refOf (insertion.uuid, (0, insertion.data.length)) = ⟨insertion.uuid, 0, insertion.data.length⟩ := by
    simp [refOf]
  unfold Session.insert insertUploads NextFit.nextSlot
  cases hcurrent : bins.current with
  | none =>
    have hactive : session.handler.activeFile = none := by rw [h.active, hcurrent]; rfl
    rw [insertBinary_of_new (fileFor_of_none _ _ hactive), NextFit.place_of_none hcurrent, hactive, h.uploads, hdata, hslot]
    exact ⟨congrArg some hone.symm, List.append_nil _, rfl⟩
  | some bin =>
    have hactive : session.handler.activeFile = some (fileOf bin) := by rw [h.active, hcurrent]; rfl
    have htotal := length_fileOf bin
    by_cases hsize : (fileOf bin).buffer.length + insertion.data.length > maxFileSizeBytes
    · rw [insertBinary_of_new (fileFor_of_full _ hactive hsize), NextFit.place_of_full hcurrent (htotal ▸ hsize), hactive,
        h.uploads, hdata]
      dsimp only
      rw [if_pos hsize, if_pos (htotal ▸ hsize), hslot, List.map_append]
      exact ⟨congrArg some hone.symm, rfl, rfl⟩
    · have hstart : int64 (fileOf bin).buffer.length = (fileOf bin).buffer.length := by
        apply int64_eq
        unfold maxFileSizeBytes at hsize
        omega
      rw [insertBinary_of_fits _ hactive hsize, NextFit.place_of_fits hcurrent (htotal ▸ hsize), hactive, h.uploads, hdata,
        hstart]
      dsimp only
      rw [if_neg hsize, if_neg (htotal ▸ hsize), htotal, List.append_nil]
      refine ⟨?_, rfl, ?_⟩
      · simp [fileOf]
      · simp [refOf]
        rfl

theorem names_insertBinary {uuid : String} {data : List Byte} {handler : BlobFilesHandler} {name : String}
    (hname : name ∈ (handler.insertBinary uuid data).1.files.names) :
    name ∈ handler.files.names ∨ ∃ file, handler.activeFile = some file ∧ file.name = name := by
  rw [files_insertBinary] at hname
  unfold insertUploads at hname
  cases hactive : handler.activeFile with
  | none =>
    rw [hactive] at hname
    exact .inl hname
  | some file =>
    rw [hactive] at hname
    dsimp only at hname
    split at hname
    · rcases BinMapping.mem_names_set hname with rfl | hname
      · exact .inr ⟨file, rfl, rfl⟩
      · exact .inl hname
    · exact .inl hname

/-- One more buffer. -/
theorem Session.Follows.insert (h : session.Follows files used bins insertions) (insertion : Insertion)
    (hnew : insertion.uuid ∉ used) (hfiles : insertion.uuid ∉ files.names) :
    (session.insert insertion).Follows files (used ++ [insertion.uuid])
      (bins.place List.length maxFileSizeBytes insertion.uuid insertion.data) (insertions ++ [insertion]) := by
  obtain ⟨hactive, huploads, href⟩ := h.insert_packing insertion
  have hfresh := h.fresh hnew hfiles
  refine ⟨hactive, huploads, ?_, ?_, ?_, ?_⟩
  · rw [NextFit.slots_place, List.map_append, List.map_singleton, ← href, ← h.refs]
    rfl
  · intro name hname
    rcases names_insertBinary hname with hname | ⟨file, hfile, rfl⟩
    · exact (h.names name hname).imp_right (List.mem_append_left _)
    · rw [h.active] at hfile
      obtain ⟨bin, hcurrent, rfl⟩ := Option.map_eq_some_iff.1 hfile
      have hbin : bin ∈ bins.bins := NextFit.bins_of_some hcurrent ▸ List.mem_append_right _ List.mem_cons_self
      exact .inr (List.mem_append_left _ (h.binNames _ (List.mem_map_of_mem hbin)))
  · intro name hname
    rcases NextFit.names_place bins insertion.uuid insertion.data with hplace | hplace
    · rw [hplace] at hname
      exact List.mem_append_left _ (h.binNames name hname)
    · rw [hplace] at hname
      rcases List.mem_append.1 hname with hname | hname
      · exact List.mem_append_left _ (h.binNames name hname)
      · exact List.mem_append_right _ hname
  · have hold := h.kept.imp fun earlier ref hkept => by
      obtain ⟨name, start, href, hkeeps⟩ := hkept
      exact (⟨name, start, href, hkeeps.step (.insert insertion.data hfresh)⟩ :
        ∃ name : String, ∃ start : ℕ, ref = ⟨name, start, earlier.data.length⟩ ∧
          Keeps name start earlier.data (session.insert insertion).handler)
    exact List.rel_append hold (.cons (keeps_insertBinary insertion.uuid insertion.data insertion.size_lt _) .nil)

/-- The bins after a run. -/
def packAll (insertions : List Insertion) (bins : Bins) : Bins :=
  insertions.foldl (fun bins insertion => bins.place List.length maxFileSizeBytes insertion.uuid insertion.data) bins

/-- The names of the bins stay different, and the bins stay small. -/
theorem packAll_bins (used : List String) (bins : Bins) (insertions : List Insertion)
    (hnodup : (used ++ insertions.map Insertion.uuid).Nodup) (hnames : (bins.bins.map Prod.fst).Nodup)
    (hused : ∀ name ∈ bins.bins.map Prod.fst, name ∈ used) (hbounded : bins.Bounded List.length maxFileSizeBytes) :
    ((packAll insertions bins).bins.map Prod.fst).Nodup ∧
      (packAll insertions bins).Bounded List.length maxFileSizeBytes := by
  induction insertions generalizing used bins with
  | nil => exact ⟨hnames, hbounded⟩
  | cons insertion insertions ih =>
    rw [List.map_cons, List.append_cons] at hnodup
    have hnew : insertion.uuid ∉ used := by
      have hdisjoint := (List.nodup_append'.1 (List.nodup_append'.1 hnodup).1).2.2
      exact fun hmem => hdisjoint hmem List.mem_cons_self
    refine ih _ _ hnodup ?_ ?_ (hbounded.place _ _)
    · rcases NextFit.names_place bins insertion.uuid insertion.data with hplace | hplace
      · rw [hplace]
        exact hnames
      · rw [hplace]
        exact hnames.append (List.nodup_singleton _) fun name hname hmem =>
          hnew (List.mem_singleton.1 hmem ▸ hused name hname)
    · intro name hname
      rcases NextFit.names_place bins insertion.uuid insertion.data with hplace | hplace
      · exact List.mem_append_left _ (hused name (hplace ▸ hname))
      · rw [hplace] at hname
        rcases List.mem_append.1 hname with hname | hname
        · exact List.mem_append_left _ (hused name hname)
        · exact List.mem_append_right _ hname

private theorem Session.Follows.foldl (h : session.Follows files used bins insertions) (more : List Insertion)
    (hnodup : (used ++ more.map Insertion.uuid).Nodup) (hfiles : ∀ insertion ∈ more, insertion.uuid ∉ files.names) :
    (more.foldl Session.insert session).Follows files (used ++ more.map Insertion.uuid) (packAll more bins)
      (insertions ++ more) := by
  induction more generalizing session used bins insertions with
  | nil =>
    rw [List.map_nil, List.append_nil, List.append_nil]
    exact h
  | cons insertion more ih =>
    rw [List.map_cons, List.append_cons] at hnodup ⊢
    have hnew : insertion.uuid ∉ used := by
      have hdisjoint := (List.nodup_append'.1 (List.nodup_append'.1 hnodup).1).2.2
      exact fun hmem => hdisjoint hmem List.mem_cons_self
    have hnext := h.insert insertion hnew (hfiles insertion List.mem_cons_self)
    rw [List.append_cons insertions]
    exact ih hnext hnodup fun later hlater => hfiles later (List.mem_cons_of_mem _ hlater)

/-! ### The references are sound -/

private theorem Session.Follows.uploads_destroy (h : session.Follows files used bins insertions) :
    session.destroy.uploads = bins.bins.map fileOf := by
  unfold Session.destroy commitUploads NextFit.bins
  rw [h.uploads, h.active, List.map_append]
  cases bins.current <;> rfl

theorem Session.Follows.refsTo_destroy (h : session.Follows files used bins insertions)
    (hnames : (bins.bins.map Prod.fst).Nodup) {bin : String × List (List Byte)} (hbin : bin ∈ bins.bins) :
    session.destroy.refsTo bin.1 = (Library.spans 0 (bin.2.map List.length)).map fun r => refOf (bin.1, r) := by
  have hrefs : session.destroy.refs = (bins.slots List.length).map refOf := h.refs
  have hslots := NextFit.filter_slots List.length hnames hbin
  unfold Session.refsTo
  rw [hrefs, List.filter_map]
  show List.map refOf ((bins.slots List.length).filter fun slot => decide (slot.1 = bin.1)) = _
  rw [hslots, NextFit.slotsOf, List.map_map]
  rfl

/-- Every file is that of a bin, with the slots of the bin for references. -/
theorem Session.Follows.sound (h : session.Follows files used bins insertions)
    (hnames : (bins.bins.map Prod.fst).Nodup) (hbounded : bins.Bounded List.length maxFileSizeBytes) :
    session.destroy.Sound insertions := by
  have huploads := h.uploads_destroy
  have hfile : ∀ file ∈ session.destroy.uploads, ∃ bin ∈ bins.bins, fileOf bin = file := by
    intro file hfile
    rw [huploads] at hfile
    exact List.mem_map.1 hfile
  constructor
  · intro ref href
    have hrefs : session.destroy.refs = (bins.slots List.length).map refOf := h.refs
    rw [hrefs] at href
    obtain ⟨slot, hslot, rfl⟩ := List.mem_map.1 href
    obtain ⟨bin, hbin, hslot⟩ := NextFit.mem_slots.1 hslot
    obtain ⟨r, -, rfl⟩ := List.mem_map.1 hslot
    rw [huploads, List.map_map]
    exact List.count_eq_one_of_mem hnames (List.mem_map_of_mem hbin)
  · intro file hmem ref href
    obtain ⟨bin, hbin, rfl⟩ := hfile file hmem
    have href : ref ∈ session.destroy.refsTo bin.1 := href
    rw [h.refsTo_destroy hnames hbin] at href
    obtain ⟨r, hr, rfl⟩ := List.mem_map.1 href
    have hrange := Library.mem_spans_bounds hr
    rw [length_fileOf]
    unfold NextFit.total refOf
    dsimp only
    omega
  · intro file hmem
    obtain ⟨bin, hbin, rfl⟩ := hfile file hmem
    show (session.destroy.refsTo bin.1).Pairwise _
    rw [h.refsTo_destroy hnames hbin, List.pairwise_map]
    refine (Library.pairwise_spans 0 _).imp fun {r r'} hle => ?_
    unfold refOf
    dsimp only
    omega
  · intro file hmem i hi
    obtain ⟨bin, hbin, rfl⟩ := hfile file hmem
    rw [length_fileOf, ← Nat.zero_add (NextFit.total List.length bin)] at hi
    obtain ⟨r, hr, hstart, hend⟩ := Library.exists_mem_spans (Nat.zero_le i) hi
    refine ⟨refOf (bin.1, r), ?_, ?_⟩
    · show refOf (bin.1, r) ∈ session.destroy.refsTo bin.1
      rw [h.refsTo_destroy hnames hbin]
      exact List.mem_map_of_mem hr
    · unfold refOf
      dsimp only
      omega
  · intro file hmem
    obtain ⟨bin, hbin, rfl⟩ := hfile file hmem
    rcases (hbounded bin hbin).2 with hle | hone
    · exact .inl (length_fileOf bin ▸ hle)
    · obtain ⟨data, hdata⟩ := List.length_eq_one_iff.1 hone
      refine .inr ⟨refOf (bin.1, (0, data.length)), ?_, ?_⟩
      · show session.destroy.refsTo bin.1 = _
        rw [h.refsTo_destroy hnames hbin, hdata]
        simp [Library.spans]
      · rw [length_fileOf, NextFit.total, hdata]
        simp [refOf]
  · refine h.kept.imp fun insertion ref hkept => ?_
    obtain ⟨name, start, rfl, hkeeps⟩ := hkept
    exact readToBuffer_of_keeps hkeeps insertion.size_lt

/-- Whatever is inserted, when the handler is destroyed the references cover the files without an overlap, no file but
that of a single buffer is too large, each file was uploaded once, and every reference reads its buffer. -/
theorem sound_run (files : BinMapping) (insertions : List Insertion) (hnodup : (insertions.map Insertion.uuid).Nodup)
    (hfiles : ∀ insertion ∈ insertions, insertion.uuid ∉ files.names) :
    (insertions.foldl Session.insert (.start files)).destroy.Sound insertions := by
  have hrun := (Session.follows_start files).foldl insertions hnodup hfiles
  obtain ⟨hnames, hbounded⟩ := packAll_bins [] .empty insertions hnodup List.nodup_nil
    (fun _ hname => absurd hname List.not_mem_nil) NextFit.bounded_empty
  exact hrun.sound hnames hbounded

/-- A buffer of so many zeros. -/
def zeroBuffer (uuid : String) (size : ℕ) (h : size < 2 ^ 63) : Insertion :=
  ⟨uuid, List.replicate size 0, by rwa [List.length_replicate]⟩

private theorem activeFile_pair {first next : Insertion} (hfull : first.data.length + next.data.length > maxFileSizeBytes) :
    ([first, next].foldl Session.insert (.start [])).handler.activeFile = some ⟨next.uuid, next.data⟩ := by
  have hfirst : (Session.insert (.start []) first).handler.activeFile = some ⟨first.uuid, first.data⟩ := by
    rw [Session.insert, insertBinary_of_new (fileFor_of_none first.uuid first.data.length rfl)]
  rw [List.foldl_cons, List.foldl_cons, List.foldl_nil, Session.insert,
    insertBinary_of_new (fileFor_of_full next.uuid hfirst hfull)]

/-- A buffer that fills a file, and one for which there is no room in it. -/
theorem sound_run_pair : ∃ first next : Insertion, first.data.length = maxFileSizeBytes ∧
    ([first, next].foldl Session.insert (.start [])).handler.activeFile = some ⟨"b", next.data⟩ ∧
      ([first, next].foldl Session.insert (.start [])).destroy.Sound [first, next] := by
  have hmax : maxFileSizeBytes < 2 ^ 63 := by decide
  have hnodup : (["a", "b"] : List String).Nodup := by decide
  have hfirst : (zeroBuffer "a" maxFileSizeBytes hmax).data.length = maxFileSizeBytes := List.length_replicate
  refine ⟨zeroBuffer "a" maxFileSizeBytes hmax, zeroBuffer "b" 1 (by decide), hfirst, activeFile_pair ?_,
    sound_run [] _ hnodup fun _ _ => List.not_mem_nil⟩
  rw [hfirst]
  exact Nat.lt_succ_self _

end Bouncer.BlobFilesHandler
