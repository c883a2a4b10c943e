import Bouncer.Core.MeshNode
import Bouncer.Library.Packing

/-!
# Documents and their binary buffers

A `RepoBSON` is a document together with named buffers of bytes that are too large for it.  Before it is written,
`getBinariesAsBuffer` puts the buffers one after the other and lists where each of them is, and
`replaceBinaryWithReference` leaves this list and the place of the whole in the document, as `_blobRef`, in front of
all other fields.  `initBinaryBuffer` cuts the buffers out again.

Whatever the buffers are, the same ones come back, and an older `_blobRef` is not looked at (`initBinaryBuffer_replaced`).
-/

namespace Bouncer

open Library (Value lookup lookup_cons lookup_nil appendElementsUnique lookup_appendElementsUnique
  appendElementsUnique_eq)

abbrev Byte := BitVec 8

/-- An unordered map of names to buffers.  The source has no order among its entries. -/
abbrev BinMapping := List (String × List Byte)

variable {m : BinMapping} {name : String} {bytes : List Byte}

namespace BinMapping

def names (m : BinMapping) : List String := m.map Prod.fst

def find (m : BinMapping) (name : String) : Option (List Byte) :=
  (m.find? fun entry => decide (entry.1 = name)).map Prod.snd

/-- `operator[] =`. -/
def set (m : BinMapping) (name : String) (bytes : List Byte) : BinMapping :=
  m.filter (fun entry => decide (entry.1 ≠ name)) ++ [(name, bytes)]

/-- The number of all bytes. -/
def size (m : BinMapping) : ℕ := (m.map fun entry => entry.2.length).sum

private theorem nodup_set (h : m.names.Nodup) (name : String) (bytes : List Byte) :
    (m.set name bytes).names.Nodup := by
  unfold set names
  rw [List.map_append, List.map_singleton, List.nodup_append]
  refine ⟨h.sublist (List.filter_sublist.map _), List.nodup_singleton _, ?_⟩
  intro x hx y hy hxy
  obtain ⟨entry, hentry, rfl⟩ := List.mem_map.1 hx
  have hne : entry.1 ≠ name := of_decide_eq_true (List.mem_filter.1 hentry).2
  exact hne (hxy.trans (List.mem_singleton.1 hy))

private theorem set_of_notMem (h : name ∉ m.names) (bytes : List Byte) :
    m.set name bytes = m ++ [(name, bytes)] := by
  unfold set
  congr 1
  apply List.filter_eq_self.2
  intro entry hentry
  exact decide_eq_true fun he => h (he ▸ List.mem_map_of_mem hentry)

theorem find_of_mem (h : m.names.Nodup) {entry : String × List Byte} (hentry : entry ∈ m) :
    m.find entry.1 = some entry.2 := by
  induction m with
  | nil => exact absurd hentry List.not_mem_nil
  | cons first m ih =>
    obtain ⟨hnew, hnodup⟩ := List.nodup_cons.1 h
    unfold find
    rw [List.find?_cons]
    by_cases hname : first.1 = entry.1
    · rw [decide_eq_true hname]
      rcases List.mem_cons.1 hentry with rfl | hmem
      · rfl
      · exact absurd (hname ▸ List.mem_map_of_mem hmem) hnew
    · rw [decide_eq_false hname]
      have hmem : entry ∈ m := (List.mem_cons.1 hentry).resolve_left fun he => hname (congrArg Prod.fst he.symm)
      exact ih hnodup hmem

theorem find_set_self (m : BinMapping) (name : String) (bytes : List Byte) : (m.set name bytes).find name = some bytes := by
  have hrest : (m.filter fun entry => decide (entry.1 ≠ name)).find? (fun entry => decide (entry.1 = name)) = none := by
    apply List.find?_eq_none.2
    intro entry hentry hname
    exact of_decide_eq_true (List.mem_filter.1 hentry).2 (of_decide_eq_true hname)
  unfold find set
  rw [List.find?_append, hrest, Option.none_or, List.find?_cons, decide_eq_true rfl]
  rfl

theorem find_set_of_ne (m : BinMapping) {name name' : String} (h : name' ≠ name) (bytes : List Byte) :
    (m.set name bytes).find name' = m.find name' := by
  have hlast : [(name, bytes)].find? (fun entry => decide (entry.1 = name')) = none := by
    simp [Ne.symm h]
  unfold find set
  rw [List.find?_append, List.find?_filter, hlast, Option.or_none]
  congr 2
  funext entry
  by_cases hname : entry.1 = name'
  · simp [hname, h]
  · simp [hname]

theorem mem_of_find (h : m.find name = some bytes) :
    (name, bytes) ∈ m := by
  obtain ⟨entry, hentry, rfl⟩ := Option.map_eq_some_iff.1 h
  have hname := List.find?_some hentry
  have hsame : entry.1 = name := of_decide_eq_true hname
  exact hsame ▸ List.mem_of_find?_eq_some hentry

theorem mem_names_of_find (h : m.find name = some bytes) :
    name ∈ m.names := by
  exact List.mem_map_of_mem (mem_of_find h)

theorem mem_names_set {name name' : String} (h : name' ∈ (m.set name bytes).names) :
    name' = name ∨ name' ∈ m.names := by
  obtain ⟨entry, hentry, rfl⟩ := List.mem_map.1 h
  rcases List.mem_append.1 hentry with hentry | hentry
  · exact .inr (List.mem_map_of_mem (List.mem_of_mem_filter hentry))
  · exact .inl (by rw [List.mem_singleton.1 hentry])

end BinMapping

/-- What the functions on documents throw, or do that is undefined. -/
inductive RepoBSONError where
  | fieldNotFound (label : String)
  | fieldType (label : String)
  | undefined
  deriving DecidableEq

structure RepoBSON (S : Type) where
  fields : List (String × Value S)
  bigFiles : BinMapping
  names_nodup : bigFiles.names.Nodup

/-- A document whose buffers are in memory at the same time, so that the number of their bytes is an `int64_t`. -/
structure LoadedBSON (S : Type) extends RepoBSON S where
  size_lt : bigFiles.size < 2 ^ 63

/-- The cast of a size to `int64_t`. -/
def int64 (size : ℕ) : ℤ := (size : ℤ).bmod (2 ^ 64)

theorem int64_eq {size : ℕ} (h : size < 2 ^ 63) : int64 size = size := by
  unfold int64
  apply Int.bmod_eq_of_le <;> omega

/-- An `int64_t` converted to `size_t`. -/
def sizeT (i : ℤ) : ℕ := (i % 2 ^ 64).toNat

theorem sizeT_natCast {n : ℕ} (h : n < 2 ^ 63) : sizeT n = n := by
  unfold sizeT
  omega

namespace RepoBSON

variable {U R : Type}

/-- A document without buffers. -/
def ofFields {S : Type} (fields : List (String × Value S)) : RepoBSON S := ⟨fields, [], List.nodup_nil⟩

section Fields

variable (bson : RepoBSON (RepoVariant U R)) (label : String)

def hasField : Bool := (lookup bson.fields label).isSome

def getField : Except RepoBSONError (Value (RepoVariant U R)) :=
  match lookup bson.fields label with
  | some value => .ok value
  | none => .error (.fieldNotFound label)

def getObjectField : Except RepoBSONError (RepoBSON (RepoVariant U R)) := do
  match ← bson.getField label with
  | .object fields => .ok (ofFields fields)
  | _ => .error (.fieldType label)

def getStringField : Except RepoBSONError String := do
  match ← bson.getField label with
  | .scalar (.string s) => .ok s
  | _ => .error (.fieldType label)

def getIntField : Except RepoBSONError ℤ := do
  match ← bson.getField label with
  | .scalar (.int n) => .ok n
  | _ => .error (.fieldType label)

def getLongField : Except RepoBSONError ℤ := bson.getIntField label

/-- The set of the names, which is ordered. -/
def getFieldNames : List String := (bson.fields.map Prod.fst).dedup.mergeSort fun s t => decide (s ≤ t)

def hasBinField : Bool := (bson.bigFiles.find label).isSome

def getBinary : Except RepoBSONError (List Byte) :=
  match bson.bigFiles.find label with
  | some bytes => .ok bytes
  | none => .error (if bson.hasField label then .fieldType label else .fieldNotFound label)

def getBinaryFieldAsVector {α : Type} (P : Library.Packing α Byte) : Except RepoBSONError (List α) := do
  let buf ← bson.getBinary label
  return P.unpack buf

end Fields

/-- The list of where the buffers are, and the buffers one after the other. -/
def getBinariesAsBuffer (bson : RepoBSON (RepoVariant U R)) :
    List (String × Value (RepoVariant U R)) × List Byte :=
  bson.bigFiles.foldl (fun res entry =>
    (res.1 ++ [(entry.1, .object [("start", .scalar (.int (int64 res.2.length))),
      ("size", .scalar (.int (int64 entry.2.length)))])], res.2 ++ entry.2)) ([], [])

def replaceBinaryWithReference (bson : RepoBSON (RepoVariant U R)) (fileRef : Value (RepoVariant U R))
    (elemRef : List (String × Value (RepoVariant U R))) : RepoBSON (RepoVariant U R) :=
  ofFields (appendElementsUnique
    [("_blobRef", .object [("elements", .object elemRef), ("buffer", fileRef)])] bson.fields)

def hasFileReference (bson : RepoBSON (RepoVariant U R)) : Bool := bson.hasField "_blobRef"

def getBinaryReference (bson : RepoBSON (RepoVariant U R)) : Except RepoBSONError (RepoBSON (RepoVariant U R)) :=
  if bson.hasField "_blobRef" then do
    let extRefbson ← bson.getObjectField "_blobRef"
    extRefbson.getObjectField "buffer"
  else .ok (ofFields [])

/-- One turn of the loop of `initBinaryBuffer`. -/
def readElement (elemRefs : RepoBSON (RepoVariant U R)) (buffer : List Byte) (bson : RepoBSON (RepoVariant U R))
    (elem : String) : Except RepoBSONError (RepoBSON (RepoVariant U R)) := do
  let elemRefBson ← elemRefs.getObjectField elem
  let start ← elemRefBson.getLongField "start"
  let size ← elemRefBson.getLongField "size"
  if sizeT start + sizeT size ≤ buffer.length then
    return ⟨bson.fields, bson.bigFiles.set elem ((buffer.drop (sizeT start)).take (sizeT size)),
      BinMapping.nodup_set bson.names_nodup _ _⟩
  else throw .undefined

def initBinaryBuffer (bson : RepoBSON (RepoVariant U R)) (buffer : List Byte) :
    Except RepoBSONError (RepoBSON (RepoVariant U R)) :=
  if bson.hasField "_blobRef" then do
    let extRefbson ← bson.getObjectField "_blobRef"
    let elemRefs ← extRefbson.getObjectField "elements"
    elemRefs.getFieldNames.foldlM (readElement elemRefs buffer) bson
  else .ok bson

/-- The fields but for the reference. -/
def others {S : Type} (bson : RepoBSON S) : List (String × Value S) :=
  bson.fields.filter fun field => decide (field.1 ≠ "_blobRef")

/-! ### Where the buffers are -/

/-- An element of the list says where, in the buffer, some bytes are. -/
def Points (elemRefs : List (String × Value (RepoVariant U R))) (buffer : List Byte) (name : String)
    (bytes : List Byte) : Prop :=
  ∃ start : ℕ, lookup elemRefs name =
      some (.object [("start", .scalar (.int start)), ("size", .scalar (.int bytes.length))]) ∧
    start + bytes.length ≤ buffer.length ∧ (buffer.drop start).take bytes.length = bytes

/-- All bytes, one buffer after the other. -/
def flatten (m : BinMapping) : List Byte := m.flatMap Prod.snd

/-- The names and sizes. -/
def sizes (m : BinMapping) : List (String × ℕ) := m.map fun entry => (entry.1, entry.2.length)

theorem length_flatten (m : BinMapping) : (flatten m).length = m.size := List.length_flatMap

private theorem foldl_binaries (m : BinMapping) (elems : List (String × Value (RepoVariant U R))) (buffer : List Byte)
    (h : buffer.length + BinMapping.size m < 2 ^ 63) :
    m.foldl (fun res entry =>
      (res.1 ++ [(entry.1, .object [("start", .scalar (.int (int64 res.2.length))),
        ("size", .scalar (.int (int64 entry.2.length)))])], res.2 ++ entry.2)) (elems, buffer) =
      (elems ++ RepoBSONBuilder.elements buffer.length (sizes m), buffer ++ flatten m) := by
  induction m generalizing elems buffer with
  | nil => simp [RepoBSONBuilder.elements, sizes, flatten]
  | cons entry m ih =>
    have hsize : BinMapping.size (entry :: m) = entry.2.length + BinMapping.size m := List.sum_cons
    have hflat : flatten (entry :: m) = entry.2 ++ flatten m := List.flatMap_cons
    rw [hsize] at h
    have hbuffer : int64 buffer.length = buffer.length := int64_eq (by omega)
    have hentry : int64 entry.2.length = entry.2.length := int64_eq (by omega)
    have hnext : (buffer ++ entry.2).length + BinMapping.size m < 2 ^ 63 := by
      rw [List.length_append]
      omega
    rw [List.foldl_cons, ih _ (buffer ++ entry.2) hnext, hbuffer, hentry, hflat, List.length_append, List.append_assoc,
      List.append_assoc]
    rfl

/-- The list is that of the names and sizes, from the start on. -/
theorem getBinariesAsBuffer_eq (bson : RepoBSON (RepoVariant U R)) (h : bson.bigFiles.size < 2 ^ 63) :
    bson.getBinariesAsBuffer = (RepoBSONBuilder.elements 0 (sizes bson.bigFiles), flatten bson.bigFiles) := by
  have hfold := foldl_binaries (U := U) (R := R) bson.bigFiles [] [] (by rwa [List.length_nil, Nat.zero_add])
  rw [List.nil_append, List.nil_append, List.length_nil] at hfold
  exact hfold

theorem points_elements (hnodup : m.names.Nodup) {entry : String × List Byte} (hentry : entry ∈ m)
    (before : List Byte) :
    Points (U := U) (R := R) (RepoBSONBuilder.elements before.length (sizes m)) (before ++ flatten m) entry.1 entry.2 := by
  induction m generalizing before with
  | nil => exact absurd hentry List.not_mem_nil
  | cons first m ih =>
    obtain ⟨hnew, hnodup⟩ := List.nodup_cons.1 hnodup
    have hflat : flatten (first :: m) = first.2 ++ flatten m := List.flatMap_cons
    have hsizes : sizes (first :: m) = (first.1, first.2.length) :: sizes m := rfl
    rw [hflat, hsizes]
    rcases List.mem_cons.1 hentry with rfl | hmem
    · refine ⟨before.length, ?_, ?_, ?_⟩
      · rw [RepoBSONBuilder.elements, lookup_cons, if_pos rfl]
      · simp only [List.length_append]
        omega
      · rw [List.drop_left' rfl, List.take_left' rfl]
    · have hname : first.1 ≠ entry.1 := fun he => hnew (he ▸ List.mem_map_of_mem hmem)
      obtain ⟨start, hlookup, hle, hslice⟩ := ih hnodup hmem (before ++ first.2)
      rw [List.append_assoc] at hle hslice
      refine ⟨start, ?_, hle, hslice⟩
      rw [RepoBSONBuilder.elements, lookup_cons, if_neg hname, ← hlookup, List.length_append]

private theorem map_fst_elements (start : ℕ) (m : BinMapping) :
    (RepoBSONBuilder.elements (U := U) (R := R) start (sizes m)).map Prod.fst = m.names := by
  induction m generalizing start with
  | nil => rfl
  | cons entry m ih =>
    exact congrArg (entry.1 :: ·) (ih (start + entry.2.length))

/-! ### Reading the buffers back -/

private theorem readElement_eq {elemRefs bson : RepoBSON (RepoVariant U R)} {buffer : List Byte}
    (h : Points elemRefs.fields buffer name bytes) (hbuffer : buffer.length < 2 ^ 63)
    (hnew : name ∉ bson.bigFiles.names) :
    ∃ next, readElement elemRefs buffer bson name = .ok next ∧ next.fields = bson.fields ∧
      next.bigFiles = bson.bigFiles ++ [(name, bytes)] := by
  obtain ⟨start, hlookup, hle, hslice⟩ := h
  have hstart : sizeT (start : ℤ) = start := sizeT_natCast (by omega)
  have hsize : sizeT (bytes.length : ℤ) = bytes.length := sizeT_natCast (by omega)
  have hobject : elemRefs.getObjectField name =
      .ok (ofFields [("start", .scalar (.int start)), ("size", .scalar (.int bytes.length))]) := by
    simp only [getObjectField, getField, hlookup, bind, Except.bind]
  refine ⟨⟨bson.fields, bson.bigFiles.set name ((buffer.drop start).take bytes.length),
    BinMapping.nodup_set bson.names_nodup _ _⟩, ?_, rfl, ?_⟩
  · have hlong : (ofFields [("start", .scalar (.int start)), ("size", .scalar (.int bytes.length))] :
        RepoBSON (RepoVariant U R)).getLongField "start" = .ok (start : ℤ) ∧
        (ofFields [("start", .scalar (.int start)), ("size", .scalar (.int bytes.length))] :
        RepoBSON (RepoVariant U R)).getLongField "size" = .ok (bytes.length : ℤ) := ⟨rfl, rfl⟩
    rw [readElement, hobject]
    simp only [bind, Except.bind, hlong.1, hlong.2, hstart, hsize, if_pos hle, pure, Except.pure]
  · exact (BinMapping.set_of_notMem hnew _).trans (by rw [hslice])

private theorem foldlM_readElement {elemRefs : RepoBSON (RepoVariant U R)} {buffer : List Byte} {bytesOf : String → List Byte}
    {names : List String} (bson : RepoBSON (RepoVariant U R)) (hbuffer : buffer.length < 2 ^ 63)
    (hpoints : ∀ name ∈ names, Points elemRefs.fields buffer name (bytesOf name)) (hnodup : names.Nodup)
    (hnew : ∀ name ∈ names, name ∉ bson.bigFiles.names) :
    ∃ last, names.foldlM (readElement elemRefs buffer) bson = .ok last ∧ last.fields = bson.fields ∧
      last.bigFiles = bson.bigFiles ++ names.map fun name => (name, bytesOf name) := by
  induction names generalizing bson with
  | nil => exact ⟨bson, rfl, rfl, (List.append_nil _).symm⟩
  | cons name names ih =>
    obtain ⟨hfirst, hnodup⟩ := List.nodup_cons.1 hnodup
    obtain ⟨next, hread, hfields, hfiles⟩ :=
      readElement_eq (hpoints name List.mem_cons_self) hbuffer (hnew name List.mem_cons_self)
    have hnew' : ∀ name' ∈ names, name' ∉ next.bigFiles.names := by
      intro name' hname' hmem
      rw [hfiles, BinMapping.names, List.map_append, List.mem_append] at hmem
      rcases hmem with hmem | hmem
      · exact hnew name' (List.mem_cons_of_mem _ hname') hmem
      · have hsame : name' = name := List.mem_singleton.1 hmem
        exact hfirst (hsame ▸ hname')
    obtain ⟨last, hlast, hfields', hfiles'⟩ :=
      ih next (fun name' hname' => hpoints name' (List.mem_cons_of_mem _ hname')) hnodup hnew'
    refine ⟨last, ?_, hfields'.trans hfields, ?_⟩
    · rw [List.foldlM_cons, hread]
      exact hlast
    · rw [hfiles', hfiles, List.append_assoc]
      rfl

theorem lookup_replaced (bson : RepoBSON (RepoVariant U R)) (fileRef : Value (RepoVariant U R))
    (elemRef : List (String × Value (RepoVariant U R))) :
    lookup (bson.replaceBinaryWithReference fileRef elemRef).fields "_blobRef" =
      some (.object [("elements", .object elemRef), ("buffer", fileRef)]) := by
  rw [replaceBinaryWithReference, ofFields, lookup_appendElementsUnique, lookup_cons, if_pos rfl, Option.some_or]

/-- All fields but the reference are as they were. -/
theorem lookup_replaced_of_ne (bson : RepoBSON (RepoVariant U R)) (fileRef : Value (RepoVariant U R))
    (elemRef : List (String × Value (RepoVariant U R))) {name : String} (hname : name ≠ "_blobRef") :
    lookup (bson.replaceBinaryWithReference fileRef elemRef).fields name = lookup bson.fields name := by
  rw [replaceBinaryWithReference, ofFields, lookup_appendElementsUnique, lookup_cons, if_neg (Ne.symm hname), lookup_nil,
    Option.none_or]

/-- If no two fields have one name, they are also in the order in which they were. -/
theorem others_replaced (bson : RepoBSON (RepoVariant U R)) (fileRef : Value (RepoVariant U R))
    (elemRef : List (String × Value (RepoVariant U R))) (hnodup : (bson.fields.map Prod.fst).Nodup) :
    (bson.replaceBinaryWithReference fileRef elemRef).others = bson.others := by
  have hnew : ∀ field ∈ bson.fields, (lookup
      [("_blobRef", Value.object [("elements", .object elemRef), ("buffer", fileRef)])] field.1).isNone =
        decide (field.1 ≠ "_blobRef") := by
    intro field _
    rw [lookup_cons, lookup_nil]
    by_cases hname : field.1 = "_blobRef"
    · simp [hname]
    · simp [hname, Ne.symm hname]
  unfold others replaceBinaryWithReference ofFields
  dsimp only
  rw [appendElementsUnique_eq _ hnodup, List.filter_congr hnew, List.filter_append, List.filter_filter]
  simp

/-- The buffers come back from the document that refers to them, and from nothing but the bytes. -/
theorem initBinaryBuffer_replaced (bson : LoadedBSON (RepoVariant U R)) (fileRef : Value (RepoVariant U R)) :
    ∃ restored, (bson.replaceBinaryWithReference fileRef bson.getBinariesAsBuffer.1).initBinaryBuffer
        bson.getBinariesAsBuffer.2 = .ok restored ∧
      restored.bigFiles.Perm bson.bigFiles ∧
      restored.fields = (bson.replaceBinaryWithReference fileRef bson.getBinariesAsBuffer.1).fields := by
  rw [getBinariesAsBuffer_eq _ bson.size_lt]
  let elems : List (String × Value (RepoVariant U R)) := RepoBSONBuilder.elements 0 (sizes bson.bigFiles)
  let names := (ofFields elems).getFieldNames
  let bytesOf : String → List Byte := fun name => (bson.bigFiles.find name).getD []
  have hperm : names.Perm bson.bigFiles.names := by
    have hdedup : (elems.map Prod.fst).dedup = bson.bigFiles.names := by
      rw [map_fst_elements, List.dedup_eq_self.2 bson.names_nodup]
    exact (List.mergeSort_perm _ _).trans (List.Perm.of_eq hdedup)
  have hpoints : ∀ name ∈ names, Points (ofFields elems).fields (flatten bson.bigFiles) name (bytesOf name) := by
    intro name hname
    obtain ⟨entry, hentry, rfl⟩ := List.mem_map.1 (hperm.mem_iff.1 hname)
    have hbytes : bytesOf entry.1 = entry.2 := by
      simp only [bytesOf, BinMapping.find_of_mem bson.names_nodup hentry, Option.getD_some]
    rw [hbytes]
    exact points_elements bson.names_nodup hentry []
  have hbuffer : (flatten bson.bigFiles).length < 2 ^ 63 := by
    rw [length_flatten]
    exact bson.size_lt
  let start := bson.replaceBinaryWithReference fileRef elems
  obtain ⟨restored, hrestored, hfields, hfiles⟩ := foldlM_readElement start hbuffer hpoints
    (hperm.nodup_iff.2 bson.names_nodup) (fun _ _ => List.not_mem_nil)
  refine ⟨restored, ?_, ?_, hfields⟩
  · have href := lookup_replaced bson.toRepoBSON fileRef elems
    have hhas : start.hasField "_blobRef" := by
      rw [hasField, href]
      rfl
    have hobject : start.getObjectField "_blobRef" =
        .ok (ofFields [("elements", .object elems), ("buffer", fileRef)]) := by
      simp only [getObjectField, getField, start, href, bind, Except.bind]
    rw [initBinaryBuffer, if_pos hhas, hobject]
    exact hrestored
  · have hmap : bson.bigFiles.names.map (fun name => (name, bytesOf name)) = bson.bigFiles := by
      rw [BinMapping.names, List.map_map]
      refine (List.map_congr_left ?_).trans (List.map_id _)
      intro entry hentry
      simp only [Function.comp_apply, bytesOf, BinMapping.find_of_mem bson.names_nodup hentry, Option.getD_some, id]
    have hstart : start.bigFiles = [] := rfl
    have hrestored := hperm.map fun name => (name, bytesOf name)
    rw [hmap] at hrestored
    rwa [hfiles, hstart, List.nil_append]

end RepoBSON

end Bouncer
