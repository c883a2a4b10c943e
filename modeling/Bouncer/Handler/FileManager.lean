import Bouncer.Core.RepoBSON
import Bouncer.Library.References

/-!
# Files and their references

The file manager keeps files in a file store, and for each a reference in the database with the link under which the
store has it.  Each step on one of the two stores succeeds, or fails without effect.

`uploadFileAndCommit` writes the file before the reference, so no failure leaves a reference without file.
`deleteFileAndRef` deletes the file first.  If then the reference cannot be dropped it is left without file, and stays,
as the next attempt does not find the file to delete (`not_resolves_of_dropFileRef_fails`).  Otherwise all references
resolve in every run (`references_resolve`).
-/

namespace Bouncer.FileManager

open Library Relation

variable {U R : Type}

/-- The two types of identifiers of a reference. -/
inductive IdType (U : Type) where
  | string (s : String)
  | uuid (u : U)
  deriving DecidableEq

/-- Where a reference is: the database, the collection it belongs to, and its identifier. -/
structure RefKey (U : Type) where
  databaseName : String
  collectionNamePrefix : String
  id : IdType U
  deriving DecidableEq

inductive RefType where
  | fs
  | unknown
  deriving DecidableEq

abbrev Metadata (U R : Type) := List (String × RepoVariant U R)

structure RepoRef (U R : Type) where
  type : RefType
  link : String
  size : ℕ
  metadata : Metadata U R

/-- The file store and the references in the database. -/
abbrev FileStores (U R : Type) := Stores (RefKey U) (RepoRef U R) String (List Byte)

inductive Encoding where
  | none
  | gzip
  deriving DecidableEq

/-- `RepoFileUploadException`, and what the database handler throws. -/
inductive Failure where
  | fileUpload (fileUUID : String)
  | database
  deriving DecidableEq

/-! ### The steps -/

/-- The name that `uploadFile` gives to a file in the directories of its levels. -/
def linkName (hierachy : List String) (keyName : String) : String :=
  (hierachy.map fun levelName => levelName ++ "/").foldr (· ++ ·) keyName

/-- What happens in a call of `uploadFileAndCommit`. -/
structure UploadSteps where
  fileUUID : String
  hierachy : List String
  /-- The file is written, or three attempts fail, or something is thrown. -/
  uploadFile : Except Unit Bool
  upsertDocument : Bool

/-- What happens in a call of `deleteFileAndRef`. -/
structure DeleteSteps where
  findOneByUniqueID : Bool
  remove : Bool
  dropDocument : Bool

variable [DecidableEq U]

def makeRefNode (link : String) (size : ℕ) (metadata : Metadata U R) : RepoRef U R := ⟨.fs, link, size % 2 ^ 32, metadata⟩

def upsertFileRef (key : RefKey U) (link : String) (size : ℕ) (metadata : Metadata U R) (succeeds : Bool)
    (stores : FileStores U R) : FileStores U R × Bool :=
  if succeeds then (stores.putRef key (makeRefNode link size metadata), true) else (stores, false)

/-- What is stored of a file, with the compressor `gzip`. -/
def fileContents (gzip : List Byte → List Byte) : Encoding → List Byte → List Byte
  | .none, bin => bin
  | .gzip, bin => gzip bin

def fileMetadata : Encoding → Metadata U R → Metadata U R
  | .none, metadata => metadata
  | .gzip, metadata => metadata.filter (fun entry => decide (entry.1 ≠ "encoding")) ++ [("encoding", .string "gzip")]

def uploadFileAndCommit (gzip : List Byte → List Byte) (key : RefKey U) (bin : List Byte) (metadata : Metadata U R)
    (encoding : Encoding) (steps : UploadSteps) (stores : FileStores U R) :
    FileStores U R × Except Failure Bool :=
  let contents := fileContents gzip encoding bin
  match steps.uploadFile with
  | .error _ => (stores, .error (.fileUpload steps.fileUUID))
  | .ok false => (stores, .ok false)
  | .ok true =>
    let link := linkName steps.hierachy steps.fileUUID
    let stored := stores.putFile link contents
    if link ≠ "" then
      let upserted := upsertFileRef key link contents.length (fileMetadata encoding metadata) steps.upsertDocument stored
      (upserted.1, .ok upserted.2)
    else (stored, .ok false)

def deleteFile (keyName : String) (succeeds : Bool) (stores : FileStores U R) : FileStores U R × Bool :=
  if (stores.files keyName).isSome && succeeds then (stores.dropFile keyName, true) else (stores, false)

def dropFileRef (key : RefKey U) (succeeds : Bool) (stores : FileStores U R) : FileStores U R × Bool :=
  if succeeds then (stores.dropRef key, true) else (stores, false)

def deleteFileAndRef (databaseName collectionNamePrefix fileName : String) (steps : DeleteSteps)
    (stores : FileStores U R) : FileStores U R × Except Failure Bool :=
  let key : RefKey U := ⟨databaseName, collectionNamePrefix, .string fileName⟩
  if steps.findOneByUniqueID then
    match stores.refs key with
    | none => (stores, .ok false)
    | some ref =>
      match ref.type with
      | .unknown => (stores, .ok false)
      | .fs =>
        let deleted := deleteFile ref.link steps.remove stores
        if deleted.2 then
          let dropped := dropFileRef key steps.dropDocument deleted.1
          (dropped.1, .ok dropped.2)
        else (deleted.1, .ok false)
  else (stores, .error .database)

/-! ### Runs -/

/-- The calls that change the stores. -/
inductive Call (U R : Type) where
  | upload (key : RefKey U) (bin : List Byte) (metadata : Metadata U R) (encoding : Encoding) (steps : UploadSteps)
  | delete (databaseName collectionNamePrefix fileName : String) (steps : DeleteSteps)

def Call.perform (gzip : List Byte → List Byte) : Call U R → FileStores U R → FileStores U R × Except Failure Bool
  | .upload key bin metadata encoding steps => uploadFileAndCommit gzip key bin metadata encoding steps
  | .delete databaseName collectionNamePrefix fileName steps =>
    deleteFileAndRef databaseName collectionNamePrefix fileName steps

/-- A new file gets a link that no file and no reference has: it ends with a new identifier. -/
def Call.Fresh (stores : FileStores U R) : Call U R → Prop
  | .upload _ _ _ _ steps => stores.files (linkName steps.hierachy steps.fileUUID) = none ∧
    ∀ key ref, stores.refs key = some ref → ref.link ≠ linkName steps.hierachy steps.fileUUID
  | .delete .. => True

/-- If a file is deleted, its reference is dropped as well. -/
def Call.DropsBoth (stores : FileStores U R) : Call U R → Prop
  | .upload .. => True
  | .delete databaseName collectionNamePrefix fileName steps =>
    steps.findOneByUniqueID = true → steps.remove = true →
      (∃ ref, stores.refs ⟨databaseName, collectionNamePrefix, .string fileName⟩ = some ref ∧ ref.type = .fs) →
        steps.dropDocument = true

/-- The stores before and after a call that is allowed. -/
inductive Step (gzip : List Byte → List Byte) (allowed : FileStores U R → Call U R → Prop) :
    FileStores U R → FileStores U R → Prop
  | call {stores : FileStores U R} (c : Call U R) :
      c.Fresh stores → allowed stores c → Step gzip allowed stores (c.perform gzip stores).1

/-- Each reference has its file, and shares it with no other. -/
structure Consistent (stores : FileStores U R) : Prop where
  resolves : stores.Resolves RepoRef.link
  separate : stores.Separate RepoRef.link

section Calls

variable {gzip : List Byte → List Byte} {stores : FileStores U R} {c : Call U R}

omit [DecidableEq U] in
private theorem consistent_empty : Consistent (Stores.empty : FileStores U R) := ⟨Stores.resolves_empty, Stores.separate_empty⟩

/-- What an upload does to the stores: nothing, or a new file, or a new file and a reference to it. -/
theorem upload_cases (key : RefKey U) (bin : List Byte) (metadata : Metadata U R) (encoding : Encoding)
    (steps : UploadSteps) (stores : FileStores U R) :
    let link := linkName steps.hierachy steps.fileUUID
    let contents := fileContents gzip encoding bin
    let result := uploadFileAndCommit gzip key bin metadata encoding steps stores
    (result.1 = stores ∧ result.2 ≠ .ok true) ∨
      (result.1 = stores.putFile link contents ∧ result.2 ≠ .ok true) ∨
      (result.1 = (stores.putFile link contents).putRef key
          (makeRefNode link contents.length (fileMetadata encoding metadata)) ∧ result.2 = .ok true) := by
  intro link contents result
  unfold result uploadFileAndCommit
  rcases steps.uploadFile with _ | _ | _
  · exact Or.inl ⟨rfl, nofun⟩
  · exact Or.inl ⟨rfl, nofun⟩
  · dsimp only
    by_cases hlink : linkName steps.hierachy steps.fileUUID ≠ ""
    · rw [if_pos hlink]
      unfold upsertFileRef
      cases steps.upsertDocument
      · exact Or.inr (Or.inl ⟨rfl, nofun⟩)
      · exact Or.inr (Or.inr ⟨rfl, rfl⟩)
    · rw [if_neg hlink]
      exact Or.inr (Or.inl ⟨rfl, nofun⟩)

theorem Consistent.uploadFileAndCommit (h : Consistent stores) {key : RefKey U} {bin : List Byte}
    {metadata : Metadata U R} {encoding : Encoding} {steps : UploadSteps}
    (hnew : ∀ key ref, stores.refs key = some ref → ref.link ≠ linkName steps.hierachy steps.fileUUID) :
    Consistent (uploadFileAndCommit gzip key bin metadata encoding steps stores).1 := by
  rcases upload_cases key bin metadata encoding steps stores with ⟨he, -⟩ | ⟨he, -⟩ | ⟨he, -⟩
  · rwa [he]
  · rw [he]
    exact ⟨h.resolves.putFile, h.separate⟩
  · rw [he]
    refine ⟨h.resolves.putFile.putRef ?_, Stores.Separate.putRef h.separate fun key' ref' hr' => hnew key' ref' hr'⟩
    rw [Stores.files_putFile, makeRefNode, if_pos rfl]
    rfl

private theorem delete_cases (databaseName collectionNamePrefix fileName : String) (steps : DeleteSteps)
    (stores : FileStores U R) :
    (deleteFileAndRef databaseName collectionNamePrefix fileName steps stores).1 = stores ∨
      (steps.findOneByUniqueID = true ∧ steps.remove = true ∧
        ∃ ref, stores.refs ⟨databaseName, collectionNamePrefix, .string fileName⟩ = some ref ∧ ref.type = .fs ∧
          (deleteFileAndRef databaseName collectionNamePrefix fileName steps stores).1 =
            if steps.dropDocument then
              (stores.dropFile ref.link).dropRef ⟨databaseName, collectionNamePrefix, .string fileName⟩
            else stores.dropFile ref.link) := by
  unfold deleteFileAndRef
  cases hfind : steps.findOneByUniqueID
  · exact Or.inl rfl
  · cases href : stores.refs ⟨databaseName, collectionNamePrefix, .string fileName⟩ with
    | none => exact Or.inl (by simp [href])
    | some ref =>
      cases htype : ref.type with
      | unknown => exact Or.inl (by simp [href, htype])
      | fs =>
        by_cases hdelete : (stores.files ref.link).isSome = true ∧ steps.remove = true
        · refine Or.inr ⟨rfl, hdelete.2, ref, rfl, htype, ?_⟩
          cases steps.dropDocument <;> simp [href, htype, deleteFile, dropFileRef, hdelete.1, hdelete.2]
        · have hkept : ¬ ((stores.files ref.link).isSome && steps.remove) = true := by simpa using hdelete
          exact Or.inl (by simp only [href, htype, deleteFile, if_neg hkept, if_true, Bool.false_eq_true, if_false])

theorem Consistent.deleteFileAndRef (h : Consistent stores) {databaseName collectionNamePrefix fileName : String}
    {steps : DeleteSteps}
    (hboth : (Call.delete databaseName collectionNamePrefix fileName steps : Call U R).DropsBoth stores) :
    Consistent (deleteFileAndRef databaseName collectionNamePrefix fileName steps stores).1 := by
  rcases delete_cases databaseName collectionNamePrefix fileName steps stores with
    he | ⟨hfind, hremove, ref, href, htype, he⟩
  · rwa [he]
  · rw [he, if_pos (hboth hfind hremove ⟨ref, href, htype⟩)]
    exact ⟨h.resolves.drop h.separate href, h.separate.dropRef⟩

theorem Consistent.perform (h : Consistent stores) (hfresh : c.Fresh stores) (hboth : c.DropsBoth stores) :
    Consistent (c.perform gzip stores).1 := by
  cases c with
  | upload key bin metadata encoding steps => exact h.uploadFileAndCommit hfresh.2
  | delete databaseName collectionNamePrefix fileName steps => exact h.deleteFileAndRef hboth

private theorem not_resolves_of_dropFileRef_fails {databaseName collectionNamePrefix fileName : String} {steps : DeleteSteps}
    {ref : RepoRef U R} (h : Consistent stores) (hfind : steps.findOneByUniqueID = true) (hremove : steps.remove = true)
    (href : stores.refs ⟨databaseName, collectionNamePrefix, .string fileName⟩ = some ref) (htype : ref.type = .fs)
    (hdrop : steps.dropDocument = false) :
    ¬ (deleteFileAndRef databaseName collectionNamePrefix fileName steps stores).1.Resolves RepoRef.link := by
  have hfile := h.resolves _ _ href
  have hresult : (deleteFileAndRef databaseName collectionNamePrefix fileName steps stores).1 =
      stores.dropFile ref.link := by
    simp [deleteFileAndRef, hfind, href, htype, deleteFile, dropFileRef, hfile, hremove, hdrop]
  rw [hresult]
  exact Stores.not_resolves_dropFile href

/-- In a run of which each deletion of a file drops the reference too, every reference has its file. -/
theorem references_resolve (gzip : List Byte → List Byte) {stores stores' : FileStores U R} (h : Consistent stores)
    (hrun : ReflTransGen (Step gzip fun stores c => c.DropsBoth stores) stores stores') :
    stores'.Resolves RepoRef.link := by
  have hconsistent : Consistent stores' := by
    induction hrun with
    | refl => exact h
    | tail _ hstep ih =>
      cases hstep with
      | call c hfresh hboth => exact ih.perform hfresh hboth
  exact hconsistent.resolves

end Calls

/-! ### A file that is uploaded and deleted -/

section Example

/-- A file is uploaded. -/
def exampleUpload : Call ℕ ℕ := .upload ⟨"teamspace", "model.stash", .string "a"⟩ [1] [] .none ⟨"f", [], .ok true, true⟩

/-- Its deletion, in which the reference is dropped or not. -/
def exampleDelete (dropDocument : Bool) : Call ℕ ℕ := .delete "teamspace" "model.stash" "a" ⟨true, true, dropDocument⟩

/-- The stores with the file. -/
def exampleStores : FileStores ℕ ℕ := (exampleUpload.perform id Stores.empty).1

private theorem fresh_exampleUpload : exampleUpload.Fresh Stores.empty := ⟨rfl, nofun⟩

private theorem consistent_exampleStores : Consistent exampleStores :=
  consistent_empty.perform fresh_exampleUpload trivial

theorem references_resolve_example : ((exampleDelete true).perform id exampleStores).1.Resolves RepoRef.link :=
  references_resolve id consistent_empty
    ((ReflTransGen.single (.call exampleUpload fresh_exampleUpload trivial)).tail
      (.call (exampleDelete true) trivial fun _ _ _ => rfl))

/-- If the reference cannot be dropped, it is left without its file. -/
theorem not_references_resolve : ¬ ∀ stores : FileStores ℕ ℕ,
    ReflTransGen (Step id fun _ _ => True) Stores.empty stores → stores.Resolves RepoRef.link := by
  intro h
  have href : exampleStores.refs ⟨"teamspace", "model.stash", .string "a"⟩ = some (makeRefNode "f" 1 []) := rfl
  have hresolves : (deleteFileAndRef "teamspace" "model.stash" "a" ⟨true, true, false⟩ exampleStores).1.Resolves
      RepoRef.link :=
    h _ ((ReflTransGen.single (.call exampleUpload fresh_exampleUpload trivial)).tail
      (.call (exampleDelete false) trivial trivial))
  exact absurd hresolves (not_resolves_of_dropFileRef_fails consistent_exampleStores rfl rfl href rfl rfl)

end Example

end Bouncer.FileManager
