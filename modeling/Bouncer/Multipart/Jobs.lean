import Bouncer.Core.MeshNode

/-!
# Processing jobs

`processScene` runs one job for each kind of untextured mesh, and four for each texture of the revision.  The filters of
the jobs are written apart from the documents they are for, in other classes; `countP_jobs` says that they fit together:
every mesh is selected by one job, and by no other.
-/

namespace Bouncer.MultipartOptimizer

open Library (Value Condition satisfies lookup)

variable {U R : Type}

structure ProcessingJob (U R : Type) where
  description : String
  filter : List (Condition (RepoVariant U R))
  texId : U

section Jobs

variable [Inhabited U]

def createUntexturedJob (revId : U) (primitive : ℤ) (isOpaque hasNormals : Bool) : ProcessingJob U R :=
  { description := "Untextured Job - Primitive: " ++ toString primitive ++ "; " ++
      (if isOpaque then "Opaque" else "Transparent") ++ "; " ++ (if hasNormals then "Has Normals" else "No Normals")
    filter :=
      [.eq "type" [.string "mesh"],
        .eq "rev_id" [.uuid revId],
        .eq "primitive" [.int primitive],
        if isOpaque then .eq "materialProperties.isOpaque" [.bool true]
        else .eq "materialProperties.isTransparent" [.bool true],
        .exists "_blobRef.elements.normals" hasNormals]
    texId := default }

def createTexturedJob [ToString U] (revId : U) (primitive : ℤ) (hasNormals : Bool) (texId : U) : ProcessingJob U R :=
  { description := "Textured Job - Texture: " ++ toString texId ++ "; Primitive: " ++ toString primitive ++ "; " ++
      (if hasNormals then "Has Normals" else "No Normals")
    filter :=
      [.eq "type" [.string "mesh"],
        .eq "rev_id" [.uuid revId],
        .eq "materialProperties.textureId" [.uuid texId],
        .eq "primitive" [.int primitive],
        .exists "_blobRef.elements.normals" hasNormals]
    texId := texId }

/-- The jobs that `processScene` starts with. -/
def untexturedJobs (revId : U) : List (ProcessingJob U R) :=
  [createUntexturedJob revId 2 false false, createUntexturedJob revId 2 false true,
    createUntexturedJob revId 2 true false, createUntexturedJob revId 2 true true,
    createUntexturedJob revId 3 false false, createUntexturedJob revId 3 false true,
    createUntexturedJob revId 3 true false, createUntexturedJob revId 3 true true]

/-- The jobs of one texture. -/
def texturedJobs [ToString U] (revId texId : U) : List (ProcessingJob U R) :=
  [createTexturedJob revId 2 false texId, createTexturedJob revId 2 true texId,
    createTexturedJob revId 3 false texId, createTexturedJob revId 3 true texId]

/-- The jobs of `processScene`. -/
def jobs [ToString U] (revId : U) (texIds : List U) : List (ProcessingJob U R) :=
  untexturedJobs revId ++ texIds.flatMap (texturedJobs revId)

end Jobs

/-- `getUUIDField`, which throws if there is no such field. -/
def getUUIDField (bson : Value (RepoVariant U R)) (label : String) : Option U :=
  match bson.get? [label] with
  | some (.scalar (.uuid u)) => some u
  | _ => none

section Select

variable [DecidableEq U] [DecidableEq R]

def getAllTextureIds (documents : List (Value (RepoVariant U R))) (revId : U) : Option (List U) :=
  (documents.filter (satisfies [.eq "rev_id" [.uuid revId], .eq "type" [.string "texture"]])).mapM fun bson =>
    getUUIDField bson "_id"

/-- The filter of the job selects the document. -/
def ProcessingJob.selects (job : ProcessingJob U R) (document : Value (RepoVariant U R)) : Bool :=
  satisfies job.filter document

variable [Inhabited U] [One R] {node : MeshNode U R} {revId : U} (fileRef : Value (RepoVariant U R))

/-! ### What the filters ask for -/

private theorem holds_type : (Condition.eq "type" [.string "mesh"]).holds (node.document fileRef) = true := by
  have hget : (node.document fileRef).get? ["type"] = some (.scalar (.string "mesh")) := by
    unfold MeshNode.document
    rw [RepoBSONBuilder.get?_stored _ _ (by decide), node.fields_serialise.type]
    rfl
  rw [Library.holds_eq_of_scalar (by decide) hget, decide_eq_true rfl]

private theorem holds_revId (hrevId : node.revId = revId) (hrev : revId ≠ default) :
    (Condition.eq "rev_id" [.uuid revId]).holds (node.document fileRef) = true := by
  have hget : (node.document fileRef).get? ["rev_id"] = some (.scalar (.uuid revId)) := by
    unfold MeshNode.document
    rw [RepoBSONBuilder.get?_stored _ _ (by decide), node.fields_serialise.revId, hrevId, if_neg hrev]
    rfl
  rw [Library.holds_eq_of_scalar (by decide) hget, decide_eq_true rfl]

private theorem holds_primitive (hne : node.faces ≠ []) (primitive : ℤ) :
    (Condition.eq "primitive" [.int primitive]).holds (node.document fileRef) =
      decide ((MeshNode.inferPrimitive node.faces).toInt = primitive) := by
  have hget : (node.document fileRef).get? ["primitive"] =
      some (.scalar (.int (MeshNode.inferPrimitive node.faces).toInt)) := by
    unfold MeshNode.document
    rw [RepoBSONBuilder.get?_stored _ _ (by decide), node.fields_serialise.primitive, if_neg hne]
    rfl
  rw [Library.holds_eq_of_scalar (by decide) hget]
  exact decide_eq_decide.2 ⟨RepoVariant.int.inj, congrArg _⟩

private theorem holds_normals (hasNormals : Bool) :
    (Condition.exists "_blobRef.elements.normals" hasNormals).holds (node.document fileRef) =
      (decide (node.normals ≠ []) == hasNormals) := by
  rw [Library.holds_exists (by decide : Library.dotted "_blobRef.elements.normals" = ["_blobRef", "elements", "normals"])]
  exact congrArg (· == hasNormals) (Bool.eq_iff_iff.2 ((node.document_normals fileRef).trans decide_eq_true_iff.symm))

private theorem get?_materialProperties (node : MeshNode U R) (name : String) :
    (node.document fileRef).get? ["materialProperties", name] =
      (MeshNode.matPropsBson node.matProps node.textureId : Value (RepoVariant U R)).get? [name] := by
  unfold MeshNode.document
  rw [RepoBSONBuilder.get?_stored _ _ (by decide), node.fields_serialise.materialProperties, Option.bind_some]

private theorem holds_opaque : (Condition.eq "materialProperties.isOpaque" [.bool true]).holds (node.document fileRef) =
    decide (node.matProps = .opaqueMat) := by
  have hget := get?_materialProperties fileRef node "isOpaque"
  have hpath : Library.dotted "materialProperties.isOpaque" = ["materialProperties", "isOpaque"] := by decide
  cases hprops : node.matProps <;> rw [hprops] at hget
  case opaqueMat => exact Library.holds_eq_of_scalar hpath hget
  all_goals exact Library.holds_eq_of_none hpath hget

private theorem holds_transparent :
    (Condition.eq "materialProperties.isTransparent" [.bool true]).holds (node.document fileRef) =
      decide (node.matProps = .transparentMat) := by
  have hget := get?_materialProperties fileRef node "isTransparent"
  have hpath : Library.dotted "materialProperties.isTransparent" = ["materialProperties", "isTransparent"] := by decide
  cases hprops : node.matProps <;> rw [hprops] at hget
  case transparentMat => exact Library.holds_eq_of_scalar hpath hget
  all_goals exact Library.holds_eq_of_none hpath hget

private theorem holds_textureId (texId : U) :
    (Condition.eq "materialProperties.textureId" [.uuid texId]).holds (node.document fileRef) =
      decide (node.matProps = .texturedMat ∧ node.textureId = texId) := by
  have hget := get?_materialProperties fileRef node "textureId"
  have hpath : Library.dotted "materialProperties.textureId" = ["materialProperties", "textureId"] := by decide
  cases hprops : node.matProps <;> rw [hprops] at hget
  case texturedMat =>
    refine (Library.holds_eq_of_scalar hpath hget).trans ?_
    simp
  all_goals exact Library.holds_eq_of_none hpath hget

private theorem selects_createUntexturedJob (hrevId : node.revId = revId) (hrev : revId ≠ default) (hne : node.faces ≠ [])
    (primitive : ℤ) (isOpaque hasNormals : Bool) :
    (createUntexturedJob revId primitive isOpaque hasNormals).selects (node.document fileRef) =
      (decide ((MeshNode.inferPrimitive node.faces).toInt = primitive) &&
        (decide (node.matProps = if isOpaque then .opaqueMat else .transparentMat) &&
          (decide (node.normals ≠ []) == hasNormals))) := by
  unfold ProcessingJob.selects createUntexturedJob satisfies
  simp only [List.all_cons, List.all_nil, holds_type, holds_revId fileRef hrevId hrev, holds_primitive fileRef hne,
    holds_normals, Bool.true_and, Bool.and_true]
  cases isOpaque with
  | false => rw [if_neg Bool.false_ne_true, if_neg Bool.false_ne_true, holds_transparent]
  | true => rw [if_pos rfl, if_pos rfl, holds_opaque]

private theorem selects_createTexturedJob [ToString U] (hrevId : node.revId = revId) (hrev : revId ≠ default)
    (hne : node.faces ≠ []) (primitive : ℤ) (hasNormals : Bool) (texId : U) :
    (createTexturedJob revId primitive hasNormals texId).selects (node.document fileRef) =
      (decide (node.matProps = .texturedMat ∧ node.textureId = texId) &&
        (decide ((MeshNode.inferPrimitive node.faces).toInt = primitive) &&
          (decide (node.normals ≠ []) == hasNormals))) := by
  unfold ProcessingJob.selects createTexturedJob satisfies
  simp only [List.all_cons, List.all_nil, holds_type, holds_revId fileRef hrevId hrev, holds_primitive fileRef hne,
    holds_normals, holds_textureId, Bool.true_and, Bool.and_true]

/-! ### Every mesh in one job -/

variable (hrevId : node.revId = revId) (hrev : revId ≠ default) (hne : node.faces ≠ [])
  (hfaces : ∀ face ∈ node.faces, face.sides = 2 ∨ face.sides = 3)

include hrevId hrev hne hfaces

private theorem countP_untexturedJobs :
    (untexturedJobs revId).countP (fun job => job.selects (node.document fileRef)) =
      if node.matProps = .opaqueMat ∨ node.matProps = .transparentMat then 1 else 0 := by
  unfold untexturedJobs
  simp only [List.countP_cons, List.countP_nil, selects_createUntexturedJob fileRef hrevId hrev hne]
  rcases MeshNode.inferPrimitive_eq hne hfaces with h | h <;> rw [h] <;> cases node.matProps <;>
    by_cases hnormals : node.normals = [] <;> simp [hnormals, Primitive.toInt]

private theorem countP_texturedJobs [ToString U] (texId : U) :
    (texturedJobs revId texId).countP (fun job => job.selects (node.document fileRef)) =
      if node.matProps = .texturedMat ∧ node.textureId = texId then 1 else 0 := by
  unfold texturedJobs
  simp only [List.countP_cons, List.countP_nil, selects_createTexturedJob fileRef hrevId hrev hne]
  rcases MeshNode.inferPrimitive_eq hne hfaces with h | h <;> rw [h] <;>
    by_cases hnormals : node.normals = [] <;> simp [hnormals, Primitive.toInt]

end Select

section Textures

variable {documents : List (Value (RepoVariant U R))} {revId : U} {texIds : List U}

private theorem map_get?_of_mapM {bsons : List (Value (RepoVariant U R))}
    (h : (bsons.mapM fun bson => getUUIDField bson "_id") = some texIds) :
    (bsons.map fun bson => bson.get? ["_id"]) = texIds.map fun id => some (.scalar (.uuid id)) := by
  induction bsons generalizing texIds with
  | nil =>
    obtain rfl : [] = texIds := Option.some.inj h
    rfl
  | cons bson bsons ih =>
    rw [List.mapM_cons] at h
    obtain ⟨id, hid, h⟩ := Option.bind_eq_some_iff.1 h
    obtain ⟨ids, hids, h⟩ := Option.bind_eq_some_iff.1 h
    obtain rfl : id :: ids = texIds := Option.some.inj h
    have hget : bson.get? ["_id"] = some (.scalar (.uuid id)) := by
      unfold getUUIDField at hid
      split at hid
      · next hget =>
        obtain rfl := Option.some.inj hid
        exact hget
      · exact nomatch hid
    rw [List.map_cons, List.map_cons, hget, ih hids]

variable [DecidableEq U] [DecidableEq R]

private theorem nodup_textureIds (h : getAllTextureIds documents revId = some texIds)
    (hunique : (documents.map fun document => document.get? ["_id"]).Nodup) : texIds.Nodup := by
  refine List.Nodup.of_map (fun id => some (Value.scalar (RepoVariant.uuid (R := R) id))) ?_
  rw [← map_get?_of_mapM h]
  exact hunique.sublist (List.filter_sublist.map _)

/-- The document of a texture. -/
structure IsTexture (document : Value (RepoVariant U R)) (revId texId : U) : Prop where
  type : document.get? ["type"] = some (.scalar (.string "texture"))
  revId : document.get? ["rev_id"] = some (.scalar (.uuid revId))
  id : document.get? ["_id"] = some (.scalar (.uuid texId))

theorem IsTexture.satisfies {document : Value (RepoVariant U R)} {texId : U} (h : IsTexture document revId texId) :
    satisfies [.eq "rev_id" [.uuid revId], .eq "type" [.string "texture"]] document = true := by
  have hrev := Library.holds_eq_of_scalar (t := RepoVariant.uuid (R := R) revId)
    (by decide : Library.dotted "rev_id" = ["rev_id"]) h.revId
  have htype := Library.holds_eq_of_scalar (t := RepoVariant.string (U := U) (R := R) "texture")
    (by decide : Library.dotted "type" = ["type"]) h.type
  unfold Library.satisfies
  simp only [List.all_cons, List.all_nil, hrev, htype, decide_true, Bool.and_true]

private theorem mem_textureIds (h : getAllTextureIds documents revId = some texIds) {document : Value (RepoVariant U R)}
    (hdocument : document ∈ documents) {texId : U} (htexture : IsTexture document revId texId) : texId ∈ texIds := by
  have hmem := List.mem_filter.2 ⟨hdocument, htexture.satisfies⟩
  have hmap := List.mem_map_of_mem (f := fun bson : Value (RepoVariant U R) => bson.get? ["_id"]) hmem
  rw [map_get?_of_mapM h, htexture.id] at hmap
  obtain ⟨id, hid, heq⟩ := List.mem_map.1 hmap
  cases heq
  exact hid

end Textures

private theorem sum_indicator [DecidableEq U] (p : Prop) [Decidable p] (x : U) (l : List U) :
    (l.map fun y => if p ∧ x = y then 1 else 0).sum = if p then l.count x else 0 := by
  induction l with
  | nil => simp
  | cons y l ih =>
    rw [List.map_cons, List.sum_cons, ih]
    by_cases hp : p <;> by_cases hxy : x = y <;> simp [hp, hxy, Nat.add_comm, eq_comm]

private theorem matProps_cases [DecidableEq U] [Inhabited U] [DecidableEq R] [One R] (node : MeshNode U R) :
    (node.matProps = .opaqueMat ∨ node.matProps = .transparentMat) ∨
      node.matProps = .texturedMat ∧ node.textureId ≠ default := by
  unfold MeshNode.matProps MeshNode.determineMaterialProperties
  split
  · next htextured => exact .inr ⟨rfl, htextured.1⟩
  · split
    · exact .inl (.inl rfl)
    · exact .inl (.inr rfl)

/-- Every mesh of lines and triangles is selected by exactly one of the jobs of its revision. -/
theorem countP_jobs [DecidableEq U] [Inhabited U] [ToString U] [DecidableEq R] [One R]
    (documents : List (Value (RepoVariant U R))) (revId : U) (texIds : List U) (node : MeshNode U R)
    (fileRef : Value (RepoVariant U R)) (hrev : revId ≠ default)
    (hunique : (documents.map fun document => document.get? ["_id"]).Nodup)
    (htexIds : getAllTextureIds documents revId = some texIds) (hrevId : node.revId = revId) (hne : node.faces ≠ [])
    (hfaces : ∀ face ∈ node.faces, face.sides = 2 ∨ face.sides = 3)
    (htexture : node.textureId = default ∨ ∃ document ∈ documents, IsTexture document revId node.textureId) :
    (jobs revId texIds).countP (fun job => job.selects (node.document fileRef)) = 1 := by
  unfold jobs
  have htextured : ∀ texId, (List.countP (fun job : ProcessingJob U R => job.selects (node.document fileRef)) ∘
      texturedJobs revId) texId = if node.matProps = .texturedMat ∧ node.textureId = texId then 1 else 0 := fun texId =>
    countP_texturedJobs fileRef hrevId hrev hne hfaces texId
  rw [List.countP_append, List.countP_flatMap, countP_untexturedJobs fileRef hrevId hrev hne hfaces,
    funext htextured, sum_indicator]
  rcases matProps_cases node with hprops | ⟨hprops, hne⟩
  · have hnot : ¬ node.matProps = .texturedMat := by
      intro h
      rw [h] at hprops
      exact hprops.elim (by decide) (by decide)
    rw [if_pos hprops, if_neg hnot]
  · obtain ⟨document, hdocument, htexture⟩ := htexture.resolve_left hne
    have hcount := List.count_eq_one_of_mem (nodup_textureIds htexIds hunique)
      (mem_textureIds htexIds hdocument htexture)
    rw [hprops, if_neg (by decide), if_pos rfl, hcount]

/-- A textured line without normals, in a revision with one texture. -/
theorem countP_jobs_line :
    let node : MeshNode ℕ ℕ :=
      { uniqueId := 5, sharedId := 6, name := "", parentIds := [1], revId := 3, boundingBox := ⟨⟨0, 0, 0⟩, ⟨1, 1, 1⟩⟩,
        vertices := [⟨0, 0, 0⟩, ⟨1, 1, 1⟩], faces := [⟨[0, 1], by decide⟩], normals := [],
        channels := [[⟨0, 0⟩, ⟨1, 1⟩]], opacity := 1, textureId := 8, grouping := "" }
    (jobs 3 [8]).countP (fun job => job.selects (node.document (.object []))) = 1 := by
  intro node
  let texture : Value (RepoVariant ℕ ℕ) :=
    .object [("type", .scalar (.string "texture")), ("_id", .scalar (.uuid 8)), ("rev_id", .scalar (.uuid 3))]
  have htexture : IsTexture texture 3 8 := ⟨rfl, rfl, rfl⟩
  have htexIds : getAllTextureIds [texture] 3 = some [8] := by
    unfold getAllTextureIds
    rw [List.filter_cons_of_pos htexture.satisfies]
    rfl
  exact countP_jobs [texture] 3 [8] node (.object []) (by decide) (List.nodup_singleton _) htexIds rfl
    (List.cons_ne_nil _ _) (by decide) (.inr ⟨texture, List.mem_cons_self, htexture⟩)

end Bouncer.MultipartOptimizer
