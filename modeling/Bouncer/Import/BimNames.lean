import Bouncer.Import.BimImport

/-!
# The UUIDs of a `.bim` import

The builder follows its sketch (`Follows.step`): its UUIDs have the names of the sketch, one name each (`Sound`), and its
nodes are those of the sketch with UUIDs for names (`Pictures`).
-/

namespace Bouncer.BimImport

open Function (update update_apply update_of_ne update_self)

variable {M : Type}

/-! ### The builder follows its sketch -/

/-- The UUID with a name. -/
def Builder.uuid (s : Builder M) : Name → Option ℕ
  | .transformation i => s.transformations[i]?.map Transformation.sharedId
  | .mesh i => s.meshes[i]?.map Mesh.sharedId
  | .material id => (s.materialIds id).map Ids.uniqueId
  | .materialShared id => (s.materialIds id).map Ids.sharedId
  | .texture id => (s.textureIds id).map Ids.uniqueId

/-- These UUIDs have these names. -/
def Named (uuid : Name → Option ℕ) (ids : List ℕ) (names : List Name) : Prop :=
  List.Forall₂ (fun u n => uuid n = some u) ids names

variable {ids : List ℕ} {names : List Name}

theorem Named.mono {uuid uuid' : Name → Option ℕ} (h : Named uuid ids names)
    (hle : ∀ n u, uuid n = some u → uuid' n = some u) : Named uuid' ids names :=
  h.imp fun u n => hle n u

/-- What a mesh is, but for its own UUID. -/
def MeshNamed (uuid : Name → Option ℕ) (mesh : Mesh M) (sketch : SketchMesh M) : Prop :=
  Named uuid mesh.parents sketch.parents ∧ mesh.material = sketch.material ∧
    Named uuid mesh.textureId.toList (sketch.texture.map Name.texture).toList

/-- The data of a builder are those of a sketch, if UUIDs have these names. -/
structure Pictures (uuid : Name → Option ℕ) (s : Builder M) (c : Sketch M) : Prop where
  transform : ∀ id, Named uuid (s.transformSharedIds id).toList (c.transformOf id).toList
  numMaterials : s.numMaterials = c.numMaterials
  transformations : List.Forall₂ (fun t p => t.name = p.1 ∧ Named uuid t.parents p.2) s.transformations c.transformations
  meshes : List.Forall₂ (MeshNamed uuid) s.meshes c.meshes
  metadata : List.Forall₂ (Named uuid) s.metadata c.metadata
  materials : List.Forall₂ (fun p q => uuid (.material q.1) = some p.1.uniqueId ∧
    uuid (.materialShared q.1) = some p.1.sharedId ∧ p.2 = q.2) s.materials c.materials
  textures : s.textures = c.textures
  references : List.Forall₂ (fun p q => uuid q.1 = some p.1 ∧ uuid q.2 = some p.2) s.references c.references
  missingTextures : s.missingTextures = c.missingTextures

theorem Pictures.mono {uuid uuid' : Name → Option ℕ} {s : Builder M} {c : Sketch M} (h : Pictures uuid s c)
    (hle : ∀ n u, uuid n = some u → uuid' n = some u) : Pictures uuid' s c where
  transform := fun id => (h.transform id).mono hle
  numMaterials := h.numMaterials
  transformations := h.transformations.imp fun _ _ ht => ⟨ht.1, ht.2.mono hle⟩
  meshes := h.meshes.imp fun _ _ hm => ⟨hm.1.mono hle, hm.2.1, hm.2.2.mono hle⟩
  metadata := h.metadata.imp fun _ _ hn => hn.mono hle
  materials := h.materials.imp fun _ _ hm => ⟨hle _ _ hm.1, hle _ _ hm.2.1, hm.2.2⟩
  textures := h.textures
  references := h.references.imp fun _ _ hr => ⟨hle _ _ hr.1, hle _ _ hr.2⟩
  missingTextures := h.missingTextures

/-- Every UUID has one name, and has been created. -/
structure Sound (uuid : Name → Option ℕ) (created : ℕ) : Prop where
  injective : ∀ n n' u, uuid n = some u → uuid n' = some u → n = n'
  fresh : ∀ n u, uuid n = some u → u < created

variable {uuid : Name → Option ℕ}

/-- A name gets a UUID that is new. -/
theorem Sound.add {created created' w : ℕ} {name : Name} (h : Sound uuid created)
    (hle : created ≤ w) (hlt : w < created') : Sound (update uuid name (some w)) created' where
  injective := by
    intro n n' u hu hu'
    by_cases hn : n = name
    · by_cases hn' : n' = name
      · rw [hn, hn']
      · rw [hn, update_self] at hu
        rw [update_of_ne hn'] at hu'
        cases hu
        exact absurd (h.fresh n' w hu') (not_lt.2 hle)
    · rw [update_of_ne hn] at hu
      by_cases hn' : n' = name
      · rw [hn', update_self] at hu'
        cases hu'
        exact absurd (h.fresh n w hu) (not_lt.2 hle)
      · rw [update_of_ne hn'] at hu'
        exact h.injective n n' u hu hu'
  fresh := by
    intro n u hu
    by_cases hn : n = name
    · rw [hn, update_self] at hu
      cases hu
      exact hlt
    · rw [update_of_ne hn] at hu
      have hold := h.fresh n u hu
      omega

private theorem le_update {w : ℕ} {name : Name} (hnone : uuid name = none) :
    ∀ n u, uuid n = some u → update uuid name (some w) n = some u := by
  intro n u hu
  have hne : n ≠ name := by
    rintro rfl
    rw [hnone] at hu
    exact nomatch hu
  rwa [update_of_ne hne]

/-- The UUIDs have names, and the meshes that wait for a material are those of the sketch. -/
structure Follows (s : Builder M) (c : Sketch M) : Prop where
  pictures : Pictures s.uuid s c
  sound : Sound s.uuid s.created
  waiting : ∀ id ids, s.materialIds id = some ids → ∀ j, j ∈ s.matToMeshNodes ids.uniqueId ↔
    ∃ mesh, c.meshes[j]? = some mesh ∧ mesh.isPending ∧ mesh.index = id
  known : ∀ mesh ∈ c.meshes, mesh.isPending → (s.materialIds mesh.index).isSome
  empty : ∀ u, s.created ≤ u → s.matToMeshNodes u = []

private theorem named_cons {u : ℕ} {n : Name} (h : uuid n = some u) : Named uuid [u] [n] :=
  .cons h .nil

theorem follows_start : Follows (Builder.start : Builder M) Sketch.start where
  pictures :=
    { transform := fun _ => .nil
      numMaterials := rfl
      transformations := .nil
      meshes := .nil
      metadata := .nil
      materials := .nil
      textures := rfl
      references := .nil
      missingTextures := rfl }
  sound := by
    constructor
    · intro n n' u h
      cases n <;> exact nomatch h
    · intro n u h
      cases n <;> exact nomatch h
  waiting := nofun
  known := nofun
  empty := fun _ _ => rfl

section Lookup

variable {s : Builder M} {c : Sketch M} {id : ℤ}

/-- Looking for the UUIDs of a material finds or makes them. -/
theorem Follows.materialIdsAt (h : Follows s c) (id : ℤ) :
    Follows (s.materialIdsAt id).2 c ∧ (s.materialIdsAt id).2.materialIds id = some (s.materialIdsAt id).1 ∧
      ∀ n u, s.uuid n = some u → (s.materialIdsAt id).2.uuid n = some u := by
  cases hids : s.materialIds id with
  | some ids =>
    have heq : s.materialIdsAt id = (ids, s) := by
      rw [Builder.materialIdsAt, hids]
    rw [heq]
    exact ⟨h, hids, fun _ _ hu => hu⟩
  | none =>
    have heq : s.materialIdsAt id = (⟨s.created, s.created + 1⟩, { s with
        created := s.created + 2, materialIds := update s.materialIds id (some ⟨s.created, s.created + 1⟩) }) := by
      rw [Builder.materialIdsAt, hids]
    rw [heq]
    dsimp only
    have huuid : ({ s with
        created := s.created + 2
        materialIds := update s.materialIds id (some ⟨s.created, s.created + 1⟩) } : Builder M).uuid =
        update (update s.uuid (.material id) (some s.created)) (.materialShared id)
          (some (s.created + 1)) := by
      funext n
      cases n with
      | material id' =>
        simp only [Builder.uuid, update_apply, reduceCtorEq, if_false, Name.material.injEq]
        split_ifs <;> rfl
      | materialShared id' =>
        simp only [Builder.uuid, update_apply, reduceCtorEq, if_false, Name.materialShared.injEq]
        split_ifs <;> rfl
      | _ => simp only [Builder.uuid, update_apply, reduceCtorEq, if_false]
    have hnone : s.uuid (.material id) = none := congrArg (Option.map _) hids
    have hnone' : update s.uuid (.material id) (some s.created) (.materialShared id) = none := by
      simp only [Builder.uuid, update_apply, reduceCtorEq, if_false, hids, Option.map_none]
    have hle := fun n u hu => le_update (w := s.created + 1) hnone' n u (le_update (w := s.created) hnone n u hu)
    refine ⟨?_, update_self .., fun n u hu => huuid ▸ hle n u hu⟩
    constructor
    · rw [huuid]
      exact { h.pictures.mono hle with }
    · rw [huuid]
      exact (h.sound.add le_rfl (Nat.lt_succ_self _)).add le_rfl (Nat.lt_succ_self _)
    · intro id' ids' hids' j
      dsimp only at hids' ⊢
      by_cases hid : id' = id
      · -- no mesh waits for a material that has not been mentioned
        subst hid
        rw [update_self] at hids'
        cases hids'
        rw [h.empty s.created le_rfl]
        constructor
        · exact fun hj => absurd hj List.not_mem_nil
        · rintro ⟨mesh, hmesh, hpending, rfl⟩
          have hsome := h.known mesh (List.mem_of_getElem? hmesh) hpending
          rw [hids] at hsome
          exact absurd hsome Bool.false_ne_true
      · rw [update_of_ne hid] at hids'
        exact h.waiting id' ids' hids' j
    · intro mesh hmesh hpending
      dsimp only
      by_cases hid : mesh.index = id
      · rw [hid, update_self]
        rfl
      · rw [update_of_ne hid]
        exact h.known mesh hmesh hpending
    · intro u hu
      exact h.empty u (le_trans (Nat.le_add_right _ 2) hu)

/-- Looking for the UUIDs of a texture finds or makes them. -/
theorem Follows.textureIdsAt (h : Follows s c) (id : ℤ) :
    Follows (s.textureIdsAt id).2 c ∧ (s.textureIdsAt id).2.textureIds id = some (s.textureIdsAt id).1 ∧
      ∀ n u, s.uuid n = some u → (s.textureIdsAt id).2.uuid n = some u := by
  cases hids : s.textureIds id with
  | some ids =>
    have heq : s.textureIdsAt id = (ids, s) := by
      rw [Builder.textureIdsAt, hids]
    rw [heq]
    exact ⟨h, hids, fun _ _ hu => hu⟩
  | none =>
    have heq : s.textureIdsAt id = (⟨s.created, s.created + 1⟩, { s with
        created := s.created + 2, textureIds := update s.textureIds id (some ⟨s.created, s.created + 1⟩) }) := by
      rw [Builder.textureIdsAt, hids]
    rw [heq]
    dsimp only
    have huuid : ({ s with
        created := s.created + 2
        textureIds := update s.textureIds id (some ⟨s.created, s.created + 1⟩) } : Builder M).uuid =
        update s.uuid (.texture id) (some s.created) := by
      funext n
      cases n with
      | texture id' =>
        simp only [Builder.uuid, update_apply, Name.texture.injEq]
        split_ifs <;> rfl
      | _ => simp only [Builder.uuid, update_apply, reduceCtorEq, if_false]
    have hnone : s.uuid (.texture id) = none := congrArg (Option.map _) hids
    have hle := le_update (w := s.created) hnone
    refine ⟨?_, update_self .., fun n u hu => huuid ▸ hle n u hu⟩
    constructor
    · rw [huuid]
      exact { h.pictures.mono hle with }
    · rw [huuid]
      exact h.sound.add le_rfl (Nat.lt_add_of_pos_right (Nat.succ_pos 1))
    · exact h.waiting
    · exact h.known
    · intro u hu
      exact h.empty u (le_trans (Nat.le_add_right _ 2) hu)

end Lookup

/-! ### One record -/

section Step

variable {s : Builder M} {c : Sketch M}

theorem Follows.length_transformations (h : Follows s c) : s.transformations.length = c.transformations.length :=
  h.pictures.transformations.length_eq

theorem Follows.length_meshes (h : Follows s c) : s.meshes.length = c.meshes.length := h.pictures.meshes.length_eq

private theorem uuid_concat_transformation (t : Transformation) :
    ({ s with transformations := s.transformations ++ [t] } : Builder M).uuid =
      update s.uuid (.transformation s.transformations.length) (some t.sharedId) := by
  funext n
  cases n with
  | transformation i =>
    simp only [Builder.uuid, update_apply, Name.transformation.injEq]
    by_cases hi : i = s.transformations.length
    · rw [if_pos hi, hi, List.getElem?_concat_length]
      rfl
    · rw [if_neg hi, List.getElem?_append]
      split_ifs with hlt
      · rfl
      · have hle : s.transformations.length < i := lt_of_le_of_ne (not_lt.1 hlt) (Ne.symm hi)
        rw [List.getElem?_eq_none (by rw [List.length_singleton]; omega), List.getElem?_eq_none (le_of_lt hle)]
  | _ => simp only [Builder.uuid, update_apply, reduceCtorEq, if_false]

private theorem uuid_concat_mesh (mesh : Mesh M) : ({ s with meshes := s.meshes ++ [mesh] } : Builder M).uuid =
    update s.uuid (.mesh s.meshes.length) (some mesh.sharedId) := by
  funext n
  cases n with
  | mesh i =>
    simp only [Builder.uuid, update_apply, Name.mesh.injEq]
    by_cases hi : i = s.meshes.length
    · rw [if_pos hi, hi, List.getElem?_concat_length]
      rfl
    · rw [if_neg hi, List.getElem?_append]
      split_ifs with hlt
      · rfl
      · have hle : s.meshes.length < i := lt_of_le_of_ne (not_lt.1 hlt) (Ne.symm hi)
        rw [List.getElem?_eq_none (by rw [List.length_singleton]; omega), List.getElem?_eq_none (le_of_lt hle)]
  | _ => simp only [Builder.uuid, update_apply, reduceCtorEq, if_false]

/-- The builder and its sketch both go on, or neither does. -/
theorem Follows.placeNode (h : Follows s c) (r : NodeRecord) :
    (s.placeNode r = none ∧ c.placeNode r = none) ∨ ∃ ids s' names c', s.placeNode r = some (ids, s') ∧
      c.placeNode r = some (names, c') ∧ Follows s' c' ∧ Named s'.uuid ids names := by
  have hparents : Named s.uuid (s.transformSharedIds r.parentId).toList (c.transformOf r.parentId).toList :=
    h.pictures.transform r.parentId
  unfold Builder.placeNode Sketch.placeNode
  by_cases hentity : r.isEntity
  · rw [if_pos hentity, if_pos hentity]
    refine .inr ⟨_, _, _, _, rfl, rfl, ?_, ?_⟩
    · have huuid : ({ s with
          created := s.created + 1
          transformSharedIds := update s.transformSharedIds r.id (some s.created)
          transformations := s.transformations ++
            [⟨s.created, r.name, (s.transformSharedIds r.parentId).toList⟩] } : Builder M).uuid =
          update s.uuid (.transformation c.transformations.length) (some s.created) := by
        rw [← h.length_transformations]
        exact uuid_concat_transformation (s := s) ⟨s.created, r.name, _⟩
      have hnone : s.uuid (.transformation c.transformations.length) = none := by
        show s.transformations[c.transformations.length]?.map _ = none
        rw [List.getElem?_eq_none (le_of_eq h.length_transformations)]
        rfl
      have hle := le_update (w := s.created) hnone
      have hpictures := h.pictures.mono hle
      constructor
      · rw [huuid]
        exact { hpictures with
          transform := by
            intro id
            dsimp only
            by_cases hid : id = r.id
            · rw [hid, update_self, update_self]
              exact named_cons (update_self ..)
            · rw [update_of_ne hid, update_of_ne hid]
              exact hpictures.transform id
          transformations := List.rel_append hpictures.transformations (.cons ⟨rfl, hparents.mono hle⟩ .nil) }
      · rw [huuid]
        exact h.sound.add le_rfl (Nat.lt_succ_self _)
      · exact h.waiting
      · exact h.known
      · exact fun u hu => h.empty u (Nat.le_of_succ_le hu)
    · refine named_cons ?_
      show (s.transformations ++ [_])[c.transformations.length]?.map _ = _
      rw [← h.length_transformations, List.getElem?_concat_length]
      rfl
  · rw [if_neg hentity, if_neg hentity]
    cases hs : (s.transformSharedIds r.parentId).toList with
    | nil =>
      rw [hs] at hparents
      rw [List.forall₂_nil_left_iff.1 hparents]
      exact .inl ⟨rfl, rfl⟩
    | cons parent rest =>
      rw [hs] at hparents
      obtain ⟨name, names, hname, hnames, hc⟩ := List.forall₂_cons_left_iff.1 hparents
      rw [hc]
      refine .inr ⟨_, _, _, _, rfl, rfl, ?_, .cons hname hnames⟩
      constructor
      · exact { h.pictures with
          transform := by
            intro id
            dsimp only
            by_cases hid : id = r.id
            · rw [hid, update_self, update_self]
              exact named_cons hname
            · rw [update_of_ne hid, update_of_ne hid]
              exact h.pictures.transform id }
      · exact h.sound
      · exact h.waiting
      · exact h.known
      · exact h.empty

/-- A mesh that does not wait for anything yet. -/
theorem Follows.concatMesh (h : Follows s c) (initial : M) (index : ℤ)
    (hnames : Named s.uuid ids names) :
    Follows ({ s with
      created := s.created + 1, meshes := s.meshes ++ [⟨s.created, ids, initial, none⟩] } : Builder M)
      { c with meshes := c.meshes ++ [⟨names, index, false, initial, none⟩] } := by
  have huuid : ({ s with
      created := s.created + 1, meshes := s.meshes ++ [⟨s.created, ids, initial, none⟩] } : Builder M).uuid =
      update s.uuid (.mesh s.meshes.length) (some s.created) :=
    uuid_concat_mesh (s := s) ⟨s.created, ids, initial, none⟩
  have hnone : s.uuid (.mesh s.meshes.length) = none := by
    show s.meshes[s.meshes.length]?.map _ = none
    rw [List.getElem?_eq_none le_rfl]
    rfl
  have hle := le_update (w := s.created) hnone
  have hpictures := h.pictures.mono hle
  constructor
  · rw [huuid]
    exact { hpictures with
      meshes := List.rel_append hpictures.meshes (.cons ⟨hnames.mono hle, rfl, .nil⟩ .nil) }
  · rw [huuid]
    exact h.sound.add le_rfl (Nat.lt_succ_self _)
  · intro id ids' hids' j
    rw [h.waiting id ids' hids' j]
    refine exists_congr fun mesh => and_congr_left fun hpending => ?_
    rw [List.getElem?_append]
    split_ifs with hlt
    · rfl
    · rw [List.getElem?_eq_none (not_lt.1 hlt)]
      constructor
      · exact nofun
      · intro hmesh
        obtain ⟨hi, rfl⟩ := List.getElem?_eq_some_iff.1 hmesh
        rw [List.getElem_singleton] at hpending
        exact absurd hpending.1 Bool.false_ne_true
  · intro mesh hmesh hpending
    rcases List.mem_append.1 hmesh with hold | hnew
    · exact h.known mesh hold hpending
    · rw [List.mem_singleton.1 hnew] at hpending
      exact absurd hpending Bool.false_ne_true
  · exact fun u hu => h.empty u (Nat.le_of_succ_le hu)

private theorem forall₂_concat_congr {α β : Type*} {R : α → β → Prop} {x y : β} (hxy : ∀ a, R a x → R a y) {xs : List α}
    {ys : List β} (h : List.Forall₂ R xs (ys ++ [x])) : List.Forall₂ R xs (ys ++ [y]) := by
  induction ys generalizing xs with
  | nil =>
    obtain ⟨a, as, ha, has, rfl⟩ := List.forall₂_cons_right_iff.1 h
    exact .cons (hxy a ha) has
  | cons z zs ih =>
    obtain ⟨a, as, ha, has, rfl⟩ := List.forall₂_cons_right_iff.1 h
    exact .cons ha (ih has)

private theorem waiting_concat {meshes : List (SketchMesh M)} {index : ℤ} {initial : M} {j : ℕ} :
    ((∃ mesh, (meshes ++ [(⟨names, index, false, initial, none⟩ : SketchMesh M)])[j]? = some mesh ∧ mesh.isPending ∧
      mesh.index = index) ∨ j = meshes.length) ↔
    ∃ mesh, (meshes ++ [(⟨names, index, true, initial, none⟩ : SketchMesh M)])[j]? = some mesh ∧ mesh.isPending ∧
      mesh.index = index := by
  rcases lt_trichotomy j meshes.length with hlt | heq | hgt
  · rw [List.getElem?_append_left hlt, List.getElem?_append_left hlt, or_iff_left (ne_of_lt hlt)]
  · rw [heq, List.getElem?_concat_length]
    exact iff_of_true (.inr rfl) ⟨_, List.getElem?_concat_length, rfl, rfl⟩
  · have hle : meshes.length + 1 ≤ j := hgt
    rw [List.getElem?_eq_none (by simpa using hle), List.getElem?_eq_none (by simpa using hle),
      or_iff_left (ne_of_gt hgt)]

private theorem waiting_concat_of_ne {meshes : List (SketchMesh M)} {index id : ℤ} (hne : index ≠ id)
    {initial : M} {j : ℕ} :
    (∃ mesh, (meshes ++ [(⟨names, index, false, initial, none⟩ : SketchMesh M)])[j]? = some mesh ∧ mesh.isPending ∧
      mesh.index = id) ↔
    ∃ mesh, (meshes ++ [(⟨names, index, true, initial, none⟩ : SketchMesh M)])[j]? = some mesh ∧ mesh.isPending ∧
      mesh.index = id := by
  rcases lt_trichotomy j meshes.length with hlt | heq | hgt
  · rw [List.getElem?_append_left hlt, List.getElem?_append_left hlt]
  · rw [heq, List.getElem?_concat_length, List.getElem?_concat_length]
    simp [hne]
  · have hle : meshes.length + 1 ≤ j := hgt
    rw [List.getElem?_eq_none (by simpa using hle), List.getElem?_eq_none (by simpa using hle)]

theorem Follows.addMesh (h : Follows s c) (initial : M) (r : NodeRecord)
    (hnames : Named s.uuid ids names) : Follows (s.addMesh initial r ids).2 (c.addMesh initial r names).2 ∧
      Named (s.addMesh initial r ids).2.uuid (s.addMesh initial r ids).1 (c.addMesh initial r names).1 := by
  have hlength := h.length_meshes
  have hmesh := h.concatMesh initial r.material hnames
  generalize hs₁ : ({ s with
    created := s.created + 1, meshes := s.meshes ++ [⟨s.created, ids, initial, none⟩] } : Builder M) = s₁ at hmesh
  obtain ⟨hfound, hids, hle⟩ := hmesh.materialIdsAt r.material
  have hadd : s.addMesh initial r ids = (if r.isEntity then ids else [s.created],
      { (s₁.materialIdsAt r.material).2 with
        references := (s₁.materialIdsAt r.material).2.references ++
          [((s₁.materialIdsAt r.material).1.uniqueId, s.created)]
        matToMeshNodes := update (s₁.materialIdsAt r.material).2.matToMeshNodes
          (s₁.materialIdsAt r.material).1.uniqueId
          ((s₁.materialIdsAt r.material).2.matToMeshNodes (s₁.materialIdsAt r.material).1.uniqueId ++
            [s.meshes.length]) }) := by
    rw [← hs₁]
    rfl
  have hname : s₁.uuid (.mesh c.meshes.length) = some s.created := by
    rw [← hs₁, ← hlength]
    show (s.meshes ++ [_])[s.meshes.length]?.map _ = _
    rw [List.getElem?_concat_length]
    rfl
  have hnames₁ : Named s₁.uuid ids names := by
    apply hnames.mono
    intro n u hu
    have huuid := uuid_concat_mesh (s := s) ⟨s.created, ids, initial, none⟩
    have hnone : s.uuid (.mesh s.meshes.length) = none := by
      show s.meshes[s.meshes.length]?.map _ = none
      rw [List.getElem?_eq_none le_rfl]
      rfl
    rw [← hs₁]
    exact (congrFun huuid n).trans (le_update hnone n u hu)
  rw [hadd]
  generalize s₁.materialIdsAt r.material = found at hfound hids hle
  obtain ⟨found, s₂⟩ := found
  dsimp only at hfound hids hle ⊢
  have hmaterial : s₂.uuid (.material r.material) = some found.uniqueId := congrArg (Option.map _) hids
  constructor
  · constructor
    · have hlast (mesh : Mesh M) (hmesh : MeshNamed s₂.uuid mesh ⟨names, r.material, false, initial, none⟩) :
          MeshNamed s₂.uuid mesh ⟨names, r.material, true, initial, none⟩ := hmesh
      have hmeshes : List.Forall₂ (MeshNamed s₂.uuid) s₂.meshes
          (c.meshes ++ [⟨names, r.material, true, initial, none⟩]) :=
        forall₂_concat_congr hlast hfound.pictures.meshes
      exact { hfound.pictures with
        meshes := hmeshes
        references := List.rel_append hfound.pictures.references (.cons ⟨hmaterial, hle _ _ hname⟩ .nil) }
    · exact hfound.sound
    · intro id ids' hids' j
      dsimp only at hids' ⊢
      have hold := hfound.waiting id ids' hids' j
      by_cases hid : id = r.material
      · subst hid
        rw [hids] at hids'
        cases hids'
        rw [update_self, List.mem_append, hold, List.mem_singleton, hlength]
        exact waiting_concat
      · have hne : ids'.uniqueId ≠ found.uniqueId := by
          intro heq
          have hname' : s₂.uuid (.material id) = some found.uniqueId := heq ▸ congrArg (Option.map _) hids'
          exact hid (Name.material.inj (hfound.sound.injective _ _ _ hname' hmaterial))
        rw [update_of_ne hne, hold]
        exact waiting_concat_of_ne (Ne.symm hid)
    · intro mesh hmesh hpending
      rcases List.mem_append.1 hmesh with hold | hnew
      · exact hfound.known mesh (List.mem_append_left _ hold) hpending
      · rw [List.mem_singleton.1 hnew]
        exact hids ▸ rfl
    · intro u hu
      have hne : u ≠ found.uniqueId := by
        have hlt := hfound.sound.fresh _ _ hmaterial
        dsimp only at hu
        omega
      exact (update_of_ne hne ..).trans (hfound.empty u hu)
  · show Named s₂.uuid (if r.isEntity then ids else [s.created]) (if r.isEntity then names else [.mesh c.meshes.length])
    split_ifs
    · exact hnames₁.mono hle
    · exact named_cons (hle _ _ hname)

theorem Follows.createNode (h : Follows s c) (initial : M) (r : NodeRecord) :
    Option.Rel Follows (s.createNode initial r) (c.createNode initial r) := by
  unfold Builder.createNode Sketch.createNode
  rcases h.placeNode r with ⟨hs, hc⟩ | ⟨ids, s₁, names, c₁, hs, hc, h₁, hnames⟩
  · rw [hs, hc]
    exact .none
  · rw [hs, hc]
    refine .some ?_
    dsimp only
    -- whatever the node has, the parents for its metadata have names
    have hmeshed : Follows (if r.hasGeometry then s₁.addMesh initial r ids else (ids, s₁)).2
          (if r.hasGeometry then c₁.addMesh initial r names else (names, c₁)).2 ∧
        Named (if r.hasGeometry then s₁.addMesh initial r ids else (ids, s₁)).2.uuid
          (if r.hasGeometry then s₁.addMesh initial r ids else (ids, s₁)).1
          (if r.hasGeometry then c₁.addMesh initial r names else (names, c₁)).1 := by
      split_ifs
      · exact h₁.addMesh initial r hnames
      · exact ⟨h₁, hnames⟩
    generalize (if r.hasGeometry then s₁.addMesh initial r ids else (ids, s₁)) = meshed at hmeshed
    generalize (if r.hasGeometry then c₁.addMesh initial r names else (names, c₁)) = meshed' at hmeshed
    obtain ⟨h₂, hnames₂⟩ := hmeshed
    split_ifs
    · exact { h₂ with
        pictures := { h₂.pictures with metadata := List.rel_append h₂.pictures.metadata (.cons hnames₂ .nil) } }
    · exact h₂

end Step

/-! ### One material -/

section Material

variable {s : Builder M} {c : Sketch M}

private theorem index_receive (id : ℤ) (material : M) (texture : ℤ) (mesh : SketchMesh M) :
    (SketchMesh.receive id material texture mesh).index = mesh.index := by
  unfold SketchMesh.receive
  split_ifs <;> rfl

theorem receive_of_not {id : ℤ} {mesh : SketchMesh M} (h : ¬ (mesh.isPending ∧ mesh.index = id)) (material : M)
    (texture : ℤ) : SketchMesh.receive id material texture mesh = mesh := if_neg h

private theorem isPending_receive {id : ℤ} {material : M} {texture : ℤ} {mesh : SketchMesh M} :
    (SketchMesh.receive id material texture mesh).isPending ↔ mesh.isPending ∧ mesh.index ≠ id := by
  unfold SketchMesh.receive
  split_ifs with h
  · exact iff_of_false not_false fun hnot => hnot.2 h.2
  · exact ⟨fun hpending => ⟨hpending, fun hindex => h ⟨hpending, hindex⟩⟩, And.left⟩

private theorem forall₂_mapIdx_map {α β α' β' : Type*} {R : α → β → Prop} {S : α' → β' → Prop} {f : ℕ → α → α'} {g : β → β'}
    {xs : List α} {ys : List β} (h : List.Forall₂ R xs ys)
    (hstep : ∀ j x y, ys[j]? = some y → R x y → S (f j x) (g y)) : List.Forall₂ S (xs.mapIdx f) (ys.map g) := by
  rw [List.forall₂_iff_get] at h ⊢
  obtain ⟨hlength, hget⟩ := h
  refine ⟨by rw [List.length_mapIdx, List.length_map, hlength], fun j hj hj' => ?_⟩
  rw [List.length_mapIdx] at hj
  rw [List.length_map] at hj'
  have hy : ys[j]? = some ys[j] := List.getElem?_eq_getElem hj'
  simpa only [List.get_eq_getElem, List.getElem_mapIdx, List.getElem_map] using hstep j _ _ hy (hget j hj hj')

/-- The meshes that wait for a material get it, and its texture. -/
theorem Follows.receive (h : Follows s c) {id : ℤ} {ids : Ids} (hids : s.materialIds id = some ids) (material : M)
    {texture : ℤ} (textureId : Mesh M → Option ℕ) (htexture : if texture ≠ -1 then
      ∃ u, s.uuid (.texture texture) = some u ∧ ∀ mesh, textureId mesh = some u else textureId = Mesh.textureId) :
    Follows ((s.assign (s.matToMeshNodes ids.uniqueId)
        fun mesh => { mesh with material := material, textureId := textureId mesh }).release ids.uniqueId)
      { c with meshes := c.meshes.map (SketchMesh.receive id material texture) } := by
  have huuid : (s.assign (s.matToMeshNodes ids.uniqueId)
      (fun mesh => { mesh with material := material, textureId := textureId mesh })).uuid = s.uuid := by
    funext n
    cases n with
    | mesh i =>
      show (List.mapIdx _ s.meshes)[i]?.map _ = s.meshes[i]?.map _
      rw [List.getElem?_mapIdx, Option.map_map]
      congr 1
      funext mesh
      show (if _ then _ else _ : Mesh M).sharedId = _
      split_ifs <;> rfl
    | _ => rfl
  have hmaterial : s.uuid (.material id) = some ids.uniqueId := congrArg (Option.map _) hids
  constructor
  · have hmeshes : List.Forall₂ (MeshNamed s.uuid) (s.meshes.mapIdx fun j mesh =>
        if j ∈ s.matToMeshNodes ids.uniqueId then { mesh with material := material, textureId := textureId mesh }
        else mesh) (c.meshes.map (SketchMesh.receive id material texture)) := by
      refine forall₂_mapIdx_map h.pictures.meshes fun j mesh sketch hsketch hnamed => ?_
      have hwaiting : j ∈ s.matToMeshNodes ids.uniqueId ↔ sketch.isPending ∧ sketch.index = id := by
        rw [h.waiting id ids hids j, hsketch]
        exact ⟨fun ⟨_, heq, hmesh⟩ => Option.some.inj heq ▸ hmesh, fun hmesh => ⟨sketch, rfl, hmesh⟩⟩
      unfold SketchMesh.receive
      by_cases hj : sketch.isPending ∧ sketch.index = id
      · rw [if_pos (hwaiting.2 hj), if_pos hj]
        refine ⟨hnamed.1, rfl, ?_⟩
        dsimp only
        split_ifs at htexture ⊢ with hne
        · obtain ⟨u, hu, hall⟩ := htexture
          rw [hall]
          exact named_cons hu
        · rw [htexture]
          exact hnamed.2.2
      · rw [if_neg (mt hwaiting.1 hj), if_neg hj]
        exact hnamed
    show Pictures (s.assign _ _).uuid _ _
    rw [huuid]
    exact { h.pictures with meshes := hmeshes }
  · show Sound (s.assign _ _).uuid _
    rw [huuid]
    exact h.sound
  · intro id' ids' hids' j
    show j ∈ update s.matToMeshNodes ids.uniqueId [] ids'.uniqueId ↔
      ∃ mesh, (c.meshes.map (SketchMesh.receive id material texture))[j]? = some mesh ∧ _
    rw [List.getElem?_map]
    by_cases hid : id' = id
    · -- none of them waits any longer
      subst hid
      cases hids.symm.trans hids'
      rw [update_self]
      refine iff_of_false List.not_mem_nil ?_
      rintro ⟨mesh, hmesh, hpending, hindex⟩
      obtain ⟨old, -, rfl⟩ := Option.map_eq_some_iff.1 hmesh
      rw [index_receive] at hindex
      exact (isPending_receive.1 hpending).2 hindex
    · have hne : ids'.uniqueId ≠ ids.uniqueId := by
        intro heq
        have hname : s.uuid (.material id') = some ids.uniqueId := heq ▸ congrArg (Option.map _) hids'
        exact hid (Name.material.inj (h.sound.injective _ _ _ hname hmaterial))
      rw [update_of_ne hne, h.waiting id' ids' hids' j]
      constructor
      · rintro ⟨mesh, hmesh, hpending, hindex⟩
        have hsame : SketchMesh.receive id material texture mesh = mesh :=
          receive_of_not (fun hnot => hid (hindex ▸ hnot.2)) material texture
        exact ⟨mesh, by rw [hmesh, Option.map_some, hsame], hpending, hindex⟩
      · rintro ⟨mesh, hmesh, hpending, hindex⟩
        obtain ⟨old, hold, rfl⟩ := Option.map_eq_some_iff.1 hmesh
        rw [index_receive] at hindex
        exact ⟨old, hold, (isPending_receive.1 hpending).1, hindex⟩
  · intro mesh hmesh hpending
    obtain ⟨old, hold, rfl⟩ := List.mem_map.1 hmesh
    rw [index_receive]
    exact h.known old hold (isPending_receive.1 hpending).1
  · intro u hu
    have hlt : ids.uniqueId < s.created := h.sound.fresh _ _ hmaterial
    have hne : u ≠ ids.uniqueId := ne_of_gt (lt_of_lt_of_le hlt hu)
    exact (update_of_ne hne ..).trans (h.empty u hu)

private theorem textureIdsAt_eq (s : Builder M) (id : ℤ) : (s.textureIdsAt id).2.meshes = s.meshes ∧
    (s.textureIdsAt id).2.materialIds = s.materialIds ∧ (s.textureIdsAt id).2.matToMeshNodes = s.matToMeshNodes := by
  unfold Builder.textureIdsAt
  split <;> exact ⟨rfl, rfl, rfl⟩

private theorem textureIdsAt_assign (s : Builder M) (nodes : List ℕ) (f : Mesh M → Mesh M) (id : ℤ) :
    (s.assign nodes f).textureIdsAt id = ((s.textureIdsAt id).1, (s.textureIdsAt id).2.assign nodes f) := by
  have hids : (s.assign nodes f).textureIds id = s.textureIds id := rfl
  unfold Builder.textureIdsAt
  rw [hids]
  cases s.textureIds id <;> rfl

private theorem assign_assign (s : Builder M) (nodes : List ℕ) (f g : Mesh M → Mesh M) :
    (s.assign nodes f).assign nodes g = s.assign nodes (g ∘ f) := by
  unfold Builder.assign
  dsimp only
  congr 1
  rw [List.mapIdx_mapIdx]
  congr 1
  funext j mesh
  dsimp only [Function.comp]
  split_ifs <;> rfl

theorem Follows.createMaterial (h : Follows s c) (material : M) (texture : ℤ) :
    Follows (s.createMaterial material texture) (c.createMaterial material texture) := by
  have hnumber : Follows { s with numMaterials := s.numMaterials + 1 } { c with numMaterials := c.numMaterials + 1 } :=
    { h with pictures := { h.pictures with numMaterials := congrArg (· + 1) h.pictures.numMaterials } }
  obtain ⟨hfound, hids, -⟩ := hnumber.materialIdsAt (toInt s.numMaterials)
  unfold Builder.createMaterial Sketch.createMaterial
  rw [h.pictures.numMaterials] at hnumber hfound hids ⊢
  dsimp only
  generalize ({ s with numMaterials := c.numMaterials + 1 } : Builder M).materialIdsAt (toInt c.numMaterials) = found
    at hfound hids ⊢
  obtain ⟨ids, s₁⟩ := found
  dsimp only at hfound hids ⊢
  have hmaterial : s₁.uuid (.material (toInt c.numMaterials)) = some ids.uniqueId := congrArg (Option.map _) hids
  have hshared : s₁.uuid (.materialShared (toInt c.numMaterials)) = some ids.sharedId := congrArg (Option.map _) hids
  have hadded : Follows { s₁ with materials := s₁.materials ++ [(ids, material)] }
      { c with numMaterials := c.numMaterials + 1, materials := c.materials ++ [(toInt c.numMaterials, material)] } :=
    { hfound with
      pictures := { hfound.pictures with
        materials := List.rel_append hfound.pictures.materials (.cons ⟨hmaterial, hshared, rfl⟩ .nil) } }
  by_cases htexture : texture ≠ -1
  · rw [if_pos htexture, if_pos htexture]
    obtain ⟨hfound', htextureId, hle⟩ := hadded.textureIdsAt texture
    obtain ⟨-, hids', hnodes⟩ := textureIdsAt_eq { s₁ with materials := s₁.materials ++ [(ids, material)] } texture
    rw [textureIdsAt_assign]
    dsimp only
    generalize ({ s₁ with materials := s₁.materials ++ [(ids, material)] } : Builder M).textureIdsAt texture = found
      at hfound' htextureId hle hids' hnodes ⊢
    obtain ⟨found, s₂⟩ := found
    dsimp only at hfound' htextureId hle hids' hnodes ⊢
    have htexture' : s₂.uuid (.texture texture) = some found.uniqueId := congrArg (Option.map _) htextureId
    have hreference : Follows { s₂ with references := s₂.references ++ [(found.uniqueId, ids.sharedId)] }
        { c with
          numMaterials := c.numMaterials + 1
          materials := c.materials ++ [(toInt c.numMaterials, material)]
          references := c.references ++ [(.texture texture, .materialShared (toInt c.numMaterials))] } :=
      { hfound' with
        pictures := { hfound'.pictures with
          references := List.rel_append hfound'.pictures.references (.cons ⟨htexture', hle _ _ hshared⟩ .nil) } }
    have hall : if texture ≠ -1 then ∃ u, s₂.uuid (.texture texture) = some u ∧
        ∀ mesh : Mesh M, (fun _ => some found.uniqueId) mesh = some u
      else (fun _ : Mesh M => some found.uniqueId) = Mesh.textureId := by
      rw [if_pos htexture]
      exact ⟨_, htexture', fun _ => rfl⟩
    have hreceived := hreference.receive (hids' ▸ hids) material (fun _ => some found.uniqueId) hall
    rw [← hnodes]
    have hassign := assign_assign ({ s₂ with references := s₂.references ++ [(found.uniqueId, ids.sharedId)] } : Builder M)
      (s₂.matToMeshNodes ids.uniqueId) (fun mesh => { mesh with material := material })
      (fun mesh => { mesh with textureId := some found.uniqueId })
    exact (congrArg (fun s' => Follows (s'.release ids.uniqueId) _) hassign).mpr hreceived
  · rw [if_neg htexture, if_neg htexture, List.append_nil]
    exact hadded.receive hids material Mesh.textureId (by rw [if_neg htexture])

theorem Follows.createTexture (h : Follows s c) (t : TextureRecord) :
    Follows (s.createTexture t) (c.createTexture t) := by
  unfold Builder.createTexture Sketch.createTexture
  split_ifs
  · exact { h with
      pictures := { h.pictures with textures := congrArg (· ++ [t]) h.pictures.textures } }
  · exact { h with pictures := { h.pictures with missingTextures := rfl } }

end Material

/-! ### The whole stream -/

section Run

variable {s : Builder M} {c : Sketch M}

theorem Follows.step (h : Follows s c) (initial : M) (record : Record M) :
    Option.Rel Follows (s.create initial record) (c.create initial record) := by
  cases record with
  | node r => exact h.createNode initial r
  | material material texture => exact .some (h.createMaterial material texture)
  | texture t => exact .some (h.createTexture t)

theorem Follows.run (h : Follows s c) (initial : M) (records : List (Record M)) :
    Option.Rel Follows (s.run initial records) (c.run initial records) := by
  unfold Builder.run Sketch.run
  induction records generalizing s c with
  | nil => exact .some h
  | cons record records ih =>
    rw [List.foldlM_cons, List.foldlM_cons]
    have hstep := h.step initial record
    generalize s.create initial record = s' at hstep
    generalize c.create initial record = c' at hstep
    cases hstep with
    | none => exact .none
    | some h' => exact ih h'

/-- The texture nodes have the UUIDs that are named after their textures. -/
theorem Follows.readTextures (h : Follows s c) (ts : List TextureRecord) :
    Follows (s.readTextures ts).2 c ∧ (∀ n u, s.uuid n = some u → (s.readTextures ts).2.uuid n = some u) ∧
      List.Forall₂ (fun p t => p.1 = t ∧ (s.readTextures ts).2.uuid (.texture t.id) = some p.2) (s.readTextures ts).1 ts := by
  induction ts generalizing s with
  | nil => exact ⟨h, fun _ _ hu => hu, .nil⟩
  | cons t ts ih =>
    obtain ⟨hfound, hids, hle⟩ := h.textureIdsAt t.id
    obtain ⟨hrest, hle', hall⟩ := ih hfound
    have hname : (s.textureIdsAt t.id).2.uuid (.texture t.id) = some (s.textureIdsAt t.id).1.uniqueId :=
      congrArg (Option.map _) hids
    exact ⟨hrest, fun n u hu => hle' n u (hle n u hu), .cons ⟨rfl, hle' _ _ hname⟩ hall⟩

end Run

end Bouncer.BimImport
