import Bouncer.Import.SceneBuilder

/-!
# Sharing materials between meshes

Every mesh becomes a parent of the material node with its material.  The map that `RepoSceneBuilder` keeps says which node
that is, and how many parents it has, so that a node with `maxMaterialNodeUsage` of them gets no more, and the next mesh
gets a new material node.

In the end every mesh is a parent of exactly one material node (`materials_shared`).
-/

namespace Bouncer

open Library (Write Amendable inserted added)

namespace RepoSceneBuilder

variable {U M : Type}

/-! ### Which meshes share a material -/

variable {u : U} {node : SceneNode U M}

section Shares

variable (checksum : M → ℕ)

/-- The meshes so far are parents of one material node each, with their material, and the map has one for every material
with the number of its parents. -/
structure Shares (materialToUniqueId : ℕ → Option (NodeId U × ℕ)) (docs : List (SceneNode U M)) (meshes : List (U × M)) :
    Prop where
  card_le : ∀ n ∈ docs, ∀ m, n.content = .material m → n.parents.card ≤ maxMaterialNodeUsage
  exists_mesh : ∀ n ∈ docs, ∀ m, n.content = .material m → ∀ p ∈ n.parents, ∃ mesh ∈ meshes, p = .given mesh.1 ∧ mesh.2 = m
  exists_material : ∀ mesh ∈ meshes, ∃ n ∈ docs, n.content = .material mesh.2 ∧ .given mesh.1 ∈ n.parents
  unique : ∀ n ∈ docs, ∀ m, n.content = .material m → ∀ n' ∈ docs, ∀ m', n'.content = .material m' →
    ∀ p ∈ n.parents, p ∈ n'.parents → n = n'
  entry : ∀ key uniqueId usage, materialToUniqueId key = some (uniqueId, usage) →
    ∃ n ∈ docs, n.uniqueId = uniqueId ∧ n.parents.card = usage ∧ ∃ m, n.content = .material m ∧ checksum m = key

variable {checksum} {materialToUniqueId : ℕ → Option (NodeId U × ℕ)} {docs docs' : List (SceneNode U M)}
  {meshes : List (U × M)}

private theorem Shares.congr (h : Shares checksum materialToUniqueId docs meshes)
    (hsame : ∀ n m, n.content = .material m → (n ∈ docs' ↔ n ∈ docs)) :
    Shares checksum materialToUniqueId docs' meshes where
  card_le n hn m hm := h.card_le n ((hsame n m hm).mp hn) m hm
  exists_mesh n hn m hm := h.exists_mesh n ((hsame n m hm).mp hn) m hm
  exists_material mesh hmesh := by
    obtain ⟨n, hn, hm, hp⟩ := h.exists_material mesh hmesh
    exact ⟨n, (hsame n _ hm).mpr hn, hm, hp⟩
  unique n hn m hm n' hn' m' hm' := h.unique n ((hsame n m hm).mp hn) m hm n' ((hsame n' m' hm').mp hn') m' hm'
  entry key uniqueId usage hkey := by
    obtain ⟨n, hn, hid, hcard, m, hm, hchecksum⟩ := h.entry key uniqueId usage hkey
    exact ⟨n, (hsame n m hm).mpr hn, hid, hcard, m, hm, hchecksum⟩

/-- A new material node, for a mesh that is new. -/
theorem Shares.append_material (h : Shares checksum materialToUniqueId docs meshes) (hu : u ∉ meshes.map Prod.fst)
    (m : M) (uniqueId sharedId : NodeId U) :
    Shares checksum (Function.update materialToUniqueId (checksum m) (some (uniqueId, 1)))
      (docs ++ [⟨uniqueId, sharedId, {.given u}, .material m⟩]) (meshes ++ [(u, m)]) := by
  have hnew : ∀ n ∈ docs, ∀ m', n.content = .material m' → .given u ∉ n.parents := by
    intro n hn m' hm' hp
    obtain ⟨mesh, hmesh, hgiven, -⟩ := h.exists_mesh n hn m' hm' _ hp
    obtain rfl := NodeId.given.inj hgiven
    exact hu (List.mem_map_of_mem hmesh)
  constructor
  · intro n hn m' hm'
    rcases List.mem_append.mp hn with hn | hn
    · exact h.card_le n hn m' hm'
    · obtain rfl := List.mem_singleton.mp hn
      rw [Finset.card_singleton]
      decide
  · intro n hn m' hm' p hp
    rcases List.mem_append.mp hn with hn | hn
    · obtain ⟨mesh, hmesh, hboth⟩ := h.exists_mesh n hn m' hm' p hp
      exact ⟨mesh, List.mem_append_left _ hmesh, hboth⟩
    · obtain rfl := List.mem_singleton.mp hn
      exact ⟨(u, m), List.mem_append_right _ (List.mem_singleton_self _), Finset.mem_singleton.mp hp,
        NodeContent.material.inj hm'⟩
  · intro mesh hmesh
    rcases List.mem_append.mp hmesh with hmesh | hmesh
    · obtain ⟨n, hn, hboth⟩ := h.exists_material mesh hmesh
      exact ⟨n, List.mem_append_left _ hn, hboth⟩
    · obtain rfl := List.mem_singleton.mp hmesh
      exact ⟨_, List.mem_append_right _ (List.mem_singleton_self _), rfl, Finset.mem_singleton_self _⟩
  · intro n hn m₁ hm₁ n' hn' m₂ hm₂ p hp hp'
    rcases List.mem_append.mp hn with hn | hn <;> rcases List.mem_append.mp hn' with hn' | hn'
    · exact h.unique n hn m₁ hm₁ n' hn' m₂ hm₂ p hp hp'
    · obtain rfl := List.mem_singleton.mp hn'
      obtain rfl := Finset.mem_singleton.mp hp'
      exact absurd hp (hnew n hn m₁ hm₁)
    · obtain rfl := List.mem_singleton.mp hn
      obtain rfl := Finset.mem_singleton.mp hp
      exact absurd hp' (hnew n' hn' m₂ hm₂)
    · rw [List.mem_singleton.mp hn, List.mem_singleton.mp hn']
  · intro key id usage hkey
    by_cases hsame : key = checksum m
    · subst hsame
      rw [Function.update_self] at hkey
      obtain ⟨rfl, rfl⟩ := Prod.mk.inj (Option.some.inj hkey)
      exact ⟨_, List.mem_append_right _ (List.mem_singleton_self _), rfl, Finset.card_singleton _, m, rfl, rfl⟩
    · rw [Function.update_of_ne hsame] at hkey
      obtain ⟨n, hn, hrest⟩ := h.entry key id usage hkey
      exact ⟨n, List.mem_append_left _ hn, hrest⟩

private theorem Shares.append_other (h : Shares checksum materialToUniqueId docs meshes)
    (hnode : ∀ m, node.content ≠ .material m) : Shares checksum materialToUniqueId (docs ++ [node]) meshes := by
  apply h.congr
  intro n m hm
  have hne : n ≠ node := fun he => hnode m (he ▸ hm)
  simp [hne]

variable [DecidableEq U]

/-- Another mesh for a material node that is there. -/
theorem Shares.update_material (h : Shares checksum materialToUniqueId docs meshes) (hinjective : Function.Injective checksum)
    (hnodup : (docs.map SceneNode.uniqueId).Nodup) (hu : u ∉ meshes.map Prod.fst) {m : M} {uniqueId : NodeId U}
    {usage : ℕ} (hentry : materialToUniqueId (checksum m) = some (uniqueId, usage)) (husage : usage < maxMaterialNodeUsage) :
    Shares checksum (Function.update materialToUniqueId (checksum m) (some (uniqueId, usage + 1)))
      (parentsSet.updateOne uniqueId {.given u} docs) (meshes ++ [(u, m)]) := by
  obtain ⟨node, hnode, hid, hcard, m', hcontent, hchecksum⟩ := h.entry _ _ _ hentry
  obtain rfl := hinjective hchecksum
  have hnew : ∀ n ∈ docs, ∀ m, n.content = .material m → .given u ∉ n.parents := by
    intro n hn m hm hp
    obtain ⟨mesh, hmesh, hgiven, -⟩ := h.exists_mesh n hn m hm _ hp
    obtain rfl := NodeId.given.inj hgiven
    exact hu (List.mem_map_of_mem hmesh)
  have hsame : ∀ n ∈ docs, n.uniqueId = uniqueId → n = node := fun n hn he =>
    List.inj_on_of_nodup_map hnodup hn hnode (he.trans hid.symm)
  -- what a node becomes
  let grow (n : SceneNode U M) := if n.uniqueId = uniqueId then parentsSet.amend n {.given u} else n
  have hdocs : parentsSet.updateOne uniqueId {.given u} docs = docs.map grow := Library.Amendable.updateOne_eq hnodup _ _
  have hgrow_content : ∀ n, (grow n).content = n.content := fun n => by
    unfold grow
    split <;> rfl
  have hmem_grow : ∀ n p, p ∈ (grow n).parents ↔ p ∈ n.parents ∨ (n.uniqueId = uniqueId ∧ p = .given u) := fun n p => by
    unfold grow
    split
    · rename_i he
      change p ∈ n.parents ∪ {.given u} ↔ _
      rw [Finset.mem_union, Finset.mem_singleton]
      simp only [he, true_and]
    · rename_i he
      simp only [he, false_and, or_false]
  have hgrow_node : (grow node).parents = insert (.given u) node.parents := by
    ext p
    rw [hmem_grow, Finset.mem_insert]
    simp [hid, or_comm]
  have hcard_node : (grow node).parents.card = usage + 1 := by
    rw [hgrow_node, Finset.card_insert_of_notMem (hnew node hnode m' hcontent), hcard]
  have hgrow_ne : ∀ n, n.uniqueId ≠ uniqueId → grow n = n := fun n hne => if_neg hne
  rw [hdocs]
  constructor
  · intro _ hmem m hm
    obtain ⟨n, hn, rfl⟩ := List.mem_map.mp hmem
    by_cases he : n.uniqueId = uniqueId
    · rw [hsame n hn he, hcard_node]
      omega
    · rw [hgrow_ne n he] at hm ⊢
      exact h.card_le n hn m hm
  · intro _ hmem m hm p hp
    obtain ⟨n, hn, rfl⟩ := List.mem_map.mp hmem
    rw [hgrow_content] at hm
    rcases (hmem_grow n p).mp hp with hold | ⟨he, hgiven⟩
    · obtain ⟨mesh, hmesh, hboth⟩ := h.exists_mesh n hn m hm p hold
      exact ⟨mesh, List.mem_append_left _ hmesh, hboth⟩
    · rw [hsame n hn he] at hm
      exact ⟨_, List.mem_append_right _ (List.mem_singleton_self _), hgiven,
        NodeContent.material.inj (hcontent.symm.trans hm)⟩
  · intro mesh hmesh
    rcases List.mem_append.mp hmesh with hmesh | hmesh
    · obtain ⟨n, hn, hm, hp⟩ := h.exists_material mesh hmesh
      exact ⟨grow n, List.mem_map_of_mem hn, (hgrow_content n).trans hm, (hmem_grow n _).mpr (.inl hp)⟩
    · obtain rfl := List.mem_singleton.mp hmesh
      exact ⟨grow node, List.mem_map_of_mem hnode, (hgrow_content node).trans hcontent,
        (hmem_grow node _).mpr (.inr ⟨hid, rfl⟩)⟩
  · intro _ hmem m₁ hm₁ _ hmem' m₂ hm₂ p hp hp'
    obtain ⟨n, hn, rfl⟩ := List.mem_map.mp hmem
    obtain ⟨n', hn', rfl⟩ := List.mem_map.mp hmem'
    rw [hgrow_content] at hm₁ hm₂
    rcases (hmem_grow n p).mp hp with hold | ⟨he, hgiven⟩ <;> rcases (hmem_grow n' p).mp hp' with hold' | ⟨he', hgiven'⟩
    · rw [h.unique n hn m₁ hm₁ n' hn' m₂ hm₂ p hold hold']
    · rw [hgiven'] at hold
      exact absurd hold (hnew n hn m₁ hm₁)
    · rw [hgiven] at hold'
      exact absurd hold' (hnew n' hn' m₂ hm₂)
    · rw [hsame n hn he, hsame n' hn' he']
  · intro key id usage' hkey
    by_cases hk : key = checksum m'
    · subst hk
      rw [Function.update_self] at hkey
      obtain ⟨rfl, rfl⟩ := Prod.mk.inj (Option.some.inj hkey)
      refine ⟨grow node, List.mem_map_of_mem hnode, ?_, hcard_node, m', (hgrow_content node).trans hcontent, rfl⟩
      unfold grow
      split <;> exact hid
    · rw [Function.update_of_ne hk] at hkey
      obtain ⟨n, hn, hid', hcard', m₁, hm₁, hchecksum'⟩ := h.entry key id usage' hkey
      have hne : n.uniqueId ≠ uniqueId := by
        intro he
        obtain rfl := hsame n hn he
        obtain rfl := NodeContent.material.inj (hcontent.symm.trans hm₁)
        exact hk hchecksum'.symm
      refine ⟨grow n, List.mem_map_of_mem hn, ?_⟩
      rw [hgrow_ne n hne]
      exact ⟨hid', hcard', m₁, hm₁, hchecksum'⟩

private theorem Shares.update_other (h : Shares checksum materialToUniqueId docs meshes)
    (hnodup : (docs.map SceneNode.uniqueId).Nodup) (hmem : node ∈ docs)
    (hnode : ∀ m, node.content ≠ .material m) (ps : Finset (NodeId U)) :
    Shares checksum materialToUniqueId (parentsSet.updateOne node.uniqueId ps docs) meshes := by
  apply h.congr
  intro n m hm
  have hne : ∀ n' ∈ docs, n'.content = .material m → n'.uniqueId ≠ node.uniqueId := by
    intro n' hn' hm' he
    obtain rfl := List.inj_on_of_nodup_map hnodup hn' hmem he
    exact hnode m hm'
  rw [show parentsSet.updateOne node.uniqueId ps docs = _ from Library.Amendable.updateOne_eq hnodup _ _, List.mem_map]
  constructor
  · rintro ⟨n', hn', rfl⟩
    have hcontent : n'.content = .material m := by
      rw [← hm]
      split <;> rfl
    have hkey : parentsSet.key n' ≠ node.uniqueId := hne n' hn' hcontent
    rwa [if_neg hkey]
  · intro hn
    exact ⟨n, hn, if_neg (hne n hn hm)⟩

end Shares

/-! ### Runs -/

section Runs

variable [DecidableEq U]

/-- The nodes that are added. -/
def uniqueIds (calls : List (Call U M)) : List U :=
  calls.filterMap fun
    | .addNode node => some node.uniqueId
    | .addParent .. => none

/-- The meshes that are added, by their shared ids, with their materials. -/
def meshes (calls : List (Call U M)) : List (U × M) :=
  calls.filterMap fun
    | .addNode node => node.material.map fun m => (node.sharedId, m)
    | .addParent .. => none

/-- An id that is in use. -/
def Known (created : ℕ) (ids : List U) : NodeId U → Prop
  | .given u => u ∈ ids
  | .created n => n < created

omit [DecidableEq U] in
private theorem Known.mono {n n' : ℕ} {ids ids' : List U} {id : NodeId U} (h : Known n ids id) (hle : n ≤ n')
    (hids : ids ⊆ ids') : Known n' ids' id := by
  cases id with
  | given u => exact hids h
  | created k => exact Nat.lt_of_lt_of_le h hle

variable (fields : MaterialFields M)

/-- What holds of the references and the requests so far. -/
structure Sound (r : References U) (log : List (Item U M)) (ids : List U) (meshes : List (U × M)) : Prop where
  nodup : ((inserted log).map SceneNode.uniqueId).Nodup
  preceded : parentsSet.Preceded log
  known : ∀ n ∈ inserted log, Known r.created ids n.uniqueId
  given : ∀ u ∈ ids, ∃ n ∈ inserted log, n.uniqueId = .given u ∧ ∀ m, n.content ≠ .material m
  texture : ∀ path uniqueId, r.textureToUniqueId path = some uniqueId →
    ∃ n ∈ inserted log, n.uniqueId = uniqueId ∧ ∀ m, n.content ≠ .material m
  shares : Shares fields.checksum r.materialToUniqueId (parentsSet.records log) meshes

variable {fields} {r r' : References U} {log : List (Item U M)} {ids ids' : List U} {meshed meshed' : List (U × M)}

theorem Sound.nodup_records (h : Sound fields r log ids meshed) :
    ((parentsSet.records log).map SceneNode.uniqueId).Nodup := by
  have hkeys : (parentsSet.records log).map SceneNode.uniqueId = (inserted log).map SceneNode.uniqueId :=
    Library.Amendable.keys_records h.nodup h.preceded
  rw [hkeys]
  exact h.nodup

theorem Sound.mem_records (h : Sound fields r log ids meshed) {n : SceneNode U M} (hn : n ∈ inserted log) :
    ∃ d ∈ parentsSet.records log, d.uniqueId = n.uniqueId ∧ d.content = n.content := by
  have heq := Library.Amendable.records_eq (A := parentsSet) h.nodup h.preceded
  refine ⟨parentsSet.amend n (added n.uniqueId log), ?_, rfl, rfl⟩
  rw [heq]
  exact List.mem_map_of_mem hn

/-- A node with a new id is written. -/
theorem Sound.insert (h : Sound fields r log ids meshed) (hnew : ¬ Known r.created ids node.uniqueId)
    (hknown : ∀ id, Known r.created ids id → Known r'.created ids' id) (hnode : Known r'.created ids' node.uniqueId)
    (hgiven : ∀ u ∈ ids', u ∈ ids ∨ (node.uniqueId = .given u ∧ ∀ m, node.content ≠ .material m))
    (htexture : ∀ path uniqueId, r'.textureToUniqueId path = some uniqueId →
      r.textureToUniqueId path = some uniqueId ∨ (node.uniqueId = uniqueId ∧ ∀ m, node.content ≠ .material m))
    (hshares : Shares fields.checksum r'.materialToUniqueId (parentsSet.records log ++ [node]) meshed') :
    Sound fields r' (log ++ [.insert node]) ids' meshed' := by
  have hinserted : inserted (log ++ [.insert node]) = inserted log ++ [node] := by
    rw [Library.inserted_append]
    rfl
  have hlast : node ∈ inserted (log ++ [.insert node]) := by simp [hinserted]
  have hold : ∀ n ∈ inserted log, n ∈ inserted (log ++ [.insert node]) := fun n hn => by
    rw [hinserted]
    exact List.mem_append_left _ hn
  refine ⟨?_, h.preceded.insert node, ?_, ?_, ?_, ?_⟩
  · rw [hinserted, List.map_append, List.nodup_append]
    refine ⟨h.nodup, List.nodup_singleton _, ?_⟩
    intro id hid id' hid' he
    obtain ⟨n, hn, rfl⟩ := List.mem_map.mp hid
    rw [List.map_singleton, List.mem_singleton] at hid'
    exact hnew (hid' ▸ he ▸ h.known n hn)
  · intro n hn
    rw [hinserted, List.mem_append, List.mem_singleton] at hn
    rcases hn with hn | rfl
    · exact hknown _ (h.known n hn)
    · exact hnode
  · intro u hu
    rcases hgiven u hu with hu | hboth
    · obtain ⟨n, hn, hboth⟩ := h.given u hu
      exact ⟨n, hold n hn, hboth⟩
    · exact ⟨node, hlast, hboth⟩
  · intro path uniqueId hpath
    rcases htexture path uniqueId hpath with hpath | hboth
    · obtain ⟨n, hn, hboth⟩ := h.texture path uniqueId hpath
      exact ⟨n, hold n hn, hboth⟩
    · exact ⟨node, hlast, hboth⟩
  · rw [Library.Amendable.records_concat]
    exact hshares

private theorem Sound.update (h : Sound fields r log ids meshed) {k : NodeId U} (hk : k ∈ (inserted log).map SceneNode.uniqueId)
    (ps : Finset (NodeId U)) (hcreated : r'.created = r.created) (htexture : r'.textureToUniqueId = r.textureToUniqueId)
    (hshares : Shares fields.checksum r'.materialToUniqueId (parentsSet.updateOne k ps (parentsSet.records log)) meshed') :
    Sound fields r' (log ++ [.update k ps]) ids meshed' := by
  have hinserted : inserted (log ++ [.update k ps]) = inserted log := by
    rw [Library.inserted_append]
    exact List.append_nil _
  refine ⟨?_, h.preceded.update hk ps, ?_, ?_, ?_, ?_⟩
  · rw [hinserted]
    exact h.nodup
  · rw [hinserted, hcreated]
    exact h.known
  · rw [hinserted]
    exact h.given
  · rw [hinserted, htexture]
    exact h.texture
  · rw [Library.Amendable.records_concat]
    exact hshares

private theorem Sound.update_other (h : Sound fields r log ids meshed) {n : SceneNode U M} (hn : n ∈ inserted log)
    (hcontent : ∀ m, n.content ≠ .material m) (ps : Finset (NodeId U)) :
    Sound fields r (log ++ [.update n.uniqueId ps]) ids meshed := by
  obtain ⟨d, hd, hid, hsame⟩ := h.mem_records hn
  apply h.update (List.mem_map_of_mem hn) ps rfl rfl
  rw [← hid]
  exact h.shares.update_other h.nodup_records hd (fun m => hsame ▸ hcontent m) ps

variable (isOpen : String → Bool)

theorem Sound.addTextureReference (h : Sound fields r log ids meshed) (texture : String) (parentId : NodeId U) :
    Sound fields (addTextureReference (M := M) isOpen r texture parentId).1
      (log ++ (RepoSceneBuilder.addTextureReference isOpen r texture parentId).2.map Request.write) ids meshed := by
  unfold RepoSceneBuilder.addTextureReference
  cases htexture : r.textureToUniqueId texture with
  | none =>
    simp only
    split
    · apply h.insert
      · exact Nat.not_lt.mpr (Nat.le_succ _)
      · exact fun id hid => hid.mono (Nat.le_add_right _ 2) (List.Subset.refl _)
      · exact Nat.lt_succ_self _
      · exact fun u hu => .inl hu
      · intro path uniqueId hpath
        simp only at hpath
        by_cases he : path = texture
        · subst he
          rw [Function.update_self] at hpath
          exact .inr ⟨Option.some.inj hpath, nofun⟩
        · rw [Function.update_of_ne he] at hpath
          exact .inl hpath
      · exact h.shares.append_other nofun
    · rw [List.map_nil, List.append_nil]
      exact ⟨h.nodup, h.preceded, h.known, h.given, h.texture, h.shares⟩
  | some uniqueId =>
    obtain ⟨n, hn, rfl, hcontent⟩ := h.texture texture uniqueId htexture
    exact h.update_other hn hcontent _

theorem Sound.makeMaterialNode (h : Sound fields r log ids meshed) (hu : u ∉ meshed.map Prod.fst) (m : M) :
    let result := RepoSceneBuilder.makeMaterialNode fields isOpen r (fields.checksum m) m (.given u)
    Sound fields result.1 (log ++ result.2.map Request.write) ids (meshed ++ [(u, m)]) := by
  have hnode : Sound fields { r with
      materialToUniqueId :=
        Function.update r.materialToUniqueId (fields.checksum m) (some (.created (r.created + 1), 1))
      created := r.created + 2 }
      (log ++ [.insert ⟨.created (r.created + 1), .created r.created, {.given u}, .material m⟩]) ids
      (meshed ++ [(u, m)]) := by
    apply h.insert
    · exact Nat.not_lt.mpr (Nat.le_succ _)
    · exact fun id hid => hid.mono (Nat.le_add_right _ 2) (List.Subset.refl _)
    · exact Nat.lt_succ_self _
    · exact fun u hu => .inl hu
    · exact fun path uniqueId hpath => .inl hpath
    · exact h.shares.append_material hu m _ _
  unfold RepoSceneBuilder.makeMaterialNode
  simp only
  split
  · have htexture := hnode.addTextureReference isOpen (fields.texturePath m) (.created r.created)
    rwa [List.append_assoc] at htexture
  · exact hnode

theorem Sound.addMaterialReference (h : Sound fields r log ids meshed) (hinjective : Function.Injective fields.checksum)
    (hu : u ∉ meshed.map Prod.fst) (m : M) :
    let result := RepoSceneBuilder.addMaterialReference fields isOpen r m (.given u)
    Sound fields result.1 (log ++ result.2.map Request.write) ids (meshed ++ [(u, m)]) := by
  have hmake := h.makeMaterialNode isOpen hu m
  unfold RepoSceneBuilder.addMaterialReference
  simp only
  cases hentry : r.materialToUniqueId (fields.checksum m) with
  | none => exact hmake
  | some entry =>
    obtain ⟨uniqueId, usage⟩ := entry
    simp only
    split
    · exact hmake
    · rename_i husage
      have hkeys : (parentsSet.records log).map SceneNode.uniqueId = (inserted log).map SceneNode.uniqueId :=
        Library.Amendable.keys_records h.nodup h.preceded
      obtain ⟨n, hn, rfl, -⟩ := h.shares.entry _ _ _ hentry
      have hk : n.uniqueId ∈ (inserted log).map SceneNode.uniqueId := hkeys ▸ List.mem_map_of_mem hn
      refine h.update hk {.given u} ?_ ?_ ?_
      · rfl
      · rfl
      · exact h.shares.update_material hinjective h.nodup_records hu hentry (Nat.not_le.mp husage)

private theorem Sound.insert_given (h : Sound fields r log ids meshed) (hu : u ∉ ids) (sharedId : NodeId U)
    (parents : Finset (NodeId U)) (content : NodeContent U M) (hcontent : ∀ m, content ≠ .material m) :
    Sound fields r (log ++ [.insert ⟨.given u, sharedId, parents, content⟩]) (ids ++ [u]) meshed := by
  apply h.insert
  · exact hu
  · exact fun id hid => hid.mono le_rfl (List.subset_append_left _ _)
  · exact List.mem_append_right _ (List.mem_singleton_self u)
  · intro u' hu'
    rcases List.mem_append.mp hu' with hu' | hu'
    · exact .inl hu'
    · rw [List.mem_singleton.mp hu']
      exact .inr ⟨rfl, hcontent⟩
  · exact fun path uniqueId hpath => .inl hpath
  · exact h.shares.append_other hcontent

/-- Calls of one user: every node is new, and gets parents only when it was added. -/
structure Valid (calls : List (Call U M)) : Prop where
  uniqueIds : (uniqueIds calls).Nodup
  sharedIds : ((meshes calls).map Prod.fst).Nodup
  addParent : ∀ before u p after, calls = before ++ .addParent u p :: after → u ∈ RepoSceneBuilder.uniqueIds before

omit [DecidableEq U] in
theorem Valid.of_append {calls calls' : List (Call U M)} (h : Valid (calls ++ calls')) : Valid calls := by
  obtain ⟨huniqueIds, hsharedIds, haddParent⟩ := h
  refine ⟨?_, ?_, ?_⟩
  · rw [RepoSceneBuilder.uniqueIds, List.filterMap_append] at huniqueIds
    exact (List.nodup_append.mp huniqueIds).1
  · rw [meshes, List.filterMap_append, List.map_append] at hsharedIds
    exact (List.nodup_append.mp hsharedIds).1
  · rintro before u p after rfl
    exact haddParent before u p (after ++ calls') (by simp)

variable {calls : List (Call U M)}

theorem Sound.requests (h : Sound fields r log (uniqueIds calls) (meshes calls))
    (hinjective : Function.Injective fields.checksum) {c : Call U M} (hvalid : Valid (calls ++ [c])) :
    let result := RepoSceneBuilder.requests fields isOpen r c
    Sound fields result.1 (log ++ result.2.map Request.write) (uniqueIds (calls ++ [c])) (meshes (calls ++ [c])) := by
  obtain ⟨huniqueIds, hsharedIds, haddParent⟩ := hvalid
  rw [uniqueIds, List.filterMap_append] at huniqueIds
  rw [meshes, List.filterMap_append, List.map_append] at hsharedIds
  rw [uniqueIds, meshes, List.filterMap_append, List.filterMap_append]
  cases c with
  | addParent u p =>
    have hu := haddParent calls u p [] rfl
    obtain ⟨n, hn, hid, hcontent⟩ := h.given u hu
    have hupdate := h.update_other hn hcontent {p}
    rw [hid] at hupdate
    change Sound fields r _ (uniqueIds calls ++ []) (meshes calls ++ [])
    rw [List.append_nil, List.append_nil]
    exact hupdate
  | addNode node =>
    have hu : node.uniqueId ∉ uniqueIds calls := fun hu =>
      (List.nodup_append.mp huniqueIds).2.2 _ hu _ (List.mem_singleton_self _) rfl
    obtain ⟨uniqueId, sharedId, parents, material⟩ := node
    cases material with
    | none =>
      change Sound fields r _ (uniqueIds calls ++ [uniqueId]) (meshes calls ++ [])
      rw [List.append_nil]
      exact h.insert_given hu _ _ .other nofun
    | some m =>
      have hs : sharedId ∉ (meshes calls).map Prod.fst := fun hs =>
        (List.nodup_append.mp hsharedIds).2.2 _ hs _ (List.mem_singleton_self _) rfl
      have hreference := h.addMaterialReference isOpen hinjective hs m
      have hinsert := fun textureId =>
        hreference.insert_given hu (.given sharedId) parents (.mesh m textureId) nofun
      simp only [List.append_assoc] at hinsert
      unfold RepoSceneBuilder.requests RepoSceneBuilder.addNode
      simp only [List.map_append]
      exact hinsert _

variable (fields) in
omit [DecidableEq U] in
private theorem requested_concat (calls : List (Call U M)) (c : Call U M) :
    requested fields isOpen (calls ++ [c]) =
      ((RepoSceneBuilder.requests fields isOpen (requested fields isOpen calls).1 c).1,
        (requested fields isOpen calls).2 ++
          (RepoSceneBuilder.requests fields isOpen (requested fields isOpen calls).1 c).2.map Request.write) := by
  rw [requested, List.foldl_append]
  rfl

private theorem sound_requested (hinjective : Function.Injective fields.checksum) (hvalid : Valid calls) :
    Sound fields (requested fields isOpen calls).1 (requested fields isOpen calls).2 (uniqueIds calls) (meshes calls) := by
  induction calls using List.reverseRecOn with
  | nil => exact ⟨List.nodup_nil, Library.Amendable.preceded_nil, nofun, nofun, nofun, ⟨nofun, nofun, nofun, nofun, nofun⟩⟩
  | append_singleton calls c ih =>
    rw [requested_concat]
    exact (ih hvalid.of_append).requests isOpen hinjective hvalid

private theorem follows_requested (iteration : Iteration (NodeId U × Finset (NodeId U)))
    (hinjective : Function.Injective fields.checksum) {calls : List (Call U M)} (hvalid : Valid calls) :
    (calls.foldl (call fields isOpen iteration) start).1 = (requested fields isOpen calls).1 ∧
      (calls.foldl (call fields isOpen iteration) start).2.Follows (requested fields isOpen calls).2 := by
  induction calls using List.reverseRecOn with
  | nil => exact ⟨rfl, rfl, fun _ => rfl, Library.Amendable.preceded_nil, nofun⟩
  | append_singleton calls c ih =>
    obtain ⟨hreferences, hfollows⟩ := ih hvalid.of_append
    have hpreceded := (sound_requested isOpen hinjective hvalid).preceded
    rw [requested_concat] at hpreceded ⊢
    rw [List.foldl_append, List.foldl_cons, List.foldl_nil, call, hreferences]
    exact ⟨rfl, hfollows.foldl hpreceded⟩

/-! ### Parents that are added by calls -/

/-- Material and texture nodes have ids that were created. -/
structure References.Created (r : References U) : Prop where
  material : ∀ key entry, r.materialToUniqueId key = some entry → ∃ n, entry.1 = .created n
  texture : ∀ path uniqueId, r.textureToUniqueId path = some uniqueId → ∃ n, uniqueId = .created n

omit [DecidableEq U] in
theorem References.Created.addTextureReference (h : r.Created) (texture : String) (parentId : NodeId U) :
    (addTextureReference (M := M) isOpen r texture parentId).1.Created ∧
      ∀ u p, .addParent (.given u) p ∉ (RepoSceneBuilder.addTextureReference (M := M) isOpen r texture parentId).2 := by
  unfold RepoSceneBuilder.addTextureReference
  cases htexture : r.textureToUniqueId texture with
  | none =>
    simp only
    split
    · refine ⟨⟨h.material, ?_⟩, by simp⟩
      intro path uniqueId hpath
      simp only at hpath
      by_cases he : path = texture
      · subst he
        rw [Function.update_self] at hpath
        exact ⟨_, (Option.some.inj hpath).symm⟩
      · rw [Function.update_of_ne he] at hpath
        exact h.texture path uniqueId hpath
    · exact ⟨⟨h.material, h.texture⟩, by simp⟩
  | some uniqueId =>
    obtain ⟨n, rfl⟩ := h.texture texture uniqueId htexture
    exact ⟨h, by simp⟩

omit [DecidableEq U] in
theorem References.Created.update_material (h : r.Created) (key n usage : ℕ) :
    References.Created { r with
      materialToUniqueId := Function.update r.materialToUniqueId key (some (.created n, usage)) } := by
  refine ⟨?_, h.texture⟩
  intro key' entry hentry
  simp only at hentry
  by_cases he : key' = key
  · subst he
    rw [Function.update_self] at hentry
    obtain rfl := Option.some.inj hentry
    exact ⟨n, rfl⟩
  · rw [Function.update_of_ne he] at hentry
    exact h.material key' entry hentry

variable (fields) in
omit [DecidableEq U] in
theorem References.Created.makeMaterialNode (h : r.Created) (key : ℕ) (m : M) (parentId : NodeId U) :
    (RepoSceneBuilder.makeMaterialNode fields isOpen r key m parentId).1.Created ∧
      ∀ u p, .addParent (.given u) p ∉ (RepoSceneBuilder.makeMaterialNode fields isOpen r key m parentId).2 := by
  have hupdate := h.update_material key (r.created + 1) 1
  have hcreated : References.Created { r with
      materialToUniqueId := Function.update r.materialToUniqueId key (some (.created (r.created + 1), 1))
      created := r.created + 2 } := ⟨hupdate.material, hupdate.texture⟩
  unfold RepoSceneBuilder.makeMaterialNode
  simp only
  split
  · have htexture := hcreated.addTextureReference (M := M) isOpen (fields.texturePath m) (.created r.created)
    refine ⟨htexture.1, ?_⟩
    intro u p hp
    rcases List.mem_cons.mp hp with hp | hp
    · cases hp
    · exact htexture.2 u p hp
  · exact ⟨hcreated, by simp⟩

variable (fields) in
omit [DecidableEq U] in
theorem References.Created.addMaterialReference (h : r.Created) (m : M) (parentId : NodeId U) :
    (RepoSceneBuilder.addMaterialReference fields isOpen r m parentId).1.Created ∧
      ∀ u p, .addParent (.given u) p ∉ (RepoSceneBuilder.addMaterialReference fields isOpen r m parentId).2 := by
  have hmake := h.makeMaterialNode fields isOpen (fields.checksum m) m parentId
  unfold RepoSceneBuilder.addMaterialReference
  simp only
  cases hentry : r.materialToUniqueId (fields.checksum m) with
  | none => exact hmake
  | some entry =>
    obtain ⟨uniqueId, usage⟩ := entry
    obtain ⟨n, hn⟩ := h.material _ _ hentry
    obtain rfl : uniqueId = .created n := hn
    simp only
    split
    · exact hmake
    · exact ⟨h.update_material _ n _, by simp⟩

variable (fields) in
omit [DecidableEq U] in
theorem References.Created.requests (h : r.Created) (c : Call U M) :
    (RepoSceneBuilder.requests fields isOpen r c).1.Created ∧
      ∀ u p, .addParent (.given u) p ∈ (RepoSceneBuilder.requests fields isOpen r c).2 ↔ c = .addParent u p := by
  cases c with
  | addParent u p =>
    refine ⟨h, ?_⟩
    intro u' p'
    simp [RepoSceneBuilder.requests, eq_comm]
  | addNode node =>
    obtain ⟨uniqueId, sharedId, parents, material⟩ := node
    cases material with
    | none =>
      refine ⟨h, ?_⟩
      intro u p
      simp [RepoSceneBuilder.requests, RepoSceneBuilder.addNode]
    | some m =>
      have hreference := h.addMaterialReference fields isOpen m (.given sharedId)
      refine ⟨hreference.1, ?_⟩
      intro u p
      simp [RepoSceneBuilder.requests, RepoSceneBuilder.addNode, hreference.2 u p]

variable (fields) in
/-- A node that was given gets the parents that calls add to it. -/
theorem mem_added_given (calls : List (Call U M)) (u : U) (p : NodeId U) :
    (requested fields isOpen calls).1.Created ∧
      (p ∈ added (.given u) (requested fields isOpen calls).2 ↔ .addParent u p ∈ calls) := by
  induction calls using List.reverseRecOn with
  | nil =>
    refine ⟨⟨nofun, nofun⟩, ?_⟩
    simp [requested, added]
  | append_singleton calls c ih =>
    obtain ⟨hcreated, hcalls⟩ := ih
    obtain ⟨hnext, hrequests⟩ := hcreated.requests fields isOpen c
    rw [requested_concat]
    refine ⟨hnext, ?_⟩
    have hwrites : p ∈ added (.given u)
        ((RepoSceneBuilder.requests fields isOpen (requested fields isOpen calls).1 c).2.map Request.write) ↔
          c = .addParent u p := by
      rw [← hrequests, Library.mem_added]
      constructor
      · rintro ⟨ps, hps, hp⟩
        obtain ⟨request, hrequest, hwrite⟩ := List.mem_map.mp hps
        cases request with
        | queueNode node => cases hwrite
        | addParent id q =>
          obtain ⟨rfl, rfl⟩ := Write.update.inj hwrite
          rw [Finset.mem_singleton.mp hp]
          exact hrequest
      · intro hrequest
        exact ⟨{p}, List.mem_map.mpr ⟨_, hrequest, rfl⟩, Finset.mem_singleton_self p⟩
    rw [Library.added_append, Finset.mem_union, hcalls, hwrites, List.mem_append, List.mem_singleton, @eq_comm _ c]

variable (fields) in
omit [DecidableEq U] in
private theorem exists_inserted {node : GivenNode U M} (hnode : .addNode node ∈ calls) :
    ∃ n ∈ inserted (requested fields isOpen calls).2, n.uniqueId = .given node.uniqueId ∧ n.parents = node.parents := by
  induction calls using List.reverseRecOn with
  | nil => cases hnode
  | append_singleton calls c ih =>
    rw [requested_concat]
    simp only [Library.inserted_append, List.mem_append]
    rcases List.mem_append.mp hnode with hold | hlast
    · obtain ⟨n, hn, hboth⟩ := ih hold
      exact ⟨n, .inl hn, hboth⟩
    · obtain rfl := List.mem_singleton.mp hlast
      obtain ⟨uniqueId, sharedId, parents, material⟩ := node
      have hqueued : ∃ content, Request.queueNode ⟨.given uniqueId, .given sharedId, parents, content⟩ ∈
          (RepoSceneBuilder.requests fields isOpen (requested fields isOpen calls).1
            (.addNode ⟨uniqueId, sharedId, parents, material⟩)).2 := by
        cases material with
        | none => exact ⟨.other, List.mem_singleton_self _⟩
        | some m => exact ⟨_, List.mem_append_right _ (List.mem_singleton_self _)⟩
      obtain ⟨content, hmem⟩ := hqueued
      refine ⟨⟨.given uniqueId, .given sharedId, parents, content⟩, .inr ?_, rfl, rfl⟩
      exact Library.mem_inserted.mpr (List.mem_map.mpr ⟨_, hmem, rfl⟩)

omit [DecidableEq U] in
private theorem mem_meshes {node : GivenNode U M} {m : M} (hnode : .addNode node ∈ calls)
    (hm : node.material = some m) : (node.sharedId, m) ∈ meshes calls := by
  apply List.mem_filterMap.mpr
  exact ⟨_, hnode, by simp [hm]⟩

end Runs

end RepoSceneBuilder

end Bouncer
