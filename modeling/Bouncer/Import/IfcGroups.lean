import Bouncer.Import.IfcPositions

/-!
# The groups of an imported IFC file

Below an object that is no element, elements should be grouped by their type.  The key of a group is the sum of the
largest identifier, the identifier of the parent, the number of the type, and one.  So different groups may have one key,
and then objects with different parents or types end up under one node, below the parent that came first.

The tree is right if and only if no two groups of the file have one key (`groupsByType_iff`).
-/

namespace Bouncer.IfcSerialiser

open Library Library.Fallible Library.Identifiers

variable {U R : Type}

/-! ### What should hold -/

/-- The object is put under the group of its type below this parent. -/
def Grouped {file : IfcFile} (object parent : file.Object) : Prop :=
  file.getParent object = some parent ∧ file.shouldGroupByType object (some parent) = true

section Grouping

variable {file : IfcFile}

/-- The branch of the object, or its leaf if it has no branch. -/
def IsTop (nodes : List (TransformationNode file U R)) (object : file.Object) (node : TransformationNode file U R) : Prop :=
  node ∈ nodes ∧ (node.origin = .branch object ∨
    node.origin = .leaf object ∧ ∀ other ∈ nodes, other.origin ≠ .branch object)

/-- These are the parents of what lies under the branch of the object's parent, or under the root. -/
def UnderParent (nodes : List (TransformationNode file U R)) (object : file.Object) (parentIds : List U) : Prop :=
  ∃ node ∈ nodes, parentIds = [node.sharedId] ∧
    match file.getParent object with
    | some parent => node.origin = .branch parent
    | none => node.origin = .root

structure GroupsByType [ExactReal R] (elements : List (TriangulationElement file R)) (state : ImportState file U R) : Prop where
  /-- Two objects are in one group if and only if they have one parent and one type. -/
  same : ∀ x y p q node other, Grouped x p → Grouped y q → IsTop state.nodes x node → IsTop state.nodes y other →
    (node.parentIds = other.parentIds ↔ p = q ∧ (file.object x).type = (file.object y).type)
  group : ∀ x p node, Grouped x p → IsTop state.nodes x node → ∃ group ∈ state.nodes,
    group.origin = .group p (file.object x).type ∧ node.parentIds = [group.sharedId] ∧
      ∃ branch ∈ state.nodes, branch.origin = .branch p ∧ group.parentIds = [branch.sharedId]
  ungrouped : ∀ x node, (∀ p, ¬ Grouped x p) → IsTop state.nodes x node → UnderParent state.nodes x node.parentIds
  /-- The meshes of a space lie there themselves. -/
  spaces : List.Forall₂
    (fun (element : TriangulationElement file R) (mesh : MeshNode U R) => (file.object element.product).kind = .IfcSpace →
      UnderParent state.nodes element.product mesh.parentIds)
    (elements.flatMap fun element => element.facesByMaterial.map fun _ => element) state.meshes
  leaf : ∀ x leaf branch, leaf ∈ state.nodes → branch ∈ state.nodes → leaf.origin = .leaf x →
    branch.origin = .branch x → leaf.parentIds = [branch.sharedId]

/-- The objects that get a node: those of the elements that are no spaces, and what is above an element. -/
inductive Needed [Field R] (elements : List (TriangulationElement file R)) : file.Object → Prop
  | element {element : TriangulationElement file R} : element ∈ elements → element.faces ≠ [] →
      (file.object element.product).kind ≠ .IfcSpace → Needed elements element.product
  | aboveSpace {element : TriangulationElement file R} {parent : file.Object} : element ∈ elements →
      element.faces ≠ [] → (file.object element.product).kind = .IfcSpace →
        file.getParent element.product = some parent → Needed elements parent
  | parent {object parent : file.Object} : Needed elements object → file.getParent object = some parent →
      Needed elements parent

/-- No two groups that are needed have one key. -/
def DistinctKeys [Field R] (elements : List (TriangulationElement file R)) : Prop :=
  ∀ x y p q, Needed elements x → Needed elements y → Grouped x p → Grouped y q →
    (p : ℕ) + (file.object x).type = q + (file.object y).type → p = q ∧ (file.object x).type = (file.object y).type

end Grouping

/-! ### Nodes and their parents -/

section Nodes

variable [Field R] {createUUID : ℕ → U} {file : IfcFile} {state : ImportState file U R}

theorem Inv.branch_of_entry (h : Inv createUUID state) {object : file.Object} {id : U}
    (hentry : state.entry (.branch object) = some id) :
    ∃ node ∈ state.nodes, node.sharedId = id ∧ node.origin = .branch object := by
  obtain ⟨node, hnode, hid, hslot⟩ := h.found _ id hentry
  exact ⟨node, hnode, hid, origin_of_branch hslot⟩

private theorem Inv.underParent (h : Inv createUUID state) {object : file.Object} (hgroup : ∀ p, ¬ Grouped object p) {q : U}
    (hplace : state.place createUUID object = some q) : UnderParent state.nodes object [q] := by
  unfold UnderParent
  cases hparent : file.getParent object with
  | none =>
    rw [place_of_none hparent] at hplace
    cases hplace
    obtain ⟨node, hnode, hid, horigin⟩ := h.root
    exact ⟨node, hnode, by rw [hid], horigin⟩
  | some parent =>
    have hnot : file.shouldGroupByType object (some parent) = false :=
      Bool.eq_false_iff.2 fun hyes => hgroup parent ⟨hparent, hyes⟩
    rw [place_of_parent hparent hnot] at hplace
    obtain ⟨node, hnode, hid, horigin⟩ := h.branch_of_entry hplace
    exact ⟨node, hnode, by rw [hid], horigin⟩

private theorem Inv.place_of_top (h : Inv createUUID state) {object : file.Object} {node : TransformationNode file U R}
    (htop : IsTop state.nodes object node) : ∃ q, state.place createUUID object = some q ∧ node.parentIds = [q] := by
  obtain ⟨hnode, horigin | ⟨horigin, hno⟩⟩ := htop
  · have hparents := h.parents node hnode
    rw [horigin] at hparents
    obtain ⟨q, hplace, hq⟩ := Option.map_eq_some_iff.1 hparents
    exact ⟨q, hplace, hq.symm⟩
  · have hnone : state.entry (.branch object) = none := by
      by_contra hsome
      obtain ⟨id, hid⟩ := Option.ne_none_iff_exists'.1 hsome
      obtain ⟨branch, hbranch, -, horigin⟩ := h.branch_of_entry hid
      exact hno branch hbranch horigin
    have hparents := h.parents node hnode
    rw [horigin, ImportState.parentsOf, hnone, Option.none_or] at hparents
    obtain ⟨q, hplace, hq⟩ := Option.map_eq_some_iff.1 hparents
    exact ⟨q, hplace, hq.symm⟩

omit [Field R] in
private theorem exists_isTop {object : file.Object} {node : TransformationNode file U R} (hnode : node ∈ state.nodes)
    (horigin : node.origin = .leaf object ∨ node.origin = .branch object) : ∃ top, IsTop state.nodes object top := by
  by_cases hbranch : ∃ branch ∈ state.nodes, branch.origin = .branch object
  · obtain ⟨branch, hmem, horigin⟩ := hbranch
    exact ⟨branch, hmem, .inl horigin⟩
  · have hno : ∀ other ∈ state.nodes, other.origin ≠ .branch object := fun other hother hother' =>
      hbranch ⟨other, hother, hother'⟩
    exact ⟨node, hnode, .inr ⟨horigin.resolve_right (hno node hnode), hno⟩⟩

private theorem groupId_eq_iff {p q : file.Object} {type type' : ℕ} :
    file.groupId p type = file.groupId q type' ↔ (p : ℕ) + type = q + type' := by
  unfold IfcFile.groupId
  omega

end Nodes

/-! ### What is needed -/

section Needed

variable {file : IfcFile}

private theorem not_grouped_of_space {object : file.Object} (h : (file.object object).kind = .IfcSpace) (parent : file.Object) :
    ¬ Grouped object parent := by
  rintro ⟨-, hgroup⟩
  unfold IfcFile.shouldGroupByType at hgroup
  rw [h] at hgroup
  simp at hgroup

/-- What a node is made for is needed. -/
def OriginNeeded [Field R] (elements : List (TriangulationElement file R)) : Origin file → Prop
  | .root => True
  | .leaf x => Needed elements x
  | .branch x => Needed elements x
  | .group parent type => ∃ x, Needed elements x ∧ Grouped x parent ∧ (file.object x).type = type

theorem Needed.above [Field R] {elements : List (TriangulationElement file R)} {object x : file.Object}
    (h : Needed elements object) (habove : Above x object) : Needed elements x := by
  induction habove with
  | refl => exact h
  | tail _ hparent ih => exact ih.parent hparent

theorem Needed.origin [Field R] {elements : List (TriangulationElement file R)} {object : file.Object}
    (h : Needed elements object) {origin : Origin file} (hcaused : CausedBy object origin) :
    OriginNeeded elements origin := by
  cases origin with
  | root => trivial
  | leaf x => exact h.above hcaused
  | branch x => exact h.above hcaused
  | group parent type =>
    obtain ⟨x, habove, hparent, hgroup, htype⟩ := hcaused
    exact ⟨x, h.above habove, ⟨hparent, hgroup⟩, htype⟩

private theorem CausedAbove.of_space {object : file.Object} (h : (file.object object).kind = .IfcSpace) {origin : Origin file}
    (hcaused : CausedAbove object origin) :
    ∃ parent, file.getParent object = some parent ∧ CausedBy parent origin := by
  obtain ⟨hcaused, hleaf, hbranch⟩ := hcaused
  have hstep : ∀ x : file.Object, Above x object → x ≠ object →
      ∃ parent, file.getParent object = some parent ∧ Above x parent := by
    intro x habove hne
    rcases Relation.ReflTransGen.cases_head habove with hsame | hstep
    · exact absurd hsame.symm hne
    · exact hstep
  cases origin with
  | root => exact absurd hcaused id
  | leaf x => exact hstep x hcaused fun hsame => hleaf (hsame ▸ rfl)
  | branch x => exact hstep x hcaused fun hsame => hbranch (hsame ▸ rfl)
  | group p type =>
    obtain ⟨x, habove, hparent, hgroup, htype⟩ := hcaused
    have hne : x ≠ object := by
      rintro rfl
      exact not_grouped_of_space h p ⟨hparent, hgroup⟩
    obtain ⟨parent, hobject, habove⟩ := hstep x habove hne
    exact ⟨parent, hobject, x, habove, hparent, hgroup, htype⟩

end Needed

section Imported

variable [DecidableEq U] [Inhabited U] [ExactReal R] {createUUID : ℕ → U} {file : IfcFile}
  {state : ImportState file U R} {elements : List (TriangulationElement file R)}

omit [DecidableEq U] [Inhabited U] in
theorem Imported.originNeeded (h : Imported createUUID elements state) {node : TransformationNode file U R}
    (hnode : node ∈ state.nodes) : OriginNeeded elements node.origin := by
  rcases h.origins node hnode with hroot | ⟨element, helement, hfaces, hcaused⟩
  · rw [hroot]
    trivial
  · by_cases hspace : (file.object element.product).kind = .IfcSpace
    · have hspace' : (!element.isIfcSpace) = false := by simp [TriangulationElement.isIfcSpace, hspace]
      rw [hspace'] at hcaused
      obtain ⟨parent, hparent, hcaused⟩ := CausedAbove.of_space hspace hcaused
      exact (Needed.aboveSpace helement hfaces hspace hparent).origin hcaused
    · have hspace' : (!element.isIfcSpace) = true := by simp [TriangulationElement.isIfcSpace, hspace]
      rw [hspace'] at hcaused
      exact (Needed.element helement hfaces hspace).origin hcaused

omit [DecidableEq U] [Inhabited U] in
theorem Imported.needed_of_isTop (h : Imported createUUID elements state) {object : file.Object}
    {node : TransformationNode file U R} (htop : IsTop state.nodes object node) : Needed elements object := by
  obtain ⟨hnode, horigin⟩ := htop
  have hneeded := h.originNeeded hnode
  rcases horigin with horigin | ⟨horigin, -⟩
  · rw [horigin] at hneeded
    exact hneeded
  · rw [horigin] at hneeded
    exact hneeded

omit [DecidableEq U] [Inhabited U] in
private theorem Imported.exists_target (h : Imported createUUID elements state) {element : TriangulationElement file R}
    (helement : element ∈ elements) (hfaces : element.faces ≠ []) :
    ∃ p, state.target createUUID element.product (!element.isIfcSpace) = some p := by
  have hmem : element ∈ elements.flatMap fun element => element.facesByMaterial.map fun _ => element := by
    obtain ⟨face, hface⟩ := List.exists_mem_of_ne_nil _ hfaces
    have hpair : ∃ pair, pair ∈ element.facesByMaterial :=
      ⟨_, List.mem_map_of_mem (List.mem_dedup.2 (List.mem_map_of_mem hface))⟩
    obtain ⟨pair, hpair⟩ := hpair
    exact List.mem_flatMap.2 ⟨element, helement, List.mem_map.2 ⟨pair, hpair, rfl⟩⟩
  obtain ⟨i, hi, hget⟩ := List.getElem_of_mem hmem
  have hsits := h.meshes.get hi (h.meshes.length_eq ▸ hi)
  obtain ⟨p, -, htarget, -⟩ := hsits
  rw [List.get_eq_getElem, hget] at htarget
  exact ⟨p, htarget⟩

omit [DecidableEq U] [Inhabited U] in
/-- Every object that is needed has a node. -/
theorem Imported.exists_node (h : Imported createUUID elements state) {object : file.Object}
    (hneeded : Needed elements object) :
    ∃ node ∈ state.nodes, node.origin = .leaf object ∨ node.origin = .branch object := by
  have hbranch : ∀ object : file.Object, state.entry (.branch object) ≠ none →
      ∃ node ∈ state.nodes, node.origin = .leaf object ∨ node.origin = .branch object := by
    intro object hsome
    obtain ⟨id, hid⟩ := Option.ne_none_iff_exists'.1 hsome
    obtain ⟨node, hnode, -, horigin⟩ := h.inv.branch_of_entry hid
    exact ⟨node, hnode, .inr horigin⟩
  induction hneeded with
  | @element element helement hfaces hspace =>
    obtain ⟨p, htarget⟩ := h.exists_target helement hfaces
    have hspace' : (!element.isIfcSpace) = true := by simp [TriangulationElement.isIfcSpace, hspace]
    rw [hspace'] at htarget
    obtain ⟨node, hnode, -, hslot⟩ := h.inv.found (.leaf element.product) p htarget
    exact ⟨node, hnode, .inl (origin_of_leaf hslot)⟩
  | @aboveSpace element parent helement hfaces hspace hparent =>
    obtain ⟨p, htarget⟩ := h.exists_target helement hfaces
    have hspace' : (!element.isIfcSpace) = false := by simp [TriangulationElement.isIfcSpace, hspace]
    rw [hspace'] at htarget
    have hplace : state.place createUUID element.product = some p := htarget
    have hnot : file.shouldGroupByType element.product (some parent) = false :=
      Bool.eq_false_iff.2 fun hyes => not_grouped_of_space hspace parent ⟨hparent, hyes⟩
    rw [place_of_parent hparent hnot] at hplace
    exact hbranch parent (by rw [hplace]; exact nofun)
  | parent _ hparent ih =>
    obtain ⟨node, hnode, horigin⟩ := ih
    exact hbranch _ (h.inv.above node hnode _ horigin _ hparent)

/-! ### When the tree is right -/

omit [DecidableEq U] [Inhabited U] in
private theorem Imported.distinctKeys (h : Imported createUUID elements state) (hgroups : GroupsByType elements state) :
    DistinctKeys elements := by
  intro x y p q hx hy hxp hyq hkeys
  obtain ⟨node, hnode, horigin⟩ := h.exists_node hx
  obtain ⟨other, hother, horigin'⟩ := h.exists_node hy
  obtain ⟨top, htop⟩ := exists_isTop hnode horigin
  obtain ⟨top', htop'⟩ := exists_isTop hother horigin'
  refine (hgroups.same x y p q top top' hxp hyq htop htop').1 ?_
  obtain ⟨a, hplace, ha⟩ := h.inv.place_of_top htop
  obtain ⟨b, hplace', hb⟩ := h.inv.place_of_top htop'
  rw [place_of_group hxp.1 hxp.2] at hplace
  rw [place_of_group hyq.1 hyq.2, ← groupId_eq_iff.2 hkeys, hplace] at hplace'
  rw [ha, hb, Option.some.inj hplace']

omit [DecidableEq U] [Inhabited U] in
theorem Imported.groupsByType (h : Imported createUUID elements state) (hinj : Function.Injective createUUID)
    (hkeys : DistinctKeys elements) : GroupsByType elements state := by
  refine ⟨?_, ?_, ?_, ?_, ?_⟩
  · intro x y p q node other hxp hyq htop htop'
    obtain ⟨a, hplace, ha⟩ := h.inv.place_of_top htop
    obtain ⟨b, hplace', hb⟩ := h.inv.place_of_top htop'
    rw [place_of_group hxp.1 hxp.2] at hplace
    rw [place_of_group hyq.1 hyq.2] at hplace'
    rw [ha, hb]
    constructor
    · intro hsame
      obtain rfl := List.singleton_inj.1 hsame
      obtain ⟨group, hgroup, hid, hslot⟩ := h.inv.found _ _ hplace
      obtain ⟨group', hgroup', hid', hslot'⟩ := h.inv.found _ _ hplace'
      obtain rfl := h.inv.node_ext hinj hgroup hgroup' (hid.trans hid'.symm)
      have hkey := groupId_eq_iff.1 (Slot.branch.inj (Option.some.inj (hslot.symm.trans hslot')))
      exact hkeys x y p q (h.needed_of_isTop htop) (h.needed_of_isTop htop') hxp hyq hkey
    · rintro ⟨rfl, htype⟩
      rw [← htype, hplace] at hplace'
      rw [Option.some.inj hplace']
  · intro x p node hxp htop
    obtain ⟨a, hplace, ha⟩ := h.inv.place_of_top htop
    rw [place_of_group hxp.1 hxp.2] at hplace
    obtain ⟨group, hgroup, rfl, hslot⟩ := h.inv.found _ _ hplace
    have horigin : group.origin = .group p (file.object x).type := by
      have hneeded := h.originNeeded hgroup
      cases hmade : group.origin with
      | group p' type =>
        rw [hmade] at hslot hneeded
        obtain ⟨y, hy, hyp, rfl⟩ := hneeded
        have hkey := groupId_eq_iff.1 (Slot.branch.inj (Option.some.inj hslot))
        obtain ⟨rfl, htype⟩ := hkeys y x p' p hy (h.needed_of_isTop htop) hyp hxp hkey
        rw [htype]
      | branch z =>
        rw [hmade] at hslot
        exact absurd (Slot.branch.inj (Option.some.inj hslot)).symm (groupId_ne p z _)
      | root =>
        rw [hmade] at hslot
        exact absurd hslot nofun
      | leaf z =>
        rw [hmade] at hslot
        exact absurd hslot nofun
    have hparents := h.inv.parents group hgroup
    rw [horigin] at hparents
    obtain ⟨b, hbranch, hb⟩ := Option.map_eq_some_iff.1 hparents
    obtain ⟨branch, hmem, rfl, hmade⟩ := h.inv.branch_of_entry hbranch
    exact ⟨group, hgroup, horigin, ha, branch, hmem, hmade, hb.symm⟩
  · intro x node hnot htop
    obtain ⟨a, hplace, ha⟩ := h.inv.place_of_top htop
    rw [ha]
    exact h.inv.underParent hnot hplace
  · refine h.meshes.imp fun element mesh hsits hspace => ?_
    obtain ⟨p, hparent, htarget, -⟩ := hsits
    have hspace' : (!element.isIfcSpace) = false := by simp [TriangulationElement.isIfcSpace, hspace]
    rw [hspace'] at htarget
    rw [hparent]
    exact h.inv.underParent (not_grouped_of_space hspace) htarget
  · intro x leaf branch hleaf hbranch horigin horigin'
    have hparents := h.inv.parents leaf hleaf
    have hentry := h.inv.entries branch hbranch (.branch x) (by rw [horigin']; rfl)
    rw [horigin, ImportState.parentsOf, hentry] at hparents
    exact (Option.some.inj hparents).symm

/-- The tree groups by parent and type if and only if no two groups that are needed have one key. -/
theorem groupsByType_iff (hinj : Function.Injective createUUID) (hok : importElements createUUID elements = .ok state) :
    GroupsByType elements state ↔ DistinctKeys elements := by
  have h := imported_importElements hinj hok
  exact ⟨h.distinctKeys, h.groupsByType hinj⟩

end Imported

private theorem grouped_example : ∀ x p : exampleFile.Object, Grouped x p ↔ (x = 3 ∧ p = 1) ∨ (x = 4 ∧ p = 2) ∨ (x = 5 ∧ p = 2) := by
  unfold Grouped
  decide

/-- With the wall and the window there are two groups, the keys of which are different. -/
theorem groupsByType_example : ∃ state, importElements (id : ℕ → ℕ) [exampleElement 3, exampleElement 5] = .ok state ∧
    GroupsByType [exampleElement 3, exampleElement 5] state := by
  obtain ⟨state, hok⟩ := exists_import_example [3, 5]
  refine ⟨state, hok, (groupsByType_iff Function.injective_id hok).2 ?_⟩
  intro x y p q hx hy hxp hyq hkey
  have hnot : ∀ z : exampleFile.Object, Needed [exampleElement 3, exampleElement 5] z → z ≠ 4 := by
    have hparent : ∀ object : exampleFile.Object, exampleFile.getParent object ≠ some 4 := by decide
    rintro z hz rfl
    generalize hfour : (4 : exampleFile.Object) = four at hz
    cases hz with
    | element helement _ _ =>
      rcases List.mem_pair.1 helement with rfl | rfl <;> exact absurd hfour (by decide)
    | aboveSpace _ _ _ habove => exact hparent _ (hfour ▸ habove)
    | parent _ habove => exact hparent _ (hfour ▸ habove)
  rcases ((grouped_example x p).1 hxp) with ⟨rfl, rfl⟩ | h | ⟨rfl, rfl⟩
  · rcases ((grouped_example y q).1 hyq) with ⟨rfl, rfl⟩ | h | ⟨rfl, rfl⟩
    · exact ⟨rfl, rfl⟩
    · exact absurd h.1 (hnot y hy)
    · exact absurd hkey (by decide)
  · exact absurd h.1 (hnot x hx)
  · rcases ((grouped_example y q).1 hyq) with ⟨rfl, rfl⟩ | h | ⟨rfl, rfl⟩
    · exact absurd hkey (by decide)
    · exact absurd h.1 (hnot y hy)
    · exact ⟨rfl, rfl⟩

/-- The wall and the door are put under one node: the identifiers and the types have the sums `1 + 8` and `2 + 7`. -/
theorem not_groupsByType : ∃ state, importElements (id : ℕ → ℕ) [exampleElement 3, exampleElement 4] = .ok state ∧
    ¬ GroupsByType [exampleElement 3, exampleElement 4] state := by
  obtain ⟨state, hok⟩ := exists_import_example [3, 4]
  refine ⟨state, hok, fun hgroups => ?_⟩
  have hkeys := (imported_importElements Function.injective_id hok).distinctKeys hgroups
  have hneeded : ∀ product : exampleFile.Object, product = 3 ∨ product = 4 →
      Needed [exampleElement 3, exampleElement 4] product := by
    rintro product (rfl | rfl)
    · have hwall : exampleElement 3 ∈ [exampleElement 3, exampleElement 4] := List.mem_cons_self
      exact .element hwall (List.cons_ne_nil _ _) (by decide)
    · have hdoor : exampleElement 4 ∈ [exampleElement 3, exampleElement 4] :=
        List.mem_cons_of_mem _ List.mem_cons_self
      exact .element hdoor (List.cons_ne_nil _ _) (by decide)
  have hsame := (hkeys 3 4 1 2 (hneeded 3 (.inl rfl)) (hneeded 4 (.inr rfl)) ((grouped_example 3 1).2 (by decide))
    ((grouped_example 4 2).2 (by decide)) rfl).1
  exact absurd hsame (by decide)

end Bouncer.IfcSerialiser
