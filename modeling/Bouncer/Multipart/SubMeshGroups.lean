import Bouncer.Multipart.SubMeshRun

/-!
# The groups of a plan

The parts of a plan are those of its mappings, in their order (`parts_plan`).  A group is either one run of a mesh that
is split, or made of meshes within the limits, and then within them itself (`isGroup_of_mem`).
-/

namespace Bouncer.MeshMapReorganiser

open Library
open Reorganiser (numVertices numFaces)

variable {U M R : Type} {reorganiser : Reorganiser U M R}

/-! ### Positions -/

/-- What the vertices of a group hold in a buffer. -/
theorem take_drop_gather {α : Type} (old : List α) (default : α) (rest : List α) {groups : List (List (Part U M R))}
    {p : ℕ × ℕ × List (Part U M R)} (hp : p ∈ placed vertCount faceCount 0 0 groups) :
    ((gather old default groups.flatten ++ rest).drop p.1).take (vertCount p.2.2) = gather old default p.2.2 := by
  obtain ⟨before, after, hgroups, hv, -⟩ := mem_placed hp
  have hlength : ∀ parts : List (Part U M R), (gather old default parts).length = vertCount parts := by
    intro parts
    rw [gather, List.length_map, length_vertsOf]
  have hflatten : groups.flatten = before.flatten ++ (p.2.2 ++ after.flatten) := by rw [hgroups]; simp
  rw [hflatten, gather_append, gather_append, List.append_assoc, hv, sum_vertCount, Nat.zero_add,
    List.drop_left' (hlength before.flatten), List.append_assoc, List.take_left' (hlength p.2.2)]

theorem length_flatMap_faces (parts : List (Part U M R)) : (parts.flatMap Part.faces).length = faceCount parts :=
  List.length_flatMap ..

theorem exists_of_mem_entries {v f : ℕ} {parts : List (Part U M R)} {entry : RepoMeshMapping U M R}
    (h : entry ∈ entries v f parts) : ∃ part ∈ parts, ∃ v' f', entry = part.entry v' f' := by
  obtain ⟨p, hp, rfl⟩ := List.mem_map.1 h
  have hmap : (placedParts v f parts).map (fun p => p.2.2) = parts := map_placed parts
  exact ⟨p.2.2, hmap ▸ List.mem_map_of_mem hp, p.1, p.2.1, rfl⟩

theorem map_vertRange_entries (v f : ℕ) (parts : List (Part U M R)) :
    (entries v f parts).map RepoMeshMapping.vertRange = spans v (parts.map fun part => part.verts.length) := by
  rw [entries, List.map_map, ← map_placed_fst]
  rfl

theorem map_triRange_entries (v f : ℕ) (parts : List (Part U M R)) :
    (entries v f parts).map RepoMeshMapping.triRange = spans f (parts.map fun part => part.faces.length) := by
  rw [entries, List.map_map, ← map_placed_snd]
  rfl

section Done

variable [LinearOrder R] [Zero R] [Inhabited U] [Inhabited M]

theorem doneSubMesh_vertRange (v f : ℕ) (parts : List (Part U M R)) :
    (doneSubMesh v f parts).mapping.vertRange = (v, v + vertCount parts) := by
  unfold doneSubMesh
  cases boxOf parts <;> rfl

theorem doneSubMesh_triRange (v f : ℕ) (parts : List (Part U M R)) :
    (doneSubMesh v f parts).mapping.triRange = (f, f + faceCount parts) := by
  unfold doneSubMesh
  cases boxOf parts <;> rfl

theorem mem_layOut {groups : List (List (Part U M R))} {subMesh : SubMesh U M R} : subMesh ∈ layOut groups ↔
    ∃ p ∈ placed vertCount faceCount 0 0 groups, doneSubMesh p.1 p.2.1 p.2.2 = subMesh := List.mem_map

end Done

/-- All ranges are stored as they are. -/
def State.Fits (s : State U M R) : Prop :=
  ∀ subMesh ∈ s.subMeshes, subMesh.mapping.Fits ∧ ∀ entry ∈ subMesh.matMap, entry.Fits

namespace Reorganiser

/-! ### The parts -/

theorem prepare_idMapIdx (plan : Plan U M R) (mapping : RepoMeshMapping U M R) :
    (reorganiser.prepare plan mapping).idMapIdx = plan.idMapIdx := by
  unfold prepare
  split_ifs <;> rfl

section Parts

variable [Zero R]

/-- The parts of a mapping. -/
def partsOf (reorganiser : Reorganiser U M R) (p : RepoMeshMapping U M R × ℕ) : List (Part U M R) :=
  if reorganiser.Oversized p.1 then (reorganiser.runs p.1).map (reorganiser.piece p.2 p.1)
  else [reorganiser.whole p.2 p.1]

theorem source_of_mem_partsOf {p : RepoMeshMapping U M R × ℕ} {part : Part U M R} (h : part ∈ reorganiser.partsOf p) :
    part.source = p.1 ∧ part.idMapIdx = p.2 := by
  unfold partsOf at h
  split_ifs at h
  · obtain ⟨run, -, rfl⟩ := List.mem_map.1 h
    exact ⟨rfl, rfl⟩
  · rw [List.mem_singleton.1 h]
    exact ⟨rfl, rfl⟩

theorem idMapIdx_extend (plan : Plan U M R) (mapping : RepoMeshMapping U M R) :
    (reorganiser.extend plan mapping).idMapIdx = plan.idMapIdx + 1 := by
  unfold extend
  split_ifs <;> rfl

theorem parts_extend (plan : Plan U M R) (mapping : RepoMeshMapping U M R) :
    (reorganiser.extend plan mapping).parts = plan.parts ++ reorganiser.partsOf (mapping, plan.idMapIdx) := by
  obtain ⟨parts, hcurrent, hparts⟩ := reorganiser.prepare_current plan mapping
  have hprepare := reorganiser.prepare_parts plan mapping
  rw [Plan.parts, Plan.openParts, hcurrent, Option.getD_some] at hprepare
  by_cases hoversized : reorganiser.Oversized mapping
  · obtain rfl := hparts hoversized
    rw [extend, if_pos hoversized, partsOf, if_pos hoversized, ← hprepare]
    have hpieces : ((reorganiser.runs mapping).map fun run => [reorganiser.piece plan.idMapIdx mapping run]).flatten =
        (reorganiser.runs mapping).map (reorganiser.piece plan.idMapIdx mapping) := by
      rw [← List.flatMap_def, ← List.map_eq_flatMap]
    simp [Plan.parts, Plan.openParts, withRuns, prepare_idMapIdx, hpieces]
  · rw [extend, if_neg hoversized, partsOf, if_neg hoversized, ← hprepare]
    simp [Plan.parts, Plan.openParts, hcurrent]

private theorem parts_foldl_extend (plan : Plan U M R) (mappings : List (RepoMeshMapping U M R)) :
    (mappings.foldl reorganiser.extend plan).parts =
      plan.parts ++ (mappings.zipIdx plan.idMapIdx).flatMap reorganiser.partsOf := by
  induction mappings generalizing plan with
  | nil => simp
  | cons mapping mappings ih =>
    rw [List.foldl_cons, ih, parts_extend, idMapIdx_extend, List.zipIdx_cons, List.flatMap_cons, List.append_assoc]

theorem parts_plan (reorganiser : Reorganiser U M R) :
    reorganiser.plan.parts = reorganiser.mesh.meshMapping.zipIdx.flatMap reorganiser.partsOf :=
  parts_foldl_extend Plan.empty reorganiser.mesh.meshMapping

private theorem flatMap_faces_partsOf (p : RepoMeshMapping U M R × ℕ) :
    (reorganiser.partsOf p).flatMap Part.faces = reorganiser.facesOf p.1 := by
  unfold partsOf
  split_ifs
  · rw [List.flatMap_map, ← reorganiser.flatten_runs]
    exact List.flatMap_id ..
  · rw [List.flatMap_singleton, whole_faces]

private theorem flatMap_faces_foldl {plan : Plan U M R} {mappings : List (RepoMeshMapping U M R)} {f : ℕ}
    (hall : reorganiser.AllNext plan mappings)
    (htri : Tiles (faceCount plan.parts) (mappings.map RepoMeshMapping.triRange) f)
    (h : plan.parts.flatMap Part.faces = reorganiser.mesh.faces.take (faceCount plan.parts)) :
    (mappings.foldl reorganiser.extend plan).parts.flatMap Part.faces = reorganiser.mesh.faces.take f := by
  induction mappings generalizing plan with
  | nil =>
    obtain rfl := htri
    exact h
  | cons mapping mappings ih =>
    obtain ⟨hnext, hall⟩ := hall
    obtain ⟨-, hlt, htri⟩ := htri
    have hcount := hnext.faceCount_extend
    rw [List.foldl_cons]
    refine ih hall (hcount ▸ htri) ?_
    have hlt : mapping.triFrom < mapping.triTo := hnext.tri_lt
    rw [parts_extend, List.flatMap_append, flatMap_faces_partsOf, h, ← parts_extend, hcount, hnext.triFrom, facesOf,
      readFaces, ← List.take_add, numFaces, Nat.add_sub_cancel' hlt.le]

/-- The parts of the plan have the faces of the supermesh in their order. -/
theorem flatMap_faces_plan (hmesh : WellFormed reorganiser.mesh) :
    reorganiser.plan.parts.flatMap Part.faces = reorganiser.mesh.faces := by
  have hfaces := flatMap_faces_foldl (allNext_of_wellFormed hmesh) hmesh.triRanges rfl
  rwa [List.take_length] at hfaces

/-- The number of vertices that there are in the end. -/
def newVertexCount (reorganiser : Reorganiser U M R) : ℕ :=
  vertCount (reorganiser.mesh.meshMapping.zipIdx.flatMap reorganiser.partsOf)

/-- There are as many faces as before. -/
theorem faceCount_plan (hmesh : WellFormed reorganiser.mesh) :
    faceCount reorganiser.plan.parts = reorganiser.mesh.faces.length := by
  rw [← length_flatMap_faces, flatMap_faces_plan hmesh]

end Parts

/-! ### What a group is -/

/-- The parts are meshes that are not split, together within the limits. -/
structure IsSmallGroup (reorganiser : Reorganiser U M R) (group : List (Part U M R)) : Prop where
  whole : ∀ part ∈ group, ∃ mapping ∈ reorganiser.mesh.meshMapping, ∃ idMapIdx, ¬ reorganiser.Oversized mapping ∧
    part = reorganiser.whole idMapIdx mapping
  vertCount_le : vertCount group ≤ reorganiser.maxVertices
  faceCount_le : faceCount group ≤ reorganiser.maxFaces

private theorem isSmallGroup_nil (reorganiser : Reorganiser U M R) : reorganiser.IsSmallGroup ([] : List (Part U M R)) :=
  ⟨fun _ h => absurd h List.not_mem_nil, Nat.zero_le _, Nat.zero_le _⟩

variable {plan : Plan U M R} {mapping : RepoMeshMapping U M R}

private theorem prepare_room (hsmall : ¬ reorganiser.Oversized mapping) {parts : List (Part U M R)}
    (hcurrent : (reorganiser.prepare plan mapping).current = some parts) :
    vertCount parts + numVertices mapping ≤ reorganiser.maxVertices ∧
      faceCount parts + numFaces mapping ≤ reorganiser.maxFaces := by
  unfold Oversized at hsmall
  unfold Reorganiser.prepare at hcurrent
  split_ifs at hcurrent with hcond
  · obtain rfl := Option.some.inj hcurrent
    rw [vertCount_nil, faceCount_nil]
    omega
  · rw [Plan.openParts, hcurrent, Option.getD_some] at hcond
    omega

variable [Zero R]

/-- The only part is a run of a mesh that is split. -/
def IsRunGroup (reorganiser : Reorganiser U M R) (group : List (Part U M R)) : Prop :=
  ∃ mapping ∈ reorganiser.mesh.meshMapping, ∃ run ∈ reorganiser.runs mapping, ∃ idMapIdx, reorganiser.Oversized mapping ∧
    group = [reorganiser.piece idMapIdx mapping run]

def IsGroup (reorganiser : Reorganiser U M R) (group : List (Part U M R)) : Prop :=
  reorganiser.IsSmallGroup group ∨ reorganiser.IsRunGroup group

/-- The closed groups are groups, and the current one is of meshes that are not split. -/
structure IsGrouped (reorganiser : Reorganiser U M R) (plan : Plan U M R) : Prop where
  closed : ∀ group ∈ plan.closed, reorganiser.IsGroup group
  current : ∀ group, plan.current = some group → reorganiser.IsSmallGroup group

theorem IsGrouped.groups (h : reorganiser.IsGrouped plan) : ∀ group ∈ plan.groups, reorganiser.IsGroup group := by
  intro group hgroup
  rcases List.mem_append.1 hgroup with hgroup | hgroup
  · exact h.closed group hgroup
  · exact Or.inl (h.current group (Option.mem_toList.1 hgroup))

theorem IsGrouped.prepare (h : reorganiser.IsGrouped plan) (mapping : RepoMeshMapping U M R) :
    reorganiser.IsGrouped (reorganiser.prepare plan mapping) := by
  unfold Reorganiser.prepare
  split_ifs
  · refine ⟨h.groups, ?_⟩
    intro group hgroup
    rw [← Option.some.inj hgroup]
    exact isSmallGroup_nil reorganiser
  · exact h

theorem IsGrouped.extend (h : reorganiser.IsGrouped plan) (hmem : mapping ∈ reorganiser.mesh.meshMapping)
    (hnext : reorganiser.IsNext plan mapping) : reorganiser.IsGrouped (reorganiser.extend plan mapping) := by
  obtain ⟨parts, hcurrent, -⟩ := reorganiser.prepare_current plan mapping
  have hprepare := h.prepare mapping
  by_cases hoversized : reorganiser.Oversized mapping
  · rw [Reorganiser.extend, if_pos hoversized]
    refine ⟨?_, fun group hgroup => absurd hgroup (Option.some_ne_none group).symm⟩
    intro group hgroup
    rcases List.mem_append.1 hgroup with hgroup | hgroup
    · exact hprepare.closed group hgroup
    · obtain ⟨run, hrun, rfl⟩ := List.mem_map.1 hgroup
      exact Or.inr ⟨mapping, hmem, run, hrun, _, hoversized, rfl⟩
  · rw [Reorganiser.extend, if_neg hoversized]
    refine ⟨hprepare.closed, ?_⟩
    intro group hgroup
    rw [← Option.some.inj hgroup, Plan.openParts, hcurrent, Option.getD_some]
    obtain ⟨hverts, hfaces⟩ := prepare_room hoversized hcurrent
    have hparts := hprepare.current parts hcurrent
    refine ⟨?_, ?_, ?_⟩
    · intro part hpart
      rcases List.mem_append.1 hpart with hpart | hpart
      · exact hparts.whole part hpart
      · exact ⟨mapping, hmem, _, hoversized, List.mem_singleton.1 hpart⟩
    · rwa [vertCount_append, vertCount_singleton, length_verts_whole]
    · rwa [faceCount_append, faceCount_singleton, whole_faces, hnext.length_facesOf]

theorem isGroup_of_mem (hmesh : WellFormed reorganiser.mesh) :
    ∀ group ∈ reorganiser.plan.groups, reorganiser.IsGroup group := by
  have hstart : reorganiser.IsGrouped (Plan.empty : Plan U M R) :=
    ⟨fun _ h => absurd h List.not_mem_nil, fun group h => absurd h (Option.some_ne_none group).symm⟩
  have hgrouped : reorganiser.IsGrouped reorganiser.plan :=
    (allNext_of_wellFormed hmesh).induction hstart fun plan mapping hmem hnext h => h.extend hmem hnext
  exact hgrouped.groups

/-- Each run of a mesh that is split is a group. -/
theorem exists_placed_piece (hmesh : WellFormed reorganiser.mesh) {mapping : RepoMeshMapping U M R}
    (hmem : mapping ∈ reorganiser.mesh.meshMapping) (hoversized : reorganiser.Oversized mapping) {run : List RepoFace}
    (hrun : run ∈ reorganiser.runs mapping) : ∃ v f idMapIdx,
      (v, f, [reorganiser.piece idMapIdx mapping run]) ∈ placed vertCount faceCount 0 0 reorganiser.plan.groups := by
  obtain ⟨k, hk⟩ := List.mem_iff_getElem?.1 hmem
  have hpart : reorganiser.piece k mapping run ∈ reorganiser.plan.groups.flatten := by
    rw [Plan.flatten_groups, parts_plan]
    refine List.mem_flatMap.2 ⟨(mapping, k), List.mem_zipIdx_iff_getElem?.2 hk, ?_⟩
    rw [partsOf, if_pos hoversized]
    exact List.mem_map_of_mem hrun
  obtain ⟨group, hgroup, hpart⟩ := List.mem_flatten.1 hpart
  have hsingle : group = [reorganiser.piece k mapping run] := by
    rcases isGroup_of_mem hmesh group hgroup with hsmall | ⟨mapping', -, run', -, k', -, rfl⟩
    · obtain ⟨mapping', -, k', hsmall, heq⟩ := hsmall.whole _ hpart
      obtain rfl : mapping = mapping' := congrArg Part.source heq
      exact absurd hoversized hsmall
    · rw [List.mem_singleton.1 hpart]
  obtain ⟨p, hp, hgroup⟩ := exists_placed_of_mem hgroup 0 0
  rw [hsingle] at hgroup
  exact ⟨p.1, p.2.1, k, hgroup ▸ hp⟩

/-! ### Stored ranges -/

theorem Renders.triRange [LinearOrder R] [Inhabited U] [Inhabited M] (hmesh : WellFormed reorganiser.mesh)
    {splitMap : U → Option (List ℕ)} {s : State U M R} (hs : reorganiser.Renders reorganiser.plan.groups splitMap s)
    {subMesh : SubMesh U M R} (hsubMesh : subMesh ∈ s.subMeshes) :
    subMesh.mapping.triFrom ≤ subMesh.mapping.triTo ∧ subMesh.mapping.triTo < 2 ^ 31 := by
  have hfaces := hmesh.length_faces_lt
  rw [← faceCount_plan hmesh, ← Plan.flatten_groups] at hfaces
  rw [hs.subMeshes] at hsubMesh
  obtain ⟨p, hp, rfl⟩ := mem_layOut.1 hsubMesh
  obtain ⟨before, after, hgroups, -, hf⟩ := mem_placed hp
  have htri := doneSubMesh_triRange p.1 p.2.1 p.2.2
  rw [sum_faceCount] at hf
  rw [hgroups, List.flatten_append, List.flatten_cons, faceCount_append, faceCount_append] at hfaces
  simp only [RepoMeshMapping.triRange, Prod.mk.injEq] at htri
  omega

/-- The ranges are exact exactly as long as the new vertices can be counted with an `int32_t`. -/
theorem Renders.fits_iff [LinearOrder R] [Inhabited U] [Inhabited M] (hmesh : WellFormed reorganiser.mesh)
    {splitMap : U → Option (List ℕ)} {s : State U M R}
    (hs : reorganiser.Renders reorganiser.plan.groups splitMap s) : s.Fits ↔ reorganiser.newVertexCount < 2 ^ 31 := by
  have hcount : reorganiser.newVertexCount = vertCount reorganiser.plan.groups.flatten := by
    rw [Plan.flatten_groups, parts_plan, newVertexCount]
  have hfaces : faceCount reorganiser.plan.groups.flatten < 2 ^ 31 := by
    rw [Plan.flatten_groups, faceCount_plan hmesh]
    exact hmesh.length_faces_lt
  rw [hcount]
  unfold State.Fits
  rw [hs.subMeshes]
  generalize reorganiser.plan.groups = groups at hfaces
  constructor
  · intro h
    rcases List.eq_nil_or_concat groups with rfl | ⟨groups, group, rfl⟩
    · exact Nat.two_pow_pos 31
    rw [List.concat_eq_append, layOut_concat] at h
    have hlast := (h _ (List.mem_append_right _ (List.mem_singleton_self _))).1.vertTo
    have hto := congrArg Prod.snd (doneSubMesh_vertRange (vertCount groups.flatten) (faceCount groups.flatten) group)
    rw [List.concat_eq_append, List.flatten_append, List.flatten_singleton, vertCount_append]
    calc vertCount groups.flatten + vertCount group = _ := hto.symm
      _ < 2 ^ 31 := int32_eq_iff.1 hlast
  · intro hvertices subMesh hsubMesh
    obtain ⟨p, hp, rfl⟩ := mem_layOut.1 hsubMesh
    obtain ⟨before, after, rfl, hv, hf⟩ := mem_placed hp
    rw [sum_vertCount, Nat.zero_add] at hv
    rw [sum_faceCount, Nat.zero_add] at hf
    rw [List.flatten_append, List.flatten_cons, vertCount_append, vertCount_append] at hvertices
    rw [List.flatten_append, List.flatten_cons, faceCount_append, faceCount_append] at hfaces
    have hvert := doneSubMesh_vertRange p.1 p.2.1 p.2.2
    have htri := doneSubMesh_triRange p.1 p.2.1 p.2.2
    simp only [RepoMeshMapping.vertRange, RepoMeshMapping.triRange, Prod.mk.injEq] at hvert htri
    refine ⟨RepoMeshMapping.fits_of_lt ?_ ?_ ?_ ?_, fun entry hentry => ?_⟩
    all_goals try omega
    have hentry' : entry ∈ entries p.1 p.2.1 p.2.2 := hentry
    have hverts : _ ∧ entry.vertFrom ≤ entry.vertTo ∧ entry.vertTo ≤ p.1 + vertCount p.2.2 :=
      mem_spans_bounds (map_vertRange_entries p.1 p.2.1 p.2.2 ▸ List.mem_map_of_mem hentry')
    have htris : _ ∧ entry.triFrom ≤ entry.triTo ∧ entry.triTo ≤ p.2.1 + faceCount p.2.2 :=
      mem_spans_bounds (map_triRange_entries p.1 p.2.1 p.2.2 ▸ List.mem_map_of_mem hentry')
    exact RepoMeshMapping.fits_of_lt hverts.2.1 (by omega) htris.2.1 (by omega)

end Reorganiser

end Bouncer.MeshMapReorganiser
