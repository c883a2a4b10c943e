import Bouncer.Multipart.RemappedGeometry

/-!
# The lists that the reorganiser keeps

Beside the geometry the reorganiser keeps the mappings of the new submeshes, their parts of the material map, the ids of
their vertices and the submeshes of each mesh.  All of them follow from the groups of the plan: the parts of a group lie
one after the other in its submesh (`mem_placed_flatten`), a part has some of the vertices and faces of its mesh
(`faces_of_mem_placed`, `verts_of_mem_parts`), and a mesh has a part in the groups that are listed for it
(`inGroup_extend`).

The ids are kept as `float`s, which are exact up to `2 ^ 24` (`toFloat_of_le`), and the ranges as `int32_t`s.  Up to this the
lists are consistent (`bookkept_members`).
-/

namespace Bouncer.MeshMapReorganiser

open Library
open MultipartOptimizer (SupermeshNode)
open Reorganiser (numVertices numFaces)

variable {U M R : Type}

/-- The submesh has a face of the mapping. -/
def SubMesh.Holds (subMesh : SubMesh U M R) (mapping : RepoMeshMapping U M R) : Prop :=
  ∃ i, mapping.triFrom ≤ i ∧ i < mapping.triTo ∧ subMesh.HasFace i

/-- The entry of a material map is for the mapping: it has its identifier, and vertices and faces of it only. -/
structure IsEntryOf (mesh : SupermeshNode U M R) (s : State U M R) (mapping entry : RepoMeshMapping U M R) : Prop where
  meshId : entry.meshId = mapping.meshId
  faces : mapping.triFrom ≤ entry.triFrom ∧ entry.triTo ≤ mapping.triTo
  vertices : ∀ v, entry.vertFrom ≤ v → v < entry.vertTo →
    ∃ i, mapping.vertFrom ≤ i ∧ i < mapping.vertTo ∧ s.buffers.corner v = mesh.buffers.corner i

/-- The lists are consistent, with the ranges as they are stored, when the ids of the vertices are these values of the
positions of their mappings. -/
structure Bookkept (reorganiser : Reorganiser U M R) (value : ℕ → ℕ) (s : State U M R) : Prop where
  fits : s.Fits
  vertRanges : Chains 0 (s.subMeshes.map fun subMesh => subMesh.mapping.vertRange) s.buffers.vertices.length
  triRanges : Chains 0 (s.subMeshes.map fun subMesh => subMesh.mapping.triRange) s.newFaces.length
  within : ∀ subMesh ∈ s.subMeshes,
    numVertices subMesh.mapping ≤ reorganiser.maxVertices ∧ numFaces subMesh.mapping ≤ reorganiser.maxFaces
  splitMap : ∀ mapping ∈ reorganiser.mesh.meshMapping, ∃ list, s.splitMap mapping.meshId = some list ∧ list.Nodup ∧
    ∀ k, k ∈ list ↔ ∃ subMesh, s.subMeshes[k]? = some subMesh ∧ subMesh.Holds mapping
  entries : ∀ subMesh ∈ s.subMeshes,
    Chains subMesh.mapping.vertFrom (subMesh.matMap.map RepoMeshMapping.vertRange) subMesh.mapping.vertTo ∧
      Chains subMesh.mapping.triFrom (subMesh.matMap.map RepoMeshMapping.triRange) subMesh.mapping.triTo
  ids : ∀ subMesh ∈ s.subMeshes, subMesh.idMapBuf.length = numVertices subMesh.mapping ∧
    ∀ entry ∈ subMesh.matMap, ∃ m mapping, reorganiser.mesh.meshMapping[m]? = some mapping ∧
      IsEntryOf reorganiser.mesh s mapping entry ∧ ∀ v, entry.vertFrom ≤ v → v < entry.vertTo →
        subMesh.idMapBuf[v - subMesh.mapping.vertFrom]? = some (value m)

variable {s : State U M R}

private theorem Bookkept.congr {reorganiser : Reorganiser U M R} {value value' : ℕ → ℕ}
    (h : Bookkept reorganiser value s) (hvalue : ∀ m < reorganiser.mesh.meshMapping.length, value m = value' m) :
    Bookkept reorganiser value' s := by
  refine { h with ids := ?_ }
  intro subMesh hsubMesh
  obtain ⟨hlength, hentries⟩ := h.ids subMesh hsubMesh
  refine ⟨hlength, ?_⟩
  intro entry hentry
  obtain ⟨m, mapping, hm, hof, hids⟩ := hentries entry hentry
  refine ⟨m, mapping, hm, hof, ?_⟩
  rwa [← hvalue m (List.getElem?_eq_some_iff.1 hm).1]

/-! ### The ids -/

variable {n : ℕ}

private theorem toFloat_of_le (h : n ≤ 2 ^ 24) : toFloat n = n := by
  unfold toFloat
  rcases h.lt_or_eq with h | rfl
  · have hlog : Nat.log2 n - 23 = 0 := by
      by_cases hn : n = 0
      · rw [hn]
        rfl
      · have := (Nat.log2_lt hn).2 h
        omega
    rw [hlog]
    simp [Nat.mod_one]
  · have hlog : Nat.log2 (2 ^ 24) = 24 := Nat.log2_two_pow
    rw [hlog]
    simp

/-! ### The parts of a group -/

section Done

variable [LinearOrder R] [Zero R] [Inhabited U] [Inhabited M]

private theorem doneSubMesh_matMap (v f : ℕ) (parts : List (Part U M R)) : (doneSubMesh v f parts).matMap = entries v f parts :=
  rfl

private theorem doneSubMesh_idMapBuf (v f : ℕ) (parts : List (Part U M R)) : (doneSubMesh v f parts).idMapBuf = idsOf parts :=
  rfl

end Done

private theorem length_idsOf (parts : List (Part U M R)) : (idsOf parts).length = vertCount parts := by
  rw [idsOf, List.length_flatMap]
  exact congrArg List.sum (List.map_congr_left fun part _ => List.length_replicate)

variable {parts : List (Part U M R)} {p : ℕ × ℕ × Part U M R}

private theorem within_of_mem_placedParts {v f : ℕ}
    (hp : p ∈ placedParts v f parts) : (v ≤ p.1 ∧ p.1 + p.2.2.verts.length ≤ v + vertCount parts) ∧
      f ≤ p.2.1 ∧ p.2.1 + p.2.2.faces.length ≤ f + faceCount parts := by
  obtain ⟨before, after, hparts, hv, hf⟩ := mem_placed hp
  have hverts : vertCount parts =
      (before.map fun part => part.verts.length).sum + (p.2.2.verts.length + vertCount after) := by
    rw [hparts, vertCount_append]
    simp [vertCount]
  have hfaces : faceCount parts =
      (before.map fun part => part.faces.length).sum + (p.2.2.faces.length + faceCount after) := by
    rw [hparts, faceCount_append]
    simp [faceCount]
  omega

private theorem exists_placedPart {v f i : ℕ} (hfrom : f ≤ i) (hto : i < f + faceCount parts) :
    ∃ p ∈ placedParts v f parts, p.2.1 ≤ i ∧ i < p.2.1 + p.2.2.faces.length := by
  have hi : i - f < (parts.map fun part => part.faces.length).sum := Nat.sub_lt_left_of_lt_add hfrom hto
  obtain ⟨before, part, after, r, rfl, hr, hlt⟩ := exists_split_of_lt_sum hi
  have hplaced : (v + (before.map fun part => part.verts.length).sum,
      f + (before.map fun part => part.faces.length).sum, part) ∈ placedParts v f (before ++ part :: after) := by
    rw [placedParts, placed_append]
    exact List.mem_append_right _ List.mem_cons_self
  refine ⟨_, hplaced, ?_, ?_⟩
  · dsimp only
    omega
  · dsimp only
    omega

private theorem getElem?_of_mem_placedParts {v f : ℕ}
    (hp : p ∈ placedParts v f parts) {u : ℕ} (hfrom : p.1 ≤ u) (hto : u < p.1 + p.2.2.verts.length) :
    (idsOf parts)[u - v]? = some (toFloat p.2.2.idMapIdx) ∧ ∃ i ∈ p.2.2.verts, (vertsOf parts)[u - v]? = some i := by
  obtain ⟨before, after, hparts, hv, -⟩ := mem_placed hp
  have hr : u - p.1 < p.2.2.verts.length := by omega
  have hu : u - v = (before.map fun part => part.verts.length).sum + (u - p.1) := by omega
  have hids := getElem?_flatMap_split
    (f := fun part : Part U M R => List.replicate part.verts.length (toFloat part.idMapIdx))
    (fun _ => List.length_replicate) before after hr
  have hverts := getElem?_flatMap_split (f := Part.verts) (fun part : Part U M R => rfl) before after hr
  rw [hu, hparts, idsOf, vertsOf, hids, hverts, List.getElem?_replicate, if_pos hr, List.getElem?_eq_getElem hr]
  exact ⟨rfl, _, List.getElem_mem hr, rfl⟩

private theorem mem_placed_flatten {groups : List (List (Part U M R))} {v f : ℕ} {p : ℕ × ℕ × List (Part U M R)}
    (hp : p ∈ placed vertCount faceCount v f groups) {q : ℕ × ℕ × Part U M R} (hq : q ∈ placedParts p.1 p.2.1 p.2.2) :
    q ∈ placedParts v f groups.flatten := by
  obtain ⟨before, after, hgroups, hv, hf⟩ := mem_placed hp
  have hflatten : groups.flatten = before.flatten ++ (p.2.2 ++ after.flatten) := by rw [hgroups]; simp
  rw [sum_vertCount] at hv
  rw [sum_faceCount] at hf
  rw [hv, hf] at hq
  rw [hflatten, placedParts, placed_append, placed_append]
  exact List.mem_append_right _ (List.mem_append_left _ hq)

namespace Reorganiser

variable {reorganiser : Reorganiser U M R}

variable {mapping : RepoMeshMapping U M R}

section Parts

variable [Zero R]

variable {part : Part U M R}

private theorem getElem?_of_mem_parts (h : part ∈ reorganiser.plan.parts) :
    reorganiser.mesh.meshMapping[part.idMapIdx]? = some part.source := by
  rw [parts_plan] at h
  obtain ⟨p, hp, hpart⟩ := List.mem_flatMap.1 h
  obtain ⟨hsource, hidx⟩ := source_of_mem_partsOf hpart
  rw [hsource, hidx]
  exact List.mem_zipIdx_iff_getElem?.1 hp

private theorem verts_of_mem_parts (hmesh : WellFormed reorganiser.mesh)
    (h : part ∈ reorganiser.plan.parts) :
    ∀ i ∈ part.verts, part.source.vertFrom ≤ i ∧ i < part.source.vertTo := by
  have hmem : part.source ∈ reorganiser.mesh.meshMapping := List.mem_of_getElem? (getElem?_of_mem_parts h)
  rw [parts_plan] at h
  obtain ⟨p, hp, hpart⟩ := List.mem_flatMap.1 h
  unfold partsOf at hpart
  split_ifs at hpart
  · obtain ⟨run, hrun, rfl⟩ := List.mem_map.1 hpart
    intro i hi
    obtain ⟨face, hface, hi⟩ := mem_table.1 hi
    have hface : face ∈ reorganiser.facesOf p.1 := by
      rw [← reorganiser.flatten_runs]
      exact List.mem_flatten_of_mem hrun hface
    obtain ⟨n, hfrom, hto, hn⟩ := exists_of_mem_facesOf hface
    exact hmesh.inRange p.1 hmem n face hfrom hto hn i hi
  · obtain rfl := List.mem_singleton.1 hpart
    intro i hi
    have hbounds := hmesh.vertRanges.mem_bounds (List.mem_map_of_mem hmem)
    rw [whole, List.mem_range'_1, numVertices] at hi
    have hlt : p.1.vertFrom < p.1.vertTo := hbounds.2.1
    rw [whole_source]
    omega

private theorem faces_of_mem_placed (hmesh : WellFormed reorganiser.mesh)
    (hp : p ∈ placedParts 0 0 reorganiser.plan.parts) :
    p.2.2.source.triFrom ≤ p.2.1 ∧ p.2.1 + p.2.2.faces.length ≤ p.2.2.source.triTo := by
  let P : Plan U M R → Prop := fun plan => ∀ p ∈ placedParts 0 0 plan.parts,
    p.2.2.source.triFrom ≤ p.2.1 ∧ p.2.1 + p.2.2.faces.length ≤ p.2.2.source.triTo
  have hstep : ∀ plan mapping, mapping ∈ reorganiser.mesh.meshMapping → reorganiser.IsNext plan mapping → P plan →
      P (reorganiser.extend plan mapping) := by
    intro plan mapping _ hnext hplan p hp
    have hcount := hnext.faceCount_extend
    rw [parts_extend] at hp hcount
    rw [placedParts, placed_append] at hp
    rcases List.mem_append.1 hp with hp | hp
    · exact hplan p hp
    · have hfrom := hnext.triFrom
      have hwithin := (within_of_mem_placedParts hp).2
      have hplan : (plan.parts.map fun part => part.faces.length).sum = faceCount plan.parts := rfl
      rw [faceCount_append] at hcount
      rw [(source_of_mem_partsOf (mem_of_mem_placed hp)).1]
      dsimp only
      omega
  exact (allNext_of_wellFormed hmesh).induction (P := P) (fun p hp => absurd hp List.not_mem_nil) hstep p hp

omit [Zero R] in
private theorem facesOf_ne_nil (hmesh : WellFormed reorganiser.mesh)
    (hmem : mapping ∈ reorganiser.mesh.meshMapping) : reorganiser.facesOf mapping ≠ [] := by
  obtain ⟨-, hlt, hle⟩ := hmesh.triRanges.mem_bounds (List.mem_map_of_mem hmem)
  have hlt : mapping.triFrom < mapping.triTo := hlt
  have hle : mapping.triTo ≤ reorganiser.mesh.faces.length := hle
  apply List.ne_nil_of_length_pos
  rw [facesOf, readFaces, List.length_take, List.length_drop, numFaces]
  omega

omit [Zero R] in
private theorem run_ne_nil (hmesh : WellFormed reorganiser.mesh) (hverts : 3 ≤ reorganiser.maxVertices)
    (hfaces : 1 ≤ reorganiser.maxFaces)
    (hmem : mapping ∈ reorganiser.mesh.meshMapping) : ∀ run ∈ reorganiser.runs mapping, run ≠ [] := by
  obtain ⟨face, faces, hface⟩ := List.exists_cons_of_ne_nil (facesOf_ne_nil hmesh hmem)
  have hroom : reorganiser.full [] face = false := by
    have hsides : face.sides ≤ 3 := face.sides_le
    unfold full
    rw [decide_eq_false_iff_not, table_nil]
    dsimp only [List.length_nil]
    omega
  rw [runs, hface, greedyCut_of_not_full hroom]
  refine forall_greedyCut (fun _ => List.cons_ne_nil _ _) (fun current x _ _ => ?_) (List.cons_ne_nil _ _)
  exact List.append_ne_nil_of_right_ne_nil _ (List.cons_ne_nil _ _)

private theorem faces_pos_of_mem_parts (hmesh : WellFormed reorganiser.mesh) (hverts : 3 ≤ reorganiser.maxVertices)
    (hfaces : 1 ≤ reorganiser.maxFaces) (h : part ∈ reorganiser.plan.parts) :
    0 < part.faces.length := by
  have hmem : part.source ∈ reorganiser.mesh.meshMapping := List.mem_of_getElem? (getElem?_of_mem_parts h)
  rw [parts_plan] at h
  obtain ⟨p, hp, hpart⟩ := List.mem_flatMap.1 h
  unfold partsOf at hpart
  split_ifs at hpart
  · obtain ⟨run, hrun, rfl⟩ := List.mem_map.1 hpart
    exact List.length_pos_iff.2 (run_ne_nil hmesh hverts hfaces hmem run hrun)
  · obtain rfl := List.mem_singleton.1 hpart
    exact List.length_pos_iff.2 (facesOf_ne_nil hmesh hmem)

end Parts

/-! ### The submeshes of a mesh -/

/-- The group at a position has a part of the mapping with a number. -/
def InGroup (groups : List (List (Part U M R))) (m k : ℕ) : Prop :=
  ∃ group, groups[k]? = some group ∧ ∃ part ∈ group, part.idMapIdx = m

variable {m k : ℕ}

private theorem not_inGroup_nil : ¬ InGroup ([] : List (List (Part U M R))) m k := by
  rintro ⟨group, hgroup, -⟩
  exact absurd hgroup nofun

private theorem inGroup_append {groups groups' : List (List (Part U M R))} {m k : ℕ} : InGroup (groups ++ groups') m k ↔
    InGroup groups m k ∨ (groups.length ≤ k ∧ InGroup groups' m (k - groups.length)) := by
  unfold InGroup
  by_cases hk : k < groups.length
  · rw [List.getElem?_append_left hk]
    exact (or_iff_left fun h => absurd h.1 (not_le.2 hk)).symm
  · rw [List.getElem?_append_right (not_lt.1 hk), List.getElem?_eq_none (not_lt.1 hk)]
    simp [not_lt.1 hk]

private theorem inGroup_concat {groups : List (List (Part U M R))} {group : List (Part U M R)} {m k : ℕ} :
    InGroup (groups ++ [group]) m k ↔
      InGroup groups m k ∨ (k = groups.length ∧ ∃ part ∈ group, part.idMapIdx = m) := by
  rw [inGroup_append]
  refine or_congr Iff.rfl ?_
  constructor
  · rintro ⟨hle, group', hgroup', hpart⟩
    obtain ⟨hlt, rfl⟩ := List.getElem?_eq_some_iff.1 hgroup'
    rw [List.length_singleton] at hlt
    rw [List.getElem_singleton] at hpart
    exact ⟨by omega, hpart⟩
  · rintro ⟨rfl, hpart⟩
    exact ⟨le_rfl, group, by rw [Nat.sub_self]; rfl, hpart⟩

variable (reorganiser) in
private theorem inGroup_prepare (plan : Plan U M R) (mapping : RepoMeshMapping U M R) :
    InGroup (reorganiser.prepare plan mapping).groups m k ↔ InGroup plan.groups m k := by
  unfold prepare
  split_ifs
  · have hnext : plan.next.groups = plan.groups ++ [[]] := rfl
    rw [hnext, inGroup_concat]
    simp
  · rfl

variable {splitMap : U → Option (List ℕ)}

section Splits

variable [Zero R]

private theorem splitIndices_eq_range' {runs : List (List RepoFace)} (h : ∀ run ∈ runs, run ≠ []) :
    splitIndices n runs = List.range' n runs.length := by
  have hfilter : (runs.zipIdx n).filter (fun p => !p.1.isEmpty) = runs.zipIdx n := by
    refine List.filter_eq_self.2 fun p hp => ?_
    have hne := h p.1 (List.fst_mem_of_mem_zipIdx hp)
    simpa using hne
  rw [splitIndices, hfilter, List.zipIdx_map_snd]

private theorem inGroup_pieces {runs : List (List RepoFace)} {idMapIdx m k : ℕ} :
    InGroup (runs.map fun run => [reorganiser.piece idMapIdx mapping run]) m k ↔ m = idMapIdx ∧ k < runs.length := by
  unfold InGroup
  simp only [List.getElem?_map, Option.map_eq_some_iff, exists_exists_and_eq_and, List.mem_singleton, exists_eq_left]
  constructor
  · rintro ⟨run, hrun, rfl⟩
    exact ⟨rfl, (List.getElem?_eq_some_iff.1 hrun).1⟩
  · rintro ⟨rfl, hk⟩
    exact ⟨_, List.getElem?_eq_getElem hk, rfl⟩

/-- With one more mapping, the groups have the parts that they had, and those listed for it have one of it. -/
theorem inGroup_extend (plan : Plan U M R)
    (hruns : ∀ run ∈ reorganiser.runs mapping, run ≠ []) :
    InGroup (reorganiser.extend plan mapping).groups m k ↔
      InGroup plan.groups m k ∨ (m = plan.idMapIdx ∧ k ∈ reorganiser.splits plan mapping) := by
  obtain ⟨parts, hcurrent, hparts⟩ := reorganiser.prepare_current plan mapping
  have hgroups : (reorganiser.prepare plan mapping).groups = (reorganiser.prepare plan mapping).closed ++ [parts] := by
    rw [Plan.groups, hcurrent, Option.toList_some]
  rw [← inGroup_prepare reorganiser plan mapping, hgroups, inGroup_concat]
  by_cases hoversized : reorganiser.Oversized mapping
  · obtain rfl := hparts hoversized
    have hextend : (reorganiser.extend plan mapping).groups = (reorganiser.prepare plan mapping).closed ++
        (reorganiser.runs mapping).map fun run => [reorganiser.piece plan.idMapIdx mapping run] := by
      rw [extend, if_pos hoversized, Plan.groups, Option.toList_none, List.append_nil, withRuns, prepare_idMapIdx]
    rw [hextend, inGroup_append, inGroup_pieces, splits, if_pos hoversized, splitIndices_eq_range' hruns,
      List.mem_range'_1]
    have hlt : (reorganiser.prepare plan mapping).closed.length ≤ k →
        (k - (reorganiser.prepare plan mapping).closed.length < (reorganiser.runs mapping).length ↔
          k < (reorganiser.prepare plan mapping).closed.length + (reorganiser.runs mapping).length) := by
      intro hle
      omega
    constructor
    · rintro (h | ⟨hle, rfl, hk⟩)
      · exact Or.inl (Or.inl h)
      · exact Or.inr ⟨rfl, hle, (hlt hle).1 hk⟩
    · rintro ((h | ⟨-, part, hpart, -⟩) | ⟨rfl, hle, hk⟩)
      · exact Or.inl h
      · exact absurd hpart List.not_mem_nil
      · exact Or.inr ⟨hle, rfl, (hlt hle).2 hk⟩
  · have hextend : (reorganiser.extend plan mapping).groups = (reorganiser.prepare plan mapping).closed ++
        [parts ++ [reorganiser.whole plan.idMapIdx mapping]] := by
      rw [extend, if_neg hoversized, Plan.groups, Option.toList_some, Plan.openParts, hcurrent, Option.getD_some]
    rw [hextend, inGroup_concat, splits, if_neg hoversized, List.mem_singleton]
    constructor
    · rintro (h | ⟨rfl, part, hpart, rfl⟩)
      · exact Or.inl (Or.inl h)
      · rcases List.mem_append.1 hpart with hpart | hpart
        · exact Or.inl (Or.inr ⟨rfl, part, hpart, rfl⟩)
        · rw [List.mem_singleton.1 hpart]
          exact Or.inr ⟨rfl, rfl⟩
    · rintro ((h | ⟨rfl, part, hpart, hidx⟩) | ⟨rfl, rfl⟩)
      · exact Or.inl h
      · exact Or.inr ⟨rfl, part, List.mem_append_left _ hpart, hidx⟩
      · exact Or.inr ⟨rfl, _, List.mem_append_right _ (List.mem_singleton_self _), rfl⟩

omit [Zero R] in
private theorem nodup_splits (plan : Plan U M R)
    (hruns : ∀ run ∈ reorganiser.runs mapping, run ≠ []) : (reorganiser.splits plan mapping).Nodup := by
  unfold splits
  split_ifs
  · rw [splitIndices_eq_range' hruns]
    exact List.nodup_range'
  · exact List.nodup_singleton _

/-- For the mappings so far, the groups are listed in which they have a part. -/
structure Listed (plan : Plan U M R) (done : List (RepoMeshMapping U M R)) (splitMap : U → Option (List ℕ)) : Prop where
  idMapIdx : done.length = plan.idMapIdx
  lt : ∀ m k, InGroup plan.groups m k → m < plan.idMapIdx
  list : ∀ m mapping, done[m]? = some mapping → ∃ list, splitMap mapping.meshId = some list ∧ list.Nodup ∧
    ∀ k, k ∈ list ↔ InGroup plan.groups m k

theorem Listed.extend [DecidableEq U] {plan : Plan U M R} {done : List (RepoMeshMapping U M R)}
    (h : Listed plan done splitMap)
    (hids : ∀ other ∈ done, other.meshId ≠ mapping.meshId) (hruns : ∀ run ∈ reorganiser.runs mapping, run ≠ []) :
    Listed (reorganiser.extend plan mapping) (done ++ [mapping])
      (Function.update splitMap mapping.meshId (some (reorganiser.splits plan mapping))) where
  idMapIdx := by rw [idMapIdx_extend, List.length_append, List.length_singleton, h.idMapIdx]
  lt := by
    intro m k hin
    rw [idMapIdx_extend]
    rcases (inGroup_extend plan hruns).1 hin with hin | ⟨rfl, -⟩
    · exact Nat.lt_succ_of_lt (h.lt m k hin)
    · exact Nat.lt_succ_self _
  list := by
    intro m other hother
    by_cases hm : m < done.length
    · rw [List.getElem?_append_left hm] at hother
      obtain ⟨list, hlist, hnodup, hmem⟩ := h.list m other hother
      refine ⟨list, ?_, hnodup, ?_⟩
      · rw [Function.update_of_ne (hids other (List.mem_of_getElem? hother)), hlist]
      · intro k
        rw [hmem, inGroup_extend plan hruns]
        refine (or_iff_left ?_).symm
        rintro ⟨rfl, -⟩
        exact absurd hm (by rw [h.idMapIdx]; exact lt_irrefl _)
    · have hlt : m < (done ++ [mapping]).length := (List.getElem?_eq_some_iff.1 hother).1
      rw [List.length_append, List.length_singleton] at hlt
      obtain rfl : m = done.length := by omega
      obtain rfl : mapping = other := by simpa using hother
      refine ⟨_, Function.update_self .., nodup_splits plan hruns, ?_⟩
      intro k
      rw [inGroup_extend plan hruns, h.idMapIdx]
      refine ⟨fun hk => Or.inr ⟨rfl, hk⟩, ?_⟩
      rintro (hin | ⟨-, hk⟩)
      · exact absurd (h.lt _ k hin) (lt_irrefl _)
      · exact hk

private theorem listed_foldl [DecidableEq U] {mappings : List (RepoMeshMapping U M R)} {plan : Plan U M R}
    {done : List (RepoMeshMapping U M R)} (h : Listed plan done splitMap)
    (hids : ((done ++ mappings).map RepoMeshMapping.meshId).Nodup)
    (hruns : ∀ mapping ∈ mappings, ∀ run ∈ reorganiser.runs mapping, run ≠ []) :
    Listed (mappings.foldl reorganiser.extend plan) (done ++ mappings)
      (reorganiser.splitMapFrom plan mappings splitMap) := by
  induction mappings generalizing plan done splitMap with
  | nil => rwa [List.append_nil]
  | cons mapping mappings ih =>
    rw [List.append_cons] at hids ⊢
    have hne : ∀ other ∈ done, other.meshId ≠ mapping.meshId := by
      intro other hother heq
      rw [List.append_assoc, List.map_append] at hids
      exact (List.disjoint_of_nodup_append hids) (List.mem_map_of_mem hother)
        (heq ▸ List.mem_map_of_mem (List.mem_append_left _ (List.mem_singleton_self _)))
    rw [List.foldl_cons, splitMapFrom]
    exact ih (h.extend hne (hruns mapping List.mem_cons_self)) hids fun m hm => hruns m (List.mem_cons_of_mem _ hm)

end Splits

/-! ### The lists at the end -/

section Whole

variable [Zero R] [LinearOrder R] [Inhabited U] [Inhabited M]

/-- A mesh has a part in the groups whose submeshes have a face of it. -/
theorem inGroup_iff_holds (hmesh : WellFormed reorganiser.mesh) (hverts : 3 ≤ reorganiser.maxVertices)
    (hfaces : 1 ≤ reorganiser.maxFaces)
    (hm : reorganiser.mesh.meshMapping[m]? = some mapping) : InGroup reorganiser.plan.groups m k ↔
      ∃ subMesh, (layOut reorganiser.plan.groups)[k]? = some subMesh ∧ subMesh.Holds mapping := by
  have hpositions : ∀ {before after : List (List (Part U M R))} {group : List (Part U M R)},
      reorganiser.plan.groups = before ++ group :: after → ∀ q ∈ placedParts (vertCount before.flatten)
        (faceCount before.flatten) group, q ∈ placedParts 0 0 reorganiser.plan.parts := by
    intro before after group hgroups q hq
    have hp : (vertCount before.flatten, faceCount before.flatten, group) ∈
        placed vertCount faceCount 0 0 reorganiser.plan.groups := by
      rw [hgroups, placed_append, sum_vertCount, sum_faceCount, Nat.zero_add, Nat.zero_add]
      exact List.mem_append_right _ List.mem_cons_self
    have hq := mem_placed_flatten hp hq
    rwa [Plan.flatten_groups] at hq
  have hsplit : ∀ {group : List (Part U M R)}, reorganiser.plan.groups[k]? = some group → ∃ before after,
      reorganiser.plan.groups = before ++ group :: after ∧ before.length = k := by
    intro group hgroup
    obtain ⟨hk, rfl⟩ := List.getElem?_eq_some_iff.1 hgroup
    refine ⟨reorganiser.plan.groups.take k, reorganiser.plan.groups.drop (k + 1), ?_, List.length_take_of_le hk.le⟩
    rw [← List.drop_eq_getElem_cons hk, List.take_append_drop]
  constructor
  · rintro ⟨group, hgroup, part, hpart, rfl⟩
    obtain ⟨before, after, hgroups, rfl⟩ := hsplit hgroup
    obtain ⟨q, hq, rfl⟩ := exists_placed_of_mem hpart (vertCount before.flatten) (faceCount before.flatten)
    have hplaced := hpositions hgroups q hq
    have hmem : q.2.2 ∈ reorganiser.plan.parts := mem_of_mem_placed hplaced
    have hsource : q.2.2.source = mapping := Option.some.inj ((getElem?_of_mem_parts hmem).symm.trans hm)
    obtain ⟨hfrom, hto⟩ := faces_of_mem_placed hmesh hplaced
    have hpos := faces_pos_of_mem_parts hmesh hverts hfaces hmem
    have hwithin := (within_of_mem_placedParts hq).2
    rw [hsource] at hfrom hto
    refine ⟨_, by rw [hgroups, getElem?_layOut], q.2.1, hfrom, by omega, ?_⟩
    rw [hasFace_doneSubMesh]
    omega
  · rintro ⟨subMesh, hsubMesh, i, hfrom, hto, hhas⟩
    have hk : k < reorganiser.plan.groups.length := by
      rw [← length_layOut]
      exact (List.getElem?_eq_some_iff.1 hsubMesh).1
    have hgroup := List.getElem?_eq_getElem hk
    generalize reorganiser.plan.groups[k] = group at hgroup
    obtain ⟨before, after, hgroups, rfl⟩ := hsplit hgroup
    rw [hgroups, getElem?_layOut, Option.some.injEq] at hsubMesh
    rw [← hsubMesh, hasFace_doneSubMesh] at hhas
    obtain ⟨q, hq, hqfrom, hqto⟩ := exists_placedPart (v := vertCount before.flatten) hhas.1 hhas.2
    have hplaced := hpositions hgroups q hq
    have hsource := getElem?_of_mem_parts (mem_of_mem_placed hplaced)
    obtain ⟨hle, hge⟩ := faces_of_mem_placed hmesh hplaced
    have htri : ∀ {n : ℕ} {other : RepoMeshMapping U M R}, reorganiser.mesh.meshMapping[n]? = some other →
        (reorganiser.mesh.meshMapping.map RepoMeshMapping.triRange)[n]? = some other.triRange := by
      intro n other hn
      rw [List.getElem?_map, hn, Option.map_some]
    -- the ranges of two meshes have no face in common
    have hunique := getElem?_unique_of_pairwise hmesh.triRanges.pairwise (i := i) (htri hsource) (htri hm)
      ⟨hle.trans hqfrom, hqto.trans_le hge⟩ ⟨hfrom, hto⟩
    exact ⟨group, hgroup, q.2.2, mem_of_mem_placed hq, hunique⟩

private theorem length_newFaces {groups : List (List (Part U M R))} {splitMap : U → Option (List ℕ)} {s : State U M R}
    (hs : reorganiser.Renders groups splitMap s) : s.newFaces.length = (groups.map faceCount).sum := by
  rw [hs.newFaces, List.length_map, List.length_flatMap]
  exact congrArg List.sum (List.map_congr_left fun group _ => length_indicesOf group)

private theorem length_vertices {groups : List (List (Part U M R))} {splitMap : U → Option (List ℕ)} {s : State U M R}
    (hs : reorganiser.Renders groups splitMap s) : s.buffers.vertices.length = (groups.map vertCount).sum := by
  rw [hs.buffers, buffersAt, List.drop_length, List.append_nil, gather, List.length_map, length_vertsOf, sum_vertCount]

/-- The entries of a group, and the ids of its vertices. -/
theorem Renders.ids (hmesh : WellFormed reorganiser.mesh)
    (hs : reorganiser.Renders reorganiser.plan.groups splitMap s) {p : ℕ × ℕ × List (Part U M R)}
    (hp : p ∈ placed vertCount faceCount 0 0 reorganiser.plan.groups) : ∀ entry ∈ entries p.1 p.2.1 p.2.2,
      ∃ m mapping, reorganiser.mesh.meshMapping[m]? = some mapping ∧ IsEntryOf reorganiser.mesh s mapping entry ∧
        ∀ v, entry.vertFrom ≤ v → v < entry.vertTo → (idsOf p.2.2)[v - p.1]? = some (toFloat m) := by
  intro entry hentry
  obtain ⟨q, hq, rfl⟩ := List.mem_map.1 hentry
  have hplaced : q ∈ placedParts 0 0 reorganiser.plan.parts := by
    rw [← Plan.flatten_groups]
    exact mem_placed_flatten hp hq
  have hmem : q.2.2 ∈ reorganiser.plan.parts := mem_of_mem_placed hplaced
  have hsource := getElem?_of_mem_parts hmem
  obtain ⟨before, after, hgroups, hv, -⟩ := mem_placed hp
  refine ⟨q.2.2.idMapIdx, q.2.2.source, hsource, ⟨rfl, faces_of_mem_placed hmesh hplaced, ?_⟩, ?_⟩
  · intro v hfrom hto
    obtain ⟨-, i, hi, hvert⟩ := getElem?_of_mem_placedParts hq hfrom hto
    obtain ⟨hle, hlt⟩ := verts_of_mem_parts hmesh hmem i hi
    have hbounds := hmesh.vertRanges.mem_bounds (List.mem_map_of_mem (List.mem_of_getElem? hsource))
    have hcorner := hs.corner_eq hmesh hgroups hvert (hlt.trans_le hbounds.2.2)
    have hwithin : p.1 ≤ q.1 := (within_of_mem_placedParts hq).1.1
    have hfrom : q.1 ≤ v := hfrom
    have hindex : v - p.1 + vertCount before.flatten = v := by
      rw [sum_vertCount] at hv
      omega
    rw [hindex] at hcorner
    exact ⟨i, hle, hlt, hcorner⟩
  · intro v hfrom hto
    exact (getElem?_of_mem_placedParts hq hfrom hto).1

variable [DecidableEq U]

theorem Renders.bookkept (hmesh : WellFormed reorganiser.mesh)
    (hids : (reorganiser.mesh.meshMapping.map RepoMeshMapping.meshId).Nodup) (hverts : 3 ≤ reorganiser.maxVertices)
    (hfaces : 1 ≤ reorganiser.maxFaces) (hcount : reorganiser.newVertexCount < 2 ^ 31)
    (hs : reorganiser.Renders reorganiser.plan.groups
      (reorganiser.splitMapFrom Plan.empty reorganiser.mesh.meshMapping fun _ => none) s) :
    Bookkept reorganiser toFloat s where
  fits := (hs.fits_iff hmesh).2 hcount
  vertRanges := by
    rw [hs.subMeshes, map_vertRange_layOut, length_vertices hs]
    have hchains := chains_spans 0 (reorganiser.plan.groups.map vertCount)
    rwa [Nat.zero_add] at hchains
  triRanges := by
    rw [hs.subMeshes, map_triRange_layOut, length_newFaces hs]
    have hchains := chains_spans 0 (reorganiser.plan.groups.map faceCount)
    rwa [Nat.zero_add] at hchains
  within := by
    intro subMesh hsubMesh
    rw [hs.subMeshes] at hsubMesh
    obtain ⟨p, hp, rfl⟩ := mem_layOut.1 hsubMesh
    have hwithin := (isGroup_of_mem hmesh p.2.2 (mem_of_mem_placed hp)).within hverts hfaces
    have hvert := doneSubMesh_vertRange p.1 p.2.1 p.2.2
    have htri := doneSubMesh_triRange p.1 p.2.1 p.2.2
    simp only [RepoMeshMapping.vertRange, RepoMeshMapping.triRange, Prod.mk.injEq] at hvert htri
    unfold numVertices numFaces
    omega
  splitMap := by
    have hruns : ∀ mapping ∈ reorganiser.mesh.meshMapping, ∀ run ∈ reorganiser.runs mapping, run ≠ [] :=
      fun mapping hmem => run_ne_nil hmesh hverts hfaces hmem
    have hstart : Listed (Plan.empty : Plan U M R) [] fun _ => none :=
      ⟨rfl, fun _ _ h => absurd h not_inGroup_nil, fun _ _ h => absurd h (Option.some_ne_none _).symm⟩
    have hlisted := listed_foldl hstart hids hruns
    intro mapping hmem
    obtain ⟨m, hm⟩ := List.mem_iff_getElem?.1 hmem
    obtain ⟨list, hlist, hnodup, hin⟩ := hlisted.list m mapping hm
    refine ⟨list, by rw [hs.splitMap, hlist], hnodup, ?_⟩
    intro k
    rw [hs.subMeshes, ← inGroup_iff_holds hmesh hverts hfaces hm]
    exact hin k
  entries := by
    intro subMesh hsubMesh
    rw [hs.subMeshes] at hsubMesh
    obtain ⟨p, -, rfl⟩ := mem_layOut.1 hsubMesh
    have hvert := doneSubMesh_vertRange p.1 p.2.1 p.2.2
    have htri := doneSubMesh_triRange p.1 p.2.1 p.2.2
    simp only [RepoMeshMapping.vertRange, RepoMeshMapping.triRange, Prod.mk.injEq] at hvert htri
    rw [doneSubMesh_matMap, map_vertRange_entries, map_triRange_entries, hvert.1, hvert.2, htri.1, htri.2]
    exact ⟨chains_spans _ _, chains_spans _ _⟩
  ids := by
    intro subMesh hsubMesh
    rw [hs.subMeshes] at hsubMesh
    obtain ⟨p, hp, rfl⟩ := mem_layOut.1 hsubMesh
    have hvert := doneSubMesh_vertRange p.1 p.2.1 p.2.2
    simp only [RepoMeshMapping.vertRange, Prod.mk.injEq] at hvert
    rw [doneSubMesh_matMap, doneSubMesh_idMapBuf, length_idsOf, numVertices, hvert.1, hvert.2, Nat.add_sub_cancel_left]
    exact ⟨rfl, hs.ids hmesh hp⟩

/-- With fewer than `2 ^ 31` new vertices the lists are consistent, with the ids as `float`s, so that they are exact for up to
`2 ^ 24 + 1` mappings. -/
theorem bookkept_members (hmesh : WellFormed reorganiser.mesh)
    (hids : (reorganiser.mesh.meshMapping.map RepoMeshMapping.meshId).Nodup) (hverts : 3 ≤ reorganiser.maxVertices)
    (hfaces : 1 ≤ reorganiser.maxFaces) (hcount : reorganiser.newVertexCount < 2 ^ 31) : Bookkept reorganiser toFloat reorganiser.members ∧
      (reorganiser.mesh.meshMapping.length ≤ 2 ^ 24 + 1 → Bookkept reorganiser id reorganiser.members) := by
  have hbookkept : Bookkept reorganiser toFloat reorganiser.members := by
    cases hmapping : reorganiser.mesh.meshMapping with
    | nil =>
      have hremap : reorganiser.remap = none := by rw [remap, hmapping]; rfl
      have hnone : ∀ {P : SubMesh U M R → Prop}, ∀ subMesh ∈ ([] : List (SubMesh U M R)), P subMesh :=
        fun _ h => absurd h List.not_mem_nil
      rw [members, hremap]
      refine ⟨fun _ h => absurd h List.not_mem_nil, rfl, rfl, hnone, ?_, hnone, hnone⟩
      rw [hmapping]
      exact fun _ h => absurd h List.not_mem_nil
    | cons mapping mappings =>
      obtain ⟨s, hs, hrenders⟩ := performSplitting_renders hmesh
      have hmem : mapping ∈ reorganiser.mesh.meshMapping := hmapping ▸ List.mem_cons_self
      rw [members, remap_eq_performSplitting hmem, hs]
      exact hrenders.bookkept hmesh hids hverts hfaces hcount
  refine ⟨hbookkept, fun hlength => hbookkept.congr fun m hm => ?_⟩
  exact toFloat_of_le (by omega)

theorem bookkept_members_apart : Bookkept apartReorganiser toFloat apartReorganiser.members ∧
    (apartReorganiser.mesh.meshMapping.length ≤ 2 ^ 24 + 1 → Bookkept apartReorganiser id apartReorganiser.members) :=
  bookkept_members wellFormed_apart (by decide) (by decide) (by decide) (by decide)

end Whole

/-! ### Many meshes -/

/-- A mesh of one triangle. -/
def manyMapping (i : ℕ) : RepoMeshMapping ℕ ℕ ℤ :=
  { min := ⟨0, 0, 0⟩, max := ⟨0, 0, 0⟩, meshId := i, sharedId := 0, materialId := 0, material := 0, textureId := 0,
    vertFrom := i, vertTo := i + 1, triFrom := i, triTo := i + 1 }

/-- A supermesh of so many meshes. -/
def manyReorganiser (n : ℕ) : Reorganiser ℕ ℕ ℤ :=
  { mesh :=
      { vertices := List.replicate n ⟨0, 0, 0⟩
        normals := []
        faces := (List.range n).map fun i => .triangle i i i
        boundingBox := ⟨⟨0, 0, 0⟩, ⟨0, 0, 0⟩⟩
        channels := []
        meshMapping := (List.range n).map manyMapping
        grouping := "" }
    maxVertices := 3
    maxFaces := 1 }

private theorem wellFormed_many (hn : n < 2 ^ 31) : WellFormed (manyReorganiser n).mesh := by
  have htiles : ∀ n, Tiles 0 ((List.range n).map fun i => (i, i + 1)) n := by
    intro n
    induction n with
    | zero => rfl
    | succ n ih =>
      rw [List.range_succ, List.map_append, List.map_singleton]
      exact ih.concat (Nat.lt_succ_self n)
  have hranges : ((manyReorganiser n).mesh.meshMapping.map RepoMeshMapping.vertRange) =
      (List.range n).map fun i => (i, i + 1) := List.map_map
  have hranges' : ((manyReorganiser n).mesh.meshMapping.map RepoMeshMapping.triRange) =
      (List.range n).map fun i => (i, i + 1) := List.map_map
  have hvertices : (manyReorganiser n).mesh.vertices.length = n := List.length_replicate
  have hfaces : (manyReorganiser n).mesh.faces.length = n := by simp [manyReorganiser]
  refine ⟨hranges ▸ hvertices.symm ▸ htiles n, hranges' ▸ hfaces.symm ▸ htiles n, ?_, Or.inl rfl,
    fun _ h => absurd h List.not_mem_nil, ?_⟩
  · intro mapping hmem i face hfrom hto hface indexValue hindex
    obtain ⟨k, -, rfl⟩ := List.mem_map.1 hmem
    have hfrom : k ≤ i := hfrom
    have hto : i < k + 1 := hto
    simp only [manyReorganiser, List.getElem?_map, Option.map_eq_some_iff] at hface
    obtain ⟨j, hj, rfl⟩ := hface
    obtain ⟨hi, hj⟩ := List.getElem?_eq_some_iff.1 hj
    rw [List.getElem_range] at hj
    simp only [RepoFace.triangle, List.mem_cons, List.not_mem_nil, or_false, or_self] at hindex
    dsimp only [manyMapping]
    omega
  · intro mapping hmem
    obtain ⟨k, hk, rfl⟩ := List.mem_map.1 hmem
    have hlast : k + 1 < 2 ^ 31 := lt_of_le_of_lt (List.mem_range.1 hk) hn
    exact RepoMeshMapping.fits_of_lt (Nat.le_succ k) hlast (Nat.le_succ k) hlast

private theorem getElem?_many {n m : ℕ} {mapping : RepoMeshMapping ℕ ℕ ℤ} :
    (manyReorganiser n).mesh.meshMapping[m]? = some mapping ↔ m < n ∧ manyMapping m = mapping := by
  simp only [manyReorganiser, List.getElem?_map, Option.map_eq_some_iff]
  constructor
  · rintro ⟨j, hj, rfl⟩
    obtain ⟨hm, hj⟩ := List.getElem?_eq_some_iff.1 hj
    rw [List.getElem_range] at hj
    rw [List.length_range] at hm
    exact ⟨hm, by rw [hj]⟩
  · rintro ⟨hm, rfl⟩
    exact ⟨m, List.getElem?_range hm, rfl⟩

/-- The id of a mesh that is not a `float` is a wrong one. -/
theorem not_bookkept_of_rounded {n m : ℕ} (hn : n < 2 ^ 31) (hm : m < n) (hrounded : toFloat m ≠ m) :
    ¬ Bookkept (manyReorganiser n) id (manyReorganiser n).members := by
  intro h
  have hmesh := wellFormed_many hn
  obtain ⟨s, hs, hrenders⟩ := performSplitting_renders hmesh
  have hmapping : (manyReorganiser n).mesh.meshMapping[m]? = some (manyMapping m) := getElem?_many.2 ⟨hm, rfl⟩
  have hverts : numVertices (manyMapping m) = 1 := Nat.add_sub_cancel_left m 1
  have hsmall : ¬ (manyReorganiser n).Oversized (manyMapping m) := by
    have hnum : numFaces (manyMapping m) = 1 := Nat.add_sub_cancel_left m 1
    rw [Oversized, hverts, hnum]
    simp [manyReorganiser]
  have hpart : (manyReorganiser n).whole m (manyMapping m) ∈ (manyReorganiser n).plan.parts := by
    rw [parts_plan]
    refine List.mem_flatMap.2 ⟨(manyMapping m, m), List.mem_zipIdx_iff_getElem?.2 hmapping, ?_⟩
    rw [partsOf, if_neg hsmall]
    exact List.mem_singleton_self _
  rw [← Plan.flatten_groups] at hpart
  obtain ⟨group, hgroup, hpart⟩ := List.mem_flatten.1 hpart
  obtain ⟨p, hp, rfl⟩ := exists_placed_of_mem hgroup 0 0
  obtain ⟨q, hq, hpart⟩ := exists_placed_of_mem hpart p.1 p.2.1
  rw [members, remap_eq_performSplitting (List.mem_of_getElem? hmapping), hs, Option.getD_some] at h
  have hsubMesh : doneSubMesh p.1 p.2.1 p.2.2 ∈ s.subMeshes := by
    rw [hrenders.subMeshes]
    exact mem_layOut.2 ⟨p, hp, rfl⟩
  obtain ⟨m', mapping, hm', hof, hvalue⟩ := (h.ids _ hsubMesh).2 _ (List.mem_map_of_mem hq)
  have hmeshId := hof.meshId
  obtain ⟨-, rfl⟩ := getElem?_many.1 hm'
  rw [hpart] at hmeshId
  have hsame : m = m' := hmeshId
  have hlt : q.1 < q.1 + q.2.2.verts.length := by
    rw [hpart, length_verts_whole, hverts]
    exact Nat.lt_succ_self _
  have hid := hvalue q.1 le_rfl hlt
  have hid' := (getElem?_of_mem_placedParts hq le_rfl hlt).1
  rw [doneSubMesh_idMapBuf, doneSubMesh_vertFrom, hid', hpart, ← hsame] at hid
  exact hrounded (Option.some.inj hid)

private theorem newVertexCount_piled (hn : 1 < n) (hlt : n < 2 ^ 31) : (piledReorganiser n).newVertexCount = 3 * n := by
  have hcount := vertCount_piled hn fun _ hpart => hpart
  rw [faceCount_plan (wellFormed_piled (by omega) hlt), parts_plan] at hcount
  exact hcount.trans (congrArg (3 * ·) List.length_replicate)

private theorem not_fits_piled (hn : 1 < n) (hlt : n < 2 ^ 31) (hlarge : 2 ^ 31 ≤ 3 * n) :
    ¬ (piledReorganiser n).members.Fits := by
  have hmesh := wellFormed_piled (by omega) hlt
  obtain ⟨s, hs, hrenders⟩ := performSplitting_renders hmesh
  rw [members, remap_eq_performSplitting (List.mem_singleton_self _), hs, Option.getD_some, hrenders.fits_iff hmesh,
    newVertexCount_piled hn hlt]
  omega

/-- The id of the mesh behind `2 ^ 24` others is rounded to the one before it, and triangles that are split one by one can
have more vertices than an `int32_t` counts. -/
theorem not_bookkept_many : (WellFormed (manyReorganiser 16777218).mesh ∧
    ((manyReorganiser 16777218).mesh.meshMapping.map RepoMeshMapping.meshId).Nodup ∧
      ¬ Bookkept (manyReorganiser 16777218) id (manyReorganiser 16777218).members) ∧
    WellFormed (piledReorganiser 715827884).mesh ∧
      ((piledReorganiser 715827884).mesh.meshMapping.map RepoMeshMapping.meshId).Nodup ∧
        ∀ value, ¬ Bookkept (piledReorganiser 715827884) value (piledReorganiser 715827884).members := by
  have hids : (manyReorganiser 16777218).mesh.meshMapping.map RepoMeshMapping.meshId = List.range 16777218 := by
    rw [manyReorganiser, List.map_map]
    exact List.map_id _
  have hlog : Nat.log2 16777217 = 24 := (Nat.log2_eq_iff (by norm_num)).2 (by norm_num)
  have hrounded : toFloat 16777217 ≠ 16777217 := by
    rw [toFloat, hlog]
    norm_num
  refine ⟨⟨wellFormed_many (by norm_num), hids ▸ List.nodup_range,
    not_bookkept_of_rounded (by norm_num) (by norm_num) hrounded⟩,
    wellFormed_piled (by norm_num) (by norm_num), List.nodup_singleton _, fun value h => ?_⟩
  exact not_fits_piled (by norm_num) (by norm_num) (by norm_num) h.fits

end Reorganiser

end Bouncer.MeshMapReorganiser
