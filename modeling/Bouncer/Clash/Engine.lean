import Bouncer.Clash.Clearance
import Bouncer.Clash.Hard

/-!
# What a clash report promises

For two objects there should be one result in a report, and none for an object and itself.  The first holds exactly
if all tests about the two objects that report swap them in the same way (`nodup_report_iff`), which depends on
the sizes of their meshes.  The second holds for the hard pipeline, and for the clearance pipeline exactly if no two
meshes of one object that are compared with each other are found to clash (`forall_id_ne_iff`).
-/

namespace Bouncer.Clash

variable {boost : Boost} {R : Type*} [ExactReal R]

/-- The swaps of the tests of a clearance run agree. -/
def Clearance.SwapsAgree (env : Environment boost R) (config : ClashDetectionConfig boost R) : Prop :=
  ∀ graphs ts, createSceneGraphs env.handler env.builder config = .ok graphs →
    tests env.builder config graphs = some ts → (narrowphase env.geometry config.tolerance).SwapsAgree ts

/-- The swaps of the tests of a hard run agree. -/
def Hard.SwapsAgree (penetrationDepth : DeformMesh R → DeformMesh R → R → R) (env : Environment boost R)
    (config : ClashDetectionConfig boost R) : Prop :=
  ∀ graphs ts, createSceneGraphs env.handler env.builder config = .ok graphs →
    tests env.geometry env.builder config graphs = some ts →
      (narrowphase penetrationDepth config.tolerance).SwapsAgree ts

/-- No two meshes of one object in a set that is compared with itself are found to clash. -/
def Clearance.SelfClear (env : Environment boost R) (config : ClashDetectionConfig boost R) : Prop :=
  ∀ graphs, createSceneGraphs env.handler env.builder config = .ok graphs →
    ∀ graph, .intra graph ∈ passes config graphs.a graphs.b graphs.c →
      ∀ pairs, broadphase (DistanceQuery.intersect config.tolerance) (.intra graph) = some pairs →
        ∀ p ∈ pairs, p.1.compositeObject.id = p.2.compositeObject.id →
          ¬ (narrowphase env.geometry config.tolerance).Reports
            (Cached.initialise env.builder p.1, Cached.initialise env.builder p.2)

section Runs

variable {penetrationDepth : DeformMesh R → DeformMesh R → R → R} {env : Environment boost R}
  {config : ClashDetectionConfig boost R} {report : List (ClashDetectionResult R)}

theorem Clearance.Runs.nodup_iff (h : Runs env config report) :
    (report.map ClashDetectionResult.unordered).Nodup ↔ SwapsAgree env config := by
  obtain ⟨graphs, ts, arrival, hgraphs, hts, harrival, rfl⟩ := h
  rw [unordered_createReport, clashes, harrival.nodup_unordered_iff]
  constructor
  · intro hagree graphs' ts' hgraphs' hts'
    obtain rfl := Except.ok.inj (hgraphs.symm.trans hgraphs')
    obtain rfl := Option.some_injective _ (hts.symm.trans hts')
    exact hagree
  · intro hagree
    exact hagree graphs ts hgraphs hts

theorem Hard.Runs.nodup_iff (h : Runs penetrationDepth env config report) :
    (report.map ClashDetectionResult.unordered).Nodup ↔ SwapsAgree penetrationDepth env config := by
  obtain ⟨graphs, ts, arrival, hgraphs, hts, harrival, rfl⟩ := h
  rw [unordered_createReport, clashes, harrival.nodup_unordered_iff]
  constructor
  · intro hagree graphs' ts' hgraphs' hts'
    obtain rfl := Except.ok.inj (hgraphs.symm.trans hgraphs')
    obtain rfl := Option.some_injective _ (hts.symm.trans hts')
    exact hagree
  · intro hagree
    exact hagree graphs ts hgraphs hts

theorem Hard.Runs.id_ne (h : Runs penetrationDepth env config report) : ∀ result ∈ report, result.idA ≠ result.idB := by
  obtain ⟨graphs, ts, arrival, hgraphs, hts, harrival, rfl⟩ := h
  rw [forall_createReport_ne_iff, clashes, harrival.ne_iff]
  intro t ht he
  exact absurd he (id_ne_of_mem_tests hgraphs hts ht)

theorem Clearance.Runs.id_ne_iff (h : Runs env config report) :
    (∀ result ∈ report, result.idA ≠ result.idB) ↔ SelfClear env config := by
  obtain ⟨graphs, ts, arrival, hgraphs, hts, harrival, rfl⟩ := h
  rw [forall_createReport_ne_iff, clashes, harrival.ne_iff]
  constructor
  · intro hself graphs' hgraphs' graph hpass pairs hpairs p hp he
    obtain rfl := Except.ok.inj (hgraphs.symm.trans hgraphs')
    exact hself _ ((mem_tests_iff hts).2 ⟨_, hpass, pairs, hpairs, p, hp, rfl⟩) he
  · intro hclear t ht he
    obtain ⟨pass, hpass, pairs, hpairs, p, hp, rfl⟩ := (mem_tests_iff hts).1 ht
    cases pass with
    | inter gA gB =>
      obtain ⟨hx, hy⟩ := mem_sides_of_broadphase hpairs hp
      exact absurd he (id_ne_of_inter hgraphs hpass hx hy)
    | intra graph => exact hclear graphs hgraphs graph hpass pairs hpairs p hp he

end Runs

/-- A report has one result for two objects, exactly if the swaps agree. -/
theorem nodup_report_iff (penetrationDepth : DeformMesh R → DeformMesh R → R → R) (env : Environment boost R)
    (config : ClashDetectionConfig boost R) :
    (∀ report, Clearance.Runs env config report →
      ((report.map ClashDetectionResult.unordered).Nodup ↔ Clearance.SwapsAgree env config)) ∧
    ∀ report, Hard.Runs penetrationDepth env config report →
      ((report.map ClashDetectionResult.unordered).Nodup ↔ Hard.SwapsAgree penetrationDepth env config) :=
  ⟨fun _ h => h.nodup_iff, fun _ h => h.nodup_iff⟩

/-- The hard pipeline never reports an object with itself, and the clearance pipeline does not exactly if no two meshes
of one object that it compares are found to clash. -/
theorem forall_id_ne_iff (penetrationDepth : DeformMesh R → DeformMesh R → R → R) (env : Environment boost R)
    (config : ClashDetectionConfig boost R) :
    (∀ report, Hard.Runs penetrationDepth env config report → ∀ result ∈ report, result.idA ≠ result.idB) ∧
    ∀ report, Clearance.Runs env config report →
      ((∀ result ∈ report, result.idA ≠ result.idB) ↔ Clearance.SelfClear env config) :=
  ⟨fun _ h => h.id_ne, fun _ h => h.id_ne_iff⟩

/-! ### Three objects made of corner triangles -/

section Corner

open Clearance (cornerNode cornerCached cornerGeometry cornerSize reports_corner gt_corner)

/-- The mesh nodes have one, three, two and four digits. -/
def cornerP : CompositeObject .digits := ⟨"P", [⟨0, ['1']⟩, ⟨0, ['1', '1', '1']⟩]⟩

def cornerQ : CompositeObject .digits := ⟨"Q", [⟨0, ['1', '1']⟩]⟩

def cornerS : CompositeObject .digits := ⟨"S", [⟨0, ['1', '1', '1', '1']⟩]⟩

/-- The three objects, one in each of the disjoint sets. -/
structure CornerSets (config : ClashDetectionConfig .digits ℝ) : Prop where
  a : (createDisjointSets config).a = [cornerP]
  b : (createDisjointSets config).b = [cornerQ]
  c : (createDisjointSets config).c = [cornerS]

section CornerSets

variable {env : Environment .digits ℝ} {config : ClashDetectionConfig .digits ℝ} {graphs : SceneGraphs .digits ℝ}

variable (env) in
theorem CornerSets.exists_sceneGraphs (hsets : CornerSets config) :
    ∃ graphs, createSceneGraphs env.handler env.builder config = .ok graphs := by
  unfold createSceneGraphs
  dsimp only
  rw [hsets.a, hsets.b, hsets.c]
  exact ⟨_, rfl⟩

variable (hsets : CornerSets config) (h : createSceneGraphs env.handler env.builder config = .ok graphs)

include hsets h

theorem CornerSets.mem_meshes :
    (∀ mesh ∈ cornerP.meshes, ⟨env.handler.populate mesh, cornerP⟩ ∈ graphs.a.meshes) ∧
    (∀ mesh ∈ cornerQ.meshes, ⟨env.handler.populate mesh, cornerQ⟩ ∈ graphs.b.meshes) ∧
    ∀ mesh ∈ cornerS.meshes, ⟨env.handler.populate mesh, cornerS⟩ ∈ graphs.c.meshes := by
  obtain ⟨ha, hb, hc⟩ := createSceneGraphs_ok h
  rw [hsets.a] at ha
  rw [hsets.b] at hb
  rw [hsets.c] at hc
  refine ⟨?_, ?_, ?_⟩
  · intro mesh hmesh
    exact (mem_meshes_iff ha).2 ⟨cornerP, List.mem_singleton_self _, mesh, hmesh, rfl⟩
  · intro mesh hmesh
    exact (mem_meshes_iff hb).2 ⟨cornerQ, List.mem_singleton_self _, mesh, hmesh, rfl⟩
  · intro mesh hmesh
    exact (mem_meshes_iff hc).2 ⟨cornerS, List.mem_singleton_self _, mesh, hmesh, rfl⟩

theorem CornerSets.eq_of_mem_meshes {graph : Graph .digits ℝ} (hgraph : graph ∈ [graphs.a, graphs.b, graphs.c])
    {node : Node .digits ℝ} (hnode : node ∈ graph.meshes) : ∃ composite ∈ [cornerP, cornerQ, cornerS],
      ∃ mesh ∈ composite.meshes, node = ⟨env.handler.populate mesh, composite⟩ := by
  obtain ⟨ha, hb, hc⟩ := createSceneGraphs_ok h
  rw [hsets.a] at ha
  rw [hsets.b] at hb
  rw [hsets.c] at hc
  have hmem : ∀ {c : CompositeObject .digits} {graph : Graph .digits ℝ}, c ∈ [cornerP, cornerQ, cornerS] →
      createSceneGraph env.handler env.builder [c] = .ok graph → node ∈ graph.meshes →
      ∃ composite ∈ [cornerP, cornerQ, cornerS], ∃ mesh ∈ composite.meshes,
        node = ⟨env.handler.populate mesh, composite⟩ := by
    intro c graph hc hgraph hnode
    obtain ⟨composite, hset, mesh, hmesh, he⟩ := (mem_meshes_iff hgraph).1 hnode
    obtain rfl := List.mem_singleton.1 hset
    exact ⟨composite, hc, mesh, hmesh, he⟩
  simp only [List.mem_cons, List.not_mem_nil, or_false] at hgraph
  obtain rfl | rfl | rfl := hgraph
  · exact hmem (by simp) ha hnode
  · exact hmem (by simp) hb hnode
  · exact hmem (by simp) hc hnode

theorem CornerSets.exists_runs (hfaces : ∀ mesh, (env.handler.populate mesh).faces ≠ []) :
    ∃ report, Clearance.Runs env config report := by
  obtain ⟨ha, hb, hc⟩ := hsets.mem_meshes h
  refine Clearance.exists_runs h ?_ ?_
  · intro graph hgraph
    simp only [SceneGraphs.toList, List.mem_cons, List.not_mem_nil, or_false] at hgraph
    rcases hgraph with rfl | rfl | rfl
    · exact List.ne_nil_of_mem (ha _ List.mem_cons_self)
    · exact List.ne_nil_of_mem (hb _ List.mem_cons_self)
    · exact List.ne_nil_of_mem (hc _ List.mem_cons_self)
  · intro graph hgraph node hnode
    obtain ⟨set, hset⟩ := exists_set h hgraph
    obtain ⟨composite, -, mesh, -, rfl⟩ := (mem_meshes_iff hset).1 hnode
    exact hfaces mesh

/-- A mesh of the object that has two, and the one of the other set. -/
theorem CornerSets.exists_pairs_inter (hbuilder : env.builder.Encloses) {mesh : MeshReference .digits}
    (hmesh : mesh ∈ cornerP.meshes)
    (hclose : ∃ p q, (env.handler.populate mesh).bounds.Contains p ∧
      (env.handler.populate ⟨0, ['1', '1']⟩).bounds.Contains q ∧ (q - p).norm2 ≤ config.tolerance * config.tolerance) :
    ∃ pairs, broadphase (DistanceQuery.intersect config.tolerance) (.inter graphs.a graphs.b) = some pairs ∧
      (⟨env.handler.populate mesh, cornerP⟩, ⟨env.handler.populate ⟨0, ['1', '1']⟩, cornerQ⟩) ∈ pairs := by
  obtain ⟨ha, hb, -⟩ := createSceneGraphs_ok h
  obtain ⟨hP, hQ, -⟩ := hsets.mem_meshes h
  exact mem_broadphase_inter hbuilder (createSceneGraph_ok ha).1 (createSceneGraph_ok hb).1 (hP mesh hmesh)
    (hQ ⟨0, ['1', '1']⟩ List.mem_cons_self) hclose

end CornerSets

noncomputable def cornerConfig : ClashDetectionConfig .digits ℝ where
  tolerance := 1
  setA := [cornerP, cornerS]
  setB := [cornerQ, cornerS]
  selfIntersectsA := true
  selfIntersectsB := false

/-- The meshes are built in the order in which they come. -/
theorem perm_id (nodes : List (Node .digits ℝ)) : (id nodes).Perm nodes := .refl nodes

noncomputable def cornerEnvironment : Environment .digits ℝ where
  handler :=
    { populate := fun mesh => cornerNode mesh.uniqueId
      uniqueId_populate := fun _ => rfl
      getNodes := id
      getNodes_perm := perm_id }
  builder := .chain ℝ
  geometry := cornerGeometry
  hashCombine := fun hash _ => hash

theorem cornerSets_cornerConfig : CornerSets cornerConfig := by
  have hsets : (createDisjointSets cornerConfig).a = [cornerP] ∧ (createDisjointSets cornerConfig).b = [cornerQ] ∧
      (createDisjointSets cornerConfig).c = [cornerS] := by
    decide +kernel
  exact ⟨hsets.1, hsets.2.1, hsets.2.2⟩

private theorem contains_origin (u : Boost.digits.Uuid) : (cornerNode u).bounds.Contains ⟨0, 0, 0⟩ := by
  have hsize : 0 ≤ cornerSize u := Nat.cast_nonneg _
  exact ⟨⟨le_rfl, hsize⟩, ⟨le_rfl, hsize⟩, ⟨le_rfl, le_rfl⟩⟩

section Scene

variable {graphs : SceneGraphs .digits ℝ}
  (h : createSceneGraphs cornerEnvironment.handler cornerEnvironment.builder cornerConfig = .ok graphs)

include h

private theorem exists_runs_corner : ∃ report, Clearance.Runs cornerEnvironment cornerConfig report :=
  cornerSets_cornerConfig.exists_runs h fun _ => List.cons_ne_nil _ _

/-- The two meshes of the object that has two. -/
private theorem exists_pairs_intra : ∃ pairs,
    broadphase (DistanceQuery.intersect cornerConfig.tolerance) (.intra graphs.a) = some pairs ∧
      ((⟨cornerNode ['1'], cornerP⟩, ⟨cornerNode ['1', '1', '1'], cornerP⟩) ∈ pairs ∨
        (⟨cornerNode ['1', '1', '1'], cornerP⟩, ⟨cornerNode ['1'], cornerP⟩) ∈ pairs) := by
  obtain ⟨ha, -, -⟩ := createSceneGraphs_ok h
  obtain ⟨hmem, -, -⟩ := cornerSets_cornerConfig.mem_meshes h
  obtain ⟨hbvh, hperm⟩ := createSceneGraph_ok ha
  have hlength : graphs.a.meshes.length = 2 := by
    rw [hperm.length_eq, cornerSets_cornerConfig.a]
    rfl
  have hnodes : 2 ≤ graphs.a.bvh.nodeCount := by
    have hcount : graphs.a.bvh.nodeCount = 2 * (graphs.a.meshes.map fun node => node.bounds).length - 1 := by
      rw [hbvh]
      rfl
    rw [hcount, List.length_map, hlength]
    decide
  refine mem_broadphase_intra SweepSahBuilder.chain_encloses hbvh hnodes (hmem ⟨0, ['1']⟩ (by decide))
    (hmem ⟨0, ['1', '1', '1']⟩ (by decide)) ?_ ⟨_, _, contains_origin _, contains_origin _, ?_⟩
  · intro he
    have hid := congrArg (fun node : Node Boost.digits ℝ => node.uniqueId) he
    exact absurd hid (by decide)
  · simp [RepoVector3D.norm2, cornerConfig]

private theorem not_swapsAgree_corner : ¬ Clearance.SwapsAgree cornerEnvironment cornerConfig := by
  intro hagree
  obtain ⟨report, graphs', ts, arrival, h', hts, -, -⟩ := exists_runs_corner h
  obtain rfl := Except.ok.inj (h.symm.trans h')
  have hmem : ∀ mesh ∈ cornerP.meshes,
      (cornerCached mesh.uniqueId cornerP, cornerCached ['1', '1'] cornerQ) ∈ ts := by
    intro mesh hmesh
    obtain ⟨pairs, hpairs, hp⟩ := cornerSets_cornerConfig.exists_pairs_inter h SweepSahBuilder.chain_encloses hmesh
      ⟨_, _, contains_origin _, contains_origin _, by simp [RepoVector3D.norm2, cornerConfig]⟩
    exact (Clearance.mem_tests_iff hts).2 ⟨_, Hard.mem_passes_iff.2 (.inl rfl), pairs, hpairs, _, hp, rfl⟩
  have hswaps := (hagree graphs ts h hts).same _ (hmem ⟨0, ['1']⟩ (by decide)) _ (hmem ⟨0, ['1', '1', '1']⟩ (by decide))
    reports_corner reports_corner (by decide) rfl rfl
  have hone : cornerSize ['1'] = 1 := Nat.cast_one
  have htwo : cornerSize ['1', '1'] = 2 := Nat.cast_ofNat
  have hthree : cornerSize ['1', '1', '1'] = 3 := Nat.cast_ofNat
  have hpos : ∀ {u : Boost.digits.Uuid} {n : ℝ}, cornerSize u = n → 0 < n → 0 < cornerSize u := fun h hn => h ▸ hn
  have hsmall : (cornerCached ['1'] cornerP).bounds.gt (cornerCached ['1', '1'] cornerQ).bounds = false :=
    (gt_corner (hpos hone (by norm_num)) (hpos htwo (by norm_num))).trans
      (decide_eq_false (by erw [hone, htwo]; norm_num))
  have hlarge : (cornerCached ['1', '1', '1'] cornerP).bounds.gt (cornerCached ['1', '1'] cornerQ).bounds = true :=
    (gt_corner (hpos hthree (by norm_num)) (hpos htwo (by norm_num))).trans
      (decide_eq_true (by erw [hthree, htwo]; norm_num))
  exact Bool.false_ne_true (hsmall.symm.trans (hswaps.trans hlarge))

private theorem not_selfClear_corner : ¬ Clearance.SelfClear cornerEnvironment cornerConfig := by
  intro hclear
  obtain ⟨pairs, hpairs, hp⟩ := exists_pairs_intra h
  have hpass : .intra graphs.a ∈ Clearance.passes cornerConfig graphs.a graphs.b graphs.c :=
    Hard.mem_passes_iff.2 (.inr (.inr (.inr (.inl ⟨rfl, rfl⟩))))
  rcases hp with hp | hp
  · exact hclear graphs h _ hpass pairs hpairs _ hp rfl reports_corner
  · exact hclear graphs h _ hpass pairs hpairs _ hp rfl reports_corner

end Scene

/-- A clearance run reports the object with two meshes and the one of the other set twice: the first mesh is smaller
than the mesh of the other object, and the second is larger. -/
theorem exists_not_nodup_corner : ∃ report, Clearance.Runs cornerEnvironment cornerConfig report ∧
    ¬ (report.map ClashDetectionResult.unordered).Nodup := by
  obtain ⟨graphs, h⟩ := cornerSets_cornerConfig.exists_sceneGraphs cornerEnvironment
  obtain ⟨report, hreport⟩ := exists_runs_corner h
  exact ⟨report, hreport, fun hnodup => not_swapsAgree_corner h (hreport.nodup_iff.1 hnodup)⟩

/-- The same run reports the object with two meshes and itself. -/
theorem exists_id_eq_corner : ∃ report, Clearance.Runs cornerEnvironment cornerConfig report ∧
    ∃ result ∈ report, result.idA = result.idB := by
  obtain ⟨graphs, h⟩ := cornerSets_cornerConfig.exists_sceneGraphs cornerEnvironment
  obtain ⟨report, hreport⟩ := exists_runs_corner h
  refine ⟨report, hreport, ?_⟩
  by_contra hne
  push Not at hne
  exact not_selfClear_corner h (hreport.id_ne_iff.1 hne)

end Corner

end Bouncer.Clash
