import Bouncer.Clash.DeformMesh

/-!
# The hard pipeline

The broadphase finds pairs of mesh nodes, but a test takes two composite objects, each with one mesh of all its nodes.
A pass asks for each pair of objects once, and a pass within one graph skips the pairs of an object with itself.  A
test reports if the penetration depth exceeds the tolerance.

How deep two meshes penetrate each other is a parameter: what is said here holds however `RepoDeformDepth` searches.
-/

namespace Bouncer.Clash.Hard

open Library (collect)

variable {boost : Boost} {R : Type*}

structure CacheEntry (boost : Boost) (R : Type*) where
  compositeObject : CompositeObject boost
  mesh : DeformMesh R

/-- The pairs of objects that one pass adds to `compositePairs`, a set. -/
def compositePairs (pass : Pass (Graph boost R)) (results : List (Node boost R × Node boost R)) :
    List (CompositeObject boost × CompositeObject boost) :=
  let pairs := results.map fun p => (p.1.compositeObject, p.2.compositeObject)
  match pass with
  | .inter _ _ => pairs.dedup
  | .intra _ => (pairs.filter fun p => decide (p.1.id ≠ p.2.id)).dedup

private theorem mem_compositePairs {pass : Pass (Graph boost R)} {results : List (Node boost R × Node boost R)}
    {p : CompositeObject boost × CompositeObject boost} (h : p ∈ compositePairs pass results) :
    ∃ q ∈ results, p = (q.1.compositeObject, q.2.compositeObject) := by
  have hmap : p ∈ results.map fun p => (p.1.compositeObject, p.2.compositeObject) := by
    cases pass with
    | inter gA gB => exact List.mem_dedup.1 h
    | intra graph => exact List.mem_of_mem_filter (List.mem_dedup.1 h)
  obtain ⟨q, hq, rfl⟩ := List.mem_map.1 hmap
  exact ⟨q, hq, rfl⟩

section Field

variable [Field R] [LinearOrder R] (geometry : Geometry R) (builder : SweepSahBuilder R)

namespace CacheEntry

/-- `Cache::initialise` and `CacheEntry::initialise`. -/
def initialise (graph : Graph boost R) (composite : CompositeObject boost) : Option (CacheEntry boost R) :=
  (composite.meshes.mapM fun mesh => graph.getNode mesh.uniqueId).map fun nodes =>
    ⟨composite, .ofNodes geometry builder nodes⟩

end CacheEntry

/-- The tests of one pass. -/
def passTests (pass : Pass (Graph boost R)) : Option (List (CacheEntry boost R × CacheEntry boost R)) :=
  (broadphase IntersectQuery.intersect pass).bind fun results => (compositePairs pass results).mapM fun p =>
    (CacheEntry.initialise geometry builder pass.sides.1 p.1).bind fun a =>
      (CacheEntry.initialise geometry builder pass.sides.2 p.2).map fun b => (a, b)

def tests (config : ClashDetectionConfig boost R) (graphs : SceneGraphs boost R) :
    Option (List (CacheEntry boost R × CacheEntry boost R)) :=
  ((passes config graphs.a graphs.b graphs.c).mapM (passTests geometry builder)).map List.flatten

end Field

section Narrowphase

variable [ExactReal R] (penetrationDepth : DeformMesh R → DeformMesh R → R → R) (tolerance : R)

def getContactManifold (a b : DeformMesh R) : List (RepoVector3D R) := [a.bounds.center, b.bounds.center]

/-- One test of the narrowphase: the contacts that it writes, if any. -/
def test (a b : CacheEntry boost R) : Option (List (List (RepoVector3D R))) :=
  some (if penetrationDepth a.mesh b.mesh tolerance > tolerance then [getContactManifold a.mesh b.mesh] else [])

def narrowphase : Narrowphase (CacheEntry boost R) (List (RepoVector3D R)) R where
  getId entry := entry.compositeObject.id
  getBounds entry := entry.mesh.bounds
  test := test penetrationDepth tolerance

/-- The clashes after all contacts have arrived.  They are overwritten each time. -/
def clashes (arrival : List (OrderedPair × List (RepoVector3D R))) :
    AList fun _ : OrderedPair => List (RepoVector3D R) := collect [] (fun _ contacts => contacts) arrival

/-- `runPipeline` returns the report. -/
def Runs (env : Environment boost R) (config : ClashDetectionConfig boost R)
    (report : List (ClashDetectionResult R)) : Prop :=
  ∃ graphs ts arrival, createSceneGraphs env.handler env.builder config = .ok graphs ∧
    tests env.geometry env.builder config graphs = some ts ∧
    (narrowphase penetrationDepth config.tolerance).Arrives ts arrival ∧
    report = createReport env.hashCombine id (clashes arrival)

end Narrowphase

/-! ### The tests of a run -/

section Tests

variable [Field R] [LinearOrder R] {geometry : Geometry R} {handler : Handler boost R} {builder : SweepSahBuilder R}
  {config : ClashDetectionConfig boost R} {graphs : SceneGraphs boost R}

private theorem initialise_compositeObject {graph : Graph boost R} {composite : CompositeObject boost}
    {entry : CacheEntry boost R} (h : CacheEntry.initialise geometry builder graph composite = some entry) :
    entry.compositeObject = composite := by
  obtain ⟨nodes, -, rfl⟩ := Option.map_eq_some_iff.1 h
  rfl

private theorem isSome_initialise {set : List (CompositeObject boost)} {graph : Graph boost R}
    (h : createSceneGraph handler builder set = .ok graph) {composite : CompositeObject boost} (hset : composite ∈ set) :
    (CacheEntry.initialise geometry builder graph composite).isSome := by
  unfold CacheEntry.initialise
  rw [Option.isSome_map]
  refine isSome_mapM ?_
  intro mesh hmesh
  have hnode := (mem_meshes_iff h).2 ⟨composite, hset, mesh, hmesh, rfl⟩
  exact List.find?_isSome.2 ⟨_, hnode, decide_eq_true (handler.uniqueId_populate mesh)⟩

private theorem exists_pass_of_mem_tests {ts : List (CacheEntry boost R × CacheEntry boost R)}
    (h : tests geometry builder config graphs = some ts) {t : CacheEntry boost R × CacheEntry boost R} (ht : t ∈ ts) :
    ∃ pass ∈ passes config graphs.a graphs.b graphs.c, ∃ results,
      broadphase IntersectQuery.intersect pass = some results ∧
        (t.1.compositeObject, t.2.compositeObject) ∈ compositePairs pass results := by
  obtain ⟨all, hall, rfl⟩ := Option.map_eq_some_iff.1 h
  obtain ⟨pass, hpass, entries, hentries, hmem⟩ := (mem_flatten_mapM hall).1 ht
  obtain ⟨results, hresults, hentries⟩ := Option.bind_eq_some_iff.1 hentries
  obtain ⟨p, hp, he⟩ := (mem_mapM hentries).1 hmem
  obtain ⟨a, ha, he⟩ := Option.bind_eq_some_iff.1 he
  obtain ⟨b, hb, rfl⟩ := Option.map_eq_some_iff.1 he
  refine ⟨pass, hpass, results, hresults, ?_⟩
  rw [initialise_compositeObject ha, initialise_compositeObject hb]
  exact hp

/-- No test is about an object and itself. -/
theorem id_ne_of_mem_tests (hgraphs : createSceneGraphs handler builder config = .ok graphs)
    {ts : List (CacheEntry boost R × CacheEntry boost R)} (h : tests geometry builder config graphs = some ts)
    {t : CacheEntry boost R × CacheEntry boost R} (ht : t ∈ ts) : t.1.compositeObject.id ≠ t.2.compositeObject.id := by
  obtain ⟨pass, hpass, results, hresults, hmem⟩ := exists_pass_of_mem_tests h ht
  cases pass with
  | inter gA gB =>
    obtain ⟨q, hq, he⟩ := mem_compositePairs hmem
    obtain ⟨ha, hb⟩ := Prod.mk.injEq _ _ _ _ ▸ he
    obtain ⟨hx, hy⟩ := mem_sides_of_broadphase hresults hq
    rw [ha, hb]
    exact id_ne_of_inter hgraphs hpass hx hy
  | intra graph =>
    have hfilter := (List.mem_filter.1 (List.mem_dedup.1 hmem)).2
    exact of_decide_eq_true hfilter

private theorem isSome_passTests (h : createSceneGraphs handler builder config = .ok graphs)
    (hmeshes : ∀ graph ∈ graphs.toList, graph.meshes ≠ []) {pass : Pass (Graph boost R)}
    (hpass : pass ∈ passes config graphs.a graphs.b graphs.c) : (passTests geometry builder pass).isSome := by
  obtain ⟨results, hresults⟩ := Option.isSome_iff_exists.1
    (isSome_broadphase h hmeshes hpass IntersectQuery.intersect)
  obtain ⟨hleft, hright⟩ := sides_mem hpass
  obtain ⟨left, hleft⟩ := exists_set h hleft
  obtain ⟨right, hright⟩ := exists_set h hright
  rw [passTests, hresults, Option.bind_some]
  refine isSome_mapM ?_
  intro p hp
  obtain ⟨q, hq, rfl⟩ := mem_compositePairs hp
  obtain ⟨hx, hy⟩ := mem_sides_of_broadphase hresults hq
  have ha : (CacheEntry.initialise geometry builder pass.sides.1 q.1.compositeObject).isSome :=
    isSome_initialise hleft (compositeObject_mem hleft hx)
  have hb : (CacheEntry.initialise geometry builder pass.sides.2 q.2.compositeObject).isSome :=
    isSome_initialise hright (compositeObject_mem hright hy)
  obtain ⟨a, ha⟩ := Option.isSome_iff_exists.1 ha
  obtain ⟨b, hb⟩ := Option.isSome_iff_exists.1 hb
  rw [ha, hb]
  rfl

end Tests

/-- The pipeline returns if each of the three sets has a mesh. -/
theorem exists_runs [ExactReal R] {penetrationDepth : DeformMesh R → DeformMesh R → R → R} {env : Environment boost R}
    {config : ClashDetectionConfig boost R} {graphs : SceneGraphs boost R}
    (h : createSceneGraphs env.handler env.builder config = .ok graphs)
    (hmeshes : ∀ graph ∈ graphs.toList, graph.meshes ≠ []) : ∃ report, Runs penetrationDepth env config report := by
  have hpasses : ((passes config graphs.a graphs.b graphs.c).mapM (passTests env.geometry env.builder)).isSome :=
    isSome_mapM fun pass hpass => isSome_passTests h hmeshes hpass
  obtain ⟨results, hresults⟩ := Option.isSome_iff_exists.1 hpasses
  have hts : tests env.geometry env.builder config graphs = some results.flatten := by
    rw [tests, hresults]
    rfl
  obtain ⟨arrival, harrival⟩ :
      ∃ arrival, (narrowphase penetrationDepth config.tolerance).Arrives results.flatten arrival :=
    Narrowphase.exists_arrives fun t _ => rfl
  exact ⟨_, graphs, _, arrival, h, hts, harrival, rfl⟩

end Bouncer.Clash.Hard
