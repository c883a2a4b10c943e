import Bouncer.Bvh.Operators
import Bouncer.Clash.Config
import Bouncer.Clash.Mesh
import Bouncer.Clash.Report

/-!
# Scene graphs and broadphase

What the two pipelines share before their narrowphase.  Each of the three disjoint sets gets a `Graph`, the mesh nodes
of its objects under a hierarchy of their bounds.  A broadphase runs over the passes and collects the pairs of mesh
nodes whose bounds satisfy the predicate of the query.

The nodes of a graph are the meshes of the objects of its set (`mem_meshes_iff`).
-/

namespace Bouncer.Clash

variable {boost : Boost} {R : Type*}

/-- `sparse::Node`: a mesh node with its transform to project coordinates. -/
structure SparseNode (boost : Boost) (R : Type*) where
  uniqueId : boost.Uuid
  matrix : RepoVector3D R → RepoVector3D R
  /-- The field of the mesh with its bounding box, transformed by the matrix. -/
  bounds : BoundingBox R
  vertices : List (RepoVector3D R)
  faces : List RepoFace

structure Node (boost : Boost) (R : Type*) extends SparseNode boost R where
  compositeObject : CompositeObject boost

/-- What the pipelines read from the database. -/
structure Handler (boost : Boost) (R : Type*) where
  /-- `SceneGraph::populate`, for one mesh. -/
  populate : MeshReference boost → SparseNode boost R
  uniqueId_populate : ∀ mesh, (populate mesh).uniqueId = mesh.uniqueId
  /-- `SceneGraph::getNodes` lists the nodes in the order of an unordered map. -/
  getNodes : List (Node boost R) → List (Node boost R)
  getNodes_perm : ∀ nodes, (getNodes nodes).Perm nodes

structure Graph (boost : Boost) (R : Type*) where
  meshes : List (Node boost R)
  bvh : Bvh R

namespace Graph

def ofNodes (builder : SweepSahBuilder R) (nodes : List (Node boost R)) : Graph boost R :=
  ⟨nodes, builder.build (nodes.map fun node => node.bounds)⟩

/-- `getNode`, for a unique id. -/
def getNode (graph : Graph boost R) (uniqueId : boost.Uuid) : Option (Node boost R) :=
  graph.meshes.find? fun node => decide (node.uniqueId = uniqueId)

/-- The nodes of a list of pairs of primitives, one in each graph. -/
def getNodes (gA gB : Graph boost R) (results : List (ℕ × ℕ)) : List (Node boost R × Node boost R) :=
  results.filterMap fun p => do return (← gA.meshes[p.1]?, ← gB.meshes[p.2]?)

end Graph

inductive ClashDetectionException (boost : Boost) where
  | duplicateMeshIds (uniqueId : boost.Uuid)
  | degenerateTest (compositeIdA compositeIdB : boost.Uuid) (message : String)

/-- Each mesh of a set with its composite object. -/
def meshesOf (set : List (CompositeObject boost)) : List (MeshReference boost × CompositeObject boost) :=
  set.flatMap fun composite => composite.meshes.map fun mesh => (mesh, composite)

/-- The loop of `createSceneGraph` that fills `idToIndexMap`, here with the object instead of its index. -/
def indexMeshes : List (MeshReference boost × CompositeObject boost) → List (boost.Uuid × CompositeObject boost) →
    Except (ClashDetectionException boost) (List (boost.Uuid × CompositeObject boost))
  | [], idToIndexMap => .ok idToIndexMap
  | (mesh, composite) :: rest, idToIndexMap =>
    if mesh.uniqueId ∈ idToIndexMap.map Prod.fst then .error (.duplicateMeshIds mesh.uniqueId)
    else indexMeshes rest (idToIndexMap ++ [(mesh.uniqueId, composite)])

def createSceneGraph (handler : Handler boost R) (builder : SweepSahBuilder R) (set : List (CompositeObject boost)) :
    Except (ClashDetectionException boost) (Graph boost R) :=
  (indexMeshes (meshesOf set) []).map fun idToIndexMap =>
    let nodes := (meshesOf set).filterMap fun p =>
      let node := handler.populate p.1
      (idToIndexMap.lookup node.uniqueId).map fun composite => ⟨node, composite⟩
    Graph.ofNodes builder (handler.getNodes nodes)

structure SceneGraphs (boost : Boost) (R : Type*) where
  a : Graph boost R
  b : Graph boost R
  c : Graph boost R

def SceneGraphs.toList (graphs : SceneGraphs boost R) : List (Graph boost R) := [graphs.a, graphs.b, graphs.c]

/-- The graphs that `runPipeline` hands to `run`. -/
def createSceneGraphs (handler : Handler boost R) (builder : SweepSahBuilder R)
    (config : ClashDetectionConfig boost R) : Except (ClashDetectionException boost) (SceneGraphs boost R) := do
  let sets := createDisjointSets config
  return ⟨← createSceneGraph handler builder sets.a, ← createSceneGraph handler builder sets.b,
    ← createSceneGraph handler builder sets.c⟩

/-- One pass of a broadphase whose query has the node predicate `intersectNodes`. -/
def broadphase (intersectNodes : BvhNode R → BvhNode R → Bool) :
    Pass (Graph boost R) → Option (List (Node boost R × Node boost R))
  | .inter gA gB => (Traversal.collect gA.bvh gB.bvh intersectNodes).map (gA.getNodes gB)
  | .intra graph => (Traversal.selfCollect graph.bvh intersectNodes).map (graph.getNodes graph)

/-- What a pipeline is given besides its configuration. -/
structure Environment (boost : Boost) (R : Type*) where
  handler : Handler boost R
  builder : SweepSahBuilder R
  geometry : Geometry R
  /-- `hash_combine`. -/
  hashCombine : ℕ → R → ℕ

/-- `loadGeometry`: the triangles of a node in project coordinates. -/
def loadGeometry [Field R] (node : Node boost R) : List (RepoTriangle R) :=
  let vertex := fun i => node.matrix (node.vertices.getD i 0)
  node.faces.map fun face => ⟨vertex (face.get 0), vertex (face.get 1), vertex (face.get 2)⟩

/-! ### The objects of a graph -/

private theorem indexMeshes_ok {pairs : List (MeshReference boost × CompositeObject boost)}
    {idToIndexMap result : List (boost.Uuid × CompositeObject boost)}
    (h : indexMeshes pairs idToIndexMap = .ok result) (hnodup : (idToIndexMap.map Prod.fst).Nodup) :
    result = idToIndexMap ++ pairs.map (fun p => (p.1.uniqueId, p.2)) ∧ (result.map Prod.fst).Nodup := by
  induction pairs generalizing idToIndexMap with
  | nil =>
    cases h
    exact ⟨(List.append_nil _).symm, hnodup⟩
  | cons p rest ih =>
    unfold indexMeshes at h
    by_cases hmem : p.1.uniqueId ∈ idToIndexMap.map Prod.fst
    · rw [if_pos hmem] at h
      cases h
    · rw [if_neg hmem] at h
      have hnodup' : ((idToIndexMap ++ [(p.1.uniqueId, p.2)]).map Prod.fst).Nodup := by
        rw [List.map_append]
        exact List.Nodup.append hnodup (List.nodup_singleton _) (List.disjoint_singleton.2 hmem)
      obtain ⟨he, hresult⟩ := ih h hnodup'
      exact ⟨by rw [he]; simp, hresult⟩

private theorem lookup_eq_some {κ β : Type*} [DecidableEq κ] {l : List (κ × β)} (h : (l.map Prod.fst).Nodup) {k : κ}
    {v : β} (hmem : (k, v) ∈ l) : l.lookup k = some v := by
  induction l with
  | nil => exact absurd hmem List.not_mem_nil
  | cons e l ih =>
    rw [List.map_cons, List.nodup_cons] at h
    rcases List.mem_cons.1 hmem with rfl | hmem
    · exact List.lookup_cons_self
    · have hne : k ≠ e.1 := fun he => h.1 (he ▸ List.mem_map_of_mem (f := Prod.fst) hmem)
      have hbeq : (k == e.1) = false := beq_eq_false_iff_ne.2 hne
      rw [List.lookup_cons, hbeq]
      exact ih h.2 hmem

variable {set : List (CompositeObject boost)}

private theorem mem_meshesOf {p : MeshReference boost × CompositeObject boost} :
    p ∈ meshesOf set ↔ p.2 ∈ set ∧ p.1 ∈ p.2.meshes := by
  obtain ⟨mesh, composite⟩ := p
  simp only [meshesOf, List.mem_flatMap, List.mem_map, Prod.mk.injEq]
  constructor
  · rintro ⟨c, hc, m, hm, rfl, rfl⟩
    exact ⟨hc, hm⟩
  · rintro ⟨hc, hm⟩
    exact ⟨composite, hc, mesh, hm, rfl, rfl⟩

variable {node : Node boost R}

section SceneGraph

variable {handler : Handler boost R} {builder : SweepSahBuilder R} {set : List (CompositeObject boost)}
  {graph : Graph boost R}

theorem createSceneGraph_ok (h : createSceneGraph handler builder set = .ok graph) :
    graph.bvh = builder.build (graph.meshes.map fun node => node.bounds) ∧
      graph.meshes.Perm ((meshesOf set).map fun p => ⟨handler.populate p.1, p.2⟩) := by
  unfold createSceneGraph at h
  cases hindex : indexMeshes (meshesOf set) [] with
  | error e =>
    rw [hindex] at h
    cases h
  | ok idToIndexMap =>
    rw [hindex] at h
    cases h
    obtain ⟨he, hnodup⟩ := indexMeshes_ok hindex List.nodup_nil
    refine ⟨rfl, (handler.getNodes_perm _).trans (List.Perm.of_eq ?_)⟩
    rw [← List.filterMap_eq_map]
    refine List.filterMap_congr ?_
    intro p hp
    have hmem : ((handler.populate p.1).uniqueId, p.2) ∈ idToIndexMap := by
      rw [he, handler.uniqueId_populate, List.nil_append]
      exact List.mem_map_of_mem (f := fun p => (p.1.uniqueId, p.2)) hp
    simp [lookup_eq_some hnodup hmem]

/-- The nodes of a graph are the meshes of the objects of its set. -/
theorem mem_meshes_iff (h : createSceneGraph handler builder set = .ok graph) :
    node ∈ graph.meshes ↔ ∃ composite ∈ set, ∃ mesh ∈ composite.meshes, node = ⟨handler.populate mesh, composite⟩ := by
  rw [(createSceneGraph_ok h).2.mem_iff, List.mem_map]
  constructor
  · rintro ⟨p, hp, rfl⟩
    obtain ⟨hset, hmesh⟩ := mem_meshesOf.1 hp
    exact ⟨p.2, hset, p.1, hmesh, rfl⟩
  · rintro ⟨composite, hset, mesh, hmesh, rfl⟩
    exact ⟨(mesh, composite), mem_meshesOf.2 ⟨hset, hmesh⟩, rfl⟩

theorem compositeObject_mem (h : createSceneGraph handler builder set = .ok graph)
    (hnode : node ∈ graph.meshes) : node.compositeObject ∈ set := by
  obtain ⟨composite, hset, mesh, -, rfl⟩ := (mem_meshes_iff h).1 hnode
  exact hset

end SceneGraph

variable {gA gB : Graph boost R}

private theorem mem_getNodes {results : List (ℕ × ℕ)} {a b : Node boost R} :
    (a, b) ∈ gA.getNodes gB results ↔ ∃ i j, (i, j) ∈ results ∧ gA.meshes[i]? = some a ∧ gB.meshes[j]? = some b := by
  unfold Graph.getNodes
  rw [List.mem_filterMap]
  constructor
  · rintro ⟨p, hp, h⟩
    obtain ⟨a', ha, h⟩ := Option.bind_eq_some_iff.1 h
    obtain ⟨b', hb, h⟩ := Option.bind_eq_some_iff.1 h
    cases h
    exact ⟨p.1, p.2, hp, ha, hb⟩
  · rintro ⟨i, j, hp, ha, hb⟩
    exact ⟨(i, j), hp, by simp [ha, hb]⟩

private theorem mem_of_mem_getNodes {results : List (ℕ × ℕ)} {p : Node boost R × Node boost R}
    (h : p ∈ gA.getNodes gB results) : p.1 ∈ gA.meshes ∧ p.2 ∈ gB.meshes := by
  obtain ⟨i, j, -, ha, hb⟩ := mem_getNodes.1 h
  exact ⟨List.mem_of_getElem? ha, List.mem_of_getElem? hb⟩

/-! ### The pairs that a distance query finds -/

variable {graph : Graph boost R} {x y : Node boost R}

section Distance

variable [LinearOrder R] {builder : SweepSahBuilder R} {gA gB : Graph boost R}

private theorem encloses_bounds (hbuilder : builder.Encloses)
    (h : graph.bvh = builder.build (graph.meshes.map fun node => node.bounds)) (hne : graph.meshes ≠ []) :
    graph.bvh.WellFormed graph.meshes.length ∧
      graph.bvh.Encloses fun k => {p | ∃ node, graph.meshes[k]? = some node ∧ node.bounds.Contains p} := by
  have hboxes : (graph.meshes.map fun node => node.bounds) ≠ [] := by simpa using hne
  have hwf := builder.wellFormed _ hboxes
  rw [List.length_map] at hwf
  refine ⟨h ▸ hwf, ?_⟩
  have hencloses := hbuilder _ hboxes
  rw [← h] at hencloses
  intro i j hroot hij hleaf k hk p ⟨node, hnode, hp⟩
  exact hencloses i j hroot hij hleaf k hk p ⟨node.bounds, by rw [List.getElem?_map, hnode]; rfl, hp⟩

variable [Field R] [IsStrictOrderedRing R]

/-- An inter-set pass with a distance query finds all nodes whose bounds are close enough. -/
theorem mem_broadphase_inter (hbuilder : builder.Encloses)
    (hA : gA.bvh = builder.build (gA.meshes.map fun node => node.bounds))
    (hB : gB.bvh = builder.build (gB.meshes.map fun node => node.bounds)) (hx : x ∈ gA.meshes)
    (hy : y ∈ gB.meshes) {d : R} (h : ∃ p q, x.bounds.Contains p ∧ y.bounds.Contains q ∧ (q - p).norm2 ≤ d * d) :
    ∃ pairs, broadphase (DistanceQuery.intersect d) (.inter gA gB) = some pairs ∧ (x, y) ∈ pairs := by
  obtain ⟨hwA, hencA⟩ := encloses_bounds hbuilder hA (List.ne_nil_of_mem hx)
  obtain ⟨hwB, hencB⟩ := encloses_bounds hbuilder hB (List.ne_nil_of_mem hy)
  obtain ⟨results, hresults, -, hmem⟩ := Traversal.collect_distanceQuery hwA hwB hencA hencB d
  obtain ⟨i, hi⟩ := List.getElem?_of_mem hx
  obtain ⟨j, hj⟩ := List.getElem?_of_mem hy
  obtain ⟨p, q, hp, hq, hd⟩ := h
  refine ⟨_, by rw [broadphase, hresults]; rfl, mem_getNodes.2 ⟨i, j, ?_, hi, hj⟩⟩
  exact hmem i j (List.getElem?_eq_some_iff.1 hi).1 (List.getElem?_eq_some_iff.1 hj).1
    ⟨p, ⟨x, hi, hp⟩, q, ⟨y, hj, hq⟩, hd⟩

/-- The same within one graph, in either order. -/
theorem mem_broadphase_intra (hbuilder : builder.Encloses)
    (hgraph : graph.bvh = builder.build (graph.meshes.map fun node => node.bounds)) (hnodes : 2 ≤ graph.bvh.nodeCount)
    (hx : x ∈ graph.meshes) (hy : y ∈ graph.meshes) (hne : x ≠ y) {d : R}
    (h : ∃ p q, x.bounds.Contains p ∧ y.bounds.Contains q ∧ (q - p).norm2 ≤ d * d) :
    ∃ pairs, broadphase (DistanceQuery.intersect d) (.intra graph) = some pairs ∧ ((x, y) ∈ pairs ∨ (y, x) ∈ pairs) := by
  obtain ⟨hwf, hencloses⟩ := encloses_bounds hbuilder hgraph (List.ne_nil_of_mem hx)
  obtain ⟨results, hresults, hmem⟩ := Traversal.selfCollect_distanceQuery hwf hnodes hencloses d
  obtain ⟨i, hi⟩ := List.getElem?_of_mem hx
  obtain ⟨j, hj⟩ := List.getElem?_of_mem hy
  obtain ⟨p, q, hp, hq, hd⟩ := h
  have hij : i ≠ j := by
    rintro rfl
    exact hne (Option.some_injective _ (hi.symm.trans hj))
  refine ⟨_, by rw [broadphase, hresults]; rfl, ?_⟩
  rcases hmem i j (List.getElem?_eq_some_iff.1 hi).1 (List.getElem?_eq_some_iff.1 hj).1 hij
    ⟨p, ⟨x, hi, hp⟩, q, ⟨y, hj, hq⟩, hd⟩ with h | h
  · exact Or.inl (mem_getNodes.2 ⟨i, j, h, hi, hj⟩)
  · exact Or.inr (mem_getNodes.2 ⟨j, i, h, hj, hi⟩)

end Distance

/-! ### All passes of a broadphase -/

section Passes

variable {α β : Type*} {l : List α}

theorem mem_mapM {f : α → Option β} {results : List β} (h : l.mapM f = some results)
    {y : β} : y ∈ results ↔ ∃ x ∈ l, f x = some y := by
  induction l generalizing results with
  | nil =>
    cases h
    simp
  | cons x l ih =>
    rw [List.mapM_cons] at h
    obtain ⟨z, hz, h⟩ := Option.bind_eq_some_iff.1 h
    obtain ⟨rest, hrest, h⟩ := Option.bind_eq_some_iff.1 h
    cases h
    rw [List.mem_cons, ih hrest, List.exists_mem_cons_iff, hz, Option.some_inj]
    exact or_congr_left eq_comm

theorem mem_flatten_mapM {f : α → Option (List β)} {results : List (List β)}
    (h : l.mapM f = some results) {y : β} : y ∈ results.flatten ↔ ∃ x ∈ l, ∃ ys, f x = some ys ∧ y ∈ ys := by
  rw [List.mem_flatten]
  constructor
  · rintro ⟨ys, hys, hy⟩
    obtain ⟨x, hx, hfx⟩ := (mem_mapM h).1 hys
    exact ⟨x, hx, ys, hfx, hy⟩
  · rintro ⟨x, hx, ys, hfx, hy⟩
    exact ⟨ys, (mem_mapM h).2 ⟨x, hx, hfx⟩, hy⟩

theorem isSome_mapM {f : α → Option β} (h : ∀ x ∈ l, (f x).isSome) :
    (l.mapM f).isSome := by
  induction l with
  | nil => rfl
  | cons x l ih =>
    obtain ⟨y, hy⟩ := Option.isSome_iff_exists.1 (h x List.mem_cons_self)
    obtain ⟨ys, hys⟩ := Option.isSome_iff_exists.1 (ih fun z hz => h z (List.mem_cons_of_mem _ hz))
    rw [List.mapM_cons, hy, hys]
    rfl

variable {handler : Handler boost R} {builder : SweepSahBuilder R} {config : ClashDetectionConfig boost R}
  {graphs : SceneGraphs boost R}

theorem createSceneGraphs_ok (h : createSceneGraphs handler builder config = .ok graphs) :
    createSceneGraph handler builder (createDisjointSets config).a = .ok graphs.a ∧
    createSceneGraph handler builder (createDisjointSets config).b = .ok graphs.b ∧
    createSceneGraph handler builder (createDisjointSets config).c = .ok graphs.c := by
  unfold createSceneGraphs at h
  cases ha : createSceneGraph handler builder (createDisjointSets config).a with
  | error e => simp [ha, bind, Except.bind] at h
  | ok a =>
    cases hb : createSceneGraph handler builder (createDisjointSets config).b with
    | error e => simp [ha, hb, bind, Except.bind] at h
    | ok b =>
      cases hc : createSceneGraph handler builder (createDisjointSets config).c with
      | error e => simp [ha, hb, hc, bind, Except.bind] at h
      | ok c =>
        simp only [ha, hb, hc, bind, Except.bind, pure, Except.pure, Except.ok.injEq] at h
        subst h
        exact ⟨rfl, rfl, rfl⟩

private theorem id_mem
    (h : createSceneGraph handler builder set = .ok graph) (hnode : node ∈ graph.meshes) :
    node.compositeObject.id ∈ ids set := List.mem_map_of_mem (compositeObject_mem h hnode)

/-- An inter-set pass compares nodes of objects with different identifiers. -/
theorem id_ne_of_inter (h : createSceneGraphs handler builder config = .ok graphs)
    (hpass : .inter gA gB ∈ Hard.passes config graphs.a graphs.b graphs.c) (hx : x ∈ gA.meshes)
    (hy : y ∈ gB.meshes) : x.compositeObject.id ≠ y.compositeObject.id := by
  obtain ⟨ha, hb, hc⟩ := createSceneGraphs_ok h
  obtain ⟨hab, hac, hbc⟩ := disjoint_ids config
  have hcases : (gA = graphs.a ∧ gB = graphs.b) ∨ (gA = graphs.a ∧ gB = graphs.c) ∨ (gA = graphs.b ∧ gB = graphs.c) := by
    simpa using Hard.mem_passes_iff.1 hpass
  intro he
  rcases hcases with ⟨rfl, rfl⟩ | ⟨rfl, rfl⟩ | ⟨rfl, rfl⟩
  · exact hab (id_mem ha hx) (he ▸ id_mem hb hy)
  · exact hac (id_mem ha hx) (he ▸ id_mem hc hy)
  · exact hbc (id_mem hb hx) (he ▸ id_mem hc hy)

/-- Each of the graphs is made of a set of objects. -/
theorem exists_set (h : createSceneGraphs handler builder config = .ok graphs)
    (hgraph : graph ∈ graphs.toList) : ∃ set, createSceneGraph handler builder set = .ok graph := by
  obtain ⟨ha, hb, hc⟩ := createSceneGraphs_ok h
  simp only [SceneGraphs.toList, List.mem_cons, List.not_mem_nil, or_false] at hgraph
  rcases hgraph with rfl | rfl | rfl
  · exact ⟨_, ha⟩
  · exact ⟨_, hb⟩
  · exact ⟨_, hc⟩

private theorem wellFormed_of_createSceneGraph
    (h : createSceneGraph handler builder set = .ok graph) (hne : graph.meshes ≠ []) :
    graph.bvh.WellFormed graph.meshes.length := by
  have hwf := builder.wellFormed (graph.meshes.map fun node => node.bounds) (by simpa using hne)
  rw [List.length_map] at hwf
  rw [(createSceneGraph_ok h).1]
  exact hwf

/-- The nodes of a pair that a pass finds are on the two sides of the pass. -/
theorem mem_sides_of_broadphase {intersectNodes : BvhNode R → BvhNode R → Bool} {pass : Pass (Graph boost R)}
    {pairs : List (Node boost R × Node boost R)} (hpairs : broadphase intersectNodes pass = some pairs)
    {p : Node boost R × Node boost R} (hp : p ∈ pairs) :
    p.1 ∈ pass.sides.1.meshes ∧ p.2 ∈ pass.sides.2.meshes := by
  cases pass with
  | inter gA gB =>
    obtain ⟨results, -, rfl⟩ := Option.map_eq_some_iff.1 hpairs
    exact mem_of_mem_getNodes hp
  | intra graph =>
    obtain ⟨results, -, rfl⟩ := Option.map_eq_some_iff.1 hpairs
    exact mem_of_mem_getNodes hp

/-- Every pass over graphs with nodes terminates. -/
theorem isSome_broadphase (h : createSceneGraphs handler builder config = .ok graphs)
    (hne : ∀ graph ∈ graphs.toList, graph.meshes ≠ []) {pass : Pass (Graph boost R)}
    (hpass : pass ∈ Hard.passes config graphs.a graphs.b graphs.c) (intersectNodes : BvhNode R → BvhNode R → Bool) :
    (broadphase intersectNodes pass).isSome := by
  have hwf : ∀ graph ∈ graphs.toList, graph.bvh.WellFormed graph.meshes.length := by
    intro graph hgraph
    obtain ⟨set, hset⟩ := exists_set h hgraph
    exact wellFormed_of_createSceneGraph hset (hne graph hgraph)
  obtain ⟨hleft, hright⟩ := Hard.sides_mem hpass
  cases pass with
  | inter gA gB =>
    obtain ⟨t, ht⟩ := hwf gA hleft
    obtain ⟨u, hu⟩ := hwf gB hright
    rw [broadphase, Traversal.collect_eq ht hu]
    rfl
  | intra graph =>
    obtain ⟨results, hresults⟩ := Option.isSome_iff_exists.1 (Traversal.selfCollect_isSome (hwf graph hleft) intersectNodes)
    rw [broadphase, hresults]
    rfl

end Passes

end Bouncer.Clash
