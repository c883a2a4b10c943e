import Bouncer.Clash.ClearanceThreads
import Bouncer.Clash.Contains

/-!
# Degenerate tests

A test that raises a `GeometryTestException` makes its thread throw a `DegenerateTestException`.  The engine catches
what a pipeline throws and puts it into the report, but this exception never gets there: nothing in the function of the
thread catches it, and an exception that leaves the function of a `std::jthread` terminates the process.

So a run handles degenerate tests only as long as there are none (`handles_degenerate_iff`).
-/

namespace Bouncer.Clash

variable {boost : Boost} {R : Type*}

structure ClashDetectionReport (boost : Boost) (R : Type*) where
  clashes : List (ClashDetectionResult R)
  errors : List (ClashDetectionException boost)

/-- How `runPipeline` can end. -/
inductive Ending (boost : Boost) (R : Type*) where
  | returned (clashes : List (ClashDetectionResult R))
  | threw (e : ClashDetectionException boost)
  /-- `std::terminate`: an exception has left the function of a thread. -/
  | terminated

/-- `ClashDetectionEngine::runClashDetection`, as long as there is a process. -/
def runClashDetection : Ending boost R → Option (ClashDetectionReport boost R)
  | .returned clashes => some ⟨clashes, []⟩
  | .threw e => some ⟨[], [e]⟩
  | .terminated => none

/-- The process survives, and if there are tests that fail, there is a report, with an error for one of them. -/
structure HandlesDegenerate (ends : Ending boost R → Prop) (fails : ClashDetectionException boost → Prop) : Prop where
  survives : ¬ ends .terminated
  exists_ending : (∃ e, fails e) → ∃ ending, ends ending
  reports : (∃ e, fails e) → ∀ ending, ends ending → ∃ report, runClashDetection ending = some report ∧
    ∃ e ∈ report.errors, fails e

theorem HandlesDegenerate.of_not_fails {ends : Ending boost R → Prop} {fails : ClashDetectionException boost → Prop}
    (hends : ¬ ends .terminated) (hfails : ∀ e, ¬ fails e) : HandlesDegenerate ends fails :=
  ⟨hends, fun ⟨e, he⟩ => absurd he (hfails e), fun ⟨e, he⟩ => absurd he (hfails e)⟩

namespace Narrowphase

variable [ExactReal R] {E V T : Type*} (narrowphase : Narrowphase E V R) (raises : E → E → Option String) (init : T)
  (f : T → V → T)

/-- The `DegenerateTestException` of a test whose `GeometryTestException` has this message. -/
def exception (t : E × E) (message : String) : ClashDetectionException boost :=
  .degenerateTest (boost.stringToUUID (narrowphase.objects t).a) (boost.stringToUUID (narrowphase.objects t).b) message

/-- One of the tests raises, which is to be reported as this exception. -/
def Fails (tests : List (E × E)) (e : ClashDetectionException boost) : Prop :=
  ∃ t ∈ tests, ∃ message, narrowphase.raised raises t = some message ∧ e = narrowphase.exception t message

/-- The threads that take their tests from the queues with these numbers can end like this. -/
inductive Ends (hashCombine : ℕ → R → ℕ) (getClashPositions : T → List (RepoVector3D R)) (queues : List ℕ)
    (tests : List (List (E × E))) : Ending boost R → Prop
  | returned {clashes : AList fun _ : OrderedPair => T} : narrowphase.Finishes raises init f queues tests clashes →
    Ends hashCombine getClashPositions queues tests (.returned (createReport hashCombine getClashPositions clashes))
  | terminated {objects : OrderedPair} {message : String} :
    narrowphase.Terminates raises init f queues tests objects message →
    Ends hashCombine getClashPositions queues tests .terminated

variable {narrowphase} {raises} {init} {f} {hashCombine : ℕ → R → ℕ} {getClashPositions : T → List (RepoVector3D R)}
  {queues : List ℕ} {tests : List (List (E × E))}

private theorem Ends.exists_fails
    (h : narrowphase.Ends raises init f hashCombine getClashPositions queues tests (.terminated : Ending boost R)) :
    ∃ e : ClashDetectionException boost, narrowphase.Fails raises tests.flatten e := by
  cases h with
  | terminated h =>
    obtain ⟨t, ht, hraised, -⟩ := h.exists_raised
    exact ⟨_, t, ht, _, hraised, rfl⟩

end Narrowphase

/-! ### The two pipelines -/

section Pipelines

variable [ExactReal R]

/-- The threads of the clearance pipeline take the tests from one queue, in any order. -/
def Clearance.Ends (env : Environment boost R) (config : ClashDetectionConfig boost R)
    (raises : Cached R → Cached R → Option String) (numThreads : ℕ) (ending : Ending boost R) : Prop :=
  (∃ e, createSceneGraphs env.handler env.builder config = .error e ∧ ending = .threw e) ∨
  ∃ graphs ts queue, createSceneGraphs env.handler env.builder config = .ok graphs ∧
    tests env.builder config graphs = some ts ∧ queue.Perm ts ∧
    (narrowphase env.geometry config.tolerance).Ends raises .new ClearanceClash.append env.hashCombine getClashPositions
      (List.replicate numThreads 0) [queue] ending

def Clearance.Fails (env : Environment boost R) (config : ClashDetectionConfig boost R)
    (raises : Cached R → Cached R → Option String) (e : ClashDetectionException boost) : Prop :=
  ∃ graphs ts, createSceneGraphs env.handler env.builder config = .ok graphs ∧
    tests env.builder config graphs = some ts ∧ (narrowphase env.geometry config.tolerance).Fails raises ts e

variable (penetrationDepth : DeformMesh R → DeformMesh R → R → R)

/-- The threads of the hard pipeline have a queue each, and the tests are distributed over them in any way. -/
def Hard.Ends (env : Environment boost R) (config : ClashDetectionConfig boost R)
    (raises : CacheEntry boost R → CacheEntry boost R → Option String) (numThreads : ℕ) (ending : Ending boost R) :
    Prop :=
  (∃ e, createSceneGraphs env.handler env.builder config = .error e ∧ ending = .threw e) ∨
  ∃ graphs ts queues, createSceneGraphs env.handler env.builder config = .ok graphs ∧
    tests env.geometry env.builder config graphs = some ts ∧ queues.length = numThreads ∧ queues.flatten.Perm ts ∧
    (narrowphase penetrationDepth config.tolerance).Ends raises [] (fun _ contacts => contacts) env.hashCombine id
      (List.range numThreads) queues ending

def Hard.Fails (env : Environment boost R) (config : ClashDetectionConfig boost R)
    (raises : CacheEntry boost R → CacheEntry boost R → Option String) (e : ClashDetectionException boost) : Prop :=
  ∃ graphs ts, createSceneGraphs env.handler env.builder config = .ok graphs ∧
    tests env.geometry env.builder config graphs = some ts ∧
    (narrowphase penetrationDepth config.tolerance).Fails raises ts e

variable {env : Environment boost R} {config : ClashDetectionConfig boost R}

private theorem exists_perm_cons {α : Type*} {x : α} {l : List α} (h : x ∈ l) : ∃ rest, (x :: rest).Perm l := by
  obtain ⟨before, after, rfl⟩ := List.append_of_mem h
  exact ⟨before ++ after, List.perm_middle.symm⟩

theorem Clearance.ends_terminated_iff (raises : Cached R → Cached R → Option String) (numThreads : ℕ) :
    Ends env config raises (numThreads + 1) .terminated ↔ ∃ e, Fails env config raises e := by
  constructor
  · intro h
    obtain ⟨e, -, he⟩ | ⟨graphs, ts, queue, hgraphs, hts, hperm, h⟩ := h
    · cases he
    · obtain ⟨e, t, ht, hfails⟩ := h.exists_fails
      rw [List.flatten_singleton, hperm.mem_iff] at ht
      exact ⟨e, graphs, ts, hgraphs, hts, t, ht, hfails⟩
  · intro h
    obtain ⟨e, graphs, ts, hgraphs, hts, t, ht, message, hraised, -⟩ := h
    obtain ⟨rest, hrest⟩ := exists_perm_cons ht
    have hterminates : (narrowphase env.geometry config.tolerance).Terminates raises .new ClearanceClash.append
        (List.replicate (numThreads + 1) 0) [t :: rest] _ message :=
      Narrowphase.terminates_of_raised hraised [] (List.replicate numThreads 0) [] [] rest
    exact .inr ⟨graphs, ts, t :: rest, hgraphs, hts, hrest, .terminated hterminates⟩

theorem Hard.ends_terminated_iff (raises : CacheEntry boost R → CacheEntry boost R → Option String) (numThreads : ℕ) :
    Ends penetrationDepth env config raises (numThreads + 1) .terminated ↔
      ∃ e, Fails penetrationDepth env config raises e := by
  constructor
  · intro h
    obtain ⟨e, -, he⟩ | ⟨graphs, ts, queues, hgraphs, hts, -, hperm, h⟩ := h
    · cases he
    · obtain ⟨e, t, ht, hfails⟩ := h.exists_fails
      rw [hperm.mem_iff] at ht
      exact ⟨e, graphs, ts, hgraphs, hts, t, ht, hfails⟩
  · intro h
    obtain ⟨e, graphs, ts, hgraphs, hts, t, ht, message, hraised, -⟩ := h
    obtain ⟨rest, hrest⟩ := exists_perm_cons ht
    have hterminates : (narrowphase penetrationDepth config.tolerance).Terminates raises []
        (fun _ contacts => contacts) (List.range (numThreads + 1)) ((t :: rest) :: List.replicate numThreads [])
        ((narrowphase penetrationDepth config.tolerance).objects t) message := by
      rw [List.range_succ_eq_map]
      exact Narrowphase.terminates_of_raised hraised [] _ [] _ rest
    exact .inr ⟨graphs, ts, (t :: rest) :: List.replicate numThreads [], hgraphs, hts, by simp, by simpa using hrest,
      .terminated hterminates⟩

/-- A degenerate test becomes an error of the report exactly if there is none.  This holds for both pipelines, however
many threads there are and whichever tests raise. -/
theorem handles_degenerate_iff (env : Environment boost R) (config : ClashDetectionConfig boost R) (numThreads : ℕ)
    (raises : Clearance.Cached R → Clearance.Cached R → Option String)
    (raisesHard : Hard.CacheEntry boost R → Hard.CacheEntry boost R → Option String) :
    (HandlesDegenerate (Clearance.Ends env config raises (numThreads + 1)) (Clearance.Fails env config raises) ↔
      ∀ e, ¬ Clearance.Fails env config raises e) ∧
    (HandlesDegenerate (Hard.Ends penetrationDepth env config raisesHard (numThreads + 1))
        (Hard.Fails penetrationDepth env config raisesHard) ↔
      ∀ e, ¬ Hard.Fails penetrationDepth env config raisesHard e) := by
  constructor
  · rw [← not_exists, ← Clearance.ends_terminated_iff raises numThreads]
    refine ⟨fun h => h.survives, fun h => .of_not_fails h ?_⟩
    exact not_exists.1 (mt (Clearance.ends_terminated_iff raises numThreads).2 h)
  · rw [← not_exists, ← Hard.ends_terminated_iff penetrationDepth raisesHard numThreads]
    refine ⟨fun h => h.survives, fun h => .of_not_fails h ?_⟩
    exact not_exists.1 (mt (Hard.ends_terminated_iff penetrationDepth raisesHard numThreads).2 h)

end Pipelines

/-! ### A triangle without area -/

/-- The message of the exception that the containment test of two meshes raises. -/
def Clearance.raised [ExactReal R] (contains : List (RepoVector3D R) → List ℕ → RepoBounds R → MeshView R →
    RepoVector3D R → Except String Bool) (orderVertices : List (RepoVector3D R) → List ℕ → List ℕ)
    (a b : Cached R) : Option String :=
  if b.isClosed then
    match contains a.mesh.vertices (orderVertices a.mesh.vertices []) a.bounds b.view 0 with
    | .error message => some message
    | .ok _ => none
  else none

namespace Clearance

/-- The vertices and faces of a tetrahedron with one edge split in the middle for the one face at it only, and a triangle
without area that closes the gap. -/
def slitTriangles : List (RepoTriangle ℤ) :=
  let o := ⟨0, 0, 0⟩
  let m := ⟨4, 0, 0⟩
  let x := ⟨8, 0, 0⟩
  let y := ⟨0, 8, 0⟩
  let z := ⟨0, 0, 8⟩
  [⟨o, m, y⟩, ⟨m, x, y⟩, ⟨o, x, z⟩, ⟨o, y, z⟩, ⟨x, y, z⟩, ⟨o, x, m⟩]

/-- A triangle inside of it that has its first corner in the middle of this edge. -/
def tipTriangles : List (RepoTriangle ℤ) := [⟨⟨4, 0, 0⟩, ⟨1, 1, 1⟩, ⟨1, 1, 2⟩⟩]

/-- The triangles of a mesh, by the number of digits of its identifier. -/
def slitMesh (uniqueId : Boost.digits.Uuid) : List (RepoTriangle ℤ) :=
  if (show List Char from uniqueId).length = 2 then slitTriangles else tipTriangles

def real (v : RepoVector3D ℤ) : RepoVector3D ℝ := ⟨v.x, v.y, v.z⟩

private theorem real_injective : Function.Injective real := by
  intro v w h
  have hx : (v.x : ℝ) = w.x := congrArg RepoVector3D.x h
  have hy : (v.y : ℝ) = w.y := congrArg RepoVector3D.y h
  have hz : (v.z : ℝ) = w.z := congrArg RepoVector3D.z h
  exact RepoVector3D.ext (Int.cast_injective hx) (Int.cast_injective hy) (Int.cast_injective hz)

/-- A mesh node with three vertices of its own for each triangle. -/
def slitNode (uniqueId : Boost.digits.Uuid) : SparseNode Boost.digits ℝ where
  uniqueId := uniqueId
  matrix := id
  bounds := if (show List Char from uniqueId).length = 2 then ⟨⟨0, 0, 0⟩, ⟨8, 8, 8⟩⟩ else ⟨⟨1, 0, 0⟩, ⟨4, 1, 2⟩⟩
  vertices := (slitMesh uniqueId).flatMap fun t => [real t.a, real t.b, real t.c]
  faces := (List.range (slitMesh uniqueId).length).map fun i => .triangle (3 * i) (3 * i + 1) (3 * i + 2)

/-- Unit vectors in different directions. -/
noncomputable def slitRandom (k : ℕ) : RepoVector3D ℝ :=
  (⟨k + 1, k + 2, (k + 1) * (k + 2)⟩ : RepoVector3D ℝ) * (1 / ((k + 1) * (k + 2) + 1) : ℝ)

/-- A ray into the tetrahedron is tested with all triangles but the one at the far side of the first axis. -/
noncomputable def slitContains : List (RepoVector3D ℝ) → List ℕ → RepoBounds ℝ → MeshView ℝ → RepoVector3D ℝ →
    Except String Bool := contains (fun _ _ _ => [0, 1, 2, 4, 5]) slitRandom

def slitOrderVertices (_ : List (RepoVector3D ℝ)) (_ : List ℕ) : List ℕ := [0, 2, 0, 0, 0, 1]

noncomputable def slitEnvironment : Environment .digits ℝ where
  handler :=
    { populate := fun mesh => slitNode mesh.uniqueId
      uniqueId_populate := fun _ => rfl
      getNodes := id
      getNodes_perm := perm_id }
  builder := .chain ℝ
  geometry :=
    { closestPoints := cornerGeometry.closestPoints
      contains := fun vertices indices bounds mesh offset =>
        (slitContains vertices indices bounds mesh offset).toOption.getD false
      orderVertices := slitOrderVertices }
  hashCombine := fun hash _ => hash

noncomputable def slitCached (uniqueId : Boost.digits.Uuid) (object : CompositeObject .digits) : Cached ℝ :=
  .initialise (.chain ℝ) ⟨slitNode uniqueId, object⟩

section Slit

variable {u : Boost.digits.Uuid} {object object' : CompositeObject .digits}

private theorem norm_slitRandom (k : ℕ) : (slitRandom k).norm2 = 1 := by
  have hpos : ((k : ℝ) + 1) * (k + 2) + 1 ≠ 0 := by positivity
  simp only [slitRandom, RepoVector3D.norm2, RepoVector3D.mul_x, RepoVector3D.mul_y, RepoVector3D.mul_z]
  field_simp
  ring

private theorem slitCached_mesh (htriangles : loadGeometry ⟨slitNode u, object⟩ =
      (slitMesh u).map fun t => ⟨real t.a, real t.b, real t.c⟩) :
    (slitCached u object).mesh = ⟨(RepoIndexedMesh.ofTriangles (slitMesh u)).vertices.map real,
      (RepoIndexedMesh.ofTriangles (slitMesh u)).faces⟩ := by
  have hmesh : (slitCached u object).mesh = .ofTriangles (loadGeometry ⟨slitNode u, object⟩) := rfl
  rw [hmesh, htriangles]
  exact RepoIndexedMesh.ofTriangles_map real_injective _

private theorem loadGeometry_slit : loadGeometry ⟨slitNode ['1', '1'], object⟩ =
    slitTriangles.map fun t => ⟨real t.a, real t.b, real t.c⟩ := by
  have hmesh : slitMesh ['1', '1'] = slitTriangles := rfl
  simp [loadGeometry, slitNode, hmesh, slitTriangles, RepoFace.get, RepoFace.triangle, List.range_succ]

private theorem loadGeometry_tip : loadGeometry ⟨slitNode ['1'], object⟩ =
    tipTriangles.map fun t => ⟨real t.a, real t.b, real t.c⟩ := by
  have hmesh : slitMesh ['1'] = tipTriangles := rfl
  simp [loadGeometry, slitNode, hmesh, tipTriangles, RepoFace.get, RepoFace.triangle]

private theorem ofPoints_real {p : RepoVector3D ℤ} (rest : List (RepoVector3D ℤ))
    (hx : -dblMax ≤ (real p).x ∧ (real p).x ≤ dblMax) (hy : -dblMax ≤ (real p).y ∧ (real p).y ≤ dblMax)
    (hz : -dblMax ≤ (real p).z ∧ (real p).z ≤ dblMax) :
    RepoBounds.ofPoints ((p :: rest).map real) =
      ⟨real (rest.foldl RepoVector3D.min p), real (rest.foldl RepoVector3D.max p)⟩ := by
  have hstart : RepoBounds.empty.encapsulate (real p) = ⟨real p, real p⟩ := by
    simp only [RepoBounds.encapsulate, RepoBounds.empty, RepoVector3D.min, RepoVector3D.max, min_eq_right hx.2,
      min_eq_right hy.2, min_eq_right hz.2, max_eq_right hx.1, max_eq_right hy.1, max_eq_right hz.1]
  have hfold : ∀ lo hi : RepoVector3D ℤ, (rest.map real).foldl RepoBounds.encapsulate ⟨real lo, real hi⟩ =
      ⟨real (rest.foldl RepoVector3D.min lo), real (rest.foldl RepoVector3D.max hi)⟩ := by
    induction rest with
    | nil => exact fun _ _ => rfl
    | cons q rest ih =>
      intro lo hi
      have hstep : (⟨real lo, real hi⟩ : RepoBounds ℝ).encapsulate (real q) = ⟨real (lo.min q), real (hi.max q)⟩ := by
        simp only [RepoBounds.encapsulate, RepoVector3D.min, RepoVector3D.max, real, Int.cast_min, Int.cast_max]
      rw [List.map_cons, List.foldl_cons, hstep, ih, List.foldl_cons, List.foldl_cons]
  rw [RepoBounds.ofPoints, List.map_cons, List.foldl_cons, hstart, hfold]

private theorem between_dblMax {n : ℤ} (h : -6 ≤ n ∧ n ≤ 6) : -dblMax ≤ (n : ℝ) ∧ (n : ℝ) ≤ dblMax := by
  have hlo : (-6 : ℝ) ≤ n := by exact_mod_cast h.1
  have hhi : (n : ℝ) ≤ 6 := by exact_mod_cast h.2
  have hmax := six_le_dblMax
  constructor <;> linarith

private theorem initialise_bounds (builder : SweepSahBuilder ℝ) (node : Node .digits ℝ) :
    (Cached.initialise builder node).bounds = .ofPoints (Cached.initialise builder node).mesh.vertices := rfl

private theorem vertices_slit : (RepoIndexedMesh.ofTriangles (slitMesh ['1', '1'])).vertices =
    [⟨0, 0, 0⟩, ⟨4, 0, 0⟩, ⟨0, 8, 0⟩, ⟨8, 0, 0⟩, ⟨0, 0, 8⟩] := by decide

private theorem bounds_slit : (slitCached ['1', '1'] object).bounds = ⟨real ⟨0, 0, 0⟩, real ⟨8, 8, 8⟩⟩ := by
  have hbounds : (slitCached ['1', '1'] object).bounds = .ofPoints (slitCached ['1', '1'] object).mesh.vertices :=
    initialise_bounds _ _
  have hmin : [⟨4, 0, 0⟩, ⟨0, 8, 0⟩, ⟨8, 0, 0⟩, ⟨0, 0, 8⟩].foldl RepoVector3D.min (⟨0, 0, 0⟩ : RepoVector3D ℤ) =
      ⟨0, 0, 0⟩ := by decide
  have hmax : [⟨4, 0, 0⟩, ⟨0, 8, 0⟩, ⟨8, 0, 0⟩, ⟨0, 0, 8⟩].foldl RepoVector3D.max (⟨0, 0, 0⟩ : RepoVector3D ℤ) =
      ⟨8, 8, 8⟩ := by decide
  rw [hbounds, slitCached_mesh loadGeometry_slit, vertices_slit, ofPoints_real _ (between_dblMax (by decide))
    (between_dblMax (by decide)) (between_dblMax (by decide)), hmin, hmax]

private theorem vertices_tip : (RepoIndexedMesh.ofTriangles (slitMesh ['1'])).vertices =
    [⟨4, 0, 0⟩, ⟨1, 1, 1⟩, ⟨1, 1, 2⟩] := by decide

private theorem bounds_tip : (slitCached ['1'] object).bounds = ⟨real ⟨1, 0, 0⟩, real ⟨4, 1, 2⟩⟩ := by
  have hbounds : (slitCached ['1'] object).bounds = .ofPoints (slitCached ['1'] object).mesh.vertices :=
    initialise_bounds _ _
  have hmin : [⟨1, 1, 1⟩, ⟨1, 1, 2⟩].foldl RepoVector3D.min (⟨4, 0, 0⟩ : RepoVector3D ℤ) = ⟨1, 0, 0⟩ := by decide
  have hmax : [⟨1, 1, 1⟩, ⟨1, 1, 2⟩].foldl RepoVector3D.max (⟨4, 0, 0⟩ : RepoVector3D ℤ) = ⟨4, 1, 2⟩ := by decide
  rw [hbounds, slitCached_mesh loadGeometry_tip, vertices_tip, ofPoints_real _ (between_dblMax (by decide))
    (between_dblMax (by decide)) (between_dblMax (by decide)), hmin, hmax]

private theorem isClosed_slit : (slitCached ['1', '1'] object).isClosed = true := by
  have hclosed : (slitCached ['1', '1'] object).isClosed =
      isClosedAndManifold (slitCached ['1', '1'] object).mesh.faces := rfl
  rw [hclosed, slitCached_mesh loadGeometry_slit]
  decide

private theorem getTriangle_slit {i : ℕ} (hi : i < slitTriangles.length) : (slitCached ['1', '1'] object).getTriangle i =
    ⟨real slitTriangles[i].a, real slitTriangles[i].b, real slitTriangles[i].c⟩ := by
  have hmesh : (slitCached ['1', '1'] object).getTriangle i =
      (RepoIndexedMesh.ofTriangles (loadGeometry ⟨slitNode ['1', '1'], object⟩)).getTriangle i := rfl
  have hlength : i < (slitTriangles.map fun t => (⟨real t.a, real t.b, real t.c⟩ : RepoTriangle ℝ)).length := by
    rwa [List.length_map]
  rw [hmesh, loadGeometry_slit, RepoIndexedMesh.getTriangle_ofTriangles hlength, List.getElem_map]

private theorem root_contains_slit (object : CompositeObject .digits) {i : ℕ} (hi : i < slitTriangles.length) :
    ((slitCached ['1', '1'] object).bvh.nodes 0).boundingBoxProxy.Contains (real slitTriangles[i].a) ∧
    ((slitCached ['1', '1'] object).bvh.nodes 0).boundingBoxProxy.Contains (real slitTriangles[i].b) ∧
    ((slitCached ['1', '1'] object).bvh.nodes 0).boundingBoxProxy.Contains (real slitTriangles[i].c) := by
  have henclosed : (slitCached ['1', '1'] object).Enclosed :=
    initialise_enclosed SweepSahBuilder.chain_encloses (List.cons_ne_nil _ _)
  have hlength : i < (slitCached ['1', '1'] object).mesh.faces.length := by
    rw [slitCached_mesh loadGeometry_slit, RepoIndexedMesh.length_faces_ofTriangles]
    exact hi
  have hpoint : ∀ {p : RepoVector3D ℝ}, p ∈ ((slitCached ['1', '1'] object).getTriangle i).points →
      ((slitCached ['1', '1'] object).bvh.nodes 0).boundingBoxProxy.Contains p := by
    intro p hp
    exact henclosed.wellFormed.root_contains henclosed.encloses hlength ⟨hlength, hp⟩
  rw [getTriangle_slit hi] at hpoint
  refine ⟨hpoint ⟨1, 0, 0, ?_⟩, hpoint ⟨0, 1, 0, ?_⟩, hpoint ⟨0, 0, 1, ?_⟩⟩
  all_goals
    refine ⟨by norm_num, by norm_num, by norm_num, by norm_num, ?_⟩
    ext <;> simp

private theorem encapsulates_slit :
    encapsulates ((slitCached ['1', '1'] object).bvh.nodes 0) (real ⟨1, 0, 0⟩) (real ⟨4, 1, 2⟩) = true := by
  obtain ⟨ho, -, hy⟩ := root_contains_slit object (i := 0) (by decide)
  obtain ⟨hx, -, hz⟩ := root_contains_slit object (i := 4) (by decide)
  rw [encapsulates_eq_true_iff]
  refine ⟨⟨ho.1.1.trans ?_, le_trans ?_ hx.1.2⟩, ⟨ho.2.1.1.trans ?_, le_trans ?_ hy.2.1.2⟩,
    ⟨ho.2.2.1.trans ?_, le_trans ?_ hz.2.2.2⟩⟩
  all_goals norm_num [slitTriangles, real]

private theorem intersects_slit (k : ℕ) : intersects (real ⟨4, 0, 0⟩) (slitRandom k)
    ((slitCached ['1', '1'] object).getTriangle 5) = .degenerate := by
  have hz : (slitRandom k).z ≠ 0 := by
    have hpos : (0 : ℝ) < (k + 1) * (k + 2) * (1 / ((k + 1) * (k + 2) + 1)) := by positivity
    exact hpos.ne'
  rw [getTriangle_slit (by decide)]
  refine intersects_degenerate (e := ⟨1, 0, 0⟩) (α := -4) (β := 4) (γ := 0) ?_ (by norm_num) ?_ ?_ ?_
  · intro hcross
    have hy := congrArg RepoVector3D.y hcross
    simp [RepoVector3D.crossProduct] at hy
    exact hz hy
  · ext <;> simp [slitTriangles, real]
  · ext
    · norm_num [slitTriangles, real]
    · simp [slitTriangles, real]
    · simp [slitTriangles, real]
  · ext <;> simp [slitTriangles, real]

private theorem raised_slit : raised slitContains slitOrderVertices (slitCached ['1'] object) (slitCached ['1', '1'] object') =
    some "Degenerate ray-triangle retry limit exceeded" := by
  have hvertex : (slitCached ['1'] object).mesh.vertices.getD 0 0 + 0 = real ⟨4, 0, 0⟩ := by
    rw [slitCached_mesh loadGeometry_tip, vertices_tip, RepoVector3D.add_zero]
    rfl
  have hcontains : slitContains (slitCached ['1'] object).mesh.vertices [0, 2, 0, 0, 0, 1] (slitCached ['1'] object).bounds
      (slitCached ['1', '1'] object').view 0 = .error "Degenerate ray-triangle retry limit exceeded" := by
    refine contains_raises ?_ ?_
    · rw [bounds_tip, RepoVector3D.add_zero, RepoVector3D.add_zero]
      exact encapsulates_slit
    · intro k
      refine ⟨5, by simp, ?_⟩
      rw [hvertex]
      exact intersects_slit k
  unfold raised
  rw [if_pos isClosed_slit]
  show (match slitContains _ [0, 2, 0, 0, 0, 1] _ _ 0 with
    | .error message => some message
    | .ok _ => none) = _
  rw [hcontains]

private theorem swapped_slit (geometry : Geometry ℝ) (tolerance : ℝ) (object object' : CompositeObject .digits) :
    (narrowphase geometry tolerance).swapped (slitCached ['1'] object, slitCached ['1', '1'] object') =
      (slitCached ['1'] object, slitCached ['1', '1'] object') := by
  have hslit : (slitCached ['1', '1'] object').bounds.size.norm2 = 192 := by
    rw [bounds_slit]
    norm_num [RepoBounds.size, RepoVector3D.norm2, real]
  have htip : (slitCached ['1'] object).bounds.size.norm2 = 14 := by
    rw [bounds_tip]
    norm_num [RepoBounds.size, RepoVector3D.norm2, real]
  have hle : (slitCached ['1'] object).bounds.size.norm ≤ (slitCached ['1', '1'] object').bounds.size.norm := by
    rw [RepoVector3D.norm_le_norm_iff, hslit, htip]
    norm_num
  have hgt : (slitCached ['1'] object).bounds.gt (slitCached ['1', '1'] object').bounds = false :=
    decide_eq_false (not_lt.2 hle)
  have hbounds : (narrowphase geometry tolerance).getBounds = Cached.bounds := rfl
  rw [Narrowphase.swapped, hbounds, if_neg]
  show ¬ (slitCached ['1'] object).bounds.gt (slitCached ['1', '1'] object').bounds = true
  rw [hgt]
  exact Bool.false_ne_true

end Slit

private theorem mem_tests_slit {graphs : SceneGraphs .digits ℝ} {ts : List (Cached ℝ × Cached ℝ)}
    (h : createSceneGraphs slitEnvironment.handler slitEnvironment.builder cornerConfig = .ok graphs)
    (hts : tests slitEnvironment.builder cornerConfig graphs = some ts) :
    (slitCached ['1'] cornerP, slitCached ['1', '1'] cornerQ) ∈ ts := by
  have htip : (slitNode ['1']).bounds = ⟨⟨1, 0, 0⟩, ⟨4, 1, 2⟩⟩ := rfl
  have hslit : (slitNode ['1', '1']).bounds = ⟨⟨0, 0, 0⟩, ⟨8, 8, 8⟩⟩ := rfl
  have hclose : ∃ p q, (slitNode ['1']).bounds.Contains p ∧ (slitNode ['1', '1']).bounds.Contains q ∧
      (q - p).norm2 ≤ cornerConfig.tolerance * cornerConfig.tolerance := by
    refine ⟨⟨4, 0, 0⟩, ⟨4, 0, 0⟩, ?_, ?_, ?_⟩
    · rw [htip]
      norm_num [BoundingBox.Contains]
    · rw [hslit]
      norm_num [BoundingBox.Contains]
    · simp [RepoVector3D.norm2, cornerConfig]
  have hmesh : (⟨0, ['1']⟩ : MeshReference .digits) ∈ cornerP.meshes := by decide
  obtain ⟨pairs, hpairs, hp⟩ := cornerSets_cornerConfig.exists_pairs_inter h SweepSahBuilder.chain_encloses hmesh hclose
  exact (mem_tests_iff hts).2 ⟨_, Hard.mem_passes_iff.2 (.inl rfl), pairs, hpairs, _, hp, rfl⟩

private theorem slitNode_faces_ne_nil (u : Boost.digits.Uuid) : (slitNode u).faces ≠ [] := by
  unfold slitNode slitMesh
  split <;> exact List.cons_ne_nil _ _

end Clearance

/-- A mesh with a corner on a triangle without area of a closed mesh fails the containment test for rays in the directions of
these unit vectors, and a single thread that runs this test terminates the process. -/
theorem not_handlesDegenerate_slit :
    (∀ k, (Clearance.slitRandom k).norm2 = 1) ∧ (∃ e, Clearance.Fails Clearance.slitEnvironment cornerConfig
      (Clearance.raised Clearance.slitContains Clearance.slitOrderVertices) e) ∧
    ¬ HandlesDegenerate
      (Clearance.Ends Clearance.slitEnvironment cornerConfig
        (Clearance.raised Clearance.slitContains Clearance.slitOrderVertices) 1)
      (Clearance.Fails Clearance.slitEnvironment cornerConfig
        (Clearance.raised Clearance.slitContains Clearance.slitOrderVertices)) := by
  obtain ⟨graphs, h⟩ := cornerSets_cornerConfig.exists_sceneGraphs Clearance.slitEnvironment
  obtain ⟨-, graphs', ts, -, h', hts, -, -⟩ := cornerSets_cornerConfig.exists_runs h fun mesh =>
    Clearance.slitNode_faces_ne_nil mesh.uniqueId
  obtain rfl := Except.ok.inj (h.symm.trans h')
  have hfails : ∃ e, Clearance.Fails Clearance.slitEnvironment cornerConfig
      (Clearance.raised Clearance.slitContains Clearance.slitOrderVertices) e := by
    have hraised : (Clearance.narrowphase Clearance.slitEnvironment.geometry cornerConfig.tolerance).raised
        (Clearance.raised Clearance.slitContains Clearance.slitOrderVertices)
        (Clearance.slitCached ['1'] cornerP, Clearance.slitCached ['1', '1'] cornerQ) =
        some "Degenerate ray-triangle retry limit exceeded" := by
      rw [Narrowphase.raised, Clearance.swapped_slit]
      exact Clearance.raised_slit
    exact ⟨_, graphs, ts, h, hts, _, Clearance.mem_tests_slit h hts, _, hraised, rfl⟩
  exact ⟨Clearance.norm_slitRandom, hfails, fun hhandles => hhandles.survives ((Clearance.ends_terminated_iff _ 0).2 hfails)⟩

end Bouncer.Clash
