import Bouncer.Clash.Engine
import Bouncer.Clash.Workers

/-!
# The threads of the clearance pipeline

The threads append the lines of their tests one at a time, and `ClearanceClash::append` keeps the first of the shortest
ones.  So the line of a clash, and with it the fingerprint, depends on the order in which the lines arrive, unless all
tests about its two objects that find a shortest line find the same one first (`reports_agree_iff`).
-/

namespace Bouncer.Clash.Clearance

open Library (collect keepLess valuesAt lookup_collect mem_valuesAt Interleaves IsFirstLeast)

variable {boost : Boost} {R : Type*} [ExactReal R]

/-- The threads can end with these clashes, from one queue with the tests in this order. -/
def Finishes (geometry : Geometry R) (tolerance : R) (raises : Cached R → Cached R → Option String) (numThreads : ℕ)
    (queue : List (Cached R × Cached R)) (clashes : AList fun _ : OrderedPair => ClearanceClash R) : Prop :=
  (narrowphase geometry tolerance).Finishes raises .new ClearanceClash.append (List.replicate numThreads 0) [queue] clashes

/-- The lines that the tests find for two objects, a list for each test. -/
def linesOf (geometry : Geometry R) (tolerance : R) (objects : OrderedPair) (tests : List (Cached R × Cached R)) :
    List (List (RepoLine R)) :=
  tests.map fun t => valuesAt objects ((narrowphase geometry tolerance).tagged t)

/-- Of the tests about the same two objects, those that find a shortest line find the same one first. -/
def TiesAgree (geometry : Geometry R) (tolerance : R) (tests : List (Cached R × Cached R)) : Prop :=
  ∀ objects, Library.TiesAgree RepoLine.magnitude .max (linesOf geometry tolerance objects tests)

section Lookup

variable {geometry : Geometry R} {tolerance : R} {raises : Cached R → Cached R → Option String} {numThreads : ℕ}
  {tests queue queue' : List (Cached R × Cached R)} {final final' : AList fun _ : OrderedPair => ClearanceClash R}

private theorem lookup_clashes_eq (objects : OrderedPair) (arrival : List (OrderedPair × RepoLine R)) :
    (clashes arrival).lookup objects = if valuesAt objects arrival = [] then none
      else some ⟨(valuesAt objects arrival).foldl (keepLess RepoLine.magnitude) .max⟩ := by
  rw [clashes, lookup_collect]
  have hfold : (valuesAt objects arrival).foldl ClearanceClash.append .new =
      ⟨(valuesAt objects arrival).foldl (keepLess RepoLine.magnitude) .max⟩ := by
    have hline := ClearanceClash.foldl_append_line .new (valuesAt objects arrival)
    cases hclash : (valuesAt objects arrival).foldl ClearanceClash.append .new with
    | mk line =>
      rw [hclash] at hline
      exact congrArg ClearanceClash.mk hline
  rw [hfold]

theorem Finishes.exists_arrival (h : Finishes geometry tolerance raises numThreads queue final)
    (hthreads : numThreads ≠ 0) :
    (∀ t ∈ queue, (narrowphase geometry tolerance).Returns raises t) ∧
      ∃ arrival, Interleaves (queue.map (narrowphase geometry tolerance).tagged) arrival ∧ final = clashes arrival := by
  have hqueues : ∀ k < [queue].length, k ∈ List.replicate numThreads 0 := by
    intro k hk
    have hzero : k = 0 := by simpa using hk
    exact List.mem_replicate.2 ⟨hthreads, hzero⟩
  have hfinishes := Narrowphase.Finishes.exists_interleaves h hqueues
  rw [List.flatten_singleton] at hfinishes
  exact hfinishes

private theorem Finishes.lookup_eq (h : Finishes geometry tolerance raises numThreads queue final)
    (h' : Finishes geometry tolerance raises numThreads queue' final') (hthreads : numThreads ≠ 0)
    (hperm : queue.Perm queue') (hties : TiesAgree geometry tolerance queue) (objects : OrderedPair) :
    final.lookup objects = final'.lookup objects := by
  obtain ⟨-, arrival, hinter, rfl⟩ := h.exists_arrival hthreads
  obtain ⟨-, arrival', hinter', rfl⟩ := h'.exists_arrival hthreads
  have hvalues := hinter.valuesAt objects
  have hvalues' := hinter'.valuesAt objects
  rw [List.map_map] at hvalues hvalues'
  have hlines : (queue.map (valuesAt objects ∘ (narrowphase geometry tolerance).tagged)).Perm
      (queue'.map (valuesAt objects ∘ (narrowphase geometry tolerance).tagged)) := hperm.map _
  have hnil : valuesAt objects arrival = [] ↔ valuesAt objects arrival' = [] := by
    have hall := (hvalues.perm.trans hlines.flatten).trans hvalues'.perm.symm
    rw [← List.length_eq_zero_iff, ← List.length_eq_zero_iff, hall.length_eq]
  rw [lookup_clashes_eq, lookup_clashes_eq, hvalues.foldl_keepLess_eq hvalues' hlines (hties objects)]
  simp only [hnil]

private theorem mem_linesOf {objects : OrderedPair} {line : RepoLine R} :
    line ∈ (linesOf geometry tolerance objects tests).flatten ↔
      ∃ t ∈ tests, (objects, line) ∈ (narrowphase geometry tolerance).tagged t := by
  simp only [linesOf, List.mem_flatten, List.mem_map, exists_exists_and_eq_and, mem_valuesAt]

private theorem lookup_clashes_append {objects : OrderedPair} {t : Cached R × Cached R}
    {rest : List (OrderedPair × RepoLine R)} {line : RepoLine R}
    (hline : IsFirstLeast RepoLine.magnitude (valuesAt objects ((narrowphase geometry tolerance).tagged t)) line)
    (hlt : line.magnitude < (RepoLine.max : RepoLine R).magnitude)
    (hle : ∀ other, (objects, other) ∈ rest → line.magnitude ≤ other.magnitude) :
    (clashes ((narrowphase geometry tolerance).tagged t ++ rest)).lookup objects = some ⟨line⟩ := by
  have hne : valuesAt objects ((narrowphase geometry tolerance).tagged t ++ rest) ≠ [] := by
    refine List.ne_nil_of_mem (a := line) (mem_valuesAt.2 ?_)
    exact List.mem_append_left _ (mem_valuesAt.1 hline.mem)
  rw [lookup_clashes_eq, if_neg hne, Library.valuesAt_append]
  refine congrArg some (congrArg ClearanceClash.mk (Library.foldl_keepLess_append hline hlt ?_))
  intro other hother
  exact hle other (mem_valuesAt.1 hother)

end Lookup

/-! ### The report -/

/-- The threads can end with this report, from one queue with the tests in this order. -/
def Reports (env : Environment boost R) (config : ClashDetectionConfig boost R)
    (raises : Cached R → Cached R → Option String) (numThreads : ℕ) (queue : List (Cached R × Cached R))
    (report : List (ClashDetectionResult R)) : Prop :=
  ∃ final, Finishes env.geometry config.tolerance raises numThreads queue final ∧
    report = createReport env.hashCombine getClashPositions final

/-- Whatever order the threads execute the tests and append their lines in, the report has the same results. -/
def ReportsAgree (env : Environment boost R) (config : ClashDetectionConfig boost R)
    (raises : Cached R → Cached R → Option String) (numThreads : ℕ) : Prop :=
  ∀ graphs ts, createSceneGraphs env.handler env.builder config = .ok graphs → tests env.builder config graphs = some ts →
    ∀ queue queue' report report', queue.Perm ts → queue'.Perm ts → Reports env config raises numThreads queue report →
      Reports env config raises numThreads queue' report' → ∀ result ∈ report, result ∈ report'

section Reports

variable {env : Environment boost R} {config : ClashDetectionConfig boost R}
  {raises : Cached R → Cached R → Option String} {numThreads : ℕ} {queue : List (Cached R × Cached R)}
  {report : List (ClashDetectionResult R)}

/-- Every report of the threads is one of the pipeline. -/
theorem Reports.runs {graphs : SceneGraphs boost R} {ts : List (Cached R × Cached R)}
    (h : Reports env config raises numThreads queue report) (hthreads : numThreads ≠ 0)
    (hgraphs : createSceneGraphs env.handler env.builder config = .ok graphs)
    (hts : tests env.builder config graphs = some ts) (hperm : queue.Perm ts) : Runs env config report := by
  obtain ⟨final, hfinal, rfl⟩ := h
  obtain ⟨hreturns, arrival, hinter, rfl⟩ := hfinal.exists_arrival hthreads
  have harrives := Narrowphase.arrives_of_interleaves hreturns hinter
  exact ⟨graphs, ts, arrival, hgraphs, hts, harrives.of_perm hperm, rfl⟩

private theorem exists_reports (h : ∀ t ∈ queue, (narrowphase env.geometry config.tolerance).Returns raises t)
    (hthreads : numThreads ≠ 0) : Reports env config raises numThreads queue (createReport env.hashCombine
      getClashPositions (clashes (queue.flatMap (narrowphase env.geometry config.tolerance).tagged))) := by
  obtain ⟨m, rfl⟩ := Nat.exists_eq_succ_of_ne_zero hthreads
  exact ⟨_, Narrowphase.exists_run h m, rfl⟩

private theorem Reports.eq_nil (h : Reports env config raises 0 queue report) : report = [] := by
  obtain ⟨final, ⟨workers, shared, hrun, -, rfl⟩, rfl⟩ := h
  obtain rfl := Prod.mk.inj (Library.Threads.Run.nil hrun) |>.2
  rfl

omit [ExactReal R] in
private theorem eq_of_createClashReport_eq {objects objects' : OrderedPair} {clash clash' : ClearanceClash R}
    (h : createClashReport env.hashCombine objects (getClashPositions clash) =
      createClashReport env.hashCombine objects' (getClashPositions clash')) : objects = objects' ∧ clash = clash' := by
  obtain ⟨a, b⟩ := objects
  obtain ⟨a', b'⟩ := objects'
  obtain ⟨⟨start, endpoint⟩⟩ := clash
  obtain ⟨⟨start', endpoint'⟩⟩ := clash'
  simp only [createClashReport, getClashPositions, ClashDetectionResult.mk.injEq, List.cons.injEq] at h
  obtain ⟨rfl, rfl, ⟨rfl, rfl, -⟩, -⟩ := h
  exact ⟨rfl, rfl⟩

end Reports

/-- The results of the pipeline do not depend on how the threads are scheduled, exactly if the ties agree: of all tests
about the same two objects, those that find a shortest line find the same one first.  If some test does not return,
there is no report. -/
theorem reports_agree_iff (env : Environment boost R) (config : ClashDetectionConfig boost R)
    (raises : Cached R → Cached R → Option String) (numThreads : ℕ) :
    ReportsAgree env config raises numThreads ↔ (numThreads ≠ 0 → ∀ graphs ts,
      createSceneGraphs env.handler env.builder config = .ok graphs → tests env.builder config graphs = some ts →
      (∀ t ∈ ts, (narrowphase env.geometry config.tolerance).Returns raises t) →
      TiesAgree env.geometry config.tolerance ts) := by
  constructor
  · intro hagree hthreads graphs ts hgraphs hts hreturns objects l hl l' hl' x y hx hy hlt hle
    obtain ⟨t, ht, rfl⟩ := List.mem_map.1 hl
    obtain ⟨t', ht', rfl⟩ := List.mem_map.1 hl'
    -- run once with the one test first, and once with the other
    have hfirst : ∀ t ∈ ts, ∃ queue, (t :: queue).Perm ts := by
      intro t ht
      obtain ⟨before, after, rfl⟩ := List.append_of_mem ht
      exact ⟨before ++ after, List.perm_middle.symm⟩
    obtain ⟨queue, hqueue⟩ := hfirst t ht
    obtain ⟨queue', hqueue'⟩ := hfirst t' ht'
    have hsub : ∀ {t : Cached R × Cached R} {queue : List (Cached R × Cached R)}, (t :: queue).Perm ts → ∀ line,
        (objects, line) ∈ queue.flatMap (narrowphase env.geometry config.tolerance).tagged →
          line ∈ (linesOf env.geometry config.tolerance objects ts).flatten := by
      intro t queue hqueue line hline
      obtain ⟨s, hs, hmem⟩ := List.mem_flatMap.1 hline
      exact mem_linesOf.2 ⟨s, hqueue.mem_iff.1 (List.mem_cons_of_mem _ hs), hmem⟩
    have hlty : y.magnitude < (RepoLine.max : RepoLine R).magnitude := by
      have hmem : x ∈ (linesOf env.geometry config.tolerance objects ts).flatten :=
        List.mem_flatten.2 ⟨_, hl, hx.mem⟩
      exact lt_of_le_of_lt (hle x hmem).2 hlt
    have hlookup := lookup_clashes_append hx hlt fun line hline => (hle line (hsub hqueue line hline)).1
    have hlookup' := lookup_clashes_append hy hlty fun line hline => (hle line (hsub hqueue' line hline)).2
    have hreport := exists_reports (fun t ht => hreturns t (hqueue.mem_iff.1 ht)) hthreads
    have hreport' := exists_reports (fun t ht => hreturns t (hqueue'.mem_iff.1 ht)) hthreads
    have hmem := hagree graphs ts hgraphs hts _ _ _ _ hqueue hqueue' hreport hreport' _
      (mem_createReport.2 ⟨objects, ⟨x⟩, hlookup, rfl⟩)
    obtain ⟨objects', clash, hclash, he⟩ := mem_createReport.1 hmem
    obtain ⟨rfl, rfl⟩ := eq_of_createClashReport_eq he
    exact congrArg ClearanceClash.line (Option.some_injective _ (hclash.symm.trans hlookup'))
  · rintro hties graphs ts hgraphs hts queue queue' report report' hqueue hqueue' hreport hreport' result hresult
    by_cases hthreads : numThreads = 0
    · subst hthreads
      rw [hreport.eq_nil] at hresult
      cases hresult
    · obtain ⟨final, hfinal, rfl⟩ := hreport
      obtain ⟨final', hfinal', rfl⟩ := hreport'
      have hreturns : ∀ t ∈ ts, (narrowphase env.geometry config.tolerance).Returns raises t := by
        intro t ht
        exact (hfinal.exists_arrival hthreads).1 t (hqueue.mem_iff.2 ht)
      have hagree := hties hthreads graphs ts hgraphs hts hreturns
      have hqueues : TiesAgree env.geometry config.tolerance queue := by
        intro objects
        exact (hagree objects).of_perm (hqueue.symm.map _)
      obtain ⟨objects, clash, hlookup, rfl⟩ := mem_createReport.1 hresult
      rw [hfinal.lookup_eq hfinal' hthreads (hqueue.trans hqueue'.symm) hqueues] at hlookup
      exact mem_createReport.2 ⟨objects, clash, hlookup, rfl⟩

/-! ### Two triangles at the same distance from a third -/

/-- A triangle with a corner on the first axis that is the closest one to the plane at 2, from either side. -/
def apex (n : ℝ) : RepoTriangle ℝ := ⟨⟨n, 0, 0⟩, ⟨2 * n - 2, 1, 0⟩, ⟨2 * n - 2, 0, 1⟩⟩

/-- A mesh node with one triangle, at the number of digits of the identifier. -/
noncomputable def apexNode (uniqueId : Boost.digits.Uuid) : SparseNode Boost.digits ℝ where
  uniqueId := uniqueId
  matrix := id
  bounds := ⟨⟨min (cornerSize uniqueId) (2 * cornerSize uniqueId - 2), 0, 0⟩,
    ⟨max (cornerSize uniqueId) (2 * cornerSize uniqueId - 2), 1, 1⟩⟩
  vertices := [⟨cornerSize uniqueId, 0, 0⟩, ⟨2 * cornerSize uniqueId - 2, 1, 0⟩, ⟨2 * cornerSize uniqueId - 2, 0, 1⟩]
  faces := [.triangle 0 1 2]

noncomputable def apexConfig : ClashDetectionConfig .digits ℝ := { cornerConfig with tolerance := 2 }

noncomputable def apexEnvironment : Environment .digits ℝ where
  handler :=
    { populate := fun mesh => apexNode mesh.uniqueId
      uniqueId_populate := fun _ => rfl
      getNodes := id
      getNodes_perm := perm_id }
  builder := .chain ℝ
  geometry := cornerGeometry
  hashCombine := fun hash p => 4 * hash + (if p = 0 then 0 else if p = 1 then 1 else if p = 2 then 2 else 3)

noncomputable def apexCached (uniqueId : Boost.digits.Uuid) (object : CompositeObject .digits) : Cached ℝ :=
  .initialise (.chain ℝ) ⟨apexNode uniqueId, object⟩

/-- The line between the corners of two triangles on the first axis. -/
def apexLine (n n' : ℝ) : RepoLine ℝ := ⟨⟨n, 0, 0⟩, ⟨n', 0, 0⟩⟩

private theorem magnitude_apexLine (n n' : ℝ) : (apexLine n n').magnitude * (apexLine n n').magnitude = (n' - n) * (n' - n) := by
  have hnorm := RepoVector3D.norm_mul_norm ((apexLine n n').endpoint - (apexLine n n').start)
  simpa [RepoLine.magnitude, apexLine, RepoVector3D.norm2] using hnorm

private theorem magnitude_apexLine_eq_one {n n' : ℝ} (h : n' = n + 1 ∨ n = n' + 1) : (apexLine n n').magnitude = 1 := by
  have hmul := magnitude_apexLine n n'
  have hpos := RepoLine.magnitude_nonneg (apexLine n n')
  have hone : (n' - n) * (n' - n) = 1 := by
    obtain rfl | rfl := h <;> ring
  nlinarith [hmul, hone, hpos]

section Apex

variable {u u' : Boost.digits.Uuid} {object object' : CompositeObject .digits}

private theorem apexCached_faces : (apexCached u object).mesh.faces.length = 1 :=
  RepoIndexedMesh.length_faces_ofTriangles _

private theorem apexCached_getTriangle : (apexCached u object).getTriangle 0 = apex (cornerSize u) :=
  RepoIndexedMesh.getTriangle_ofTriangles Nat.one_pos

private theorem apexCached_enclosed : (apexCached u object).Enclosed :=
  initialise_enclosed SweepSahBuilder.chain_encloses (List.cons_ne_nil _ _)

private theorem corner_mem_apex (n : ℝ) : (⟨n, 0, 0⟩ : RepoVector3D ℝ) ∈ (apex n).points :=
  ⟨1, 0, 0, by norm_num, by norm_num, by norm_num, by norm_num, by ext <;> simp [apex]⟩

variable (object object') in
/-- The test of two triangles at a distance of one appends the line between their corners on the axis, and no other. -/
theorem test_apex (h : cornerSize u' = cornerSize u + 1 ∨ cornerSize u = cornerSize u' + 1) : ∃ lines,
    test cornerGeometry 2 (apexCached u object) (apexCached u' object') = some lines ∧ lines ≠ [] ∧
      ∀ line ∈ lines, line = apexLine (cornerSize u) (cornerSize u') := by
  have hnot : isContained cornerGeometry (apexCached u object) (apexCached u' object') = false := Bool.and_false _
  have hwf : (apexCached u object).Enclosed := apexCached_enclosed
  have hwf' : (apexCached u' object').Enclosed := apexCached_enclosed
  obtain ⟨results, hresults, hlt, hmem⟩ :=
    Traversal.collect_distanceQuery hwf.wellFormed hwf'.wellFormed hwf.encloses hwf'.encloses 2
  rw [apexCached_faces, apexCached_faces] at hlt
  have hline : ∀ i j, (i, j) ∈ results → (cornerGeometry.closestPoints ((apexCached u object).getTriangle i)
      ((apexCached u' object').getTriangle j)).toRepoLine = apexLine (cornerSize u) (cornerSize u') := by
    intro i j hij
    obtain ⟨hi, hj⟩ := hlt i j hij
    obtain rfl : i = 0 := by omega
    obtain rfl : j = 0 := by omega
    rw [apexCached_getTriangle, apexCached_getTriangle]
    rfl
  have hpair : (0, 0) ∈ results := by
    apply hmem 0 0 (apexCached_faces.symm ▸ Nat.one_pos) (apexCached_faces.symm ▸ Nat.one_pos)
    refine ⟨⟨cornerSize u, 0, 0⟩, ⟨?_, ?_⟩, ⟨cornerSize u', 0, 0⟩, ⟨?_, ?_⟩, ?_⟩
    · exact apexCached_faces.symm ▸ Nat.one_pos
    · exact apexCached_getTriangle.symm ▸ corner_mem_apex _
    · exact apexCached_faces.symm ▸ Nat.one_pos
    · exact apexCached_getTriangle.symm ▸ corner_mem_apex _
    · have hone : (cornerSize u' - cornerSize u) * (cornerSize u' - cornerSize u) = 1 := by
        obtain h | h := h <;> rw [h] <;> ring
      simp [RepoVector3D.norm2, hone]
      norm_num
  refine ⟨_, by rw [test, hnot, if_neg Bool.false_ne_true, distanceBranch, hresults]; rfl, ?_, ?_⟩
  · refine List.ne_nil_of_mem (List.mem_filter.2 ⟨List.mem_map.2 ⟨(0, 0), hpair, hline 0 0 hpair⟩, ?_⟩)
    rw [magnitude_apexLine_eq_one h]
    norm_num
  · intro line hmem
    obtain ⟨hmem, -⟩ := List.mem_filter.1 hmem
    obtain ⟨⟨i, j⟩, hij, rfl⟩ := List.mem_map.1 hmem
    exact hline i j hij

theorem six_le_dblMax : (6 : ℝ) ≤ dblMax := by
  unfold dblMax
  have hpow : (1 : ℝ) ≤ 2 ^ 971 := one_le_pow₀ one_le_two
  have hfactor : (6 : ℝ) ≤ 2 ^ 53 - 1 := by norm_num
  exact hfactor.trans (le_mul_of_one_le_right (by norm_num) hpow)

private theorem norm2_size_apex (hu : 1 ≤ cornerSize u) (hle : cornerSize u ≤ 4) :
    (apexCached u object).bounds.size.norm2 = (cornerSize u - 2) * (cornerSize u - 2) + 2 := by
  have hvertices : (apexCached u object).mesh.vertices =
      [⟨cornerSize u, 0, 0⟩, ⟨2 * cornerSize u - 2, 1, 0⟩, ⟨2 * cornerSize u - 2, 0, 1⟩] := by
    have hmesh : (apexCached u object).mesh = .ofTriangles (loadGeometry ⟨apexNode u, object⟩) := rfl
    rw [hmesh]
    simp [loadGeometry, apexNode, RepoIndexedMesh.ofTriangles, RepoIndexedMesh.append, RepoIndexedMesh.empty,
      Library.intern, RepoFace.get, RepoFace.triangle]
  have hbounds : (apexCached u object).bounds = .ofPoints (apexCached u object).mesh.vertices := rfl
  have hmax := six_le_dblMax
  have h1 : cornerSize u ≤ dblMax := by linarith
  have h2 : 2 * cornerSize u - 2 ≤ dblMax := by linarith
  have h3 : -dblMax ≤ cornerSize u := by linarith
  have h4 : -dblMax ≤ 2 * cornerSize u - 2 := by linarith
  have hpos := RepoLine.dblMax_pos (R := ℝ)
  rw [hbounds, hvertices]
  simp only [RepoBounds.ofPoints, RepoBounds.encapsulate, RepoBounds.empty, RepoVector3D.min, RepoVector3D.max,
    List.foldl_cons, List.foldl_nil, min_eq_right h1, max_eq_right h3, min_eq_right hpos.le,
    max_eq_right (neg_nonpos.2 hpos.le), min_assoc, max_assoc, min_self, max_self]
  obtain h | h := le_total (cornerSize u) (2 * cornerSize u - 2)
  · simp [RepoBounds.size, RepoVector3D.norm2, min_eq_left h, max_eq_right h]
    ring
  · simp [RepoBounds.size, RepoVector3D.norm2, min_eq_right h, max_eq_left h]
    ring

private theorem cornerSize_one : cornerSize ['1'] = 1 := Nat.cast_one

private theorem cornerSize_two : cornerSize ['1', '1'] = 2 := Nat.cast_ofNat

private theorem cornerSize_three : cornerSize ['1', '1', '1'] = 3 := Nat.cast_ofNat

private theorem swapped_apex (hu : cornerSize u = 1 ∨ cornerSize u = 3) (hu' : cornerSize u' = 2) :
    (narrowphase cornerGeometry 2).swapped (apexCached u object, apexCached u' object') =
      (apexCached u' object', apexCached u object) := by
  have hsize : (apexCached u object).bounds.size.norm2 = 3 := by
    obtain h | h := hu
    · rw [norm2_size_apex (by linarith) (by linarith), h]
      norm_num
    · rw [norm2_size_apex (by linarith) (by linarith), h]
      norm_num
  have hsize' : (apexCached u' object').bounds.size.norm2 = 2 := by
    rw [norm2_size_apex (by linarith) (by linarith), hu']
    norm_num
  have hlt : (apexCached u' object').bounds.size.norm < (apexCached u object).bounds.size.norm := by
    rw [← not_le, RepoVector3D.norm_le_norm_iff, hsize, hsize']
    norm_num
  have hgt : (apexCached u object).bounds.gt (apexCached u' object').bounds = true := decide_eq_true hlt
  exact if_pos hgt

private theorem tagged_apex (hu : cornerSize u = 1 ∨ cornerSize u = 3) (hu' : cornerSize u' = 2) : ∃ lines,
    (narrowphase cornerGeometry 2).tagged (apexCached u cornerP, apexCached u' cornerQ) =
      lines.map (fun line => (⟨"Q", "P"⟩, line)) ∧ lines ≠ [] ∧
    ∀ line ∈ lines, line = apexLine (cornerSize u') (cornerSize u) := by
  have hclose : cornerSize u = cornerSize u' + 1 ∨ cornerSize u' = cornerSize u + 1 := by
    obtain h | h := hu <;> rw [h, hu'] <;> norm_num
  obtain ⟨lines, hlines, hne, heq⟩ := test_apex cornerQ cornerP hclose
  have hswapped : (narrowphase cornerGeometry 2).swapped (apexCached u cornerP, apexCached u' cornerQ) =
      (apexCached u' cornerQ, apexCached u cornerP) := swapped_apex hu hu'
  refine ⟨lines, ?_, hne, heq⟩
  have hfindings : (narrowphase cornerGeometry 2).findings (apexCached u cornerP, apexCached u' cornerQ) =
      some lines := by
    rw [Narrowphase.findings, hswapped]
    exact hlines
  have hobjects : (narrowphase cornerGeometry 2).objects (apexCached u cornerP, apexCached u' cornerQ) =
      ⟨"Q", "P"⟩ := by
    rw [Narrowphase.objects, hswapped]
    rfl
  rw [Narrowphase.tagged, hfindings, hobjects]
  rfl

private theorem isFirstLeast_apex (hu : cornerSize u = 1 ∨ cornerSize u = 3) {n : ℝ} (hn : cornerSize u = n) :
    IsFirstLeast RepoLine.magnitude
      (valuesAt ⟨"Q", "P"⟩ ((narrowphase cornerGeometry 2).tagged (apexCached u cornerP, apexCached ['1', '1'] cornerQ)))
      (apexLine 2 n) := by
  obtain ⟨lines, htagged, hne, heq⟩ := tagged_apex hu cornerSize_two
  rw [htagged, Library.valuesAt_map_self]
  rw [cornerSize_two, hn] at heq
  exact Library.isFirstLeast_of_forall_eq hne heq

private theorem magnitude_of_mem_tagged_apex (h : cornerSize u' = cornerSize u + 1 ∨ cornerSize u = cornerSize u' + 1)
    {objects : OrderedPair} {line : RepoLine ℝ}
    (hline : (objects, line) ∈ (narrowphase cornerGeometry 2).tagged (apexCached u object, apexCached u' object')) :
    line.magnitude = 1 := by
  obtain ⟨lines, hlines, -, heq⟩ := test_apex object object' h
  obtain ⟨lines', hlines', -, heq'⟩ := test_apex object' object h.symm
  rw [Narrowphase.tagged, Narrowphase.findings, Narrowphase.swapped] at hline
  split at hline
  · have hfindings : (narrowphase cornerGeometry 2).test (apexCached u' object') (apexCached u object) = some lines' :=
      hlines'
    rw [hfindings] at hline
    obtain ⟨line', hmem, he⟩ := List.mem_map.1 hline
    cases he
    rw [heq' line hmem]
    exact magnitude_apexLine_eq_one h.symm
  · have hfindings : (narrowphase cornerGeometry 2).test (apexCached u object) (apexCached u' object') = some lines :=
      hlines
    rw [hfindings] at hline
    obtain ⟨line', hmem, he⟩ := List.mem_map.1 hline
    cases he
    rw [heq line hmem]
    exact magnitude_apexLine_eq_one h

end Apex

section Scene

variable {graphs : SceneGraphs .digits ℝ} {ts : List (Cached ℝ × Cached ℝ)}

private theorem cornerSets_apexConfig : CornerSets apexConfig :=
  ⟨cornerSets_cornerConfig.a, cornerSets_cornerConfig.b, cornerSets_cornerConfig.c⟩

variable (h : createSceneGraphs apexEnvironment.handler apexEnvironment.builder apexConfig = .ok graphs)
  (hts : tests apexEnvironment.builder apexConfig graphs = some ts)

include h hts

private theorem mem_tests_apex (mesh : MeshReference .digits) (hmesh : mesh ∈ cornerP.meshes)
    (hsize : cornerSize mesh.uniqueId = 1 ∨ cornerSize mesh.uniqueId = 3) :
    (apexCached mesh.uniqueId cornerP, apexCached ['1', '1'] cornerQ) ∈ ts := by
  have hcontains : ∀ u : Boost.digits.Uuid, 1 ≤ cornerSize u → (apexNode u).bounds.Contains ⟨cornerSize u, 0, 0⟩ := by
    intro u hu
    exact ⟨⟨min_le_left _ _, le_max_left _ _⟩, ⟨le_rfl, zero_le_one⟩, ⟨le_rfl, zero_le_one⟩⟩
  have hone : 1 ≤ cornerSize mesh.uniqueId := by
    obtain hsize | hsize := hsize <;> linarith
  have htwo : 1 ≤ cornerSize ['1', '1'] := by
    rw [cornerSize_two]
    norm_num
  obtain ⟨pairs, hpairs, hp⟩ := cornerSets_apexConfig.exists_pairs_inter h SweepSahBuilder.chain_encloses hmesh
    ⟨_, _, hcontains _ hone, hcontains _ htwo, by
      have htolerance : apexConfig.tolerance = 2 := rfl
      rw [htolerance, cornerSize_two]
      obtain hsize | hsize := hsize <;> rw [hsize] <;> norm_num [RepoVector3D.norm2]⟩
  exact (mem_tests_iff hts).2 ⟨_, Hard.mem_passes_iff.2 (.inl rfl), pairs, hpairs, _, hp, rfl⟩

private theorem returns_apex {t : Cached ℝ × Cached ℝ} (ht : t ∈ ts) :
    (narrowphase apexEnvironment.geometry apexConfig.tolerance).Returns (fun _ _ => none) t := by
  refine ⟨rfl, isSome_findings ?_ hts ht⟩
  intro graph hgraph node hnode
  obtain ⟨set, hset⟩ := exists_set h hgraph
  obtain ⟨composite, -, mesh, -, rfl⟩ := (mem_meshes_iff hset).1 hnode
  exact List.cons_ne_nil _ _

private theorem magnitude_of_mem_tests_apex {t : Cached ℝ × Cached ℝ} (ht : t ∈ ts) {line : RepoLine ℝ}
    (hline : (⟨"Q", "P"⟩, line) ∈ (narrowphase cornerGeometry 2).tagged t) : line.magnitude = 1 := by
  obtain ⟨pass, hpass, pairs, hpairs, p, hp, rfl⟩ := (mem_tests_iff hts).1 ht
  obtain ⟨hleft, hright⟩ := Hard.sides_mem hpass
  obtain ⟨hx, hy⟩ := mem_sides_of_broadphase hpairs hp
  obtain ⟨c, hc, mesh, hmesh, hx⟩ := cornerSets_apexConfig.eq_of_mem_meshes h hleft hx
  obtain ⟨c', hc', mesh', hmesh', hy⟩ := cornerSets_apexConfig.eq_of_mem_meshes h hright hy
  rw [hx, hy] at hline
  have hobjects : (narrowphase cornerGeometry 2).objects (apexCached mesh.uniqueId c, apexCached mesh'.uniqueId c') =
      ⟨"Q", "P"⟩ := by
    obtain ⟨line', -, he⟩ := List.mem_map.1 hline
    exact congrArg Prod.fst he
  have hunordered := (narrowphase cornerGeometry 2).unordered_objects
    (apexCached mesh.uniqueId c, apexCached mesh'.uniqueId c')
  rw [hobjects] at hunordered
  refine magnitude_of_mem_tagged_apex ?_ hline
  have hids : s(c.id, c'.id) = s("Q", "P") := hunordered.symm
  have hP : ∀ c ∈ [cornerP, cornerQ, cornerS], c.id = "P" → c = cornerP := by decide
  have hQ : ∀ c ∈ [cornerP, cornerQ, cornerS], c.id = "Q" → c = cornerQ := by decide
  have hsizeP : ∀ mesh ∈ cornerP.meshes, cornerSize mesh.uniqueId = 1 ∨ cornerSize mesh.uniqueId = 3 := by
    intro mesh hmesh
    obtain rfl | hmesh := List.mem_cons.1 hmesh
    · exact .inl cornerSize_one
    · obtain rfl := List.mem_singleton.1 hmesh
      exact .inr cornerSize_three
  have hsizeQ : ∀ mesh ∈ cornerQ.meshes, cornerSize mesh.uniqueId = 2 := by
    intro mesh hmesh
    obtain rfl := List.mem_singleton.1 hmesh
    exact cornerSize_two
  obtain ⟨h1, h2⟩ | ⟨h1, h2⟩ := Sym2.eq_iff.1 hids
  · obtain rfl := hQ c hc h1
    obtain rfl := hP c' hc' h2
    rw [hsizeQ mesh hmesh]
    obtain hsize | hsize := hsizeP mesh' hmesh' <;> rw [hsize] <;> norm_num
  · obtain rfl := hP c hc h1
    obtain rfl := hQ c' hc' h2
    rw [hsizeQ mesh' hmesh']
    obtain hsize | hsize := hsizeP mesh hmesh <;> rw [hsize] <;> norm_num

end Scene

/-- Two threads run the same queue of tests.  The first test finds a line to the left, the second one an equally short
line to the right.  The clash of the two objects has the one line if the first test appends its line first, and the other
one if it appends it last. -/
theorem exists_reports_ne_apex : ∃ graphs ts queue report report',
    createSceneGraphs apexEnvironment.handler apexEnvironment.builder apexConfig = .ok graphs ∧
    tests apexEnvironment.builder apexConfig graphs = some ts ∧ queue.Perm ts ∧
    Reports apexEnvironment apexConfig (fun _ _ => none) 2 queue report ∧
    Reports apexEnvironment apexConfig (fun _ _ => none) 2 queue report' ∧
    ∃ result ∈ report, ∃ result' ∈ report', result.idA = result'.idA ∧ result.idB = result'.idB ∧
      result.positions ≠ result'.positions ∧ result.fingerprint ≠ result'.fingerprint := by
  obtain ⟨graphs, h⟩ := cornerSets_apexConfig.exists_sceneGraphs apexEnvironment
  obtain ⟨-, graphs', ts, -, h', hts, -, -⟩ := cornerSets_apexConfig.exists_runs h fun _ => List.cons_ne_nil _ _
  obtain rfl := Except.ok.inj (h.symm.trans h')
  let left : Cached ℝ × Cached ℝ := (apexCached ['1'] cornerP, apexCached ['1', '1'] cornerQ)
  let right : Cached ℝ × Cached ℝ := (apexCached ['1', '1', '1'] cornerP, apexCached ['1', '1'] cornerQ)
  have hleft : left ∈ ts := mem_tests_apex h hts ⟨0, ['1']⟩ (by decide) (.inl cornerSize_one)
  have hright : right ∈ ts := mem_tests_apex h hts ⟨0, ['1', '1', '1']⟩ (by decide) (.inr cornerSize_three)
  have hne : right ≠ left := by
    intro he
    have htriangle : (apexCached ['1', '1', '1'] cornerP).getTriangle 0 = (apexCached ['1'] cornerP).getTriangle 0 :=
      congrArg (fun t => t.1.getTriangle 0) he
    have hsize : cornerSize ['1', '1', '1'] = cornerSize ['1'] :=
      congrArg (fun t => t.a.x) (apexCached_getTriangle.symm.trans (htriangle.trans apexCached_getTriangle))
    have hnum : (3 : ℝ) = 1 := cornerSize_three.symm.trans (hsize.trans cornerSize_one)
    norm_num at hnum
  obtain ⟨rest, hrest⟩ : ∃ rest, ts.Perm (left :: rest) := by
    obtain ⟨before, after, rfl⟩ := List.append_of_mem hleft
    exact ⟨before ++ after, List.perm_middle⟩
  obtain ⟨others, hothers⟩ : ∃ others, rest.Perm (right :: others) := by
    obtain hmem | hmem := List.mem_cons.1 (hrest.mem_iff.1 hright)
    · exact absurd hmem hne
    · obtain ⟨before, after, rfl⟩ := List.append_of_mem hmem
      exact ⟨before ++ after, List.perm_middle⟩
  have hperm : (left :: right :: others).Perm ts := (hrest.trans (hothers.cons left)).symm
  have hreturns : ∀ t ∈ left :: right :: others,
      (narrowphase apexEnvironment.geometry apexConfig.tolerance).Returns (fun _ _ => none) t := by
    intro t ht
    exact returns_apex h hts (hperm.mem_iff.1 ht)
  have hone : (1 : ℝ) < (RepoLine.max : RepoLine ℝ).magnitude := by
    refine lt_of_lt_of_le ?_ RepoLine.dblMax_le_magnitude_max
    linarith [six_le_dblMax]
  have hmagnitude : ∀ {t : Cached ℝ × Cached ℝ} {line : RepoLine ℝ}, t ∈ left :: right :: others →
      (⟨"Q", "P"⟩, line) ∈ (narrowphase cornerGeometry 2).tagged t → line.magnitude = 1 := by
    intro t line ht hline
    exact magnitude_of_mem_tests_apex h hts (hperm.mem_iff.1 ht) hline
  -- in the first run the line to the left arrives first
  have hfirst : (clashes ((left :: right :: others).flatMap (narrowphase cornerGeometry 2).tagged)).lookup
      ⟨"Q", "P"⟩ = some ⟨apexLine 2 1⟩ := by
    have hone' : (apexLine 2 1).magnitude = 1 := magnitude_apexLine_eq_one (by norm_num)
    refine lookup_clashes_append (isFirstLeast_apex (.inl cornerSize_one) cornerSize_one) (by rwa [hone']) ?_
    intro other hother
    obtain ⟨t, ht, hline⟩ := List.mem_flatMap.1 hother
    rw [hone', hmagnitude (List.mem_cons_of_mem _ ht) hline]
  -- in the second run the line to the right does, and that to the left arrives last
  have hlast : (clashes ((right :: others).flatMap (narrowphase cornerGeometry 2).tagged ++
      (narrowphase cornerGeometry 2).tagged left)).lookup ⟨"Q", "P"⟩ = some ⟨apexLine 2 3⟩ := by
    have hone' : (apexLine 2 3).magnitude = 1 := magnitude_apexLine_eq_one (by norm_num)
    rw [List.flatMap_cons, List.append_assoc]
    refine lookup_clashes_append (isFirstLeast_apex (.inr cornerSize_three) cornerSize_three) (by rwa [hone']) ?_
    intro other hother
    obtain hother | hother := List.mem_append.1 hother
    · obtain ⟨t, ht, hline⟩ := List.mem_flatMap.1 hother
      rw [hone', hmagnitude (List.mem_cons_of_mem _ (List.mem_cons_of_mem _ ht)) hline]
    · rw [hone', hmagnitude List.mem_cons_self hother]
  have hlastRun : Finishes cornerGeometry 2 (fun _ _ => none) 2 (left :: right :: others)
      (clashes ((right :: others).flatMap (narrowphase cornerGeometry 2).tagged ++
        (narrowphase cornerGeometry 2).tagged left)) :=
    Narrowphase.exists_run_last (hreturns left List.mem_cons_self) fun t ht =>
      hreturns t (List.mem_cons_of_mem _ ht)
  refine ⟨graphs, ts, left :: right :: others, _, _, h, hts, hperm, exists_reports hreturns two_ne_zero,
    ⟨_, hlastRun, rfl⟩, _, mem_createReport.2 ⟨_, _, hfirst, rfl⟩, _, mem_createReport.2 ⟨_, _, hlast, rfl⟩, rfl, rfl,
    ?_, ?_⟩
  · simp [createClashReport, getClashPositions, apexLine]
  · simp [createClashReport, getClashPositions, apexLine, apexEnvironment]

end Bouncer.Clash.Clearance
