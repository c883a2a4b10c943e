import Bouncer.Clash.DeformSearch
import Mathlib.Analysis.SpecialFunctions.Trigonometric.Inverse

/-!
# Deformable meshes of one triangle

The hierarchy of a mesh of one triangle is a single leaf, so its bounds are those of its corners, also after they have
been moved (`bounds_of_refitGroups`).  Two such meshes are tested as soon as their boxes have a point in common
(`intersect_singleTriangle`).
-/

namespace Bouncer.Clash

open RepoDeformDepth (intersect offsets performLocalSearch crossingGeometry)

/-- A mesh of one triangle, just loaded. -/
noncomputable def singleTriangle (p q r : RepoVector3D ℝ) : Deformable ℝ :=
  .ofMesh Real.arccos (.initialise (.single ℝ) ⟨[p, q, r], [.triangle 0 1 2]⟩ [⟨0, 1, false, [0, 1, 2]⟩])

theorem undeformed_singleTriangle (p q r : RepoVector3D ℝ) : (singleTriangle p q r).Undeformed := by
  refine Deformable.undeformed_ofMesh SweepSahBuilder.single_exact _ _ fun range hrange => ?_
  obtain rfl := List.mem_singleton.1 hrange
  simp

/-- No coordinate is beyond 20. -/
structure Near (p : RepoVector3D ℝ) : Prop where
  x : |p.x| ≤ 20
  y : |p.y| ≤ 20
  z : |p.z| ≤ 20

theorem twenty_le_dblMax : (20 : ℝ) ≤ dblMax := by
  unfold dblMax
  have hpow : (1 : ℝ) ≤ 2 ^ 971 := one_le_pow₀ one_le_two
  have hfactor : (20 : ℝ) ≤ 2 ^ 53 - 1 := by norm_num
  exact hfactor.trans (le_mul_of_one_le_right (by norm_num) hpow)

theorem Near.min_dblMax {p : RepoVector3D ℝ} (h : Near p) : (⟨dblMax, dblMax, dblMax⟩ : RepoVector3D ℝ).min p = p := by
  have hmax := twenty_le_dblMax
  ext
  · exact min_eq_right ((le_abs_self _).trans (h.x.trans hmax))
  · exact min_eq_right ((le_abs_self _).trans (h.y.trans hmax))
  · exact min_eq_right ((le_abs_self _).trans (h.z.trans hmax))

theorem Near.max_dblMax {p : RepoVector3D ℝ} (h : Near p) :
    (⟨-dblMax, -dblMax, -dblMax⟩ : RepoVector3D ℝ).max p = p := by
  have hmax := twenty_le_dblMax
  have hneg : ∀ {t : ℝ}, |t| ≤ 20 → -dblMax ≤ t := fun ht => (neg_le_neg (ht.trans hmax)).trans (neg_abs_le _)
  ext
  · exact max_eq_right (hneg h.x)
  · exact max_eq_right (hneg h.y)
  · exact max_eq_right (hneg h.z)

/-- The box of a triangle. -/
noncomputable def triangleBox (p q r : RepoVector3D ℝ) : BoundingBox ℝ := ⟨(p.min q).min r, (p.max q).max r⟩

private theorem leafBox_triangle {p q r : RepoVector3D ℝ} (hp : Near p) :
    Deformable.leafBox [p, q, r] [.triangle 0 1 2] [0] = triangleBox p q r := by
  have hmin := hp.min_dblMax
  have hmax := hp.max_dblMax
  show (((BoundingBox.empty.extend ⟨p, p⟩).extend ⟨q, q⟩).extend ⟨r, r⟩ : BoundingBox ℝ) = _
  have hfirst : BoundingBox.empty.extend ⟨p, p⟩ = (⟨p, p⟩ : BoundingBox ℝ) := by
    unfold BoundingBox.extend BoundingBox.empty
    rw [hmin, hmax]
  rw [hfirst]
  rfl

theorem Near.min {p q : RepoVector3D ℝ} (hp : Near p) (hq : Near q) : Near (p.min q) := by
  have hmin : ∀ {s t : ℝ}, |s| ≤ 20 → |t| ≤ 20 → |Min.min s t| ≤ 20 := by
    intro s t hs ht
    rw [abs_le] at hs ht ⊢
    exact ⟨le_min hs.1 ht.1, (min_le_left _ _).trans hs.2⟩
  exact ⟨hmin hp.x hq.x, hmin hp.y hq.y, hmin hp.z hq.z⟩

theorem Near.max {p q : RepoVector3D ℝ} (hp : Near p) (hq : Near q) : Near (p.max q) := by
  have hmax : ∀ {s t : ℝ}, |s| ≤ 20 → |t| ≤ 20 → |Max.max s t| ≤ 20 := by
    intro s t hs ht
    rw [abs_le] at hs ht ⊢
    exact ⟨hs.1.trans (le_max_left _ _), max_le hs.2 ht.2⟩
  exact ⟨hmax hp.x hq.x, hmax hp.y hq.y, hmax hp.z hq.z⟩

/-- The bounds of a triangle are those of its hierarchy, wherever the vertices are by now. -/
theorem bounds_of_refitGroups {p q r p' q' r' : RepoVector3D ℝ} {mesh : DeformMesh ℝ} (hp' : Near p') (hq' : Near q')
    (hr' : Near r') (h : mesh.faceGroups = Deformable.refitGroups (singleTriangle p q r).toDeformMesh [p', q', r']) :
    mesh.bounds = ⟨(triangleBox p' q' r').min, (triangleBox p' q' r').max⟩ := by
  have hnearMin : Near (triangleBox p' q' r').min := (hp'.min hq').min hr'
  have hnearMax : Near (triangleBox p' q' r').max := (hp'.max hq').max hr'
  have hle : (triangleBox p' q' r').min.min (triangleBox p' q' r').max = (triangleBox p' q' r').min ∧
      (triangleBox p' q' r').min.max (triangleBox p' q' r').max = (triangleBox p' q' r').max := by
    unfold triangleBox RepoVector3D.min RepoVector3D.max
    dsimp only
    constructor
    · ext <;> exact min_eq_left ((min_le_right _ _).trans (le_max_right _ _))
    · ext <;> exact max_eq_right ((min_le_right _ _).trans (le_max_right _ _))
  have hbox : mesh.bounds =
      RepoBounds.empty.encapsulateBounds (.ofMinMax (triangleBox p' q' r').min (triangleBox p' q' r').max) := by
    unfold DeformMesh.bounds
    rw [h, ← leafBox_triangle hp']
    rfl
  have hofMinMax : RepoBounds.ofMinMax (triangleBox p' q' r').min (triangleBox p' q' r').max =
      ⟨(triangleBox p' q' r').min, (triangleBox p' q' r').max⟩ := by
    unfold RepoBounds.ofMinMax RepoBounds.encapsulate RepoBounds.empty
    dsimp only
    rw [hnearMin.min_dblMax, hnearMin.max_dblMax, hle.1, hle.2]
  rw [hbox, hofMinMax]
  unfold RepoBounds.encapsulateBounds RepoBounds.empty
  dsimp only
  rw [hnearMin.min_dblMax, hnearMax.max_dblMax]

theorem bounds_singleTriangle {p q r : RepoVector3D ℝ} (hp : Near p) (hq : Near q) (hr : Near r) :
    (singleTriangle p q r).bounds = ⟨(triangleBox p q r).min, (triangleBox p q r).max⟩ := by
  refine bounds_of_refitGroups (p := p) (q := q) (r := r) hp hq hr ?_
  conv_lhs => rw [← (undeformed_singleTriangle p q r).restored_eq]
  rfl

/-! ### Tests of crossing triangles -/

private theorem contacts_of_contains {a b : BoundingBox ℝ} {c m : RepoVector3D ℝ} (ha : a.Contains c)
    (hb : b.Contains (c + m)) {count first count' first' : ℕ} : Predicates.contacts
      ((⟨a.bounds, count, first⟩ : BvhNode ℝ).addOffset m) ⟨b.bounds, count', first'⟩ = true := by
  have hseparate : ∀ {lo hi lo' hi' t th : ℝ}, lo ≤ t → t ≤ hi → lo' ≤ t → t ≤ hi' → 0 ≤ th →
      (decide (lo' - hi > th) || decide (lo - hi' > th)) = false := by
    intro lo hi lo' hi' t th h1 h2 h3 h4 hth
    rw [Bool.or_eq_false_iff, decide_eq_false_iff_not, decide_eq_false_iff_not]
    constructor <;> linarith
  unfold Predicates.contacts
  dsimp only
  rw [Bool.not_eq_true', Bool.or_eq_false_iff, Bool.or_eq_false_iff]
  have hth : ∀ x y z : ℝ, 0 ≤ Max.max x (Max.max y (Max.max z 0)) * Predicates.magicEpsilon := by
    intro x y z
    have hmax : 0 ≤ Max.max x (Max.max y (Max.max z 0)) :=
      (le_max_right z 0).trans ((le_max_right _ _).trans (le_max_right _ _))
    exact mul_nonneg hmax (by unfold Predicates.magicEpsilon; norm_num)
  refine ⟨⟨?_, ?_⟩, ?_⟩
  · exact hseparate (t := c.x + m.x) (add_le_add_left ha.1.1 _) (add_le_add_left ha.1.2 _) hb.1.1 hb.1.2 (hth _ _ _)
  · exact hseparate (t := c.y + m.y) (add_le_add_left ha.2.1.1 _) (add_le_add_left ha.2.1.2 _) hb.2.1.1 hb.2.1.2
      (hth _ _ _)
  · exact hseparate (t := c.z + m.z) (add_le_add_left ha.2.2.1 _) (add_le_add_left ha.2.2.2 _) hb.2.2.1 hb.2.2.2
      (hth _ _ _)

/-- The only group of a triangle, with its hierarchy. -/
noncomputable def triangleFaces (p q r : RepoVector3D ℝ) : Faces ℝ :=
  ⟨⟨0, 1, false, [0, 1, 2]⟩, build (.single ℝ) [p, q, r] [.triangle 0 1 2]⟩

private theorem triangleFaces_nodes {p q r : RepoVector3D ℝ} (hp : Near p) (i : ℕ) :
    (triangleFaces p q r).bvh.nodes i = ⟨(triangleBox p q r).bounds, 1, 0⟩ := by
  have hbox : BoundingBox.empty.extend (faceBox [p, q, r] (.triangle 0 1 2)) = triangleBox p q r :=
    (sup_eq_right.2 (Deformable.empty_le_faceBox _ _)).trans (leafBox_triangle hp)
  rw [← hbox]
  rfl

private theorem isTree_triangleFaces (p q r : RepoVector3D ℝ) : (triangleFaces p q r).bvh.IsTree 1 (.leaf 0) where
  root := rfl
  spells := rfl
  nodes := List.Perm.refl _
  primitives := by simp [triangleFaces, build, SweepSahBuilder.single, Bvh.leafPrimitives]

/-- The test of two triangles finds an intersection, if their boxes have a point in common. -/
theorem intersect_singleTriangle {p q r p' q' r' c m : RepoVector3D ℝ} (hp : Near p) (hp' : Near p')
    (h : (triangleBox p q r).Contains c) (h' : (triangleBox p' q' r').Contains (c + m)) :
    intersect crossingGeometry (singleTriangle p q r).toDeformMesh (singleTriangle p' q' r').toDeformMesh m =
      some true := by
  have hcontacts : Predicates.contacts (((triangleFaces p q r).bvh.nodes 0).addOffset m)
      ((triangleFaces p' q' r').bvh.nodes 0) = true := by
    rw [triangleFaces_nodes hp, triangleFaces_nodes hp']
    exact contacts_of_contains h h'
  have hreached : Traversal.reached (triangleFaces p q r).bvh (triangleFaces p' q' r').bvh
      (fun x y => Predicates.contacts (x.addOffset m) y) (.leaf 0) (.leaf 0) = [(0, 0)] :=
    Library.FullTree.crossList_leaf_leaf (a := 0) (b := 0) hcontacts
  have hgroups : RepoDeformDepth.intersectGroups crossingGeometry (singleTriangle p q r).toDeformMesh
      (singleTriangle p' q' r').toDeformMesh m (triangleFaces p q r) (triangleFaces p' q' r') = some true := by
    rw [RepoDeformDepth.intersectGroups_eq (isTree_triangleFaces p q r) (isTree_triangleFaces p' q' r'), hreached]
    rfl
  have htouching : RepoDeformDepth.touching crossingGeometry (singleTriangle p q r).toDeformMesh
      (singleTriangle p' q' r').toDeformMesh m = some true := by
    show RepoDeformDepth.intersectAny _ _ _ _ [(triangleFaces p q r, triangleFaces p' q' r')] = _
    rw [RepoDeformDepth.intersectAny, hgroups]
    rfl
  rw [intersect, htouching]
  rfl

/-- No offset helps, if all of them lead to an intersection. -/
theorem performLocalSearch_eq {a b : DeformMesh ℝ} (pqs : List (RepoVector3D ℝ))
    (h : ∀ m ∈ pqs, intersect crossingGeometry a b m = some true) :
    performLocalSearch crossingGeometry a b pqs = some ⟨fltMax, fltMax, fltMax⟩ := by
  induction pqs with
  | nil => rfl
  | cons m pqs ih =>
    rw [performLocalSearch, h m List.mem_cons_self, Option.bind_some, if_pos rfl]
    exact ih fun m' hm' => h m' (List.mem_cons_of_mem _ hm')

/-- The offsets are shorter than the tolerance, along each axis. -/
theorem abs_le_of_mem_offsets {m : RepoVector3D ℝ} (h : m ∈ offsets (1 : ℝ)) : |m.x| ≤ 1 ∧ |m.y| ≤ 1 ∧ |m.z| ≤ 1 := by
  unfold offsets at h
  obtain ⟨istep, histep, h⟩ := List.mem_flatMap.1 h
  obtain ⟨axis, haxis, h⟩ := List.mem_flatMap.1 h
  obtain ⟨dir, hdir, rfl⟩ := List.mem_map.1 h
  have hlength : |dir * (istep * (1 / 5))| ≤ 1 := by
    simp only [List.mem_cons, List.not_mem_nil, or_false] at histep hdir
    rcases hdir with rfl | rfl <;> rcases histep with rfl | rfl | rfl | rfl <;> norm_num [abs_le]
  have hunit : ∀ t : ℝ, t = 0 ∨ t = 1 → |t * dir * (istep * (1 / 5))| ≤ 1 := by
    rintro t (rfl | rfl)
    · norm_num
    · rwa [one_mul]
  simp only [List.mem_cons, List.not_mem_nil, or_false] at haxis
  rcases haxis with rfl | rfl | rfl
  · exact ⟨hunit 1 (.inr rfl), hunit 0 (.inl rfl), hunit 0 (.inl rfl)⟩
  · exact ⟨hunit 0 (.inl rfl), hunit 1 (.inr rfl), hunit 0 (.inl rfl)⟩
  · exact ⟨hunit 0 (.inl rfl), hunit 0 (.inl rfl), hunit 1 (.inr rfl)⟩

end Bouncer.Clash
