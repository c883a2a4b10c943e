import Bouncer.Multipart.Assembly

/-!
# The bounds of a supermesh

`transformBounds` transforms two corners of the stored bounds, not all eight, and takes the bounds of these two.  The
bounds that a mapping gets this way enclose a vertex of the mesh exactly when the image of the vertex lies between the
images of the two corners (`boundsEnclose_iff`).  They enclose whatever was in the stored bounds exactly when, in each
row of the transform, the entries have the same sign on all sides of the bounds that are not of length zero.
-/

namespace Bouncer.MultipartOptimizer

section Row

variable {R : Type} [Field R] [LinearOrder R] [IsStrictOrderedRing R]

/-- A coordinate of the image of a point, for a row of the matrix. -/
def coordinate (row : Fin 4 → R) (v : RepoVector3D R) : R := row 0 * v.x + row 1 * v.y + row 2 * v.z + row 3

/-- No two sides of the bounds change the coordinate in opposite directions. -/
def SignsAgree (row : Fin 4 → R) (size : RepoVector3D R) : Prop :=
  (0 ≤ row 0 * size.x ∧ 0 ≤ row 1 * size.y ∧ 0 ≤ row 2 * size.z) ∨
    (row 0 * size.x ≤ 0 ∧ row 1 * size.y ≤ 0 ∧ row 2 * size.z ≤ 0)

private theorem mul_between {w lo hi x : R} (hx : lo ≤ x ∧ x ≤ hi) (h : 0 ≤ w * (hi - lo)) :
    0 ≤ w * (x - lo) ∧ w * (x - lo) ≤ w * (hi - lo) := by
  obtain ⟨hlo, hhi⟩ := hx
  rcases le_or_gt 0 w with hw | hw
  · have hstep : 0 ≤ w * (x - lo) := mul_nonneg hw (by linarith)
    have hrest : 0 ≤ w * (hi - x) := mul_nonneg hw (by linarith)
    exact ⟨hstep, by linarith⟩
  · -- the side has length zero
    have hle : hi - lo ≤ 0 := by
      by_contra hpos
      have := mul_neg_of_neg_of_pos hw (not_le.1 hpos)
      linarith
    obtain rfl : x = lo := by linarith
    obtain rfl : hi = x := by linarith
    simp

private theorem coordinate_mem_uIcc_iff {row : Fin 4 → R} {bounds : RepoBounds R} (hbounds : bounds.Contains bounds.bmin) :
    (∀ v, bounds.Contains v → coordinate row v ∈ Set.uIcc (coordinate row bounds.bmin) (coordinate row bounds.bmax)) ↔
      SignsAgree row bounds.size := by
  obtain ⟨lo, hi⟩ := bounds
  obtain ⟨⟨-, hx⟩, ⟨-, hy⟩, ⟨-, hz⟩⟩ := hbounds
  simp only [RepoBounds.size, SignsAgree, RepoVector3D.sub_x, RepoVector3D.sub_y, RepoVector3D.sub_z] at *
  constructor
  · intro h
    -- three corners, each one side away from the first
    have h1 := h ⟨hi.x, lo.y, lo.z⟩ ⟨⟨hx, le_rfl⟩, ⟨le_rfl, hy⟩, ⟨le_rfl, hz⟩⟩
    have h2 := h ⟨lo.x, hi.y, lo.z⟩ ⟨⟨le_rfl, hx⟩, ⟨hy, le_rfl⟩, ⟨le_rfl, hz⟩⟩
    have h3 := h ⟨lo.x, lo.y, hi.z⟩ ⟨⟨le_rfl, hx⟩, ⟨le_rfl, hy⟩, ⟨hz, le_rfl⟩⟩
    simp only [Set.mem_uIcc, coordinate] at h1 h2 h3
    simp only [mul_sub]
    rcases h1 with h1 | h1 <;> rcases h2 with h2 | h2 <;> rcases h3 with h3 | h3
    all_goals first
      | exact .inl ⟨by linarith, by linarith, by linarith⟩
      | exact .inr ⟨by linarith, by linarith, by linarith⟩
  · intro h v hv
    obtain ⟨hvx, hvy, hvz⟩ := hv
    simp only [Set.mem_uIcc, coordinate]
    rcases h with ⟨h1, h2, h3⟩ | ⟨h1, h2, h3⟩
    · have h1 := mul_between hvx h1
      have h2 := mul_between hvy h2
      have h3 := mul_between hvz h3
      simp only [mul_sub] at h1 h2 h3
      exact .inl ⟨by linarith, by linarith⟩
    · have h1 := mul_between (w := -row 0) hvx (by linarith)
      have h2 := mul_between (w := -row 1) hvy (by linarith)
      have h3 := mul_between (w := -row 2) hvz (by linarith)
      simp only [mul_sub, neg_mul] at h1 h2 h3
      exact .inr ⟨by linarith, by linarith⟩

end Row

variable {U M R : Type} [ExactReal R]

/-- No coordinate is beyond the range of a `double`. -/
def Representable (v : RepoVector3D R) : Prop := |v.x| ≤ dblMax ∧ |v.y| ≤ dblMax ∧ |v.z| ≤ dblMax

/-- The image of the point lies between those of the two corners that `transformBounds` transforms. -/
def BetweenCorners (transform : RepoMatrix R) (bounds : RepoBounds R) (v : RepoVector3D R) : Prop :=
  (transform.image v).x ∈ Set.uIcc (transform.image bounds.bmin).x (transform.image bounds.bmax).x ∧
    (transform.image v).y ∈ Set.uIcc (transform.image bounds.bmin).y (transform.image bounds.bmax).y ∧
    (transform.image v).z ∈ Set.uIcc (transform.image bounds.bmin).z (transform.image bounds.bmax).z

private theorem clamp_iff {a b x : R} (ha : |a| ≤ dblMax) :
    min (min dblMax a) b ≤ x ∧ x ≤ max (max (-dblMax) a) b ↔ x ∈ Set.uIcc a b := by
  obtain ⟨hlo, hhi⟩ := abs_le.1 ha
  rw [min_eq_right hhi, max_eq_right hlo]
  exact Iff.rfl

private theorem contains_ofMinMax_iff {p q v : RepoVector3D R} (hp : Representable p) :
    (RepoBounds.ofMinMax p q).Contains v ↔ v.x ∈ Set.uIcc p.x q.x ∧ v.y ∈ Set.uIcc p.y q.y ∧ v.z ∈ Set.uIcc p.z q.z :=
  and_congr (clamp_iff hp.1) (and_congr (clamp_iff hp.2.1) (clamp_iff hp.2.2))

private theorem forall_betweenCorners_iff {transform : RepoMatrix R} {bounds : RepoBounds R}
    (hbounds : bounds.Contains bounds.bmin) :
    (∀ v, bounds.Contains v → BetweenCorners transform bounds v) ↔
      SignsAgree (transform 0) bounds.size ∧ SignsAgree (transform 1) bounds.size ∧
        SignsAgree (transform 2) bounds.size := by
  rw [← coordinate_mem_uIcc_iff hbounds, ← coordinate_mem_uIcc_iff hbounds, ← coordinate_mem_uIcc_iff hbounds]
  constructor
  · intro h
    exact ⟨fun v hv => (h v hv).1, fun v hv => (h v hv).2.1, fun v hv => (h v hv).2.2⟩
  · intro ⟨h0, h1, h2⟩ v hv
    exact ⟨h0 v hv, h1 v hv, h2 v hv⟩

/-- The bounds of the mapping and those of the supermesh enclose the vertices in the range of the mapping. -/
def SupermeshNode.BoundsEnclose (supermesh : SupermeshNode U M R) (mapping : RepoMeshMapping U M R) : Prop :=
  ∀ i, mapping.vertFrom ≤ i → i < mapping.vertTo → ∀ v, supermesh.vertices[i]? = some v →
    (⟨mapping.min, mapping.max⟩ : RepoBounds R).Contains v ∧ supermesh.boundingBox.Contains v

private theorem contains_of_corners {box bounds : RepoBounds R} {v : RepoVector3D R} (hmin : box.Contains bounds.bmin)
    (hmax : box.Contains bounds.bmax) (h : bounds.Contains v) : box.Contains v :=
  ⟨⟨hmin.1.1.trans h.1.1, h.1.2.trans hmax.1.2⟩, ⟨hmin.2.1.1.trans h.2.1.1, h.2.1.2.trans hmax.2.1.2⟩,
    ⟨hmin.2.2.1.trans h.2.2.1, h.2.2.2.trans hmax.2.2.2⟩⟩

/-- It is enough to look at the bounds of the mesh. -/
theorem SupermeshNode.Assembles.encloses_iff {supermesh : SupermeshNode U M R}
    {meshes : List (SceneMeshNode U R × SupermeshingData U R)} (h : supermesh.Assembles meshes)
    {mapping : RepoMeshMapping U M R} (hmapping : mapping ∈ supermesh.meshMapping)
    {mesh : SceneMeshNode U R × SupermeshingData U R}
    (hholds : Holds supermesh.buffers supermesh.faces mesh mapping) :
    supermesh.BoundsEnclose mapping ↔ ∀ v ∈ mesh.2.vertices, mesh.1.bounds.Contains v := by
  have hbounds : (⟨mapping.min, mapping.max⟩ : RepoBounds R) = mesh.1.bounds := by rw [hholds.min, hholds.max]
  have hvertex : ∀ i < mesh.2.vertices.length, supermesh.vertices[mapping.vertFrom + i]? = mesh.2.vertices[i]? :=
    fun i hi => congrArg Prod.fst (hholds.vertex i hi)
  unfold SupermeshNode.BoundsEnclose
  rw [hbounds, hholds.vertTo]
  constructor
  · intro henclose v hv
    obtain ⟨i, hi, rfl⟩ := List.mem_iff_getElem.1 hv
    refine (henclose (mapping.vertFrom + i) (Nat.le_add_right _ _) (by omega) _ ?_).1
    rw [hvertex i hi, List.getElem?_eq_getElem hi]
  · intro hcontains i hfrom hto v hv
    obtain ⟨j, rfl⟩ := Nat.exists_eq_add_of_le hfrom
    rw [hvertex j (by omega)] at hv
    have hv := hcontains v (List.mem_of_getElem? hv)
    obtain ⟨hmin, hmax⟩ := h.boundingBox mapping hmapping
    rw [hholds.min] at hmin
    rw [hholds.max] at hmax
    exact ⟨hv, contains_of_corners hmin hmax hv⟩

private theorem prepareNode_bounds {transformMap : U → Option (RepoMatrix R)} {stored node : SceneMeshNode U R}
    {transform : RepoMatrix R} (htransform : transformMap stored.parent = some transform) (haffine : transform.Affine)
    (h : prepareNode transformMap stored = .ok node) :
    node.parent = stored.parent ∧
      node.bounds = .ofMinMax (transform.image stored.bounds.bmin) (transform.image stored.bounds.bmax) := by
  unfold prepareNode transformBounds at h
  simp only [htransform, haffine.mulVector, orFail, bind, Except.bind, pure, Except.pure] at h
  obtain rfl := Except.ok.inj h
  exact ⟨rfl, rfl⟩

section Run

variable [DecidableEq U] [Inhabited U] {context : ClusterContext U M R} {cluster : List ℕ}
  {binNodes : List (MeshDocument U R)} {hasNormals : Bool} {n : ℕ} {progress : Progress U M R}
  {supermesh : SupermeshNode U M R} {mapping : RepoMeshMapping U M R} {document : MeshDocument U R}
  {stored node : SceneMeshNode U R} {transform : RepoMatrix R}

variable (hdelivers : context.Delivers cluster binNodes hasNormals n)
  (hrun : context.createSuperMeshes cluster binNodes = .ok progress) (hsupermesh : supermesh ∈ progress.exported)
  (hmapping : mapping ∈ supermesh.meshMapping) (hdocument : document ∈ binNodes)
  (hid : document.sharedId = mapping.sharedId) (hnode : node ∈ context.nodes cluster)
  (hid' : node.sharedId = mapping.sharedId) (hstored : prepareNode context.transformMap stored = .ok node)
  (htransform : context.transformMap stored.parent = some transform) (haffine : transform.Affine)

include hdelivers hrun hsupermesh hmapping hdocument hid hnode hid' hstored htransform haffine

private theorem boundsEnclose_iff_betweenCorners (hmin : Representable (transform.image stored.bounds.bmin)) :
    supermesh.BoundsEnclose mapping ↔ ∀ v ∈ document.data.vertices, BetweenCorners transform stored.bounds v := by
  obtain ⟨loaded, progress', groups, hload, -, hrun', haccounts⟩ :=
    hdelivers.createSuperMeshes fun document hd => context.load_of_createSuperMeshes hrun hd
  obtain rfl : progress = progress' := Except.ok.inj (hrun.symm.trans hrun')
  obtain ⟨mesh, hmesh, meshes, hassembles, hholds⟩ := haccounts.exists_mesh hsupermesh hmapping
  have hshared : mapping.sharedId = mesh.1.sharedId := hholds.sharedId
  obtain ⟨rfl, hbakes⟩ := hdelivers.load_eq hload hmesh hnode (hid'.trans hshared) hdocument (hid.trans hshared)
  obtain ⟨hparent, hbounds⟩ := prepareNode_bounds htransform haffine hstored
  obtain ⟨transform', htransform', hvertices, -⟩ := hbakes.baked
  obtain rfl : transform = transform' := Option.some.inj (htransform.symm.trans (hparent ▸ htransform'))
  rw [hassembles.encloses_iff hmapping hholds, hvertices, hbounds, List.forall_mem_map]
  exact forall₂_congr fun v _ => contains_ofMinMax_iff hmin

/-- A mapping and its supermesh enclose the transformed vertices of a mesh that lies in its stored bounds exactly when
these lie between the two corners that were transformed.  That is the case for all meshes in these bounds exactly when
the signs in the rows of the transform agree. -/
theorem boundsEnclose_iff (hbox : ∀ v ∈ document.data.vertices, stored.bounds.Contains v)
    (hmin : Representable (transform.image stored.bounds.bmin)) :
    (supermesh.BoundsEnclose mapping ↔ ∀ v ∈ document.data.vertices, BetweenCorners transform stored.bounds v) ∧
      ((∀ v, stored.bounds.Contains v → BetweenCorners transform stored.bounds v) ↔
        SignsAgree (transform 0) stored.bounds.size ∧ SignsAgree (transform 1) stored.bounds.size ∧
          SignsAgree (transform 2) stored.bounds.size) := by
  obtain ⟨v, hv⟩ := List.exists_mem_of_ne_nil _ (hdelivers.wellFormed document hdocument).vertices
  obtain ⟨⟨hx, hx'⟩, ⟨hy, hy'⟩, ⟨hz, hz'⟩⟩ := hbox v hv
  have hcorner : stored.bounds.Contains stored.bounds.bmin :=
    ⟨⟨le_rfl, hx.trans hx'⟩, ⟨le_rfl, hy.trans hy'⟩, ⟨le_rfl, hz.trans hz'⟩⟩
  exact ⟨boundsEnclose_iff_betweenCorners hdelivers hrun hsupermesh hmapping hdocument hid hnode hid' hstored
    htransform haffine hmin, forall_betweenCorners_iff hcorner⟩

end Run

/-! ### A triangle that is turned -/

/-- A rotation about the z axis. -/
noncomputable def turn : RepoMatrix ℝ :=
  Matrix.of ![![3 / 5, -4 / 5, 0, 0], ![4 / 5, 3 / 5, 0, 0], ![0, 0, 1, 0], ![0, 0, 0, 1]]

/-- A triangle that fills one half of the unit square, which is its stored bounds. -/
def halfSquare : MeshDocument ℕ ℝ :=
  ⟨4, ⟨0, [⟨0, 0, 0⟩, ⟨1, 0, 0⟩, ⟨0, 1, 0⟩], [RepoFace.triangle 0 1 2], [], []⟩⟩

def storedHalfSquare : SceneMeshNode ℕ ℝ := ⟨⟨3, ⟨⟨0, 0, 0⟩, ⟨1, 1, 0⟩⟩⟩, 4, 7⟩

noncomputable def turnedHalfSquare : SceneMeshNode ℕ ℝ :=
  { storedHalfSquare with bounds := .ofMinMax (turn.image ⟨0, 0, 0⟩) (turn.image ⟨1, 1, 0⟩) }

noncomputable def turnedContext : ClusterContext ℕ Unit ℝ :=
  ⟨fun _ => some turn, fun _ => some ⟨9, ()⟩, [turnedHalfSquare], 0, "", RepoMatrix.worldMat⟩

private theorem affine_turn : turn.Affine := ⟨rfl, rfl, rfl, rfl⟩

private theorem prepareNode_halfSquare :
    prepareNode turnedContext.transformMap storedHalfSquare = .ok turnedHalfSquare := by
  unfold prepareNode transformBounds
  simp only [turnedContext, orFail, bind, Except.bind, affine_turn.mulVector]
  rfl

private theorem delivers_halfSquare : turnedContext.Delivers [0] [halfSquare] false 0 where
  wellFormed := by
    intro document hd
    obtain rfl := List.mem_singleton.1 hd
    exact ⟨List.cons_ne_nil _ _, List.cons_ne_nil _ _, ⟨rfl, rfl, fun _ h => absurd h List.not_mem_nil⟩, by decide⟩
  nodup := List.nodup_singleton _
  delivered := .refl _
  transforms := fun _ _ => rfl
  materials := fun _ _ => rfl

private theorem contains_halfSquare : ∀ v ∈ halfSquare.data.vertices, storedHalfSquare.bounds.Contains v := by
  intro v hv
  simp only [halfSquare, List.mem_cons, List.not_mem_nil, or_false] at hv
  rcases hv with rfl | rfl | rfl <;> norm_num [RepoBounds.Contains, storedHalfSquare]

private theorem image_turn (v : RepoVector3D ℝ) :
    turn.image v = ⟨3 / 5 * v.x + -4 / 5 * v.y + 0 * v.z + 0, 4 / 5 * v.x + 3 / 5 * v.y + 0 * v.z + 0,
      0 * v.x + 0 * v.y + 1 * v.z + 0⟩ := rfl

private theorem representable_turn : Representable (turn.image storedHalfSquare.bounds.bmin) := by
  have hpos := (RepoLine.dblMax_pos : 0 < (dblMax : ℝ)).le
  have himage : turn.image storedHalfSquare.bounds.bmin = ⟨0, 0, 0⟩ := by
    rw [image_turn]
    ext <;> norm_num [storedHalfSquare]
  rw [himage]
  exact ⟨by rwa [abs_zero], by rwa [abs_zero], by rwa [abs_zero]⟩

private theorem exists_mapping_halfSquare :
    ∃ progress, turnedContext.createSuperMeshes [0] [halfSquare] = .ok progress ∧
      ∃ supermesh ∈ progress.exported, ∃ mapping ∈ supermesh.meshMapping, mapping.sharedId = 4 := by
  have hload : turnedContext.load [0] halfSquare =
      .ok (turnedHalfSquare, { halfSquare.data with vertices := halfSquare.data.vertices.map turn.image }) := by
    change ((halfSquare.loadSupermeshingData true).bakeMeshes turn turn.worldMat).bind _ = _
    rw [bakeMeshes_eq (List.cons_ne_nil _ _), if_neg (not_or.2 ⟨affine_turn.not_exits, fun h => h.2 rfl⟩)]
    rfl
  obtain ⟨progress, hrun, supermesh, hsupermesh, mapping, hmapping, hholds⟩ :=
    delivers_halfSquare.exists_mapping hload (by decide)
  exact ⟨progress, hrun, supermesh, hsupermesh, mapping, hmapping, hholds.sharedId⟩

/-- The corner `(1, 0, 0)` is turned out of the bounds of its mapping. -/
theorem not_boundsEnclose_halfSquare :
    turn.Affine ∧ (∀ v ∈ halfSquare.data.vertices, storedHalfSquare.bounds.Contains v) ∧
      turnedContext.transformMap storedHalfSquare.parent = some turn ∧
      prepareNode turnedContext.transformMap storedHalfSquare = .ok turnedHalfSquare ∧
      ∃ progress, turnedContext.createSuperMeshes [0] [halfSquare] = .ok progress ∧
        ∃ supermesh ∈ progress.exported, ∃ mapping ∈ supermesh.meshMapping,
          mapping.sharedId = halfSquare.sharedId ∧ ¬ supermesh.BoundsEnclose mapping := by
  obtain ⟨progress, hrun, supermesh, hsupermesh, mapping, hmapping, hid⟩ := exists_mapping_halfSquare
  refine ⟨affine_turn, contains_halfSquare, rfl, prepareNode_halfSquare, progress, hrun, supermesh, hsupermesh, mapping,
    hmapping, hid, fun henclose => ?_⟩
  have hbetween := (boundsEnclose_iff_betweenCorners delivers_halfSquare hrun hsupermesh hmapping
    (List.mem_singleton.2 rfl) hid.symm (List.mem_singleton.2 rfl) hid.symm prepareNode_halfSquare rfl affine_turn
    representable_turn).1 henclose ⟨1, 0, 0⟩ (List.mem_cons_of_mem _ List.mem_cons_self)
  have hx := hbetween.1
  rw [image_turn, image_turn, image_turn, Set.mem_uIcc] at hx
  norm_num [storedHalfSquare] at hx

/-- The same run. -/
theorem boundsEnclose_iff_halfSquare :
    ∃ supermesh : SupermeshNode ℕ Unit ℝ, ∃ mapping ∈ supermesh.meshMapping,
      (supermesh.BoundsEnclose mapping ↔
        ∀ v ∈ halfSquare.data.vertices, BetweenCorners turn storedHalfSquare.bounds v) ∧
      ((∀ v, storedHalfSquare.bounds.Contains v → BetweenCorners turn storedHalfSquare.bounds v) ↔
        SignsAgree (turn 0) storedHalfSquare.bounds.size ∧ SignsAgree (turn 1) storedHalfSquare.bounds.size ∧
          SignsAgree (turn 2) storedHalfSquare.bounds.size) := by
  obtain ⟨progress, hrun, supermesh, hsupermesh, mapping, hmapping, hid⟩ := exists_mapping_halfSquare
  exact ⟨supermesh, mapping, hmapping, boundsEnclose_iff delivers_halfSquare hrun hsupermesh hmapping
    (List.mem_singleton.2 rfl) hid.symm (List.mem_singleton.2 rfl) hid.symm prepareNode_halfSquare rfl affine_turn
    contains_halfSquare representable_turn⟩

end Bouncer.MultipartOptimizer
