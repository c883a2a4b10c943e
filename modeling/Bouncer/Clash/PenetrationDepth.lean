import Bouncer.Clash.DeformSearch

/-!
# What a penetration depth stands for

The value that a test of `RepoDeformDepth` ends with belongs to a configuration that it has seen
(`construct_witnessed`): the meshes are clear of each other, or one of the configurations that was tried is clear of
`b`, or the value is the length of a translation of `a` that separates the bounding boxes, found by
`minimumSeparatingAxis`.  The exception are bounding boxes that overlap by more than `FLT_MAX` on each axis.  That is
the distance which the search starts from, and there it can end with it, or with zero
(`not_witnessed_slab`).
-/

namespace Bouncer

variable {R : Type*}

/-! ### Boxes that are moved -/

namespace RepoBounds

section Field

variable [Field R]

def translate (b : RepoBounds R) (m : RepoVector3D R) : RepoBounds R := ⟨b.bmin + m, b.bmax + m⟩

variable [LinearOrder R]

def interior (b : RepoBounds R) : Set (RepoVector3D R) :=
  {p | (b.bmin.x < p.x ∧ p.x < b.bmax.x) ∧ (b.bmin.y < p.y ∧ p.y < b.bmax.y) ∧ (b.bmin.z < p.z ∧ p.z < b.bmax.z)}

/-- The bounds overlap by more than `d` on each axis: a translation by `d` along an axis does not separate them. -/
def OverlapBeyond (d : R) (a b : RepoBounds R) : Prop :=
  (d < a.bmax.x - b.bmin.x ∧ d < b.bmax.x - a.bmin.x) ∧ (d < a.bmax.y - b.bmin.y ∧ d < b.bmax.y - a.bmin.y) ∧
    (d < a.bmax.z - b.bmin.z ∧ d < b.bmax.z - a.bmin.z)

variable {a b : RepoBounds R}

omit [Field R] in
private theorem disjoint_interior (h : (a.bmax.x ≤ b.bmin.x ∨ b.bmax.x ≤ a.bmin.x) ∨
    (a.bmax.y ≤ b.bmin.y ∨ b.bmax.y ≤ a.bmin.y) ∨ (a.bmax.z ≤ b.bmin.z ∨ b.bmax.z ≤ a.bmin.z)) :
    Disjoint a.interior b.interior := by
  rw [Set.disjoint_left]
  rintro p ⟨⟨hx, hx'⟩, ⟨hy, hy'⟩, hz, hz'⟩ ⟨⟨gx, gx'⟩, ⟨gy, gy'⟩, gz, gz'⟩
  -- between two bounds the wrong way round there is no point
  have hempty : ∀ {s t r : R}, t ≤ s → s < r → r < t → False :=
    fun hts hsr hrt => lt_irrefl _ ((hsr.trans hrt).trans_le hts)
  rcases h with (h | h) | (h | h) | (h | h)
  · exact hempty h gx hx'
  · exact hempty h hx gx'
  · exact hempty h gy hy'
  · exact hempty h hy gy'
  · exact hempty h gz hz'
  · exact hempty h hz gz'

end Field

end RepoBounds

end Bouncer

namespace Bouncer.Clash

variable {R : Type*} [ExactReal R]

/-! ### The separating axis -/

/-- What the loop over the axes ends with: nothing to do, the shortest of the translations, or what it started from. -/
inductive AxisFound (axes : List (RepoVector3D R × R × R)) (d : R) (m : RepoVector3D R) : RepoVector3D R → Prop
  | apart {axis} (haxis : axis ∈ axes) (h : axis.2.1 ≤ 0 ∨ axis.2.2 ≤ 0) : AxisFound axes d m 0
  | shortest {axis r} (haxis : axis ∈ axes) (hr : r = axis.1 * -axis.2.1 ∨ r = axis.1 * axis.2.2) (hd : r.norm < d)
      (hmin : ∀ e ∈ axes, r.norm ≤ e.2.1 ∧ r.norm ≤ e.2.2) : AxisFound axes d m r
  | none (h : ∀ e ∈ axes, d ≤ e.2.1 ∧ d ≤ e.2.2) : AxisFound axes d m m

private theorem separatingAxis_found {axes : List (RepoVector3D R × R × R)} (hunit : ∀ e ∈ axes, e.1.norm = 1) (d : R)
    (m : RepoVector3D R) : AxisFound axes d m (separatingAxis axes d m) := by
  induction axes generalizing d m with
  | nil => exact .none fun _ h => absurd h List.not_mem_nil
  | cons e axes ih =>
    have ih := ih fun e he => hunit e (List.mem_cons_of_mem _ he)
    obtain ⟨axis, d1, d2⟩ := e
    rw [separatingAxis]
    by_cases h1 : d1 ≤ 0
    · rw [if_pos h1]
      exact .apart List.mem_cons_self (Or.inl h1)
    rw [if_neg h1]
    by_cases h2 : d2 ≤ 0
    · rw [if_pos h2]
      exact .apart List.mem_cons_self (Or.inr h2)
    rw [if_neg h2]
    have haxis : axis.norm = 1 := hunit _ List.mem_cons_self
    -- the translation of this axis is as long as the smaller overlap
    generalize hdv : (if d1 < d2 then axis * -d1 else axis * d2) = dv
    have hdv' : dv = axis * -d1 ∨ dv = axis * d2 := by
      rw [← hdv]
      split_ifs
      exacts [Or.inl rfl, Or.inr rfl]
    have hnorm : dv.norm = min d1 d2 := by
      rw [← hdv]
      split_ifs with h
      · rw [RepoVector3D.norm_mul, haxis, one_mul, abs_neg, abs_of_pos (not_le.1 h1), min_eq_left h.le]
      · rw [RepoVector3D.norm_mul, haxis, one_mul, abs_of_pos (not_le.1 h2), min_eq_right (not_lt.1 h)]
    have hhead : dv.norm ≤ d1 ∧ dv.norm ≤ d2 := by
      rw [hnorm]
      exact ⟨min_le_left _ _, min_le_right _ _⟩
    dsimp only
    by_cases hlt : dv.norm < d
    · rw [if_pos hlt]
      have hrest := ih dv.norm dv
      generalize separatingAxis axes dv.norm dv = r at hrest ⊢
      cases hrest with
      | apart haxis h => exact .apart (List.mem_cons_of_mem _ haxis) h
      | shortest haxis hr hd hmin =>
        refine .shortest (List.mem_cons_of_mem _ haxis) hr (hd.trans hlt) ?_
        rw [List.forall_mem_cons]
        exact ⟨⟨hd.le.trans hhead.1, hd.le.trans hhead.2⟩, hmin⟩
      | none h => exact .shortest List.mem_cons_self hdv' hlt (List.forall_mem_cons.2 ⟨hhead, h⟩)
    · rw [if_neg hlt]
      have hle : d ≤ d1 ∧ d ≤ d2 := by
        rw [hnorm, not_lt, le_min_iff] at hlt
        exact hlt
      have hrest := ih d m
      generalize separatingAxis axes d m = r at hrest ⊢
      cases hrest with
      | apart haxis h => exact .apart (List.mem_cons_of_mem _ haxis) h
      | shortest haxis hr hd hmin =>
        refine .shortest (List.mem_cons_of_mem _ haxis) hr hd ?_
        rw [List.forall_mem_cons]
        exact ⟨⟨hd.le.trans hle.1, hd.le.trans hle.2⟩, hmin⟩
      | none h => exact .none (List.forall_mem_cons.2 ⟨hle, h⟩)

/-- The axes of the world, each with the overlaps of two bounds. -/
def overlaps (a b : RepoBounds R) : List (RepoVector3D R × R × R) :=
  [(⟨1, 0, 0⟩, a.bmax.x - b.bmin.x, b.bmax.x - a.bmin.x), (⟨0, 1, 0⟩, a.bmax.y - b.bmin.y, b.bmax.y - a.bmin.y),
    (⟨0, 0, 1⟩, a.bmax.z - b.bmin.z, b.bmax.z - a.bmin.z)]

private theorem norm_overlaps (a b : RepoBounds R) : ∀ e ∈ overlaps a b, e.1.norm = 1 := by
  intro e he
  refine RepoVector3D.norm_eq_of_norm2_eq zero_le_one ?_
  simp only [overlaps, List.mem_cons, List.not_mem_nil, or_false] at he
  rcases he with rfl | rfl | rfl <;> simp [RepoVector3D.norm2]

private theorem overlapBeyond_iff {a b : RepoBounds R} {d : R} :
    RepoBounds.OverlapBeyond d a b ↔ ∀ e ∈ overlaps a b, d < e.2.1 ∧ d < e.2.2 := by
  simp [overlaps, RepoBounds.OverlapBeyond]

private theorem disjoint_of_mem_overlaps {a b : RepoBounds R} {e : RepoVector3D R × R × R} (he : e ∈ overlaps a b) :
    (e.2.1 ≤ 0 ∨ e.2.2 ≤ 0 → Disjoint (a.translate 0).interior b.interior) ∧
    Disjoint (a.translate (e.1 * -e.2.1)).interior b.interior ∧
    Disjoint (a.translate (e.1 * e.2.2)).interior b.interior := by
  simp only [overlaps, List.mem_cons, List.not_mem_nil, or_false] at he
  rcases he with rfl | rfl | rfl
  · refine ⟨fun h => RepoBounds.disjoint_interior (Or.inl ?_), RepoBounds.disjoint_interior (Or.inl (Or.inl ?_)),
      RepoBounds.disjoint_interior (Or.inl (Or.inr ?_))⟩ <;> simp [RepoBounds.translate] at *
    exact h
  · refine ⟨fun h => RepoBounds.disjoint_interior (Or.inr (Or.inl ?_)),
      RepoBounds.disjoint_interior (Or.inr (Or.inl (Or.inl ?_))),
      RepoBounds.disjoint_interior (Or.inr (Or.inl (Or.inr ?_)))⟩ <;> simp [RepoBounds.translate] at *
    exact h
  · refine ⟨fun h => RepoBounds.disjoint_interior (Or.inr (Or.inr ?_)),
      RepoBounds.disjoint_interior (Or.inr (Or.inr (Or.inl ?_))),
      RepoBounds.disjoint_interior (Or.inr (Or.inr (Or.inr ?_)))⟩ <;> simp [RepoBounds.translate] at *
    exact h

private theorem fltMax_pos : 0 < (fltMax : R) := by
  unfold fltMax
  have h : (1 : R) < 2 ^ 24 := one_lt_pow₀ one_lt_two (by norm_num)
  exact mul_pos (by linarith) (by positivity)

private theorem fltMax_lt_dblMax : (fltMax : R) < dblMax := by
  have hpow : (2 : R) ^ 104 < 2 ^ 971 := pow_lt_pow_right₀ one_lt_two (by norm_num)
  have hle : (2 : R) ^ 24 ≤ 2 ^ 53 := pow_le_pow_right₀ one_le_two (by norm_num)
  have hone : (1 : R) < 2 ^ 24 := one_lt_pow₀ one_lt_two (by norm_num)
  calc (fltMax : R) < (2 ^ 24 - 1) * 2 ^ 971 := mul_lt_mul_of_pos_left hpow (by linarith)
    _ ≤ dblMax := mul_le_mul_of_nonneg_right (by linarith) (by positivity)

/-- The distance that the search starts with is the length of a translation that takes the bounds apart, unless they
overlap by more than `FLT_MAX`. -/
private theorem startDistance_cases (a b : RepoBounds R) :
    (∃ m, min fltMax (minimumSeparatingAxis a b).norm = m.norm ∧ Disjoint (a.translate m).interior b.interior) ∨
    RepoBounds.OverlapBeyond fltMax a b ∧ (min fltMax (minimumSeparatingAxis a b).norm = fltMax ∨
      min fltMax (minimumSeparatingAxis a b).norm = 0) := by
  have hfound : AxisFound (overlaps a b) dblMax 0 (minimumSeparatingAxis a b) :=
    separatingAxis_found (norm_overlaps a b) dblMax 0
  generalize minimumSeparatingAxis a b = m at hfound ⊢
  have hzero : min fltMax (0 : RepoVector3D R).norm = 0 := by
    rw [RepoVector3D.norm_zero, min_eq_right fltMax_pos.le]
  cases hfound with
  | apart haxis h => exact Or.inl ⟨0, by rw [hzero, RepoVector3D.norm_zero], (disjoint_of_mem_overlaps haxis).1 h⟩
  | shortest haxis hr _ hmin =>
    by_cases hle : m.norm ≤ fltMax
    · refine Or.inl ⟨m, min_eq_right hle, ?_⟩
      obtain ⟨-, hleft, hright⟩ := disjoint_of_mem_overlaps haxis
      rcases hr with rfl | rfl
      exacts [hleft, hright]
    · refine Or.inr ⟨overlapBeyond_iff.2 fun e he => ?_, Or.inl (min_eq_left (not_le.1 hle).le)⟩
      exact ⟨(not_le.1 hle).trans_le (hmin e he).1, (not_le.1 hle).trans_le (hmin e he).2⟩
  | none h =>
    refine Or.inr ⟨overlapBeyond_iff.2 fun e he => ?_, Or.inr hzero⟩
    exact ⟨fltMax_lt_dblMax.trans_le (h e he).1, fltMax_lt_dblMax.trans_le (h e he).2⟩

/-! ### Configurations -/

namespace Deformable

/-- How far the vertices of a mesh are from where they were. -/
def displacements (mesh : Deformable R) : Set R :=
  {d | ∃ p ∈ mesh.vertices.zip mesh._vertices, d = (p.1 - p.2).norm}

/-- The distance of a configuration is the largest displacement of a vertex. -/
theorem isGreatest_getConfigurationDistance (mesh : Deformable R) :
    IsGreatest (insert 0 mesh.displacements) mesh.getConfigurationDistance := by
  have hrun : ∀ (pairs : List (RepoVector3D R × RepoVector3D R)) (start : R),
      IsGreatest (insert start {d | ∃ p ∈ pairs, d = (p.1 - p.2).norm})
        (pairs.foldl (fun maxDistance p => max (p.1 - p.2).norm maxDistance) start) := by
    intro pairs
    induction pairs with
    | nil =>
      intro start
      simp [IsGreatest, upperBounds]
    | cons p pairs ih =>
      intro start
      obtain ⟨hmem, hupper⟩ := ih (max (p.1 - p.2).norm start)
      rw [List.foldl_cons]
      have hmax := hupper (Set.mem_insert _ _)
      constructor
      · rcases hmem with h | ⟨q, hq, h⟩
        · rw [h]
          rcases max_choice (p.1 - p.2).norm start with hp | hstart
          · exact Or.inr ⟨p, List.mem_cons_self, hp⟩
          · exact Or.inl hstart
        · exact Or.inr ⟨q, List.mem_cons_of_mem _ hq, h⟩
      · rintro d (rfl | ⟨q, hq, rfl⟩)
        · exact (le_max_right _ _).trans hmax
        · rcases List.mem_cons.1 hq with rfl | hq
          · exact (le_max_left _ _).trans hmax
          · exact hupper (Or.inr ⟨q, hq, rfl⟩)
  exact hrun _ 0

end Deformable

namespace RepoDeformDepth

variable (geometry : Geometry R) (tolerance : R)

/-- The mesh after `n` steps of `iterate`. -/
def deflated (a : Deformable R) (n : ℕ) : Deformable R := (fun mesh => mesh.deflate (tolerance * (1 / 20)))^[n] a

/-- What a penetration depth can stand for. -/
inductive Witnessed (a : Deformable R) (b : DeformMesh R) : R → Prop
  | free (h : intersect geometry a.toDeformMesh b 0 = some false) : Witnessed a b 0
  | apart {m : RepoVector3D R} (h : Disjoint (a.bounds.translate m).interior b.bounds.interior) : Witnessed a b m.norm
  | offset {m : RepoVector3D R} (hm : m ∈ offsets tolerance)
      (h : intersect geometry a.toDeformMesh b m = some false) : Witnessed a b m.norm
  | deformed {n : ℕ} {d : R} (hn : 0 < n ∧ n < maxIterations)
      (h : intersect geometry (deflated tolerance a n).toDeformMesh b 0 = some false)
      (hd : IsGreatest (insert 0 (deflated tolerance a n).displacements) d) : Witnessed a b d

variable {geometry tolerance} {a a' : Deformable R} {b : DeformMesh R} {d d' : R}

private theorem deflated_succ (a : Deformable R) (n : ℕ) :
    deflated tolerance a (n + 1) = (deflated tolerance a n).deflate (tolerance * (1 / 20)) :=
  Function.iterate_succ_apply' _ _ _

private theorem performLocalSearch_cases {a : DeformMesh R} {offsets : List (RepoVector3D R)} {q : RepoVector3D R}
    (h : performLocalSearch geometry a b offsets = some q) :
    (q ∈ offsets ∧ intersect geometry a b q = some false) ∨ q = ⟨fltMax, fltMax, fltMax⟩ := by
  induction offsets with
  | nil =>
    cases h
    exact Or.inr rfl
  | cons pqs offsets ih =>
    obtain ⟨intersecting, hintersect, h⟩ := Option.bind_eq_some_iff.1 h
    cases intersecting with
    | true =>
      rcases ih h with ⟨hq, hclear⟩ | hq
      · exact Or.inl ⟨List.mem_cons_of_mem _ hq, hclear⟩
      · exact Or.inr hq
    | false =>
      cases h
      exact Or.inl ⟨List.mem_cons_self, hintersect⟩

private theorem fltMax_le_norm : fltMax ≤ (⟨fltMax, fltMax, fltMax⟩ : RepoVector3D R).norm := by
  have hpos := fltMax_pos (R := R)
  refine not_lt.1 fun h => ?_
  have h := (RepoVector3D.norm_lt_iff _ hpos.le).1 h
  simp only [RepoVector3D.norm2] at h
  nlinarith

/-- `iterate` keeps the distance, or ends with that of a shrunken mesh which is clear. -/
theorem iterate_cases {n k : ℕ} (h : iterate geometry tolerance b n (deflated tolerance a k) d = some (a', d')) :
    d' = d ∨ ∃ j, k ≤ j ∧ j < k + n ∧ intersect geometry (deflated tolerance a j).toDeformMesh b 0 = some false ∧
      d' = (deflated tolerance a j).getConfigurationDistance := by
  induction n generalizing k d with
  | zero =>
    cases h
    exact Or.inl rfl
  | succ n ih =>
    obtain ⟨⟨a₁, d₁, more⟩, hstep, h⟩ := Option.bind_eq_some_iff.1 h
    obtain ⟨intersecting, hintersect, hstep⟩ := Option.map_eq_some_iff.1 hstep
    cases intersecting with
    | false =>
      cases hstep
      cases h
      exact Or.inr ⟨k, le_rfl, by omega, hintersect, rfl⟩
    | true =>
      rw [if_pos rfl, ← deflated_succ] at hstep
      simp only [Prod.mk.injEq] at hstep
      obtain ⟨rfl, rfl, -⟩ := hstep
      cases more with
      | true =>
        rcases ih h with hd | ⟨j, hkj, hj, hclear, hd⟩
        · exact Or.inl hd
        · exact Or.inr ⟨j, by omega, by omega, hclear, hd⟩
      | false =>
        cases h
        exact Or.inl rfl

/-- A test ends, and its value is witnessed, unless the bounding boxes overlap by more than `FLT_MAX` on each axis. -/
theorem construct_witnessed (geometry : Geometry R) (tolerance : R) (a : Deformable R) (b : DeformMesh R)
    (ha : ∀ group ∈ a.faceGroups, ∃ n, group.bvh.WellFormed n)
    (hb : ∀ group ∈ b.faceGroups, ∃ n, group.bvh.WellFormed n) :
    ∃ a' d, construct geometry tolerance a b = some (a', d) ∧ (Witnessed geometry tolerance a b d ∨
      RepoBounds.OverlapBeyond fltMax a.bounds b.bounds ∧ (d = fltMax ∨ d = 0)) := by
  obtain ⟨⟨a', d⟩, h⟩ := exists_construct geometry tolerance hb ha
  refine ⟨a', d, h, ?_⟩
  obtain ⟨result, hsearch, h⟩ := Option.bind_eq_some_iff.1 h
  obtain ⟨intersecting, hintersect, hsearch⟩ := Option.bind_eq_some_iff.1 hsearch
  cases intersecting with
  | false =>
    cases hsearch
    cases h
    exact Or.inl (.free hintersect)
  | true =>
    rw [if_pos rfl] at hsearch
    -- the distance before the local search, and after it
    have hstart : Witnessed geometry tolerance a b (min fltMax (minimumSeparatingAxis a.bounds b.bounds).norm) ∨
        RepoBounds.OverlapBeyond fltMax a.bounds b.bounds ∧
          (min fltMax (minimumSeparatingAxis a.bounds b.bounds).norm = fltMax ∨
            min fltMax (minimumSeparatingAxis a.bounds b.bounds).norm = 0) := by
      rcases startDistance_cases a.bounds b.bounds with ⟨m, hm, hdisjoint⟩ | h
      · rw [hm]
        exact Or.inl (.apart hdisjoint)
      · exact Or.inr h
    have hle := min_le_left fltMax (minimumSeparatingAxis a.bounds b.bounds).norm
    generalize min fltMax (minimumSeparatingAxis a.bounds b.bounds).norm = d₀ at hsearch hstart hle
    dsimp only at hsearch
    split_ifs at hsearch with htolerance
    · cases hsearch
      cases h
      exact hstart
    · obtain ⟨q, hq, hresult⟩ := Option.map_eq_some_iff.1 hsearch
      have hlocal : Witnessed geometry tolerance a b (min d₀ q.norm) ∨
          RepoBounds.OverlapBeyond fltMax a.bounds b.bounds ∧ (min d₀ q.norm = fltMax ∨ min d₀ q.norm = 0) := by
        rcases min_choice d₀ q.norm with hmin | hmin
        · rw [hmin]
          exact hstart
        · rcases performLocalSearch_cases hq with ⟨hmem, hclear⟩ | hnone
          · rw [hmin]
            exact Or.inl (.offset hmem hclear)
          · have hlong : d₀ ≤ q.norm := by rw [hnone]; exact hle.trans fltMax_le_norm
            rw [min_eq_left hlong]
            exact hstart
      generalize min d₀ q.norm = d₁ at hresult hlocal
      split_ifs at hresult with htolerance
      · cases hresult
        cases h
        exact hlocal
      · cases hresult
        obtain ⟨⟨a₁, d₂⟩, hiterate, h⟩ := Option.map_eq_some_iff.1 h
        cases h
        rcases iterate_cases (k := 0) hiterate with hd | ⟨n, -, hn, hclear, hd⟩
        · rw [hd]
          exact hlocal
        · have hpos : 0 < n := by
            rcases Nat.eq_zero_or_pos n with rfl | hpos
            · exact absurd (hintersect.symm.trans hclear) (by simp)
            · exact hpos
          rw [hd]
          exact Or.inl (.deformed ⟨hpos, by omega⟩ hclear (Deformable.isGreatest_getConfigurationDistance _))

/-- The penetration depth of two triangles that cross each other. -/
theorem construct_witnessed_crossing : ∃ a' d,
    construct crossingGeometry 1 (loaded crossing.1) (loaded crossing.2).toDeformMesh = some (a', d) ∧
      (Witnessed crossingGeometry 1 (loaded crossing.1) (loaded crossing.2).toDeformMesh d ∨
        RepoBounds.OverlapBeyond fltMax (loaded crossing.1).bounds (loaded crossing.2).bounds ∧
          (d = fltMax ∨ d = 0)) := by
  have ha : (loaded crossing.1).Undeformed := undeformed_loaded rfl
  have hb : (loaded crossing.2).Undeformed := undeformed_loaded rfl
  exact construct_witnessed crossingGeometry 1 _ _ (fun group hgroup => ⟨_, ha.wellFormed group hgroup⟩)
    fun group hgroup => ⟨_, hb.wellFormed group hgroup⟩

/-! ### Offsets and deflations have their lengths -/

section Lengths

private theorem norm_of_mem_offsets {m : RepoVector3D R} (h : m ∈ offsets tolerance) :
    ∃ k ∈ [(4 : R), 3, 2, 1], m.norm = k * |tolerance / 5| := by
  simp only [offsets, List.mem_flatMap, List.mem_map] at h
  obtain ⟨k, hk, axis, haxis, dir, hdir, rfl⟩ := h
  have hpos : 0 ≤ k := by
    simp only [List.mem_cons, List.not_mem_nil, or_false] at hk
    rcases hk with rfl | rfl | rfl | rfl <;> norm_num
  have haxis' : axis.norm = 1 := by
    refine RepoVector3D.norm_eq_of_norm2_eq zero_le_one ?_
    simp only [List.mem_cons, List.not_mem_nil, or_false] at haxis
    rcases haxis with rfl | rfl | rfl <;> simp [RepoVector3D.norm2]
  have hdir' : |dir| = 1 := by
    simp only [List.mem_cons, List.not_mem_nil, or_false] at hdir
    rcases hdir with rfl | rfl <;> simp
  refine ⟨k, hk, ?_⟩
  rw [RepoVector3D.norm_mul, RepoVector3D.norm_mul, haxis', hdir', one_mul, one_mul, abs_mul, abs_of_nonneg hpos]

private theorem norm_pseudoNormals (acos : R → R) (mesh : RepoIndexedMesh R) (i : ℕ) :
    ((computePseudoNormals acos mesh).getD i 0).norm = 1 ∨ ((computePseudoNormals acos mesh).getD i 0).norm = 0 := by
  have hnormal : ∀ (xs ys : List (RepoVector3D R)) (k : ℕ)
      (hk : k < (xs.zipWith (fun pn edgeNormal => (pn.normalized + edgeNormal).normalized) ys).length), ∃ w : RepoVector3D R,
      (xs.zipWith (fun pn edgeNormal => (pn.normalized + edgeNormal).normalized) ys)[k] = w.normalized :=
    fun xs ys k hk => ⟨_, List.getElem_zipWith⟩
  by_cases hi : i < (computePseudoNormals acos mesh).length
  · obtain ⟨w, hw⟩ : ∃ w : RepoVector3D R, (computePseudoNormals acos mesh)[i] = w.normalized := hnormal _ _ i hi
    rw [List.getD_eq_getElem _ _ hi, hw]
    exact w.norm_normalized
  · rw [List.getD_eq_default _ _ (not_lt.1 hi)]
    exact Or.inr RepoVector3D.norm_zero

private theorem deflated_pseudoNormals (a : Deformable R) (n : ℕ) : (deflated tolerance a n).pseudoNormals = a.pseudoNormals := by
  induction n with
  | zero => rfl
  | succ n ih => rw [deflated_succ]; exact ih

private theorem deflated_vertices (a : Deformable R) (n : ℕ) : (deflated tolerance a n).vertices = a.vertices := by
  induction n with
  | zero => rfl
  | succ n ih => rw [deflated_succ]; exact ih

private theorem deflated_workingVertices (a : Deformable R) (n : ℕ) : (deflated tolerance a n)._vertices =
    a._vertices.mapIdx fun i v => v - a.pseudoNormals.getD i 0 * ((n : R) * (tolerance * (1 / 20))) := by
  induction n with
  | zero =>
    refine (List.ext_getElem (by simp [deflated]) fun i hi hi' => ?_)
    rw [List.getElem_mapIdx]
    show a._vertices[i] = _
    ext <;> simp <;> rfl
  | succ n ih =>
    rw [deflated_succ]
    show (deflated tolerance a n)._vertices.mapIdx (fun i v =>
      v - (deflated tolerance a n).pseudoNormals.getD i 0 * (tolerance * (1 / 20))) = _
    rw [deflated_pseudoNormals, ih, List.mapIdx_mapIdx]
    refine congrArg (fun f => a._vertices.mapIdx f) ?_
    funext i v
    ext <;> simp <;> ring

private theorem displacements_deflated (acos : R → R) (mesh : DeformMesh R) (hmesh : mesh._vertices = mesh.vertices) (n : ℕ) :
    ∀ d ∈ (deflated tolerance (.ofMesh acos mesh) n).displacements, d = 0 ∨ d = |(n : R) * (tolerance * (1 / 20))| := by
  rintro d ⟨p, hp, rfl⟩
  rw [deflated_vertices, deflated_workingVertices] at hp
  obtain ⟨i, hi, rfl⟩ := List.mem_iff_getElem.1 hp
  rw [List.getElem_zip, List.getElem_mapIdx]
  have hvertex : (Deformable.ofMesh acos mesh)._vertices = (Deformable.ofMesh acos mesh).vertices := hmesh
  have hsub : ∀ v n : RepoVector3D R, v - (v - n) = n := by
    intro v n
    ext <;> simp
  simp only [hvertex, hsub, RepoVector3D.norm_mul]
  rcases norm_pseudoNormals acos mesh.toRepoIndexedMesh i with h | h
  · right
    exact (congrArg (· * _) h).trans (one_mul _)
  · left
    exact (congrArg (· * _) h).trans (zero_mul _)

end Lengths

/-! ### Boxes that are too large -/

section Slab

/-- The side of the box. -/
noncomputable def slabSide : ℝ := 2 * fltMax

/-- A triangle across a box with sides of twice `FLT_MAX`. -/
noncomputable def slab : DeformMesh ℝ where
  vertices := [⟨0, 0, 0⟩, ⟨slabSide, slabSide, 0⟩, ⟨0, slabSide, slabSide⟩]
  faces := [.triangle 0 1 2]
  _vertices := [⟨0, 0, 0⟩, ⟨slabSide, slabSide, 0⟩, ⟨0, slabSide, slabSide⟩]
  faceGroups := [⟨⟨0, 1, false, [0, 1, 2]⟩, oneBox ![0, slabSide, 0, slabSide, 0, slabSide] 0⟩]

/-- A triangle meets itself in its first corner. -/
noncomputable def selfGeometry : Geometry ℝ where
  closestPoints A B := ⟨⟨A.a, B.a⟩, true⟩
  contains _ _ _ _ _ := false
  orderVertices _ indices := indices

private theorem slabSide_pos : 0 < slabSide := mul_pos two_pos fltMax_pos

private theorem slabSide_lt_dblMax : slabSide < dblMax := by
  have hpow : (2 : ℝ) ^ 105 ≤ 2 ^ 971 := pow_le_pow_right₀ one_le_two (by norm_num)
  calc slabSide = (2 ^ 24 - 1) * 2 ^ 105 := by unfold slabSide fltMax; ring
    _ ≤ (2 ^ 24 - 1) * 2 ^ 971 := mul_le_mul_of_nonneg_left hpow (by norm_num)
    _ < dblMax := mul_lt_mul_of_pos_right (by norm_num) (by positivity)

private theorem bounds_slab : slab.bounds = ⟨⟨0, 0, 0⟩, ⟨slabSide, slabSide, slabSide⟩⟩ := by
  have hpos := slabSide_pos
  have hlt := slabSide_lt_dblMax
  have hcube : RepoBounds.ofMinMax ⟨0, 0, 0⟩ ⟨slabSide, slabSide, slabSide⟩ =
      ⟨⟨0, 0, 0⟩, ⟨slabSide, slabSide, slabSide⟩⟩ := RepoBounds.ofMinMax_cube (by linarith) hpos.le hlt.le
  have hgroup : Faces.getBounds ⟨⟨0, 1, false, [0, 1, 2]⟩, oneBox ![0, slabSide, 0, slabSide, 0, slabSide] 0⟩ =
      ⟨⟨0, 0, 0⟩, ⟨slabSide, slabSide, slabSide⟩⟩ := hcube
  show RepoBounds.encapsulateBounds .empty (Faces.getBounds _) = _
  rw [hgroup]
  have hmin : min dblMax (0 : ℝ) = 0 := min_eq_right (hpos.trans hlt).le
  have hmax : max (-dblMax) slabSide = slabSide := max_eq_right (by linarith)
  simp only [RepoBounds.encapsulateBounds, RepoBounds.empty, RepoVector3D.min, RepoVector3D.max, hmin, hmax]

/-- The triangle intersects itself. -/
theorem intersect_slab : intersect selfGeometry slab slab 0 = some true := by
  have htree : (oneBox ![0, slabSide, 0, slabSide, 0, slabSide] 0).IsTree 1 (Bvh.chainTree 0 0) :=
    Bvh.chain_isTree _ _ 0
  have hcontacts : Predicates.contacts
      (((oneBox ![0, slabSide, 0, slabSide, 0, slabSide] 0).nodes 0).addOffset 0)
      ((oneBox ![0, slabSide, 0, slabSide, 0, slabSide] 0).nodes 0) = true := by
    have hpos := slabSide_pos
    rw [BvhNode.addOffset_zero]
    simp [Predicates.contacts, oneBox, Bvh.chain, Predicates.magicEpsilon, hpos.le]
    nlinarith
  have hgroups : intersectGroups selfGeometry slab slab 0
      ⟨⟨0, 1, false, [0, 1, 2]⟩, oneBox ![0, slabSide, 0, slabSide, 0, slabSide] 0⟩
      ⟨⟨0, 1, false, [0, 1, 2]⟩, oneBox ![0, slabSide, 0, slabSide, 0, slabSide] 0⟩ = some true := by
    have hreached : (0, 0) ∈ Traversal.reached (oneBox ![0, slabSide, 0, slabSide, 0, slabSide] 0)
        (oneBox ![0, slabSide, 0, slabSide, 0, slabSide] 0) (fun x y => Predicates.contacts (x.addOffset 0) y)
        (Bvh.chainTree 0 0) (Bvh.chainTree 0 0) := by
      unfold Traversal.reached Bvh.chainTree
      rw [Library.FullTree.crossList_leaf_leaf (by exact hcontacts)]
      exact List.mem_singleton_self _
    rw [intersectGroups_eq htree htree, List.any_eq_true.2 ⟨_, hreached, rfl⟩]
  have htouching : touching selfGeometry slab slab 0 = some true := by
    show intersectAny _ _ _ _ [(_, _)] = _
    rw [intersectAny, hgroups]
    rfl
  rw [intersect, htouching]
  rfl

private theorem minimumSeparatingAxis_slab : minimumSeparatingAxis slab.bounds slab.bounds = ⟨slabSide, 0, 0⟩ := by
  have hpos := slabSide_pos
  have hlt := slabSide_lt_dblMax
  have hnorm : (⟨slabSide, 0, 0⟩ : RepoVector3D ℝ).norm = slabSide :=
    RepoVector3D.norm_eq_of_norm2_eq hpos.le (by simp [RepoVector3D.norm2])
  have haxis : ∀ v : RepoVector3D ℝ, v.norm = 1 → (v * slabSide).norm = slabSide := by
    intro v hv
    rw [RepoVector3D.norm_mul, hv, one_mul, abs_of_pos hpos]
  have hunit := norm_overlaps slab.bounds slab.bounds
  simp only [overlaps, List.mem_cons, List.not_mem_nil, or_false, forall_eq_or_imp, forall_eq] at hunit
  obtain ⟨hx, hy, hz⟩ := hunit
  rw [bounds_slab, minimumSeparatingAxis]
  simp only [separatingAxis, sub_zero, not_le.2 hpos, lt_irrefl, if_false, haxis _ hx, haxis _ hy, haxis _ hz, hlt,
    if_true]
  ext <;> simp

private theorem not_disjoint_slab {m : RepoVector3D ℝ} (h : m.norm < slabSide) :
    ¬ Disjoint (slab.bounds.translate m).interior slab.bounds.interior := by
  have habs : ∀ t : ℝ, t * t ≤ m.norm2 → -slabSide < t ∧ t < slabSide := by
    intro t ht
    have h := (RepoVector3D.norm_lt_iff _ slabSide_pos.le).1 h
    exact abs_lt.1 (abs_lt_of_sq_lt_sq (by nlinarith) slabSide_pos.le)
  have hx := habs m.x (by unfold RepoVector3D.norm2; nlinarith [mul_self_nonneg m.y, mul_self_nonneg m.z])
  have hy := habs m.y (by unfold RepoVector3D.norm2; nlinarith [mul_self_nonneg m.x, mul_self_nonneg m.z])
  have hz := habs m.z (by unfold RepoVector3D.norm2; nlinarith [mul_self_nonneg m.x, mul_self_nonneg m.y])
  rw [Set.not_disjoint_iff, bounds_slab]
  -- the middle of the overlap
  refine ⟨⟨(slabSide + m.x) / 2, (slabSide + m.y) / 2, (slabSide + m.z) / 2⟩, ?_, ?_⟩ <;>
    refine ⟨⟨?_, ?_⟩, ⟨?_, ?_⟩, ?_, ?_⟩ <;> simp [RepoBounds.translate] <;> linarith

/-- The depth of a triangle of that size in itself is `FLT_MAX`, which nothing has as its length. -/
theorem not_witnessed_slab :
    construct selfGeometry (7 / 3 * fltMax) (.ofMesh (fun _ => 1) slab) slab =
      some (.ofMesh (fun _ => 1) slab, fltMax) ∧
    ¬ Witnessed selfGeometry (7 / 3 * fltMax) (.ofMesh (fun _ => 1) slab) slab fltMax := by
  have hpos := fltMax_pos (R := ℝ)
  have hside : slabSide = 2 * fltMax := rfl
  constructor
  · have hnorm : (⟨slabSide, 0, 0⟩ : RepoVector3D ℝ).norm = slabSide :=
      RepoVector3D.norm_eq_of_norm2_eq slabSide_pos.le (by simp [RepoVector3D.norm2])
    have hdistance : min fltMax (minimumSeparatingAxis slab.bounds slab.bounds).norm = fltMax := by
      rw [minimumSeparatingAxis_slab, hnorm, hside]
      exact min_eq_left (by linarith)
    have hsearch : search selfGeometry (7 / 3 * fltMax) slab slab = some (.finished fltMax) := by
      rw [search, intersect_slab, Option.bind_some, if_pos rfl]
      dsimp only
      rw [hdistance, if_pos (by linarith)]
    show (search selfGeometry (7 / 3 * fltMax) slab slab).bind _ = _
    rw [hsearch]
    rfl
  · intro hwitnessed
    generalize hd : (fltMax : ℝ) = d at hwitnessed
    cases hwitnessed with
    | free => exact hpos.ne' hd
    | apart h => exact not_disjoint_slab (by rw [← hd, hside]; linarith) h
    | offset hm _ =>
      obtain ⟨k, hk, hnorm⟩ := norm_of_mem_offsets hm
      rw [← hd, abs_of_pos (by positivity)] at hnorm
      simp only [List.mem_cons, List.not_mem_nil, or_false] at hk
      rcases hk with rfl | rfl | rfl | rfl <;> linarith
    | @deformed n _ _ _ hgreatest =>
      rcases hgreatest.1 with hzero | hmem
      · exact hpos.ne' (hd.trans hzero)
      · rcases displacements_deflated _ slab rfl n _ hmem with hzero | hsteps
        · exact hpos.ne' (hd.trans hzero)
        · rw [← hd, abs_of_nonneg (by positivity)] at hsteps
          have hcast : (n : ℝ) * 7 = 60 := by
            have h : ((n : ℝ) * 7 - 60) * fltMax = 0 := by linarith
            have := (mul_eq_zero.1 h).resolve_right hpos.ne'
            linarith
          have hnat : n * 7 = 60 := by exact_mod_cast hcast
          omega

end Slab

end RepoDeformDepth

end Bouncer.Clash
