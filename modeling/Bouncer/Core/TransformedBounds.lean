import Bouncer.Multipart.SupermeshBounds
import Mathlib.Tactic.LinearCombination

/-!
# Transformed bounds

Bounds are transformed in two ways.  `transformBoundingBox` transforms all eight corners; `operator*` transforms the
centre, and adds the extents with the absolute values of the matrix.  A coordinate of the image takes its least and its
greatest value on the bounds at corners, which the signs of the row say, so both give the same bounds
(`transformBoundingBox_eq_mulBounds`).
-/

namespace Bouncer

open MultipartOptimizer (coordinate)

variable {R : Type} [Field R] [LinearOrder R]

variable {p : RepoVector3D R}

namespace RepoBounds

/-- The corners, in the order in which `transformBoundingBox` goes through them. -/
def corners (bounds : RepoBounds R) : List (RepoVector3D R) :=
  [⟨bounds.bmin.x, bounds.bmin.y, bounds.bmin.z⟩, ⟨bounds.bmin.x, bounds.bmin.y, bounds.bmax.z⟩,
    ⟨bounds.bmin.x, bounds.bmax.y, bounds.bmin.z⟩, ⟨bounds.bmin.x, bounds.bmax.y, bounds.bmax.z⟩,
    ⟨bounds.bmax.x, bounds.bmin.y, bounds.bmin.z⟩, ⟨bounds.bmax.x, bounds.bmin.y, bounds.bmax.z⟩,
    ⟨bounds.bmax.x, bounds.bmax.y, bounds.bmin.z⟩, ⟨bounds.bmax.x, bounds.bmax.y, bounds.bmax.z⟩]

/-- The first corner is at most the second, on each axis. -/
def Ordered (bounds : RepoBounds R) : Prop :=
  bounds.bmin.x ≤ bounds.bmax.x ∧ bounds.bmin.y ≤ bounds.bmax.y ∧ bounds.bmin.z ≤ bounds.bmax.z

omit [Field R] [LinearOrder R] in
private theorem mem_corners_iff {bounds : RepoBounds R} :
    p ∈ bounds.corners ↔ (p.x = bounds.bmin.x ∨ p.x = bounds.bmax.x) ∧ (p.y = bounds.bmin.y ∨ p.y = bounds.bmax.y) ∧
      (p.z = bounds.bmin.z ∨ p.z = bounds.bmax.z) := by
  constructor
  · intro hp
    simp only [corners, List.mem_cons, List.not_mem_nil, or_false] at hp
    rcases hp with rfl | rfl | rfl | rfl | rfl | rfl | rfl | rfl <;> simp only [true_or, or_true, and_self]
  · rintro ⟨hx | hx, hy | hy, hz | hz⟩ <;> simp [corners, RepoVector3D.ext_iff, hx, hy, hz]

omit [Field R] in
theorem Ordered.contains {bounds : RepoBounds R} (h : bounds.Ordered) (hp : p ∈ bounds.corners) :
    bounds.Contains p := by
  obtain ⟨hx, hy, hz⟩ := h
  obtain ⟨hpx, hpy, hpz⟩ := mem_corners_iff.1 hp
  have hside : ∀ {a b x : R}, a ≤ b → (x = a ∨ x = b) → a ≤ x ∧ x ≤ b := by
    intro a b x hab hx
    rcases hx with rfl | rfl
    · exact ⟨le_rfl, hab⟩
    · exact ⟨hab, le_rfl⟩
  exact ⟨hside hx hpx, hside hy hpy, hside hz hpz⟩

end RepoBounds

/-- `MeshNode::transformBoundingBox`, which may end the process. -/
def MeshNode.transformBoundingBox (bounds : RepoBounds R) (matrix : RepoMatrix R) : Option (RepoBounds R) :=
  (bounds.corners.mapM matrix.mulVector).map .ofPoints

section Extents

variable [IsStrictOrderedRing R] {bounds : RepoBounds R}

/-- The half of the image of the bounds, on one axis. -/
def extent (row : Fin 4 → R) (extents : RepoVector3D R) : R :=
  |row 0| * extents.x + |row 1| * extents.y + |row 2| * extents.z

/-- Half of the size. -/
def extents (bounds : RepoBounds R) : RepoVector3D R := (bounds.bmax - bounds.bmin) * (1 / 2 : R)

private theorem abs_mul_sub_le {w lo hi x : R} (h : lo ≤ x ∧ x ≤ hi) :
    |w * (x - (lo + hi) * (1 / 2))| ≤ |w| * ((hi - lo) * (1 / 2)) := by
  rw [abs_mul]
  exact mul_le_mul_of_nonneg_left (abs_le.2 ⟨by linarith [h.1], by linarith [h.2]⟩) (abs_nonneg w)

private theorem abs_coordinate_sub_le (row : Fin 4 → R) (hp : bounds.Contains p) :
    |coordinate row p - coordinate row bounds.center| ≤ extent row (extents bounds) := by
  obtain ⟨hx, hy, hz⟩ := hp
  have hsplit : coordinate row p - coordinate row bounds.center =
      row 0 * (p.x - bounds.center.x) + row 1 * (p.y - bounds.center.y) + row 2 * (p.z - bounds.center.z) := by
    simp only [coordinate]
    ring
  rw [hsplit]
  refine (abs_add_le _ _).trans (add_le_add ((abs_add_le _ _).trans (add_le_add ?_ ?_)) ?_)
  · exact abs_mul_sub_le hx
  · exact abs_mul_sub_le hy
  · exact abs_mul_sub_le hz

private theorem exists_end (w lo hi : R) :
    ∃ x, (x = lo ∨ x = hi) ∧ w * x = w * ((lo + hi) * (1 / 2)) - |w| * ((hi - lo) * (1 / 2)) := by
  rcases le_total 0 w with hw | hw
  · refine ⟨lo, .inl rfl, ?_⟩
    rw [abs_of_nonneg hw]
    ring
  · refine ⟨hi, .inr rfl, ?_⟩
    rw [abs_of_nonpos hw]
    ring

private theorem exists_corner_least (row : Fin 4 → R) (bounds : RepoBounds R) :
    ∃ p ∈ bounds.corners, coordinate row p = coordinate row bounds.center - extent row (extents bounds) := by
  obtain ⟨x, hx, hwx⟩ := exists_end (row 0) bounds.bmin.x bounds.bmax.x
  obtain ⟨y, hy, hwy⟩ := exists_end (row 1) bounds.bmin.y bounds.bmax.y
  obtain ⟨z, hz, hwz⟩ := exists_end (row 2) bounds.bmin.z bounds.bmax.z
  refine ⟨⟨x, y, z⟩, RepoBounds.mem_corners_iff.2 ⟨hx, hy, hz⟩, ?_⟩
  simp only [coordinate, extent, extents, RepoBounds.center, RepoVector3D.mul_x, RepoVector3D.mul_y, RepoVector3D.mul_z,
    RepoVector3D.add_x, RepoVector3D.add_y, RepoVector3D.add_z, RepoVector3D.sub_x, RepoVector3D.sub_y,
    RepoVector3D.sub_z]
  linear_combination hwx + hwy + hwz

private theorem exists_corner_greatest (row : Fin 4 → R) (bounds : RepoBounds R) :
    ∃ p ∈ bounds.corners, coordinate row p = coordinate row bounds.center + extent row (extents bounds) := by
  obtain ⟨p, hp, hleast⟩ := exists_corner_least (-row) bounds
  refine ⟨p, hp, ?_⟩
  simp only [coordinate, extent, Pi.neg_apply, abs_neg, neg_mul] at hleast ⊢
  linear_combination -hleast

end Extents

/-! ### Bounds of lists of points -/

section Points

variable (f : RepoVector3D R → R)

omit [Field R] in
private theorem le_bmin_foldl_iff (hf : ∀ p q, f (p.min q) = min (f p) (f q)) (points : List (RepoVector3D R))
    (bounds : RepoBounds R) (t : R) :
    t ≤ f (points.foldl RepoBounds.encapsulate bounds).bmin ↔ t ≤ f bounds.bmin ∧ ∀ p ∈ points, t ≤ f p := by
  induction points generalizing bounds with
  | nil => simp
  | cons p points ih =>
    rw [List.foldl_cons, ih, RepoBounds.encapsulate, hf, le_min_iff, List.forall_mem_cons, and_assoc]

omit [Field R] in
private theorem bmax_foldl_le_iff (hf : ∀ p q, f (p.max q) = max (f p) (f q)) (points : List (RepoVector3D R))
    (bounds : RepoBounds R) (t : R) :
    f (points.foldl RepoBounds.encapsulate bounds).bmax ≤ t ↔ f bounds.bmax ≤ t ∧ ∀ p ∈ points, f p ≤ t := by
  induction points generalizing bounds with
  | nil => simp
  | cons p points ih =>
    rw [List.foldl_cons, ih, RepoBounds.encapsulate, hf, max_le_iff, List.forall_mem_cons, and_assoc]

/-- The same numbers are below, and above, all values on the two lists. -/
structure SameRange (points points' : List (RepoVector3D R)) : Prop where
  lower : ∀ t, (∀ p ∈ points, t ≤ f p) ↔ ∀ p ∈ points', t ≤ f p
  upper : ∀ t, (∀ p ∈ points, f p ≤ t) ↔ ∀ p ∈ points', f p ≤ t

private theorem ofPoints_eq {points points' : List (RepoVector3D R)} (hx : SameRange RepoVector3D.x points points')
    (hy : SameRange RepoVector3D.y points points') (hz : SameRange RepoVector3D.z points points') :
    RepoBounds.ofPoints points = RepoBounds.ofPoints points' := by
  have hmin : ∀ f : RepoVector3D R → R, (∀ p q, f (p.min q) = min (f p) (f q)) → SameRange f points points' →
      f (RepoBounds.ofPoints points).bmin = f (RepoBounds.ofPoints points').bmin := by
    intro f hf h
    refine eq_of_forall_le_iff fun t => ?_
    rw [RepoBounds.ofPoints, RepoBounds.ofPoints, le_bmin_foldl_iff f hf, le_bmin_foldl_iff f hf, h.lower]
  have hmax : ∀ f : RepoVector3D R → R, (∀ p q, f (p.max q) = max (f p) (f q)) → SameRange f points points' →
      f (RepoBounds.ofPoints points).bmax = f (RepoBounds.ofPoints points').bmax := by
    intro f hf h
    refine eq_of_forall_ge_iff fun t => ?_
    rw [RepoBounds.ofPoints, RepoBounds.ofPoints, bmax_foldl_le_iff f hf, bmax_foldl_le_iff f hf, h.upper]
  refine RepoBounds.mk.injEq _ _ _ _ |>.mpr ⟨?_, ?_⟩
  · exact RepoVector3D.ext (hmin _ (fun _ _ => rfl) hx) (hmin _ (fun _ _ => rfl) hy) (hmin _ (fun _ _ => rfl) hz)
  · exact RepoVector3D.ext (hmax _ (fun _ _ => rfl) hx) (hmax _ (fun _ _ => rfl) hy) (hmax _ (fun _ _ => rfl) hz)

end Points

/-! ### The two transformations -/

section Transform

variable [IsStrictOrderedRing R] {bounds : RepoBounds R} {m : RepoMatrix R}

private theorem sameRange_corners (hbounds : bounds.Ordered) {f : RepoVector3D R → R} (row : Fin 4 → R)
    (hf : ∀ p, f (m.image p) = coordinate row p) {lo hi : RepoVector3D R}
    (hlo : f lo = coordinate row bounds.center - extent row (extents bounds))
    (hhi : f hi = coordinate row bounds.center + extent row (extents bounds)) :
    SameRange f (bounds.corners.map m.image) [lo, hi] := by
  obtain ⟨p, hp, hleast⟩ := exists_corner_least row bounds
  obtain ⟨q, hq, hgreatest⟩ := exists_corner_greatest row bounds
  have hbetween : ∀ c ∈ bounds.corners, f lo ≤ f (m.image c) ∧ f (m.image c) ≤ f hi := by
    intro c hc
    have h := abs_le.1 (abs_coordinate_sub_le row (hbounds.contains hc))
    rw [hlo, hhi, hf]
    exact ⟨by linarith [h.1], by linarith [h.2]⟩
  have hends : f lo ≤ f hi := (hbetween p hp).1.trans (hbetween p hp).2
  rw [← hleast, ← hf] at hlo
  rw [← hgreatest, ← hf] at hhi
  constructor
  · intro t
    simp only [List.forall_mem_map, List.forall_mem_cons, List.not_mem_nil, false_implies, implies_true, and_true]
    exact ⟨fun h => ⟨hlo ▸ h p hp, hhi ▸ h q hq⟩, fun h c hc => h.1.trans (hbetween c hc).1⟩
  · intro t
    simp only [List.forall_mem_map, List.forall_mem_cons, List.not_mem_nil, false_implies, implies_true, and_true]
    exact ⟨fun h => ⟨hlo ▸ h p hp, hhi ▸ h q hq⟩, fun h c hc => (hbetween c hc).2.trans h.2⟩

private theorem mulBounds_eq (hbounds : bounds.Ordered) : m.mulBounds bounds = .ofPoints (bounds.corners.map m.image) := by
  exact (ofPoints_eq (sameRange_corners hbounds (m 0) (fun _ => rfl) rfl rfl)
    (sameRange_corners hbounds (m 1) (fun _ => rfl) rfl rfl)
    (sameRange_corners hbounds (m 2) (fun _ => rfl) rfl rfl)).symm

private theorem transformBoundingBox_of_affine (hm : m.Affine) :
    MeshNode.transformBoundingBox bounds m = some (.ofPoints (bounds.corners.map m.image)) := by
  have himages : bounds.corners.mapM m.mulVector = some (bounds.corners.map m.image) := by
    rw [funext hm.mulVector]
    exact List.mapM_pure
  unfold MeshNode.transformBoundingBox
  rw [himages, Option.map_some]

omit [IsStrictOrderedRing R] in
private theorem contains_ofMinMax_of_between {p q v : RepoVector3D R} (hx : p.x ≤ v.x ∧ v.x ≤ q.x) (hy : p.y ≤ v.y ∧ v.y ≤ q.y)
    (hz : p.z ≤ v.z ∧ v.z ≤ q.z) : (RepoBounds.ofMinMax p q).Contains v := by
  obtain ⟨⟨hpx, -⟩, ⟨hpy, -⟩, ⟨hpz, -⟩⟩ := RepoBounds.contains_ofMinMax_left (p := p) (q := q)
  obtain ⟨⟨-, hqx⟩, ⟨-, hqy⟩, ⟨-, hqz⟩⟩ := RepoBounds.contains_ofMinMax_right (p := p) (q := q)
  exact ⟨⟨hpx.trans hx.1, hx.2.trans hqx⟩, ⟨hpy.trans hy.1, hy.2.trans hqy⟩, ⟨hpz.trans hz.1, hz.2.trans hqz⟩⟩

private theorem contains_mulBounds (hp : bounds.Contains p) : (m.mulBounds bounds).Contains (m.image p) := by
  have hrow := fun row => abs_le.1 (abs_coordinate_sub_le row hp)
  have hbetween : ∀ {f c e : R}, -e ≤ f - c ∧ f - c ≤ e → c - e ≤ f ∧ f ≤ c + e := by
    intro f c e h
    exact ⟨by linarith [h.1], by linarith [h.2]⟩
  exact contains_ofMinMax_of_between (hbetween (hrow (m 0))) (hbetween (hrow (m 1))) (hbetween (hrow (m 2)))

/-- The two transformations of bounds agree, and the result encloses the images of all points of the bounds. -/
theorem transformBoundingBox_eq_mulBounds (hm : m.Affine) (hbounds : bounds.Ordered) :
    MeshNode.transformBoundingBox bounds m = some (m.mulBounds bounds) ∧
      ∀ p, bounds.Contains p → (m.mulBounds bounds).Contains (m.image p) := by
  refine ⟨?_, fun p hp => contains_mulBounds hp⟩
  rw [transformBoundingBox_of_affine hm, mulBounds_eq hbounds]

theorem transformBoundingBox_eq_mulBounds_mirror :
    MeshNode.transformBoundingBox ⟨⟨0, 0, 0⟩, ⟨1, 2, 3⟩⟩ (RepoMatrix.scale (-1 : ℚ)) =
        some ((RepoMatrix.scale (-1 : ℚ)).mulBounds ⟨⟨0, 0, 0⟩, ⟨1, 2, 3⟩⟩) ∧
      ∀ p, RepoBounds.Contains ⟨⟨0, 0, 0⟩, ⟨1, 2, 3⟩⟩ p →
        ((RepoMatrix.scale (-1 : ℚ)).mulBounds ⟨⟨0, 0, 0⟩, ⟨1, 2, 3⟩⟩).Contains ((RepoMatrix.scale (-1)).image p) :=
  transformBoundingBox_eq_mulBounds ⟨rfl, rfl, rfl, rfl⟩ ⟨by norm_num, by norm_num, by norm_num⟩

end Transform

end Bouncer
