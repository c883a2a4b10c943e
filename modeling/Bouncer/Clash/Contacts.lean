import Bouncer.Clash.DeformDepth

/-!
# What the contact test prunes

The traversal of two hierarchies goes on below a pair of nodes if their boxes are in contact: if on no axis the gap between
them is larger than a threshold, which is in proportion to their extent.  For larger boxes the gaps are smaller and the
threshold is larger, so nodes above two nodes in contact are in contact (`contacts_mono`).  The threshold for two triangles is
no larger than that for boxes around them, and they are at least as far apart as the boxes, so the pairs of triangles that are
closer than it are reached (`mem_reached_of_close`).
-/

namespace Bouncer

variable {R : Type*}

/-- The box of one node lies in that of another one. -/
structure BvhNode.Within [LE R] (node outer : BvhNode R) : Prop where
  x : outer.bounds 0 ≤ node.bounds 0 ∧ node.bounds 1 ≤ outer.bounds 1
  y : outer.bounds 2 ≤ node.bounds 2 ∧ node.bounds 3 ≤ outer.bounds 3
  z : outer.bounds 4 ≤ node.bounds 4 ∧ node.bounds 5 ≤ outer.bounds 5

/-- No component exceeds what a `double` can hold. -/
def RepoVector3D.Finite [Field R] [LE R] (v : RepoVector3D R) : Prop :=
  (-dblMax ≤ v.x ∧ v.x ≤ dblMax) ∧ (-dblMax ≤ v.y ∧ v.y ≤ dblMax) ∧ (-dblMax ≤ v.z ∧ v.z ≤ dblMax)

namespace RepoTriangle

def corners (t : RepoTriangle R) : List (RepoVector3D R) := [t.a, t.b, t.c]

variable [Field R] [LinearOrder R] [IsStrictOrderedRing R] {t : RepoTriangle R} {p : RepoVector3D R}

private theorem contains_of_corners {box : BoundingBox R} (hbox : ∀ v ∈ t.corners, box.Contains v) (hp : p ∈ t.points) :
    box.Contains p := by
  have ha := hbox t.a (by simp [corners])
  have hb := hbox t.b (by simp [corners])
  have hc := hbox t.c (by simp [corners])
  exact Clash.contains_of_mem_points ha hb hc hp

end RepoTriangle

namespace Predicates

variable [LinearOrder R] [Field R]

/-- How far two nodes extend on the axis with these bounds. -/
def extent (a b : BvhNode R) (i j : Fin 6) : R := max (a.bounds j) (b.bounds j) - min (a.bounds i) (b.bounds i)

/-- The threshold of `contacts`. -/
def threshold (a b : BvhNode R) : R := max (extent a b 4 5) (max (extent a b 2 3) (max (extent a b 0 1) 0)) * magicEpsilon

/-- On the axis with these bounds, there is no gap beyond a distance. -/
def Close (a b : BvhNode R) (d : R) (i j : Fin 6) : Prop := b.bounds i - a.bounds j ≤ d ∧ a.bounds i - b.bounds j ≤ d

private theorem contacts_iff {a b : BvhNode R} :
    contacts a b = true ↔ Close a b (threshold a b) 0 1 ∧ Close a b (threshold a b) 2 3 ∧ Close a b (threshold a b) 4 5 := by
  unfold contacts Close threshold extent
  simp only [Bool.not_eq_true', Bool.or_eq_false_iff, decide_eq_false_iff_not, gt_iff_lt, not_lt, and_assoc]

variable [IsStrictOrderedRing R] {a a' b b' : BvhNode R}

private theorem magicEpsilon_pos : 0 < (magicEpsilon : R) := by
  unfold magicEpsilon
  positivity

private theorem extent_mono {i j : Fin 6} (ha : a'.bounds i ≤ a.bounds i ∧ a.bounds j ≤ a'.bounds j)
    (hb : b'.bounds i ≤ b.bounds i ∧ b.bounds j ≤ b'.bounds j) : extent a b i j ≤ extent a' b' i j :=
  sub_le_sub (max_le_max ha.2 hb.2) (min_le_min ha.1 hb.1)

private theorem threshold_mono (ha : a.Within a') (hb : b.Within b') : threshold a b ≤ threshold a' b' := by
  apply mul_le_mul_of_nonneg_right _ magicEpsilon_pos.le
  exact max_le_max (extent_mono ha.z hb.z) (max_le_max (extent_mono ha.y hb.y)
    (max_le_max (extent_mono ha.x hb.x) le_rfl))

theorem Close.mono {i j : Fin 6} {d d' : R} (ha : a'.bounds i ≤ a.bounds i ∧ a.bounds j ≤ a'.bounds j)
    (hb : b'.bounds i ≤ b.bounds i ∧ b.bounds j ≤ b'.bounds j) (hd : d ≤ d') (h : Close a b d i j) :
    Close a' b' d' i j :=
  ⟨(sub_le_sub hb.1 ha.2).trans (h.1.trans hd), (sub_le_sub ha.1 hb.2).trans (h.2.trans hd)⟩

private theorem contacts_mono (ha : a.Within a') (hb : b.Within b') (h : contacts a b = true) : contacts a' b' = true := by
  have hthreshold := threshold_mono ha hb
  obtain ⟨hx, hy, hz⟩ := contacts_iff.mp h
  exact contacts_iff.mpr ⟨hx.mono ha.x hb.x hthreshold, hy.mono ha.y hb.y hthreshold, hz.mono ha.z hb.z hthreshold⟩

end Predicates

end Bouncer

namespace Bouncer.Clash.RepoDeformDepth

open Predicates

variable {R : Type*} [ExactReal R] {A B : RepoTriangle R} {a b : BvhNode R} {p q : RepoVector3D R}

/-! ### The threshold for two triangles -/

/-- Bounds that do not reach beyond a box. -/
def Inside (bounds : RepoBounds R) (box : BoundingBox R) : Prop :=
  (box.min.x ≤ bounds.bmin.x ∧ bounds.bmax.x ≤ box.max.x) ∧ (box.min.y ≤ bounds.bmin.y ∧ bounds.bmax.y ≤ box.max.y) ∧
    (box.min.z ≤ bounds.bmin.z ∧ bounds.bmax.z ≤ box.max.z)

variable {v : RepoVector3D R}

theorem Inside.encapsulate {bounds : RepoBounds R} {box : BoundingBox R} (h : Inside bounds box)
    (hv : box.Contains v) : Inside (bounds.encapsulate v) box :=
  ⟨⟨le_min h.1.1 hv.1.1, max_le h.1.2 hv.1.2⟩, ⟨le_min h.2.1.1 hv.2.1.1, max_le h.2.1.2 hv.2.1.2⟩,
    ⟨le_min h.2.2.1 hv.2.2.1, max_le h.2.2.2 hv.2.2.2⟩⟩

private theorem inside_ofPoints {points : List (RepoVector3D R)} {box : BoundingBox R} (hbox : ∀ v ∈ points, box.Contains v)
    (hv : v ∈ points) (hfinite : v.Finite) : Inside (RepoBounds.ofPoints points) box := by
  have hstart : Inside RepoBounds.empty box := by
    obtain ⟨hx, hy, hz⟩ := hbox v hv
    exact ⟨⟨hx.1.trans hfinite.1.2, hfinite.1.1.trans hx.2⟩, ⟨hy.1.trans hfinite.2.1.2, hfinite.2.1.1.trans hy.2⟩,
      ⟨hz.1.trans hfinite.2.2.2, hfinite.2.2.1.trans hz.2⟩⟩
  rw [RepoBounds.ofPoints]
  clear hv
  generalize (RepoBounds.empty : RepoBounds R) = bounds at hstart
  induction points generalizing bounds with
  | nil => exact hstart
  | cons w points ih =>
    apply ih (fun u hu => hbox u (List.mem_cons_of_mem _ hu))
    exact hstart.encapsulate (hbox w List.mem_cons_self)

private theorem contains_union
    (h : a.boundingBoxProxy.Contains v ∨ b.boundingBoxProxy.Contains v) :
    (a.boundingBoxProxy.extend b.boundingBoxProxy).Contains v := by
  rcases h with h | h
  · exact h.extend_left
  · exact h.extend_right

private theorem contactThreshold_le (hA : ∀ v ∈ A.corners, a.boundingBoxProxy.Contains v)
    (hB : ∀ v ∈ B.corners, b.boundingBoxProxy.Contains v) (hfinite : A.a.Finite) :
    contactThreshold A B ≤ threshold a b := by
  have hcontains : ∀ v ∈ [A.a, A.b, A.c, B.a, B.b, B.c],
      (a.boundingBoxProxy.extend b.boundingBoxProxy).Contains v := by
    intro v hv
    have hcorner : v ∈ A.corners ∨ v ∈ B.corners := List.mem_append.mp hv
    exact contains_union (hcorner.imp (hA v) (hB v))
  obtain ⟨hx, hy, hz⟩ := inside_ofPoints hcontains List.mem_cons_self hfinite
  unfold contactThreshold threshold magicEpsilon
  apply mul_le_mul_of_nonneg_right _ (by positivity)
  have hsx : (RepoBounds.ofPoints [A.a, A.b, A.c, B.a, B.b, B.c]).size.x ≤ extent a b 0 1 := sub_le_sub hx.2 hx.1
  have hsy : (RepoBounds.ofPoints [A.a, A.b, A.c, B.a, B.b, B.c]).size.y ≤ extent a b 2 3 := sub_le_sub hy.2 hy.1
  have hsz : (RepoBounds.ofPoints [A.a, A.b, A.c, B.a, B.b, B.c]).size.z ≤ extent a b 4 5 := sub_le_sub hz.2 hz.1
  have hxy := le_max_left (extent a b 0 1) 0
  have hyz := le_max_left (extent a b 2 3) (max (extent a b 0 1) 0)
  have hyz' := le_max_right (extent a b 2 3) (max (extent a b 0 1) 0)
  have hall := le_max_left (extent a b 4 5) (max (extent a b 2 3) (max (extent a b 0 1) 0))
  have hall' := le_max_right (extent a b 4 5) (max (extent a b 2 3) (max (extent a b 0 1) 0))
  exact max_le (max_le (by linarith) (by linarith)) (by linarith)

private theorem gap_le {lo hi lo' hi' x y d e : R} (hx : lo ≤ x ∧ x ≤ hi) (hy : lo' ≤ y ∧ y ≤ hi') (hd : 0 ≤ d)
    (h : (y - x) * (y - x) ≤ d * d) (hde : d ≤ e) : lo' - hi ≤ e ∧ lo - hi' ≤ e := by
  have habs : |y - x| ≤ d := abs_le_of_sq_le_sq (by simpa [sq] using h) hd
  obtain ⟨hlo, hhi⟩ := abs_le.mp habs
  exact ⟨by linarith [hx.2, hy.1], by linarith [hx.1, hy.2]⟩

private theorem contacts_of_close (hA : ∀ v ∈ A.corners, a.boundingBoxProxy.Contains v)
    (hB : ∀ v ∈ B.corners, b.boundingBoxProxy.Contains v) (hfinite : A.a.Finite) (hp : p ∈ A.points) (hq : q ∈ B.points)
    (hclose : (q - p).norm < contactThreshold A B) : contacts a b = true := by
  have hpa := RepoTriangle.contains_of_corners hA hp
  have hqb := RepoTriangle.contains_of_corners hB hq
  have hle := hclose.le.trans (contactThreshold_le hA hB hfinite)
  have hnorm := RepoVector3D.norm_mul_norm (q - p)
  have hpos := (q - p).norm_nonneg
  unfold RepoVector3D.norm2 at hnorm
  simp only [RepoVector3D.sub_x, RepoVector3D.sub_y, RepoVector3D.sub_z] at hnorm
  have hsqx := mul_self_nonneg (q.x - p.x)
  have hsqy := mul_self_nonneg (q.y - p.y)
  have hsqz := mul_self_nonneg (q.z - p.z)
  exact contacts_iff.mpr ⟨gap_le hpa.1 hqb.1 hpos (by linarith) hle, gap_le hpa.2.1 hqb.2.1 hpos (by linarith) hle,
    gap_le hpa.2.2 hqb.2.2 hpos (by linarith) hle⟩

/-- Pruning loses no contact: the test holds for nodes around two nodes for which it holds, and for nodes around two
triangles that are closer than their threshold. -/
theorem contacts_sound (R : Type*) [ExactReal R] :
    (∀ a b a' b' : BvhNode R, a.Within a' → b.Within b' → contacts a b = true → contacts a' b' = true) ∧
    ∀ (A B : RepoTriangle R) (a b : BvhNode R), (∀ v ∈ A.corners ++ B.corners, v.Finite) →
      (∀ v ∈ A.corners, a.boundingBoxProxy.Contains v) → (∀ v ∈ B.corners, b.boundingBoxProxy.Contains v) →
      (∃ p ∈ A.points, ∃ q ∈ B.points, (q - p).norm < contactThreshold A B) → contacts a b = true := by
  refine ⟨fun a b a' b' ha hb h => contacts_mono ha hb h, ?_⟩
  rintro A B a b hfinite hA hB ⟨p, hp, q, hq, hclose⟩
  exact contacts_of_close hA hB (hfinite A.a (by simp [RepoTriangle.corners])) hp hq hclose

/-- A triangle on a square. -/
def unitTriangle : RepoTriangle ℝ := ⟨⟨0, 0, 0⟩, ⟨1, 0, 0⟩, ⟨0, 1, 0⟩⟩

/-- The box of so large a square. -/
def squareNode (size : ℝ) : BvhNode ℝ := ⟨(⟨⟨0, 0, 0⟩, ⟨size, size, 0⟩⟩ : BoundingBox ℝ).bounds, 1, 0⟩

private theorem contactThreshold_unit : 0 < contactThreshold unitTriangle unitTriangle := by
  have hpos : 0 < (dblMax : ℝ) := RepoLine.dblMax_pos
  have hmin : min (dblMax : ℝ) 0 = 0 := min_eq_right hpos.le
  have hmax : max (-dblMax : ℝ) 0 = 0 := max_eq_right (neg_nonpos.2 hpos.le)
  norm_num [contactThreshold, unitTriangle, RepoBounds.ofPoints, RepoBounds.encapsulate, RepoBounds.empty, RepoBounds.size,
    RepoVector3D.min, RepoVector3D.max, hmin, hmax]

/-- A triangle touches itself, in its box and in a larger one. -/
theorem contacts_sound_unit : contacts (squareNode 1) (squareNode 1) = true ∧
    contacts (squareNode 2) (squareNode 2) = true := by
  obtain ⟨hmono, hclose⟩ := contacts_sound ℝ
  have hcorners : ∀ v ∈ unitTriangle.corners, (0 ≤ v.x ∧ v.x ≤ 1) ∧ (0 ≤ v.y ∧ v.y ≤ 1) ∧ v.z = 0 := by
    simp [RepoTriangle.corners, unitTriangle]
  have hin : ∀ v ∈ unitTriangle.corners, (squareNode 1).boundingBoxProxy.Contains v := fun v hv =>
    ⟨(hcorners v hv).1, (hcorners v hv).2.1, (hcorners v hv).2.2.ge, (hcorners v hv).2.2.le⟩
  have hone : (1 : ℝ) ≤ dblMax := by
    have hpow : (1 : ℝ) ≤ 2 ^ 971 := one_le_pow₀ one_le_two
    exact hpow.trans (le_mul_of_one_le_left (zero_le_one.trans hpow) (by norm_num))
  have hfinite : ∀ v ∈ unitTriangle.corners ++ unitTriangle.corners, v.Finite := by
    intro v hv
    obtain ⟨⟨hx, hx'⟩, ⟨hy, hy'⟩, hz⟩ := hcorners v (or_self_iff.1 (List.mem_append.1 hv))
    exact ⟨⟨by linarith, by linarith⟩, ⟨by linarith, by linarith⟩, by linarith, by linarith⟩
  have hpoint : unitTriangle.a ∈ unitTriangle.points := ⟨1, 0, 0, by norm_num [RepoVector3D.ext_iff]⟩
  have hsame : unitTriangle.a - unitTriangle.a = 0 := by simp [RepoVector3D.ext_iff]
  have hunit := hclose unitTriangle unitTriangle (squareNode 1) (squareNode 1) hfinite hin hin
    ⟨_, hpoint, _, hpoint, by rw [hsame, RepoVector3D.norm_zero]; exact contactThreshold_unit⟩
  have hwithin : (squareNode 1).Within (squareNode 2) := by
    constructor <;> simp [squareNode, BoundingBox.bounds]
  exact ⟨hunit, hmono _ _ _ _ hwithin hwithin hunit⟩

/-! ### The traversal -/

private theorem contains_addOffset {m v : RepoVector3D R} (h : a.boundingBoxProxy.Contains v) :
    (a.addOffset m).boundingBoxProxy.Contains (v + m) :=
  ⟨⟨add_le_add_left h.1.1 m.x, add_le_add_left h.1.2 m.x⟩, ⟨add_le_add_left h.2.1.1 m.y, add_le_add_left h.2.1.2 m.y⟩,
    ⟨add_le_add_left h.2.2.1 m.z, add_le_add_left h.2.2.2 m.z⟩⟩

/-- Two triangles that are closer than their threshold, one of them with an offset, are reached. -/
theorem mem_reached_of_close {x y : Bvh R} {n k : ℕ} {t u : Library.FullTree ℕ} (ht : x.IsTree n t) (hu : y.IsTree k u)
    {TA TB : ℕ → RepoTriangle R} (hA : x.Encloses fun i => {v | v ∈ (TA i).corners})
    (hB : y.Encloses fun j => {v | v ∈ (TB j).corners}) {m : RepoVector3D R} {i j : ℕ} (hi : i < n) (hj : j < k)
    (hfinite : (TA i + m).a.Finite) (hp : p ∈ (TA i + m).points) (hq : q ∈ (TB j).points)
    (hclose : (q - p).norm < contactThreshold (TA i + m) (TB j)) :
    (i, j) ∈ Traversal.reached x y (fun a b => contacts (a.addOffset m) b) t u := by
  obtain ⟨c, hc, hic⟩ := ht.lt_iff.1 hi
  obtain ⟨d, hd, hjd⟩ := hu.lt_iff.1 hj
  refine Library.FullTree.mem_crossList_of_keptDownTo hc hd ?_ hic hjd
  intro z hz hcz w hw hdw
  apply contacts_of_close (A := TA i + m) (B := TB j) (p := p) (q := q) _ _ hfinite hp hq hclose
  · intro v hv
    have hcorner : ∃ v' ∈ (TA i).corners, v = v' + m := by
      simpa [RepoTriangle.corners, RepoTriangle.add_def] using hv
    obtain ⟨v', hv', rfl⟩ := hcorner
    exact contains_addOffset (hA z.label c (ht.ancestorOrSelf_label hz) (ht.label_ancestorOrSelf hz hcz)
      (ht.spells.mem_leaves_iff.1 hc).2 i hic v' hv')
  · intro v hv
    exact hB w.label d (hu.ancestorOrSelf_label hw) (hu.label_ancestorOrSelf hw hdw)
      (hu.spells.mem_leaves_iff.1 hd).2 j hjd v hv

end Bouncer.Clash.RepoDeformDepth
