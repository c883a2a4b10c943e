import Bouncer.Bvh.RayVisits
import Bouncer.Clash.ContainsParity

/-!
# The containment test with its traverser

`geometry::contains` casts its rays with the `SingleRayTraverser`.  Its `PrimitiveIntersector` counts hits and asks to end
the traversal at the first degenerate test.

What a ray counts is what it counts along the primitives of `visitsOf` (`castRay_eq`), which are those of the boxes that it
meets (`visitsMet_visitsOf`).  So the rays through the hierarchy count what a test of all triangles counts
(`castRay_eq_metWith`), and if no ray meets an edge, the verdict is whether the points are inside (`contains_iff_inside`):
the random directions do not matter.
-/

namespace Bouncer.Clash

open Library (FullTree visitUntil)
open RepoVector3D (triple)
open RobustNodeIntersector (Pads)

variable {R : Type*} [ExactReal R]

/-- How rays are cast. -/
structure RayCasting (R : Type*) [ExactReal R] where
  addUlpMagnitude : R → R
  pads : Pads addUlpMagnitude
  /-- The largest number, which is `tmax` of every ray. -/
  max : R

/-- The counters and the flag of `PrimitiveIntersector`. -/
structure Counted where
  features : Features
  degenerate : Bool

namespace Counted

def reset : Counted := ⟨.reset, false⟩

/-- What the caller of the traversal sees. -/
def result (c : Counted) : Option Features := if c.degenerate then none else some c.features

end Counted

/-- `PrimitiveIntersector`.  An exception ends the traversal as a hit does. -/
def primitiveIntersector (max : R) (mesh : MeshView R) : PrimitiveIntersector R Unit (Except String Counted) where
  intersect := fun i ray state =>
    match state with
    | .error e => (.error e, some ())
    | .ok counted =>
      match intersects ray.origin ray.direction (mesh.getTriangle (mesh.getBvh.primitiveIndices i)) with
      | .degenerate => (.ok { counted with degenerate := true }, some ())
      | .miss => (.ok counted, none)
      | .hit edges =>
        match counted.features.count edges with
        | .ok features => (.ok { counted with features }, none)
        | .error e => (.error e, some ())
  anyHit := true
  distance := fun _ => max

namespace RayCasting

variable (rays : RayCasting R)

/-- A ray as `contains` makes it. -/
def ray (origin direction : RepoVector3D R) : Ray R := ⟨origin, direction, 0, rays.max⟩

/-- One ray of `contains`, at most `fuel` iterations of its traversal. -/
def castRay (fuel : ℕ) (mesh : MeshView R) (origin direction : RepoVector3D R) : Except String (Option Features) :=
  match SingleRayTraverser.intersect (RobustNodeIntersector.intersect rays.addUlpMagnitude) mesh.getBvh
    (primitiveIntersector rays.max mesh) fuel (rays.ray origin direction) (.ok .reset) with
  | some w => w.state.map Counted.result
  | none => .error "The traversal has not ended."

/-- `geometry::contains` with its traverser. -/
def contains (fuel : ℕ) (random : ℕ → RepoVector3D R) (vertices : List (RepoVector3D R)) (indices : List ℕ)
    (bounds : RepoBounds R) (mesh : MeshView R) (offset : RepoVector3D R) : Except String Bool :=
  if encapsulates (mesh.getBvh.nodes 0) (bounds.bmin + offset) (bounds.bmax + offset) then
    containsAll (rays.castRay fuel mesh) random (indices.map fun i => vertices.getD i 0 + offset) (random 0) 1
  else .ok false

/-- The intersector that writes down what it is handed. -/
def recorder : PrimitiveIntersector R Unit (List ℕ) where
  intersect := fun i _ visited => (visited ++ [i], none)
  anyHit := true
  distance := fun _ => 0

/-- The primitives that a ray visits if no test is degenerate. -/
def visitsOf (fuel : ℕ) (mesh : MeshView R) (origin direction : RepoVector3D R) : List ℕ :=
  match SingleRayTraverser.intersect (RobustNodeIntersector.intersect rays.addUlpMagnitude) mesh.getBvh recorder fuel
    (rays.ray origin direction) [] with
  | some w => w.state.map mesh.getBvh.primitiveIndices
  | none => []

end RayCasting

/-! ### The order of the primitives -/

section Visits

variable {rays : RayCasting R} {fuel n : ℕ} {mesh : MeshView R} {t : FullTree ℕ}

private theorem intersectPrimitive_eq (max : R) (i : ℕ) (ray : Ray R) (bestHit : Option Unit) (features : Features) :
    SingleRayTraverser.intersectPrimitive (primitiveIntersector max mesh) i ⟨ray, bestHit, .ok ⟨features, false⟩⟩ =
      match intersects ray.origin ray.direction (mesh.getTriangle (mesh.getBvh.primitiveIndices i)) with
      | .degenerate => (⟨ray, some (), .ok ⟨features, true⟩⟩, true)
      | .miss => (⟨ray, bestHit, .ok ⟨features, false⟩⟩, false)
      | .hit edges =>
        match features.count edges with
        | .ok features => (⟨ray, bestHit, .ok ⟨features, false⟩⟩, false)
        | .error e => (⟨ray, some (), .error e⟩, true) := by
  unfold SingleRayTraverser.intersectPrimitive primitiveIntersector
  cases hhit : intersects ray.origin ray.direction (mesh.getTriangle (mesh.getBvh.primitiveIndices i)) with
  | degenerate => simp [hhit]
  | miss => simp [hhit]
  | hit edges => cases hcount : features.count edges <;> simp [hhit, hcount]

private theorem visitUntil_primitiveIntersector (max : R) (l : List ℕ) (ray : Ray R) (bestHit : Option Unit) (features : Features) :
    (visitUntil (SingleRayTraverser.intersectPrimitive (primitiveIntersector max mesh)) l
        ⟨ray, bestHit, .ok ⟨features, false⟩⟩).1.state.map Counted.result =
      traverse ray.origin ray.direction ((l.map mesh.getBvh.primitiveIndices).map mesh.getTriangle) features := by
  induction l generalizing features with
  | nil => rfl
  | cons i l ih =>
    rw [visitUntil, intersectPrimitive_eq, List.map_cons, List.map_cons, traverse]
    cases intersects ray.origin ray.direction (mesh.getTriangle (mesh.getBvh.primitiveIndices i)) with
    | degenerate => rfl
    | miss => exact ih features
    | hit edges =>
      cases hcount : features.count edges with
      | ok features =>
        simp only [hcount]
        exact ih features
      | error e =>
        simp only [hcount]
        rfl

private theorem visitUntil_recorder (l : List ℕ) (ray : Ray R) (bestHit : Option Unit) (visited : List ℕ) :
    visitUntil (SingleRayTraverser.intersectPrimitive RayCasting.recorder) l ⟨ray, bestHit, visited⟩ =
      (⟨ray, bestHit, visited ++ l⟩, false) := by
  induction l generalizing visited with
  | nil => rw [List.append_nil]; rfl
  | cons i l ih =>
    have hvisit : SingleRayTraverser.intersectPrimitive RayCasting.recorder i ⟨ray, bestHit, visited⟩ =
        (⟨ray, bestHit, visited ++ [i]⟩, false) := rfl
    rw [visitUntil, hvisit, if_neg Bool.false_ne_true, ih, List.append_assoc]
    rfl

private theorem visitsOf_eq (ht : mesh.getBvh.IsTree n t) (hheight : t.height ≤ SingleRayTraverser.stackSize + 1)
    (hfuel : mesh.getBvh.nodeCount ≤ fuel) (origin direction : RepoVector3D R) :
    rays.visitsOf fuel mesh origin direction =
      (SingleRayTraverser.visits (RobustNodeIntersector.intersect rays.addUlpMagnitude) mesh.getBvh
        (rays.ray origin direction) t).map mesh.getBvh.primitiveIndices := by
  rw [RayCasting.visitsOf, SingleRayTraverser.intersect_eq rfl ht hheight hfuel, visitUntil_recorder]
  rfl

variable (mesh) in
private theorem castRay_eq (ht : mesh.getBvh.IsTree n t) (hheight : t.height ≤ SingleRayTraverser.stackSize + 1)
    (hfuel : mesh.getBvh.nodeCount ≤ fuel) (origin direction : RepoVector3D R) :
    rays.castRay fuel mesh origin direction =
      traverse origin direction ((rays.visitsOf fuel mesh origin direction).map mesh.getTriangle) .reset := by
  rw [RayCasting.castRay, SingleRayTraverser.intersect_eq rfl ht hheight hfuel, visitsOf_eq ht hheight hfuel]
  exact visitUntil_primitiveIntersector rays.max _ _ _ _

/-- The test is that of `contains`, for the order in which the traverser visits the triangles. -/
theorem contains_eq (hbvh : ∃ t, mesh.getBvh.IsTree n t ∧ t.height ≤ SingleRayTraverser.stackSize + 1)
    (hfuel : mesh.getBvh.nodeCount ≤ fuel) (random : ℕ → RepoVector3D R) (vertices : List (RepoVector3D R))
    (indices : List ℕ) (bounds : RepoBounds R) (offset : RepoVector3D R) :
    rays.contains fuel random vertices indices bounds mesh offset =
      contains (rays.visitsOf fuel) random vertices indices bounds mesh offset := by
  obtain ⟨t, ht, hheight⟩ := hbvh
  rw [RayCasting.contains, contains]
  have hcast : rays.castRay fuel mesh = fun p d => traverse p d ((rays.visitsOf fuel mesh p d).map mesh.getTriangle) .reset := by
    funext p d
    exact castRay_eq mesh ht hheight hfuel p d
  rw [hcast]

/-- No box is farther away than the range of a ray. -/
def InReach (rays : RayCasting R) (bvh : Bvh R) (origin direction : RepoVector3D R) : Prop :=
  ∀ i, bvh.AncestorOrSelf 0 i → ∀ s, 0 ≤ s → (bvh.nodes i).boundingBoxProxy.Contains (origin + direction * s) → s ≤ rays.max

variable (mesh) in
/-- The primitives in the boxes that the ray meets are visited, and none twice. -/
theorem visitsMet_visitsOf (ht : mesh.getBvh.IsTree n t) (hheight : t.height ≤ SingleRayTraverser.stackSize + 1)
    (hfuel : mesh.getBvh.nodeCount ≤ fuel) {origin direction : RepoVector3D R}
    (hreach : InReach rays mesh.getBvh origin direction) :
    VisitsMet mesh.getBvh n origin direction (rays.visitsOf fuel mesh origin direction) := by
  have hitems : (t.items (SingleRayTraverser.positions mesh.getBvh)).map mesh.getBvh.primitiveIndices =
      t.items mesh.getBvh.leafPrimitives := by
    rw [FullTree.items, FullTree.items, List.map_flatMap]
    exact List.flatMap_congr fun i _ => SingleRayTraverser.map_positions mesh.getBvh i
  rw [visitsOf_eq ht hheight hfuel]
  generalize hvisits : SingleRayTraverser.visits (RobustNodeIntersector.intersect rays.addUlpMagnitude) mesh.getBvh
    (rays.ray origin direction) t = visits
  obtain ⟨l, hl, hsublist⟩ : visits.Subperm (t.items (SingleRayTraverser.positions mesh.getBvh)) :=
    hvisits ▸ SingleRayTraverser.visits_subperm t
  have hperm := hl.map mesh.getBvh.primitiveIndices
  have hsublist := hsublist.map mesh.getBvh.primitiveIndices
  rw [hitems] at hsublist
  refine ⟨?_, ?_, ?_⟩
  · exact hperm.nodup_iff.1 (hsublist.nodup ht.nodup_items)
  · intro k hk
    exact List.mem_range.1 (ht.primitives.mem_iff.1 (hsublist.subset (hperm.mem_iff.2 hk)))
  · intro j k hj hk hmet
    rw [← SingleRayTraverser.map_positions] at hk
    obtain ⟨i, hi, rfl⟩ := List.mem_map.1 hk
    refine List.mem_map_of_mem (hvisits ▸ SingleRayTraverser.mem_visits (ht.leafNode_iff.1 hj) hi fun u hu hju => ?_)
    obtain ⟨s, hs, hcontains⟩ := hmet u.label (ht.ancestorOrSelf_label hu) (ht.label_ancestorOrSelf hu hju)
    exact decide_eq_true (RobustNodeIntersector.intersect_le rays.pads hs hs
      (hreach u.label (ht.ancestorOrSelf_label hu) s hs hcontains) hcontains)

end Visits

/-! ### The verdict -/

/-- A hierarchy of the triangles of a mesh that is not too high for the stack of the traverser. -/
structure Traversable (mesh : RepoIndexedMesh R) (bvh : Bvh R) : Prop where
  shallow : ∃ t, bvh.IsTree mesh.faces.length t ∧ t.height ≤ SingleRayTraverser.stackSize + 1
  encloses : bvh.Encloses fun k => {q | k < mesh.faces.length ∧ q ∈ (mesh.getTriangle k).points}

section Verdict

variable {rays : RayCasting R} {fuel : ℕ} {mesh : RepoIndexedMesh R} {bvh : Bvh R} {p d : RepoVector3D R}

theorem Traversable.wellFormed (h : Traversable mesh bvh) : bvh.WellFormed mesh.faces.length :=
  let ⟨t, ht, _⟩ := h.shallow
  ⟨t, ht⟩

theorem Traversable.visitsMet (h : Traversable mesh bvh) (hfuel : bvh.nodeCount ≤ fuel)
    (hreach : InReach rays bvh p d) :
    VisitsMet bvh mesh.faces.length p d (rays.visitsOf fuel ⟨bvh, mesh.getTriangle⟩ p d) :=
  let ⟨_, ht, hheight⟩ := h.shallow
  visitsMet_visitsOf ⟨bvh, mesh.getTriangle⟩ ht hheight hfuel hreach

theorem Traversable.castCleanly (h : Traversable mesh bvh) (hfuel : bvh.nodeCount ≤ fuel) (hd : d ≠ 0)
    (hreach : InReach rays bvh p d)
    (hnot : ∀ k ∈ rays.visitsOf fuel ⟨bvh, mesh.getTriangle⟩ p d, intersects p d (mesh.getTriangle k) ≠ .degenerate) :
    CastCleanly bvh mesh p d (rays.visitsOf fuel ⟨bvh, mesh.getTriangle⟩ p d) where
  ne_zero := hd
  visits := h.visitsMet hfuel hreach
  notDegenerate := hnot

/-- A ray through the hierarchy counts what a test of all triangles counts. -/
theorem castRay_eq_metWith (h : Traversable mesh bvh) (hfuel : bvh.nodeCount ≤ fuel)
    (hp : ∀ k < mesh.faces.length, p ∉ (mesh.getTriangle k).points) (hd : d ≠ 0) (hreach : InReach rays bvh p d)
    (hnot : ∀ k < mesh.faces.length, intersects p d (mesh.getTriangle k) ≠ .degenerate) :
    rays.castRay fuel ⟨bvh, mesh.getTriangle⟩ p d =
      .ok (some ⟨metWith mesh p d 0, metWith mesh p d 1, metWith mesh p d 2⟩) := by
  obtain ⟨t, ht, hheight⟩ := h.shallow
  have hclean := h.castCleanly hfuel hd hreach fun k hk => hnot k ((h.visitsMet hfuel hreach).lt k hk)
  exact (castRay_eq ⟨bvh, mesh.getTriangle⟩ ht hheight hfuel p d).trans (hclean.traverse_eq h.wellFormed h.encloses hp)

/-- What returns counters has met no degenerate test. -/
theorem ne_degenerate_of_traverse {origin direction : RepoVector3D R} {triangles : List (RepoTriangle R)}
    {features f : Features} (h : traverse origin direction triangles features = .ok (some f)) :
    ∀ t ∈ triangles, intersects origin direction t ≠ .degenerate := by
  induction triangles generalizing features with
  | nil => exact fun t ht => absurd ht List.not_mem_nil
  | cons t triangles ih =>
    rw [traverse] at h
    have hrest : ∃ features, traverse origin direction triangles features = .ok (some f) ∧
        intersects origin direction t ≠ .degenerate := by
      cases hhit : intersects origin direction t with
      | degenerate =>
        rw [hhit] at h
        cases h
      | miss =>
        rw [hhit] at h
        exact ⟨features, h, by simp⟩
      | hit edges =>
        rw [hhit] at h
        cases hcount : features.count edges with
        | error e =>
          simp only [hcount] at h
          cases h
        | ok features' =>
          simp only [hcount] at h
          exact ⟨features', h, by simp⟩
    obtain ⟨features', hrest, ht⟩ := hrest
    intro t' ht'
    rcases List.mem_cons.1 ht' with rfl | ht'
    · exact ht
    · exact ih hrest t' ht'

/-- A point is inside of a mesh if a ray from it that meets no edge crosses an odd number of triangles. -/
def RepoIndexedMesh.Inside (mesh : RepoIndexedMesh R) (p : RepoVector3D R) : Prop :=
  ∃ d, d ≠ 0 ∧ metWith mesh p d 1 = 0 ∧ metWith mesh p d 2 = 0 ∧ metWith mesh p d 0 % 2 = 1

private theorem inside_iff (hclosed : isClosedAndManifold mesh.faces = true)
    (hp : ∀ k < mesh.faces.length, p ∉ (mesh.getTriangle k).points) (hd : d ≠ 0) (hedges : metWith mesh p d 1 = 0)
    (hcorners : metWith mesh p d 2 = 0) : mesh.Inside p ↔ metWith mesh p d 0 % 2 = 1 := by
  refine ⟨?_, fun h => ⟨d, hd, hedges, hcorners, h⟩⟩
  rintro ⟨e, he, hedges', hcorners', hodd⟩
  obtain ⟨w, hw⟩ : ∃ w, Generic (seenVertices mesh p) mesh.faces w := exists_generic fun _ => zero_notMem_faces hp
  have heven := even_countP_enters hclosed (fun _ => zero_notMem_faces hp) hw d e
  have hd0 := boundaryFeatures_eq_zero hd hedges hcorners w
  have he0 := boundaryFeatures_eq_zero he hedges' hcorners' w
  rw [countP_enters, countP_enters] at heven
  rw [boundaryFeatures, hedges, hcorners] at hd0
  rw [boundaryFeatures, hedges', hcorners'] at he0
  have := Nat.even_iff.1 heven
  omega

/-- From a point outside of a box, some ray leads away from it. -/
theorem exists_away {box : BoundingBox R} (h : ¬ box.Contains p) :
    ∃ d : RepoVector3D R, d ≠ 0 ∧ ∀ s : R, 0 ≤ s → ¬ box.Contains (p + d * s) := by
  have hne : ∀ {d : RepoVector3D R}, d.x ≠ 0 ∨ d.y ≠ 0 ∨ d.z ≠ 0 → d ≠ 0 := by
    rintro d hd rfl
    simp at hd
  unfold BoundingBox.Contains at h ⊢
  rw [not_and_or, not_and_or, not_and_or, not_and_or, not_and_or, not_le, not_le, not_le, not_le, not_le, not_le] at h
  rcases h with (h | h) | (h | h) | h | h
  · refine ⟨⟨-1, 0, 0⟩, hne (by simp), fun s hs hin => ?_⟩
    simp only [RepoVector3D.add_x, RepoVector3D.mul_x] at hin
    linarith [hin.1.1]
  · refine ⟨⟨1, 0, 0⟩, hne (by simp), fun s hs hin => ?_⟩
    simp only [RepoVector3D.add_x, RepoVector3D.mul_x] at hin
    linarith [hin.1.2]
  · refine ⟨⟨0, -1, 0⟩, hne (by simp), fun s hs hin => ?_⟩
    simp only [RepoVector3D.add_y, RepoVector3D.mul_y] at hin
    linarith [hin.2.1.1]
  · refine ⟨⟨0, 1, 0⟩, hne (by simp), fun s hs hin => ?_⟩
    simp only [RepoVector3D.add_y, RepoVector3D.mul_y] at hin
    linarith [hin.2.1.2]
  · refine ⟨⟨0, 0, -1⟩, hne (by simp), fun s hs hin => ?_⟩
    simp only [RepoVector3D.add_z, RepoVector3D.mul_z] at hin
    linarith [hin.2.2.1]
  · refine ⟨⟨0, 0, 1⟩, hne (by simp), fun s hs hin => ?_⟩
    simp only [RepoVector3D.add_z, RepoVector3D.mul_z] at hin
    linarith [hin.2.2.2]

private theorem not_inside_of_not_contains (h : Traversable mesh bvh) (hclosed : isClosedAndManifold mesh.faces = true)
    (hp : ∀ k < mesh.faces.length, p ∉ (mesh.getTriangle k).points) (hout : ¬ (bvh.nodes 0).boundingBoxProxy.Contains p) :
    ¬ mesh.Inside p := by
  obtain ⟨d, hd, haway⟩ := exists_away hout
  have hmisses : ∀ k, metWith mesh p d k = 0 := by
    intro k
    unfold metWith
    rw [countP_faces, List.countP_eq_zero]
    intro i hi hmeets
    rw [decide_eq_true_iff] at hmeets
    have hi := List.mem_range.1 hi
    obtain ⟨s, hs, hpoint⟩ := Meets.exists_mem_points (p := p) (t := mesh.getTriangle i) hmeets.1 hd
    exact haway s hs (h.wellFormed.root_contains h.encloses hi ⟨hi, hpoint⟩)
  rw [inside_iff hclosed hp hd (hmisses 1) (hmisses 2), hmisses 0]
  exact Nat.zero_ne_one

omit [ExactReal R] in
private theorem exists_cast_of_castRays {cast : RepoVector3D R → Except String (Option Features)} {random : ℕ → RepoVector3D R}
    {n drawn drawn' : ℕ} {d d' : RepoVector3D R} {features : Features}
    (h : castRays cast random n d drawn = .ok (features, d', drawn')) :
    cast d' = .ok (some features) ∧ (d' = d ∨ ∃ k, d' = random k) := by
  induction n generalizing d drawn with
  | zero => cases h
  | succ n ih =>
    rw [castRays] at h
    cases hcast : cast d with
    | error e =>
      rw [hcast] at h
      cases h
    | ok result =>
      rw [hcast] at h
      cases result with
      | none =>
        obtain ⟨hd', hrandom | hrandom⟩ := ih h
        exacts [⟨hd', .inr ⟨drawn, hrandom⟩⟩, ⟨hd', .inr hrandom⟩]
      | some f =>
        cases h
        exact ⟨hcast, .inl rfl⟩

omit [ExactReal R] in
/-- If all rays from a point have the parity that tells whether it is inside, the loop tells whether all points are. -/
theorem containsAll_eq_true_iff {cast : RepoVector3D R → RepoVector3D R → Except String (Option Features)}
    {random : ℕ → RepoVector3D R} {inside : RepoVector3D R → Prop} {points : List (RepoVector3D R)}
    (h : ∀ p ∈ points, ∀ k f, cast p (random k) = .ok (some f) → (f.numFeatures % 2 = 1 ↔ inside p)) {k drawn : ℕ} {b : Bool}
    (hrun : containsAll cast random points (random k) drawn = .ok b) : b = true ↔ ∀ p ∈ points, inside p := by
  induction points generalizing k drawn with
  | nil =>
    cases hrun
    simp
  | cons p points ih =>
    rw [containsAll] at hrun
    cases hcast : castRays (cast p) random (DEGEN_RETRY_LIMIT + 2) (random k) drawn with
    | error e =>
      rw [hcast] at hrun
      cases hrun
    | ok result =>
      obtain ⟨f, d, drawn'⟩ := result
      rw [hcast] at hrun
      obtain ⟨hcounted, hd⟩ := exists_cast_of_castRays hcast
      obtain ⟨k', rfl⟩ : ∃ k', d = random k' := by
        rcases hd with rfl | hd
        exacts [⟨k, rfl⟩, hd]
      have hparity := h p List.mem_cons_self k' f hcounted
      rw [List.forall_mem_cons, ← hparity]
      by_cases heven : f.numFeatures % 2 = 0
      · have hfalse : (.ok false : Except String Bool) = .ok b := by
          rw [← hrun]
          exact (if_pos heven).symm
        cases hfalse
        simp [heven]
      · have hrest : containsAll cast random points (random k') drawn' = .ok b := by
          rw [← hrun]
          exact (if_neg heven).symm
        rw [ih (fun q hq => h q (List.mem_cons_of_mem _ hq)) hrest]
        exact (and_iff_right (by omega)).symm

/-- A ray from `p` that meets no edge of the mesh. -/
structure InGeneralPosition (rays : RayCasting R) (mesh : RepoIndexedMesh R) (bvh : Bvh R) (p d : RepoVector3D R) : Prop where
  ne_zero : d ≠ 0
  inReach : InReach rays bvh p d
  edges : metWith mesh p d 1 = 0
  corners : metWith mesh p d 2 = 0

/-- Bounds that some points reach on every side. -/
def Attained (points : List (RepoVector3D R)) (bmin bmax : RepoVector3D R) : Prop :=
  ∀ i, (∃ p ∈ points, component p i = component bmin i) ∧ ∃ p ∈ points, component p i = component bmax i

private theorem InGeneralPosition.numFeatures_odd_iff (hray : InGeneralPosition rays mesh bvh p d) (h : Traversable mesh bvh)
    (hclosed : isClosedAndManifold mesh.faces = true) (hfuel : bvh.nodeCount ≤ fuel)
    (hp : ∀ k < mesh.faces.length, p ∉ (mesh.getTriangle k).points) {f : Features}
    (hcast : rays.castRay fuel ⟨bvh, mesh.getTriangle⟩ p d = .ok (some f)) : f.numFeatures % 2 = 1 ↔ mesh.Inside p := by
  obtain ⟨t, ht, hheight⟩ := h.shallow
  rw [castRay_eq ⟨bvh, mesh.getTriangle⟩ ht hheight hfuel] at hcast
  have hclean := h.castCleanly hfuel hray.ne_zero hray.inReach fun k hk =>
    ne_degenerate_of_traverse hcast _ (List.mem_map_of_mem hk)
  rw [hclean.traverse_eq h.wellFormed h.encloses hp] at hcast
  cases hcast
  rw [inside_iff hclosed hp hclean.ne_zero hray.edges hray.corners, Features.numFeatures, hray.edges, hray.corners]
  simp

/-- If the random rays meet no edges, the test tells whether all points are inside of a closed mesh, whatever they are. -/
theorem contains_iff_inside (h : Traversable mesh bvh) (hclosed : isClosedAndManifold mesh.faces = true)
    (hfuel : bvh.nodeCount ≤ fuel) {random : ℕ → RepoVector3D R} {vertices : List (RepoVector3D R)} {indices : List ℕ}
    {bounds : RepoBounds R} {offset : RepoVector3D R}
    (hbounds : Attained (indices.map fun i => vertices.getD i 0 + offset) (bounds.bmin + offset) (bounds.bmax + offset))
    (hp : ∀ i ∈ indices, ∀ k < mesh.faces.length, vertices.getD i 0 + offset ∉ (mesh.getTriangle k).points)
    (hrandom : ∀ i ∈ indices, ∀ j, InGeneralPosition rays mesh bvh (vertices.getD i 0 + offset) (random j)) {b : Bool}
    (hrun : rays.contains fuel random vertices indices bounds ⟨bvh, mesh.getTriangle⟩ offset = .ok b) :
    b = true ↔ ∀ i ∈ indices, mesh.Inside (vertices.getD i 0 + offset) := by
  obtain ⟨t, ht, hheight⟩ := h.shallow
  have hinside : ∀ i ∈ indices, mesh.Inside (vertices.getD i 0 + offset) →
      (bvh.nodes 0).boundingBoxProxy.Contains (vertices.getD i 0 + offset) := by
    intro i hi hin
    by_contra hout
    exact not_inside_of_not_contains h hclosed (hp i hi) hout hin
  rw [RayCasting.contains] at hrun
  split_ifs at hrun with hfits
  · rw [← List.forall_mem_map (f := fun i => vertices.getD i 0 + offset) (P := fun p => mesh.Inside p)]
    refine containsAll_eq_true_iff (fun p hmem j f hcast => ?_) hrun
    obtain ⟨i, hi, rfl⟩ := List.mem_map.1 hmem
    exact (hrandom i hi j).numFeatures_odd_iff h hclosed hfuel (hp i hi) hcast
  · cases hrun
    refine iff_of_false Bool.false_ne_true fun hall => hfits ?_
    have hin : ∀ p ∈ indices.map fun i => vertices.getD i 0 + offset, (bvh.nodes 0).boundingBoxProxy.Contains p := by
      intro p hmem
      obtain ⟨i, hi, rfl⟩ := List.mem_map.1 hmem
      exact hinside i hi (hall i hi)
    obtain ⟨⟨p0, hp0, hx0⟩, q0, hq0, hx1⟩ := hbounds 0
    obtain ⟨⟨p1, hp1, hy0⟩, q1, hq1, hy1⟩ := hbounds 1
    obtain ⟨⟨p2, hp2, hz0⟩, q2, hq2, hz1⟩ := hbounds 2
    exact encapsulates_eq_true_iff.2 ⟨⟨(hin p0 hp0).1.1.trans hx0.le, hx1.ge.trans (hin q0 hq0).1.2⟩,
      ⟨(hin p1 hp1).2.1.1.trans hy0.le, hy1.ge.trans (hin q1 hq1).2.1.2⟩,
      ⟨(hin p2 hp2).2.2.1.trans hz0.le, hz1.ge.trans (hin q2 hq2).2.2.2⟩⟩

end Verdict

/-! ### A tetrahedron -/

section Tetrahedron

/-- The box of the tetrahedron. -/
def tetrahedronBox : BoundingBox ℝ := ⟨⟨0, 0, 0⟩, ⟨8, 8, 8⟩⟩

def tetrahedronBvh : Bvh ℝ := .chain (fun _ => tetrahedronBox.bounds) tetrahedronBox.bounds 4

def insidePoint : RepoVector3D ℝ := ⟨1, 1, 1⟩

noncomputable def obliqueRay : RepoVector3D ℝ := ⟨1, 1 / 2, 1 / 4⟩

/-- Rays without padding, up to the size of the box. -/
def unpaddedRays : RayCasting ℝ where
  addUlpMagnitude := id
  pads := fun _ => ⟨fun _ => le_rfl, fun _ => le_rfl⟩
  max := 8

private theorem contains_tetrahedronBox {k : ℕ} {p : RepoVector3D ℝ} (hp : p ∈ (grazedMesh.getTriangle k).points) :
    tetrahedronBox.Contains p := by
  have hvertex : ∀ i, tetrahedronBox.Contains (grazedMesh.vertices.getD i 0) := by
    intro i
    match i with
    | 0 | 1 | 2 | 3 => norm_num [grazedMesh, tetrahedronBox, BoundingBox.Contains]
    | _ + 4 => norm_num [grazedMesh, tetrahedronBox, BoundingBox.Contains]
  obtain ⟨u, v, w, hu, hv, hw, hsum, rfl⟩ := hp
  have hbetween : ∀ {a b c : ℝ}, 0 ≤ a ∧ a ≤ 8 → 0 ≤ b ∧ b ≤ 8 → 0 ≤ c ∧ c ≤ 8 →
      0 ≤ a * u + b * v + c * w ∧ a * u + b * v + c * w ≤ 8 := by
    rintro a b c ⟨ha, ha'⟩ ⟨hb, hb'⟩ ⟨hc, hc'⟩
    refine ⟨add_nonneg (add_nonneg (mul_nonneg ha hu) (mul_nonneg hb hv)) (mul_nonneg hc hw), ?_⟩
    have h1 := mul_le_mul_of_nonneg_right ha' hu
    have h2 := mul_le_mul_of_nonneg_right hb' hv
    have h3 := mul_le_mul_of_nonneg_right hc' hw
    linarith
  have hA := hvertex ((grazedMesh.faces.getD k (.triangle 0 0 0)).get 0)
  have hB := hvertex ((grazedMesh.faces.getD k (.triangle 0 0 0)).get 1)
  have hC := hvertex ((grazedMesh.faces.getD k (.triangle 0 0 0)).get 2)
  exact ⟨hbetween hA.1 hB.1 hC.1, hbetween hA.2.1 hB.2.1 hC.2.1, hbetween hA.2.2 hB.2.2 hC.2.2⟩

private theorem traversable_tetrahedron : Traversable grazedMesh tetrahedronBvh where
  shallow := ⟨_, Bvh.chain_isTree _ _ 3, by decide⟩
  encloses := Bvh.chain_encloses fun _ _ hp => ⟨contains_tetrahedronBox hp.2, contains_tetrahedronBox hp.2⟩

private theorem metWith_tetrahedron : metWith grazedMesh insidePoint obliqueRay 0 = 1 ∧
    metWith grazedMesh insidePoint obliqueRay 1 = 0 ∧ metWith grazedMesh insidePoint obliqueRay 2 = 0 := by
  refine ⟨?_, ?_, ?_⟩ <;>
    norm_num [metWith, Meets, edgesMet, faceTriangle, seenVertices, triple, RepoVector3D.dotProduct,
      RepoVector3D.crossProduct, grazedMesh, insidePoint, obliqueRay, List.countP_cons]

private theorem insidePoint_notMem : ∀ k < grazedMesh.faces.length, insidePoint ∉ (grazedMesh.getTriangle k).points := by
  rintro k hk ⟨u, v, w, hu, hv, hw, hsum, heq⟩
  have hk : k < 4 := hk
  have hx := congrArg RepoVector3D.x heq
  have hy := congrArg RepoVector3D.y heq
  have hz := congrArg RepoVector3D.z heq
  obtain rfl | rfl | rfl | rfl : k = 0 ∨ k = 1 ∨ k = 2 ∨ k = 3 := by omega
  all_goals
    simp [grazedMesh, insidePoint, RepoIndexedMesh.getTriangle] at hx hy hz
    try linarith

private theorem inGeneralPosition_tetrahedron :
    InGeneralPosition unpaddedRays grazedMesh tetrahedronBvh insidePoint obliqueRay where
  ne_zero := fun h => absurd (congrArg RepoVector3D.x h) (by norm_num [obliqueRay])
  inReach := by
    intro i _ s hs hin
    have hbox : (tetrahedronBvh.nodes i).boundingBoxProxy = tetrahedronBox := by
      rcases Bvh.chain_nodes (fun _ => tetrahedronBox.bounds) tetrahedronBox.bounds 4 i with h | ⟨-, h, -⟩ <;>
        rw [BvhNode.boundingBoxProxy, tetrahedronBvh, h] <;> rfl
    rw [hbox] at hin
    have hx : 1 + 1 * s ≤ 8 := hin.1.2
    show s ≤ 8
    linarith
  edges := metWith_tetrahedron.2.1
  corners := metWith_tetrahedron.2.2

private theorem notDegenerate_tetrahedron : ∀ k < grazedMesh.faces.length,
    intersects insidePoint obliqueRay (grazedMesh.getTriangle k) ≠ .degenerate := by
  intro k hk
  have hk : k < 4 := hk
  refine intersects_ne_degenerate (M := 7) ?_ ?_ ?_ ?_
  · norm_num [obliqueRay, RepoVector3D.ext_iff]
  · intro i
    fin_cases i <;> norm_num [component, obliqueRay]
  · intro c hc i
    obtain rfl | rfl | rfl | rfl : k = 0 ∨ k = 1 ∨ k = 2 ∨ k = 3 := by omega
    all_goals
      simp [triangleCorners, seenFrom, grazedMesh, insidePoint, RepoIndexedMesh.getTriangle] at hc
      rcases hc with rfl | rfl | rfl <;> fin_cases i <;> norm_num [component]
  · obtain rfl | rfl | rfl | rfl : k = 0 ∨ k = 1 ∨ k = 2 ∨ k = 3 := by omega
    all_goals
      norm_num [triple, RepoVector3D.dotProduct, RepoVector3D.crossProduct, grazedMesh, insidePoint, obliqueRay,
        RepoIndexedMesh.getTriangle]

/-- The ray counts the triangle that it crosses. -/
theorem castRay_eq_metWith_tetrahedron : unpaddedRays.castRay 7 ⟨tetrahedronBvh, grazedMesh.getTriangle⟩ insidePoint obliqueRay =
    .ok (some ⟨metWith grazedMesh insidePoint obliqueRay 0, metWith grazedMesh insidePoint obliqueRay 1,
      metWith grazedMesh insidePoint obliqueRay 2⟩) :=
  castRay_eq_metWith traversable_tetrahedron le_rfl insidePoint_notMem inGeneralPosition_tetrahedron.ne_zero
    inGeneralPosition_tetrahedron.inReach notDegenerate_tetrahedron

private theorem contains_tetrahedron : unpaddedRays.contains 7 (fun _ => obliqueRay) [insidePoint] [0] ⟨insidePoint, insidePoint⟩
    ⟨tetrahedronBvh, grazedMesh.getTriangle⟩ 0 = .ok true := by
  have hne := inGeneralPosition_tetrahedron.ne_zero
  have hreach := inGeneralPosition_tetrahedron.inReach
  have hcast : unpaddedRays.castRay 7 ⟨tetrahedronBvh, grazedMesh.getTriangle⟩ insidePoint obliqueRay =
      .ok (some ⟨1, 0, 0⟩) := by
    have hclean := traversable_tetrahedron.castCleanly (le_refl 7) hne hreach fun k hk =>
      notDegenerate_tetrahedron k ((traversable_tetrahedron.visitsMet (le_refl 7) hreach).lt k hk)
    have htraverse := hclean.traverse_eq traversable_tetrahedron.wellFormed traversable_tetrahedron.encloses insidePoint_notMem
    rw [metWith_tetrahedron.1, metWith_tetrahedron.2.1, metWith_tetrahedron.2.2] at htraverse
    obtain ⟨t, ht, hheight⟩ := traversable_tetrahedron.shallow
    exact (castRay_eq ⟨tetrahedronBvh, grazedMesh.getTriangle⟩ ht hheight (le_refl 7) _ _).trans htraverse
  have hfits : encapsulates (tetrahedronBvh.nodes 0) (insidePoint + 0) (insidePoint + 0) = true := by
    have hbox : tetrahedronBox.Contains insidePoint := by norm_num [tetrahedronBox, insidePoint, BoundingBox.Contains]
    rw [RepoVector3D.add_zero, encapsulates_eq_true_iff]
    exact hbox
  rw [RayCasting.contains, if_pos hfits]
  simp only [List.map_cons, List.map_nil, List.getD_cons_zero, RepoVector3D.add_zero, containsAll, DEGEN_RETRY_LIMIT, castRays, hcast]
  rfl

/-- The point is inside. -/
theorem contains_iff_inside_tetrahedron : grazedMesh.Inside insidePoint := by
  have hpoint : ∀ i ∈ [0], [insidePoint].getD i 0 + 0 = insidePoint := by simp
  have h := (contains_iff_inside traversable_tetrahedron (by decide) le_rfl ?_ ?_ ?_ contains_tetrahedron).1 rfl 0 (by simp)
  · simpa using h
  · intro i
    simp
  · intro i hi
    rw [hpoint i hi]
    exact insidePoint_notMem
  · intro i hi _
    rw [hpoint i hi]
    exact inGeneralPosition_tetrahedron

end Tetrahedron

end Bouncer.Clash
