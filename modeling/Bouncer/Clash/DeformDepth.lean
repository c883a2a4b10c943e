import Bouncer.Clash.DeformMesh

/-!
# The collision test of a penetration depth

`RepoDeformDepth::intersect(m)` decides whether the mesh `a`, moved by `m`, touches or swallows the mesh `b`, or is
swallowed by it.  It never moves `a`: the offset is added to the boxes, to the triangles and, in `contained`, to the
vertices of `a`.

`contained` drops the offset where it tests the vertices of `b` against the closed groups of `a`.  So the answer is
that for the moved mesh as long as this test does not matter, or has the same result with and without the offset
(`intersect_moved_iff`).
-/

namespace Bouncer

/-! ### Moving a hierarchy -/

section Moved

variable {R : Type*} [Add R]

/-- `operator+(node, offset)`. -/
def BvhNode.addOffset (node : BvhNode R) (offset : RepoVector3D R) : BvhNode R :=
  { node with
    bounds := ![node.bounds 0 + offset.x, node.bounds 1 + offset.x, node.bounds 2 + offset.y,
      node.bounds 3 + offset.y, node.bounds 4 + offset.z, node.bounds 5 + offset.z] }

/-- The hierarchy with every box moved. -/
def Bvh.moved (b : Bvh R) (offset : RepoVector3D R) : Bvh R :=
  { b with nodes := fun i => (b.nodes i).addOffset offset }

theorem Bvh.Spells.moved {b : Bvh R} {t : Library.FullTree ℕ} (h : b.Spells t) (offset : RepoVector3D R) :
    (b.moved offset).Spells t := by
  induction t with
  | leaf i => exact h
  | branch i l r ihl ihr => exact ⟨h.1, h.2.1, h.2.2.1, ihl h.2.2.2.1, ihr h.2.2.2.2⟩

theorem Bvh.IsTree.moved {b : Bvh R} {n : ℕ} {t : Library.FullTree ℕ} (h : b.IsTree n t) (offset : RepoVector3D R) :
    (b.moved offset).IsTree n t := ⟨h.root, h.spells.moved offset, h.nodes, h.primitives⟩

end Moved

theorem BvhNode.addOffset_zero {R : Type*} [Field R] (node : BvhNode R) : node.addOffset 0 = node := by
  cases node with
  | mk bounds count first =>
    simp only [addOffset, RepoVector3D.zero_x, RepoVector3D.zero_y, RepoVector3D.zero_z, add_zero]
    congr 1
    funext i
    fin_cases i <;> rfl

end Bouncer

namespace Bouncer.Clash

variable {R : Type*}

namespace RepoDeformDepth

section Field

variable [ExactReal R]

def contactThreshold (a b : RepoTriangle R) : R :=
  let s := (RepoBounds.ofPoints [a.a, a.b, a.c, b.a, b.b, b.c]).size
  max (max s.x s.y) s.z * (1 / 10 ^ 9)

variable (geometry : Geometry R)

/-- Two triangles are in contact or in collision. -/
def touch (triA triB : RepoTriangle R) : Bool :=
  let d := geometry.closestPoints triA triB
  d.intersects || decide (d.magnitude < contactThreshold triA triB)

variable (a b : DeformMesh R)

/-- The traversal of two groups. -/
def intersectGroups (m : RepoVector3D R) (ga gb : Faces R) : Option Bool :=
  (Traversal.traverse ga.bvh gb.bvh (fun x y => Predicates.contacts (x.addOffset m) y)
    (fun p intersecting =>
      if touch geometry (a.groupTriangle ga p.1 + m) (b.groupTriangle gb p.2) then (true, true)
      else (intersecting, false))
    (ga.bvh.nodeCount * gb.bvh.nodeCount) false).map Prod.fst

/-- The loops of `intersect` over the groups, up to the first pair that intersects. -/
def intersectAny (m : RepoVector3D R) : List (Faces R × Faces R) → Option Bool
  | [] => some false
  | (ga, gb) :: rest =>
    (intersectGroups geometry a b m ga gb).bind fun intersecting => if intersecting then some true else intersectAny m rest

/-- The result of the loops. -/
def touching (m : RepoVector3D R) : Option Bool :=
  intersectAny geometry a b m (a.faceGroups.product b.faceGroups)

def contained (m : RepoVector3D R) : Bool :=
  (a.faceGroups.product b.faceGroups).any fun p =>
    (p.1.closed && geometry.contains b._vertices p.2.orderedIndices p.2.getBounds (a.view p.1) 0) ||
      (p.2.closed && geometry.contains a._vertices p.1.orderedIndices p.1.getBounds (b.view p.2) m)

def intersect (m : RepoVector3D R) : Option Bool :=
  (touching geometry a b m).map fun intersecting => intersecting || contained geometry a b m

end Field

end RepoDeformDepth

/-! ### Moving a mesh -/

def Faces.moved [ExactReal R] (group : Faces R) (m : RepoVector3D R) : Faces R :=
  { group with bvh := group.bvh.moved m }

/-- The mesh with every vertex and every box moved. -/
def DeformMesh.moved [ExactReal R] (mesh : DeformMesh R) (m : RepoVector3D R) : DeformMesh R where
  vertices := mesh.vertices.map (· + m)
  faces := mesh.faces
  _vertices := mesh._vertices.map (· + m)
  faceGroups := mesh.faceGroups.map (·.moved m)

/-- The triangles of a group. -/
def DeformMesh.triangles [Field R] (mesh : DeformMesh R) (group : Faces R) : List (RepoTriangle R) :=
  (List.range group.length).map (mesh.groupTriangle group)

/-! ### The two halves of the test -/

namespace RepoDeformDepth

variable [ExactReal R] {geometry : Geometry R} {a b : DeformMesh R}

theorem intersectGroups_eq {ga gb : Faces R} {t u : Library.FullTree ℕ} {n k : ℕ} (ht : ga.bvh.IsTree n t)
    (hu : gb.bvh.IsTree k u) (m : RepoVector3D R) :
    intersectGroups geometry a b m ga gb = some
      ((Traversal.reached ga.bvh gb.bvh (fun x y => Predicates.contacts (x.addOffset m) y) t u).any fun p =>
        touch geometry (a.groupTriangle ga p.1 + m) (b.groupTriangle gb p.2)) := by
  have hcallback : (fun (p : ℕ × ℕ) (intersecting : Bool) =>
      if touch geometry (a.groupTriangle ga p.1 + m) (b.groupTriangle gb p.2) then (true, true)
      else (intersecting, false)) =
      fun p found => (found || touch geometry (a.groupTriangle ga p.1 + m) (b.groupTriangle gb p.2),
        touch geometry (a.groupTriangle ga p.1 + m) (b.groupTriangle gb p.2)) := by
    funext p found
    by_cases h : touch geometry (a.groupTriangle ga p.1 + m) (b.groupTriangle gb p.2) <;> simp [h]
  rw [intersectGroups, hcallback, Traversal.traverse_eq ht hu le_rfl, Library.visitUntil_flag]
  rfl

/-- The test ends for hierarchies that are trees. -/
theorem exists_intersect (ha : ∀ group ∈ a.faceGroups, ∃ n, group.bvh.WellFormed n)
    (hb : ∀ group ∈ b.faceGroups, ∃ n, group.bvh.WellFormed n) (m : RepoVector3D R) :
    ∃ r, intersect geometry a b m = some r := by
  have hany : ∀ pairs : List (Faces R × Faces R), (∀ p ∈ pairs, p.1 ∈ a.faceGroups ∧ p.2 ∈ b.faceGroups) →
      ∃ r, intersectAny geometry a b m pairs = some r := by
    intro pairs hpairs
    induction pairs with
    | nil => exact ⟨false, rfl⟩
    | cons p pairs ih =>
      obtain ⟨r, hr⟩ := ih fun q hq => hpairs q (List.mem_cons_of_mem _ hq)
      obtain ⟨hga, hgb⟩ := hpairs p List.mem_cons_self
      obtain ⟨n, t, ht⟩ := ha p.1 hga
      obtain ⟨k, u, hu⟩ := hb p.2 hgb
      rw [intersectAny, intersectGroups_eq ht hu m, Option.bind_some, hr]
      exact ⟨_, (apply_ite some _ _ _).symm⟩
  obtain ⟨r, hr⟩ := hany (a.faceGroups.product b.faceGroups) fun p hp => List.mem_product.1 hp
  exact ⟨_, by rw [intersect, touching, hr]; rfl⟩

private theorem groupTriangle_moved (ha : a.Valid) {ga : Faces R} (hga : ga ∈ a.faceGroups) (m : RepoVector3D R) {i : ℕ}
    (hi : i < ga.length) : (a.moved m).groupTriangle (ga.moved m) i = a.groupTriangle ga i + m := by
  have hlt : ga.start + i < a.faces.length := by
    have := ha.range ga hga
    omega
  exact ha.indexed.getTriangle_map (· + m) hlt

private theorem triangles_moved (ha : a.Valid) {ga : Faces R} (hga : ga ∈ a.faceGroups) (m : RepoVector3D R) :
    (a.moved m).triangles (ga.moved m) = (a.triangles ga).map fun t => (t + m : RepoTriangle R) := by
  unfold DeformMesh.triangles
  rw [List.map_map]
  refine List.map_congr_left ?_
  intro i hi
  exact groupTriangle_moved ha hga m (List.mem_range.1 hi)

variable (geometry) in
/-- Two groups touch under an offset as they do after moving the first. -/
private theorem intersectGroups_moved (ha : a.Valid) (hb : b.Valid) {ga gb : Faces R} (hga : ga ∈ a.faceGroups)
    (hgb : gb ∈ b.faceGroups) (m : RepoVector3D R) : ∃ r, intersectGroups geometry a b m ga gb = some r ∧
      intersectGroups geometry (a.moved m) b 0 (ga.moved m) gb = some r := by
  obtain ⟨t, ht⟩ := ha.wellFormed ga hga
  obtain ⟨u, hu⟩ := hb.wellFormed gb hgb
  refine ⟨_, intersectGroups_eq ht hu m, ?_⟩
  have hreached : Traversal.reached (ga.moved m).bvh gb.bvh (fun x y => Predicates.contacts (x.addOffset 0) y) t u =
      Traversal.reached ga.bvh gb.bvh (fun x y => Predicates.contacts (x.addOffset m) y) t u := by
    simp only [BvhNode.addOffset_zero]
    rfl
  rw [intersectGroups_eq (ht.moved m) hu 0, hreached]
  congr 1
  rw [Bool.eq_iff_iff, List.any_eq_true, List.any_eq_true]
  have htouch : ∀ p ∈ Traversal.reached ga.bvh gb.bvh (fun x y => Predicates.contacts (x.addOffset m) y) t u,
      (a.moved m).groupTriangle (ga.moved m) p.1 + (0 : RepoVector3D R) = a.groupTriangle ga p.1 + m := by
    intro p hp
    rw [groupTriangle_moved ha hga m (Traversal.lt_of_mem_reached ht hu hp).1, RepoTriangle.add_zero]
  constructor
  · rintro ⟨p, hp, h⟩
    exact ⟨p, hp, by rwa [htouch p hp] at h⟩
  · rintro ⟨p, hp, h⟩
    exact ⟨p, hp, by rwa [htouch p hp]⟩

variable (geometry) in
private theorem intersectAny_moved (ha : a.Valid) (hb : b.Valid) (m : RepoVector3D R)
    {pairs : List (Faces R × Faces R)} (h : ∀ p ∈ pairs, p.1 ∈ a.faceGroups ∧ p.2 ∈ b.faceGroups) :
    ∃ r, intersectAny geometry a b m pairs = some r ∧
      intersectAny geometry (a.moved m) b 0 (pairs.map fun p => (p.1.moved m, p.2)) = some r := by
  induction pairs with
  | nil => exact ⟨false, rfl, rfl⟩
  | cons p pairs ih =>
    obtain ⟨r, hr, hr'⟩ := ih fun q hq => h q (List.mem_cons_of_mem _ hq)
    obtain ⟨hga, hgb⟩ := h p List.mem_cons_self
    obtain ⟨s, hs, hs'⟩ := intersectGroups_moved geometry ha hb hga hgb m
    refine ⟨if s then true else r, ?_, ?_⟩
    · rw [intersectAny, hs, Option.bind_some, hr]
      cases s <;> rfl
    · rw [List.map_cons, intersectAny, hs', Option.bind_some, hr']
      cases s <;> rfl

private theorem product_moved (m : RepoVector3D R) : (a.moved m).faceGroups.product b.faceGroups =
    (a.faceGroups.product b.faceGroups).map fun p => (p.1.moved m, p.2) := by
  show (a.faceGroups.map (·.moved m)).flatMap _ = (a.faceGroups.flatMap _).map _
  rw [List.flatMap_map, List.map_flatMap]
  refine List.flatMap_congr ?_
  intro ga _
  rw [List.map_map]
  rfl

variable (geometry) in
private theorem touching_moved (ha : a.Valid) (hb : b.Valid) (m : RepoVector3D R) :
    ∃ r, touching geometry a b m = some r ∧ touching geometry (a.moved m) b 0 = some r := by
  unfold touching
  rw [product_moved]
  exact intersectAny_moved geometry ha hb m fun p hp => List.pair_mem_product.1 hp

variable (geometry a b) in
/-- Two triangles touch, of `a` with an offset and of `b`, that the traversal of their groups pairs. -/
def Touches (m : RepoVector3D R) : Prop :=
  ∃ ga ∈ a.faceGroups, ∃ gb ∈ b.faceGroups, ∃ i j, (∃ pairs, Traversal.collect ga.bvh gb.bvh
    (fun x y => Predicates.contacts (x.addOffset m) y) = some pairs ∧ (i, j) ∈ pairs) ∧
    touch geometry (a.groupTriangle ga i + m) (b.groupTriangle gb j) = true

private theorem intersectGroups_iff {ga gb : Faces R} {n k : ℕ} (hga : ga.bvh.WellFormed n)
    (hgb : gb.bvh.WellFormed k) (m : RepoVector3D R) :
    intersectGroups geometry a b m ga gb = some true ↔ ∃ i j, (∃ pairs, Traversal.collect ga.bvh gb.bvh
      (fun x y => Predicates.contacts (x.addOffset m) y) = some pairs ∧ (i, j) ∈ pairs) ∧
      touch geometry (a.groupTriangle ga i + m) (b.groupTriangle gb j) = true := by
  obtain ⟨t, ht⟩ := hga
  obtain ⟨u, hu⟩ := hgb
  rw [intersectGroups_eq ht hu, Option.some_inj, List.any_eq_true]
  constructor
  · rintro ⟨⟨i, j⟩, hp, h⟩
    exact ⟨i, j, ⟨_, Traversal.collect_eq ht hu _, hp⟩, h⟩
  · rintro ⟨i, j, ⟨pairs, hpairs, hp⟩, h⟩
    rw [Traversal.collect_eq ht hu] at hpairs
    cases hpairs
    exact ⟨(i, j), hp, h⟩

private theorem intersectAny_iff {m : RepoVector3D R} {pairs : List (Faces R × Faces R)}
    (h : ∀ p ∈ pairs, (intersectGroups geometry a b m p.1 p.2).isSome) :
    intersectAny geometry a b m pairs = some true ↔
      ∃ p ∈ pairs, intersectGroups geometry a b m p.1 p.2 = some true := by
  induction pairs with
  | nil => simp [intersectAny]
  | cons p pairs ih =>
    obtain ⟨r, hr⟩ := Option.isSome_iff_exists.1 (h p List.mem_cons_self)
    have ih := ih fun q hq => h q (List.mem_cons_of_mem _ hq)
    rw [intersectAny, hr, Option.bind_some, List.exists_mem_cons_iff]
    cases r with
    | true => simp [hr]
    | false => simp [hr, ih]

private theorem touching_iff (ha : a.Valid) (hb : b.Valid) (m : RepoVector3D R) :
    touching geometry a b m = some true ↔ Touches geometry a b m := by
  have hsome : ∀ p ∈ a.faceGroups.product b.faceGroups, (intersectGroups geometry a b m p.1 p.2).isSome := by
    intro p hp
    obtain ⟨hga, hgb⟩ := List.pair_mem_product.1 hp
    obtain ⟨r, hr, -⟩ := intersectGroups_moved geometry ha hb hga hgb m
    rw [hr]
    rfl
  rw [touching, intersectAny_iff hsome]
  constructor
  · rintro ⟨⟨ga, gb⟩, hp, h⟩
    obtain ⟨hga, hgb⟩ := List.pair_mem_product.1 hp
    exact ⟨ga, hga, gb, hgb, (intersectGroups_iff (ha.wellFormed ga hga) (hb.wellFormed gb hgb) m).1 h⟩
  · rintro ⟨ga, hga, gb, hgb, h⟩
    exact ⟨(ga, gb), List.pair_mem_product.2 ⟨hga, hgb⟩,
      (intersectGroups_iff (ha.wellFormed ga hga) (hb.wellFormed gb hgb) m).2 h⟩

/-! ### Containment -/

/-- A relation between the triangles of a closed mesh and the points inside it does not depend on where they are. -/
def Invariant (Inside : List (RepoTriangle R) → RepoVector3D R → Prop) : Prop :=
  ∀ triangles p m, Inside (triangles.map fun t => (t + m : RepoTriangle R)) (p + m) ↔ Inside triangles p

variable (geometry a b) in
/-- `contains` says whether the vertices of a group of `b`, with an offset, are inside a closed group of `a`. -/
def ContainsCorrect (Inside : List (RepoTriangle R) → RepoVector3D R → Prop) : Prop :=
  ∀ ga ∈ a.faceGroups, ga.closed = true → ∀ gb ∈ b.faceGroups, ∀ offset,
    geometry.contains b._vertices gb.orderedIndices gb.getBounds (a.view ga) offset = true ↔
      ∀ i ∈ gb.orderedIndices, Inside (a.triangles ga) (b._vertices.getD i 0 + offset)

variable (a b) in
/-- A group of `b`, with an offset, is inside a closed group of `a`. -/
def Swallows (Inside : List (RepoTriangle R) → RepoVector3D R → Prop) (offset : RepoVector3D R) : Prop :=
  ∃ ga ∈ a.faceGroups, ga.closed = true ∧ ∃ gb ∈ b.faceGroups, ∀ i ∈ gb.orderedIndices,
    Inside (a.triangles ga) (b._vertices.getD i 0 + offset)

variable {Inside : List (RepoTriangle R) → RepoVector3D R → Prop}

private theorem contained_iff (hab : ContainsCorrect geometry a b Inside) (hba : ContainsCorrect geometry b a Inside)
    (m : RepoVector3D R) : contained geometry a b m = true ↔ Swallows a b Inside 0 ∨ Swallows b a Inside m := by
  unfold contained
  rw [List.any_eq_true]
  constructor
  · rintro ⟨⟨ga, gb⟩, hp, h⟩
    obtain ⟨hga, hgb⟩ := List.pair_mem_product.1 hp
    rw [Bool.or_eq_true, Bool.and_eq_true, Bool.and_eq_true] at h
    rcases h with ⟨hclosed, h⟩ | ⟨hclosed, h⟩
    · exact Or.inl ⟨ga, hga, hclosed, gb, hgb, (hab ga hga hclosed gb hgb 0).1 h⟩
    · exact Or.inr ⟨gb, hgb, hclosed, ga, hga, (hba gb hgb hclosed ga hga m).1 h⟩
  · rintro (⟨ga, hga, hclosed, gb, hgb, h⟩ | ⟨gb, hgb, hclosed, ga, hga, h⟩)
    · refine ⟨(ga, gb), List.pair_mem_product.2 ⟨hga, hgb⟩, ?_⟩
      rw [Bool.or_eq_true, Bool.and_eq_true]
      exact Or.inl ⟨hclosed, (hab ga hga hclosed gb hgb 0).2 h⟩
    · refine ⟨(ga, gb), List.pair_mem_product.2 ⟨hga, hgb⟩, ?_⟩
      rw [Bool.or_eq_true, Bool.and_eq_true, Bool.and_eq_true]
      exact Or.inr ⟨hclosed, (hba gb hgb hclosed ga hga m).2 h⟩

private theorem swallows_moved_left (hinside : Invariant Inside) (ha : a.Valid) (m : RepoVector3D R) :
    Swallows (a.moved m) b Inside 0 ↔ Swallows a b Inside (0 - m) := by
  have hpoint : ∀ ga ∈ a.faceGroups, ∀ p : RepoVector3D R,
      Inside ((a.moved m).triangles (ga.moved m)) (p + 0) ↔ Inside (a.triangles ga) (p + (0 - m)) := by
    intro ga hga p
    have hp : p + 0 = p + (0 - m) + m := by ext <;> simp
    rw [triangles_moved ha hga m, hp]
    exact hinside _ _ _
  constructor
  · rintro ⟨ga', hga', hclosed, gb, hgb, h⟩
    obtain ⟨ga, hga, rfl⟩ := List.mem_map.1 hga'
    exact ⟨ga, hga, hclosed, gb, hgb, fun i hi => (hpoint ga hga _).1 (h i hi)⟩
  · rintro ⟨ga, hga, hclosed, gb, hgb, h⟩
    exact ⟨ga.moved m, List.mem_map_of_mem hga, hclosed, gb, hgb, fun i hi => (hpoint ga hga _).2 (h i hi)⟩

private theorem swallows_moved_right (ha : a.Valid) (m : RepoVector3D R) :
    Swallows b (a.moved m) Inside 0 ↔ Swallows b a Inside m := by
  have hvertex : ∀ ga ∈ a.faceGroups, ∀ i ∈ ga.orderedIndices,
      (a.moved m)._vertices.getD i 0 + 0 = a._vertices.getD i 0 + m := by
    intro ga hga i hi
    have hlt := ha.orderedIndices ga hga i hi
    have hget : (a.moved m)._vertices.getD i 0 = a._vertices.getD i 0 + m := by
      show (a._vertices.map (· + m)).getD i 0 = _
      rw [List.getD_eq_getElem _ _ hlt, List.getD_eq_getElem _ _ (by rwa [List.length_map]), List.getElem_map]
    rw [hget, RepoVector3D.add_zero]
  constructor
  · rintro ⟨gb, hgb, hclosed, ga', hga', h⟩
    obtain ⟨ga, hga, rfl⟩ := List.mem_map.1 hga'
    exact ⟨gb, hgb, hclosed, ga, hga, fun i hi => hvertex ga hga i hi ▸ h i hi⟩
  · rintro ⟨gb, hgb, hclosed, ga, hga, h⟩
    exact ⟨gb, hgb, hclosed, ga.moved m, List.mem_map_of_mem hga, fun i hi => (hvertex ga hga i hi).symm ▸ h i hi⟩

/-- The answer for an offset is that for the moved mesh exactly if the meshes touch, or `a` is swallowed, or it makes
no difference for the groups of `b` in closed groups of `a` whether the offset is used. -/
theorem intersect_moved_iff (hinside : Invariant Inside) (ha : a.Valid) (hb : b.Valid) (m : RepoVector3D R)
    (hab : ContainsCorrect geometry a b Inside) (hba : ContainsCorrect geometry b a Inside)
    (hab' : ContainsCorrect geometry (a.moved m) b Inside) (hba' : ContainsCorrect geometry b (a.moved m) Inside) :
    ∃ r r', intersect geometry a b m = some r ∧ intersect geometry (a.moved m) b 0 = some r' ∧
      (r = r' ↔ Touches geometry a b m ∨ Swallows b a Inside m ∨
        (Swallows a b Inside 0 ↔ Swallows a b Inside (0 - m))) := by
  rw [← touching_iff ha hb m]
  obtain ⟨s, hs, hs'⟩ := touching_moved geometry ha hb m
  refine ⟨_, _, by rw [intersect, hs]; rfl, by rw [intersect, hs']; rfl, ?_⟩
  have hcontained := contained_iff hab hba m
  have hcontained' := contained_iff hab' hba' 0
  rw [swallows_moved_left hinside ha, swallows_moved_right ha] at hcontained'
  rw [hs]
  cases s with
  | true => simp
  | false =>
    show (false || contained geometry a b m) = (false || contained geometry (a.moved m) b 0) ↔ _
    rw [Bool.false_or, Bool.false_or, Bool.eq_iff_iff, hcontained, hcontained']
    by_cases hswallowed : Swallows b a Inside m <;> simp [hswallowed]

/-! ### A triangle in a tetrahedron -/

/-- Being inside a convex closed mesh: in each direction some corner of the mesh is at least as far as the point. -/
def InConvexMesh (triangles : List (RepoTriangle ℝ)) (p : RepoVector3D ℝ) : Prop :=
  ∀ n : RepoVector3D ℝ, ∃ t ∈ triangles, ∃ c ∈ [t.a, t.b, t.c], n.dotProduct p ≤ n.dotProduct c

private theorem invariant_inConvexMesh : Invariant InConvexMesh := by
  have hdot : ∀ n p c m : RepoVector3D ℝ,
      n.dotProduct (p + m) ≤ n.dotProduct (c + m) ↔ n.dotProduct p ≤ n.dotProduct c := by
    intro n p c m
    have hadd : ∀ q : RepoVector3D ℝ, n.dotProduct (q + m) = n.dotProduct q + n.dotProduct m := by
      intro q
      simp only [RepoVector3D.dotProduct, RepoVector3D.add_x, RepoVector3D.add_y, RepoVector3D.add_z]
      ring
    rw [hadd, hadd, add_le_add_iff_right]
  intro triangles p m
  refine forall_congr' fun n => ?_
  simp only [List.mem_map, exists_exists_and_eq_and, RepoTriangle.add_def, List.mem_cons, List.not_mem_nil, or_false,
    exists_eq_or_imp, exists_eq_left, hdot]

open Classical in
/-- Tests against convex meshes of four triangles. -/
noncomputable def convexGeometry : Geometry ℝ where
  closestPoints A B := ⟨⟨A.a, B.a⟩, false⟩
  contains vertices indices _ mesh offset :=
    decide (∀ i ∈ indices, InConvexMesh ((List.range 4).map mesh.getTriangle) (vertices.getD i 0 + offset))
  orderVertices _ indices := indices

/-- A hierarchy with one box for all. -/
noncomputable def oneBox (bounds : Fin 6 → ℝ) (n : ℕ) : Bvh ℝ := .chain (fun _ => bounds) bounds (n + 1)

private theorem oneBox_isTree (bounds : Fin 6 → ℝ) (n : ℕ) :
    (oneBox bounds n).IsTree (n + 1) (Bvh.chainTree 0 n) := Bvh.chain_isTree _ bounds n

/-- A closed mesh. -/
noncomputable def tetrahedron : DeformMesh ℝ where
  vertices := [⟨0, 0, 0⟩, ⟨8, 0, 0⟩, ⟨0, 8, 0⟩, ⟨0, 0, 8⟩]
  faces := [.triangle 0 1 2, .triangle 0 1 3, .triangle 0 2 3, .triangle 1 2 3]
  _vertices := [⟨0, 0, 0⟩, ⟨8, 0, 0⟩, ⟨0, 8, 0⟩, ⟨0, 0, 8⟩]
  faceGroups := [⟨⟨0, 4, true, [0, 1, 2, 3]⟩, oneBox ![0, 8, 0, 8, 0, 8] 3⟩]

/-- A triangle inside of it. -/
noncomputable def speck : DeformMesh ℝ where
  vertices := [⟨1, 1, 1⟩, ⟨2, 1, 1⟩, ⟨1, 2, 1⟩]
  faces := [.triangle 0 1 2]
  _vertices := [⟨1, 1, 1⟩, ⟨2, 1, 1⟩, ⟨1, 2, 1⟩]
  faceGroups := [⟨⟨0, 1, false, [0, 1, 2]⟩, oneBox ![1, 2, 1, 2, 1, 1] 0⟩]

private theorem valid_tetrahedron : tetrahedron.Valid where
  indexed := by simp [RepoIndexedMesh.Indexed, tetrahedron, RepoFace.triangle, RepoFace.sides]
  range := by simp [tetrahedron]
  wellFormed := by
    intro group hgroup
    obtain rfl := List.mem_singleton.1 hgroup
    exact ⟨_, oneBox_isTree _ 3⟩
  orderedIndices := by simp [tetrahedron]

private theorem valid_speck : speck.Valid where
  indexed := by simp [RepoIndexedMesh.Indexed, speck, RepoFace.triangle, RepoFace.sides]
  range := by simp [speck]
  wellFormed := by
    intro group hgroup
    obtain rfl := List.mem_singleton.1 hgroup
    exact ⟨_, oneBox_isTree _ 0⟩
  orderedIndices := by simp [speck]

private theorem containsCorrect_tetrahedron {a : DeformMesh ℝ} (ha : ∀ group ∈ a.faceGroups, group.length = 4) :
    ContainsCorrect convexGeometry a speck InConvexMesh ∧ ContainsCorrect convexGeometry speck a InConvexMesh := by
  constructor
  · intro ga hga _ gb _ offset
    unfold DeformMesh.triangles convexGeometry
    rw [ha ga hga]
    simp only [decide_eq_true_eq]
    rfl
  · intro gb hgb hclosed
    obtain rfl := List.mem_singleton.1 hgb
    exact absurd hclosed (by decide)

private theorem touching_tetrahedron : touching convexGeometry tetrahedron speck ⟨100, 0, 0⟩ = some false := by
  have hcontacts : Predicates.contacts
      (((oneBox ![0, 8, 0, 8, 0, 8] 3).nodes 0).addOffset ⟨100, 0, 0⟩) ((oneBox ![1, 2, 1, 2, 1, 1] 0).nodes 0) =
      false := by
    simp [Predicates.contacts, BvhNode.addOffset, oneBox, Bvh.chain, Predicates.magicEpsilon]
    norm_num
  have hgroups : intersectGroups convexGeometry tetrahedron speck ⟨100, 0, 0⟩
      ⟨⟨0, 4, true, [0, 1, 2, 3]⟩, oneBox ![0, 8, 0, 8, 0, 8] 3⟩
      ⟨⟨0, 1, false, [0, 1, 2]⟩, oneBox ![1, 2, 1, 2, 1, 1] 0⟩ = some false := by
    rw [intersectGroups_eq (oneBox_isTree _ 3) (oneBox_isTree _ 0), Traversal.reached,
      Library.FullTree.crossList_of_not_keep hcontacts]
    rfl
  show intersectAny _ _ _ _ [(_, _)] = _
  rw [intersectAny, hgroups]
  rfl

private theorem triangles_tetrahedron (bvh : Bvh ℝ) :
    tetrahedron.triangles ⟨⟨0, 4, true, [0, 1, 2, 3]⟩, bvh⟩ =
      [⟨⟨0, 0, 0⟩, ⟨8, 0, 0⟩, ⟨0, 8, 0⟩⟩, ⟨⟨0, 0, 0⟩, ⟨8, 0, 0⟩, ⟨0, 0, 8⟩⟩, ⟨⟨0, 0, 0⟩, ⟨0, 8, 0⟩, ⟨0, 0, 8⟩⟩,
        ⟨⟨8, 0, 0⟩, ⟨0, 8, 0⟩, ⟨0, 0, 8⟩⟩] := rfl

private theorem swallows_tetrahedron : Swallows tetrahedron speck InConvexMesh 0 := by
  refine ⟨_, List.mem_singleton_self _, rfl, _, List.mem_singleton_self _, ?_⟩
  rw [triangles_tetrahedron]
  intro i hi n
  by_contra h
  push Not at h
  have hcorner : ∀ c ∈ [(⟨0, 0, 0⟩ : RepoVector3D ℝ), ⟨8, 0, 0⟩, ⟨0, 8, 0⟩, ⟨0, 0, 8⟩],
      n.dotProduct c < n.dotProduct (speck._vertices.getD i 0 + 0) := by
    simp only [List.mem_cons, List.not_mem_nil, or_false, forall_eq_or_imp, forall_eq] at h ⊢
    exact ⟨h.1.1, h.1.2.1, h.1.2.2, h.2.1.2.2⟩
  simp only [RepoVector3D.add_zero, RepoVector3D.dotProduct, List.mem_cons, List.not_mem_nil, or_false,
    forall_eq_or_imp, forall_eq] at hcorner
  simp only [List.mem_cons, List.not_mem_nil, or_false] at hi
  rcases hi with rfl | rfl | rfl
  all_goals
    simp [speck] at hcorner
    linarith

private theorem not_swallows_tetrahedron : ¬ Swallows tetrahedron speck InConvexMesh (0 - ⟨100, 0, 0⟩) := by
  rintro ⟨ga, hga, -, gb, hgb, h⟩
  obtain rfl := List.mem_singleton.1 hga
  obtain rfl := List.mem_singleton.1 hgb
  obtain ⟨t, ht, c, hc, hle⟩ := h 0 (by decide) ⟨-1, 0, 0⟩
  rw [triangles_tetrahedron] at ht
  have hpoint : (speck._vertices.getD 0 0 + (0 - ⟨100, 0, 0⟩) : RepoVector3D ℝ).x = -99 := by
    simp [speck]
    norm_num
  have hx : 0 ≤ c.x := by
    simp only [List.mem_cons, List.not_mem_nil, or_false] at ht
    rcases ht with rfl | rfl | rfl | rfl <;>
      · simp only [List.mem_cons, List.not_mem_nil, or_false] at hc
        rcases hc with rfl | rfl | rfl <;> norm_num
  simp only [RepoVector3D.dotProduct, hpoint] at hle
  linarith

private theorem length_moved_tetrahedron (m : RepoVector3D ℝ) :
    ∀ group ∈ (tetrahedron.moved m).faceGroups, group.length = 4 := by
  intro group hgroup
  obtain rfl := List.mem_singleton.1 hgroup
  rfl

private theorem length_tetrahedron : ∀ group ∈ tetrahedron.faceGroups, group.length = 4 := by
  intro group hgroup
  obtain rfl := List.mem_singleton.1 hgroup
  rfl

/-- The triangle is in the tetrahedron until that is moved away. -/
theorem intersect_moved_tetrahedron : ∃ r r', intersect convexGeometry tetrahedron speck ⟨100, 0, 0⟩ = some r ∧
    intersect convexGeometry (tetrahedron.moved ⟨100, 0, 0⟩) speck 0 = some r' ∧
    (r = r' ↔ Touches convexGeometry tetrahedron speck ⟨100, 0, 0⟩ ∨
      Swallows speck tetrahedron InConvexMesh ⟨100, 0, 0⟩ ∨
      (Swallows tetrahedron speck InConvexMesh 0 ↔ Swallows tetrahedron speck InConvexMesh (0 - ⟨100, 0, 0⟩))) := by
  obtain ⟨hab, hba⟩ := containsCorrect_tetrahedron length_tetrahedron
  obtain ⟨hab', hba'⟩ := containsCorrect_tetrahedron (length_moved_tetrahedron ⟨100, 0, 0⟩)
  exact intersect_moved_iff invariant_inConvexMesh valid_tetrahedron valid_speck _ hab hba hab' hba'

/-- The offset says that they collide, the moved mesh that they do not. -/
theorem intersect_tetrahedron_ne : intersect convexGeometry tetrahedron speck ⟨100, 0, 0⟩ = some true ∧
    intersect convexGeometry (tetrahedron.moved ⟨100, 0, 0⟩) speck 0 = some false := by
  obtain ⟨hab, hba⟩ := containsCorrect_tetrahedron length_tetrahedron
  obtain ⟨hab', hba'⟩ := containsCorrect_tetrahedron (length_moved_tetrahedron ⟨100, 0, 0⟩)
  have hspeck : ∀ offset, ¬ Swallows speck tetrahedron InConvexMesh offset := by
    rintro offset ⟨gb, hgb, hclosed, -⟩
    obtain rfl := List.mem_singleton.1 hgb
    exact absurd hclosed (by decide)
  obtain ⟨r, hr, hr'⟩ := touching_moved convexGeometry valid_tetrahedron valid_speck ⟨100, 0, 0⟩
  rw [touching_tetrahedron] at hr
  cases hr
  constructor
  · rw [intersect, touching_tetrahedron, (contained_iff hab hba _).2 (Or.inl swallows_tetrahedron)]
    rfl
  · have hcontained : contained convexGeometry (tetrahedron.moved ⟨100, 0, 0⟩) speck 0 = false := by
      rw [← Bool.not_eq_true, contained_iff hab' hba', swallows_moved_left invariant_inConvexMesh valid_tetrahedron,
        swallows_moved_right valid_tetrahedron]
      rintro (h | h)
      · exact not_swallows_tetrahedron h
      · exact hspeck _ h
    rw [intersect, hr', hcontained]
    rfl

end RepoDeformDepth

end Bouncer.Clash
