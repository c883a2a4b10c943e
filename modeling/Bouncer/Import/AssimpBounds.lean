import Bouncer.Import.AssimpModelImport
import Bouncer.Multipart.SplitBounds

/-!
# The bounding box of an Assimp scene

`getAiMeshBoundingBox` compares the wrong way round, so its first corner has the greatest coordinates of the mesh and its
second corner the least.  `getSceneBoundingBox` takes the first meshes of the scene instead of those that a node refers
to, and transforms these two corners only.  Its first corner is still below the whole scene if, on each axis, some mesh
that it takes has its greatest corner there, and so for the second (`enclosesScene_iff`).
-/

namespace Bouncer.AssimpModelImport

open Library
open MeshMapReorganiser (IsBoundingBox isBoundingBox_singleton)

variable {R : Type} [Field R] [LinearOrder R]

/-! ### The functions -/

/-- A vector of corners: empty, or with two of them. -/
abbrev Corners (R : Type) := Option (RepoVector3D R × RepoVector3D R)

/-- The loop of `getAiMeshBoundingBox` over the vertices. -/
def extendCorners (bbox : RepoVector3D R × RepoVector3D R) (currentV : RepoVector3D R) :
    RepoVector3D R × RepoVector3D R :=
  (⟨if bbox.1.x < currentV.x then currentV.x else bbox.1.x, if bbox.1.y < currentV.y then currentV.y else bbox.1.y,
      if bbox.1.z < currentV.z then currentV.z else bbox.1.z⟩,
    ⟨if bbox.2.x > currentV.x then currentV.x else bbox.2.x, if bbox.2.y > currentV.y then currentV.y else bbox.2.y,
      if bbox.2.z > currentV.z then currentV.z else bbox.2.z⟩)

def getAiMeshBoundingBox (mesh : AiMesh R) : Corners R :=
  match mesh.vertices with
  | [] => none
  | v :: vertices => some (vertices.foldl extendCorners (v, v))

/-- What is done with the bounding box of a mesh. -/
def mergeMesh (bbox : Corners R) (transformation : RepoMatrix R) (mesh : AiMesh R) : Corners R :=
  match getAiMeshBoundingBox mesh with
  | none => bbox
  | some (vectorMin, vectorMax) =>
    let scaledBoundaryMin := transformation.image vectorMin
    let scaledBoundaryMax := transformation.image vectorMax
    match bbox with
    | some (lo, hi) =>
      some
        (⟨if scaledBoundaryMin.x < lo.x then scaledBoundaryMin.x else lo.x,
            if scaledBoundaryMin.y < lo.y then scaledBoundaryMin.y else lo.y,
            if scaledBoundaryMin.z < lo.z then scaledBoundaryMin.z else lo.z⟩,
          ⟨if scaledBoundaryMax.x > hi.x then scaledBoundaryMax.x else hi.x,
            if scaledBoundaryMax.y > hi.y then scaledBoundaryMax.y else hi.y,
            if scaledBoundaryMax.z > hi.z then scaledBoundaryMax.z else hi.z⟩)
    | none => some (scaledBoundaryMin, scaledBoundaryMax)

/-- `getSceneBoundingBoxInternal`.  There is no result if it reads beyond the meshes of the scene. -/
def getSceneBoundingBoxInternal (scene : AiScene R) : RoseTree (AiNode R) → RepoMatrix R → Corners R → Option (Corners R)
  | .node assimpNode children, mat, bbox => do
    let transformation := mat * assimpNode.transformation
    let bbox ← (List.range assimpNode.meshes.length).foldlM
      (fun bbox meshIdx => scene.meshes[meshIdx]?.map (mergeMesh bbox transformation)) bbox
    go scene children transformation bbox
where
  go (scene : AiScene R) : List (RoseTree (AiNode R)) → RepoMatrix R → Corners R → Option (Corners R)
    | [], _, bbox => some bbox
    | child :: children, mat, bbox => do
      let bbox ← getSceneBoundingBoxInternal scene child mat bbox
      go scene children mat bbox

def getSceneBoundingBox (scene : AiScene R) : Option (Corners R) :=
  getSceneBoundingBoxInternal scene scene.rootNode 1 none

/-! ### The meshes that are taken -/

/-- The first meshes of the scene, as many as each node has, with the product of the transformations from the root. -/
def visits (scene : AiScene R) : RoseTree (AiNode R) → RepoMatrix R → List (RepoMatrix R × AiMesh R)
  | .node assimpNode children, above =>
    (scene.meshes.take assimpNode.meshes.length).map (fun mesh => (above * assimpNode.transformation, mesh)) ++
      go scene children (above * assimpNode.transformation)
where
  go (scene : AiScene R) : List (RoseTree (AiNode R)) → RepoMatrix R → List (RepoMatrix R × AiMesh R)
    | [], _ => []
    | child :: children, above => visits scene child above ++ go scene children above

/-- No node has more meshes than the scene. -/
def InRange (scene : AiScene R) (t : RoseTree (AiNode R)) : Prop :=
  ∀ node ∈ t.values, node.meshes.length ≤ scene.meshes.length

omit [Field R] [LinearOrder R] in
private theorem inRange_node {scene : AiScene R} {assimpNode : AiNode R} {children : List (RoseTree (AiNode R))} :
    InRange scene (.node assimpNode children) ↔
      assimpNode.meshes.length ≤ scene.meshes.length ∧ ∀ child ∈ children, InRange scene child := by
  unfold InRange
  rw [RoseTree.values_node, List.forall_mem_cons]
  simp only [List.mem_flatMap, forall_exists_index, and_imp]
  refine and_congr_right fun _ => ⟨fun h child hchild node hnode => h node child hchild hnode, ?_⟩
  exact fun h node child hchild hnode => h child hchild node hnode

private theorem foldlM_range {α β : Type} (g : β → α → β) (l : List α) (b : β) (k : ℕ) :
    (List.range k).foldlM (fun b i => l[i]?.map (g b)) b =
      if k ≤ l.length then some ((l.take k).foldl g b) else none := by
  induction k with
  | zero => rfl
  | succ k ih =>
    rw [List.range_succ, List.foldlM_append, ih]
    rcases Nat.lt_trichotomy k l.length with hlt | heq | hgt
    · rw [if_pos hlt.le, if_pos (Nat.succ_le_of_lt hlt), List.take_add_one, List.foldl_append]
      simp [List.getElem?_eq_getElem hlt]
    · rw [if_pos heq.le, if_neg (by omega)]
      simp [heq]
    · rw [if_neg (by omega), if_neg (by omega)]
      rfl

variable {scene : AiScene R}

private theorem getSceneBoundingBoxInternal_eq (t : RoseTree (AiNode R)) :
    ∀ mat bbox, InRange scene t → getSceneBoundingBoxInternal scene t mat bbox =
      some ((visits scene t mat).foldl (fun bbox p => mergeMesh bbox p.1 p.2) bbox) := by
  induction t using RoseTree.rec_children with
  | h assimpNode children ih =>
    intro mat bbox hrange
    obtain ⟨hnode, hchildren⟩ := inRange_node.1 hrange
    have hgo : ∀ ts, (∀ t ∈ ts, t ∈ children) → ∀ mat bbox,
        getSceneBoundingBoxInternal.go scene ts mat bbox =
          some ((visits.go scene ts mat).foldl (fun bbox p => mergeMesh bbox p.1 p.2) bbox) := by
      intro ts
      induction ts with
      | nil => exact fun _ _ _ => rfl
      | cons t ts iht =>
        intro hts mat bbox
        obtain ⟨ht, hts⟩ := List.forall_mem_cons.1 hts
        rw [getSceneBoundingBoxInternal.go, ih t ht mat bbox (hchildren t ht), visits.go, List.foldl_append]
        exact iht hts mat _
    rw [getSceneBoundingBoxInternal, foldlM_range, if_pos hnode, visits, List.foldl_append, List.foldl_map]
    exact hgo children (fun _ h => h) _ _

private theorem inRange_of_getSceneBoundingBoxInternal (t : RoseTree (AiNode R)) :
    ∀ mat bbox result, getSceneBoundingBoxInternal scene t mat bbox = some result → InRange scene t := by
  induction t using RoseTree.rec_children with
  | h assimpNode children ih =>
    intro mat bbox result hresult
    have hgo : ∀ ts, (∀ t ∈ ts, t ∈ children) → ∀ mat bbox,
        getSceneBoundingBoxInternal.go scene ts mat bbox = some result → ∀ t ∈ ts, InRange scene t := by
      intro ts
      induction ts with
      | nil => exact fun _ _ _ _ _ h => absurd h List.not_mem_nil
      | cons t ts iht =>
        intro hts mat bbox hresult
        obtain ⟨ht, hts⟩ := List.forall_mem_cons.1 hts
        rw [getSceneBoundingBoxInternal.go] at hresult
        obtain ⟨bbox', hbbox, hresult⟩ := Option.bind_eq_some_iff.1 hresult
        exact List.forall_mem_cons.2 ⟨ih t ht _ _ _ hbbox, iht hts _ _ hresult⟩
    rw [getSceneBoundingBoxInternal, foldlM_range] at hresult
    split_ifs at hresult with hnode
    · exact inRange_node.2 ⟨hnode, hgo children (fun _ h => h) _ _ hresult⟩
    · cases hresult

/-! ### The corners -/

/-- The vertices of a mesh. -/
def vertexSet (mesh : AiMesh R) : Set (RepoVector3D R) := {v | v ∈ mesh.vertices}

omit [Field R] in
private theorem extendCorners_eq (bbox : RepoVector3D R × RepoVector3D R) (v : RepoVector3D R) :
    extendCorners bbox v = (bbox.1.max v, bbox.2.min v) := by
  simp only [extendCorners, RepoVector3D.max, RepoVector3D.min, max_def_lt, min_comm _ v.x, min_comm _ v.y,
    min_comm _ v.z, min_def_lt, gt_iff_lt]

omit [Field R] in
private theorem isBoundingBox_foldl_extendCorners (vertices : List (RepoVector3D R)) {points : Set (RepoVector3D R)}
    (bbox : RepoVector3D R × RepoVector3D R) (h : IsBoundingBox points bbox.2 bbox.1) :
    IsBoundingBox (points ∪ {v | v ∈ vertices}) (vertices.foldl extendCorners bbox).2
      (vertices.foldl extendCorners bbox).1 := by
  induction vertices generalizing points bbox with
  | nil => simpa using h
  | cons v vertices ih =>
    have hpoints : points ∪ {p | p ∈ v :: vertices} = insert v points ∪ {p | p ∈ vertices} := by
      ext p
      simp [or_left_comm, or_assoc]
    rw [hpoints, List.foldl_cons, extendCorners_eq]
    exact ih _ (h.insert v)

omit [Field R] in
private theorem getAiMeshBoundingBox_isBoundingBox {mesh : AiMesh R} {p q : RepoVector3D R}
    (h : getAiMeshBoundingBox mesh = some (p, q)) : IsBoundingBox (vertexSet mesh) q p := by
  unfold getAiMeshBoundingBox at h
  cases hvertices : mesh.vertices with
  | nil =>
    rw [hvertices] at h
    cases h
  | cons v vertices =>
    rw [hvertices] at h
    have hbox := isBoundingBox_foldl_extendCorners vertices (v, v) (isBoundingBox_singleton v)
    rw [Option.some.inj h] at hbox
    have hset : vertexSet mesh = {v} ∪ {p | p ∈ vertices} := by
      ext p
      simp [vertexSet, hvertices]
    rwa [hset]

omit [Field R] in
private theorem exists_getAiMeshBoundingBox {mesh : AiMesh R} {v : RepoVector3D R} (hv : v ∈ mesh.vertices) :
    ∃ p q, getAiMeshBoundingBox mesh = some (p, q) := by
  unfold getAiMeshBoundingBox
  cases hvertices : mesh.vertices with
  | nil => exact absurd (hvertices ▸ hv) List.not_mem_nil
  | cons w vertices => exact ⟨_, _, rfl⟩

omit [Field R] in
private theorem isBoundingBox_unique {points : Set (RepoVector3D R)} {lo hi lo' hi' : RepoVector3D R}
    (h : IsBoundingBox points lo hi) (h' : IsBoundingBox points lo' hi') : lo = lo' ∧ hi = hi' :=
  ⟨RepoVector3D.ext (h.x.1.unique h'.x.1) (h.y.1.unique h'.y.1) (h.z.1.unique h'.z.1),
    RepoVector3D.ext (h.x.2.unique h'.x.2) (h.y.2.unique h'.y.2) (h.z.2.unique h'.z.2)⟩

/-- A coordinate of a vector. -/
inductive IsAxis : (RepoVector3D R → R) → Prop
  | x : IsAxis RepoVector3D.x
  | y : IsAxis RepoVector3D.y
  | z : IsAxis RepoVector3D.z

/-- The image of the corner of a mesh with the greatest coordinates is not above `t`. -/
def GreatestBelow (f : RepoVector3D R → R) (t : R) (p : RepoMatrix R × AiMesh R) : Prop :=
  ∃ lo hi, IsBoundingBox (vertexSet p.2) lo hi ∧ f (p.1.image hi) ≤ t

/-- The image of the corner of a mesh with the least coordinates is not below `t`. -/
def LeastAbove (f : RepoVector3D R → R) (t : R) (p : RepoMatrix R × AiMesh R) : Prop :=
  ∃ lo hi, IsBoundingBox (vertexSet p.2) lo hi ∧ t ≤ f (p.1.image lo)

def FirstBelow (f : RepoVector3D R → R) (t : R) (bbox : Corners R) : Prop := ∃ lo hi, bbox = some (lo, hi) ∧ f lo ≤ t

def SecondAbove (f : RepoVector3D R → R) (t : R) (bbox : Corners R) : Prop := ∃ lo hi, bbox = some (lo, hi) ∧ t ≤ f hi

variable {f : RepoVector3D R → R} {t : R}

omit [Field R] in
private theorem isBoundingBox_iff {mesh : AiMesh R} {lo hi : RepoVector3D R} :
    IsBoundingBox (vertexSet mesh) lo hi ↔ getAiMeshBoundingBox mesh = some (hi, lo) := by
  refine ⟨fun h => ?_, getAiMeshBoundingBox_isBoundingBox⟩
  obtain ⟨v, hv, -⟩ := h.x.1.1
  obtain ⟨p, q, hmesh⟩ := exists_getAiMeshBoundingBox hv
  obtain ⟨rfl, rfl⟩ := isBoundingBox_unique h (getAiMeshBoundingBox_isBoundingBox hmesh)
  exact hmesh

private theorem firstBelow_mergeMesh_iff (hf : IsAxis f) (bbox : Corners R) (p : RepoMatrix R × AiMesh R) :
    FirstBelow f t (mergeMesh bbox p.1 p.2) ↔ FirstBelow f t bbox ∨ GreatestBelow f t p := by
  have hlower : ∀ {a b : R}, (if a < b then a else b) ≤ t ↔ b ≤ t ∨ a ≤ t := by
    intro a b
    rw [← min_def_lt, min_le_iff, or_comm]
  unfold mergeMesh FirstBelow GreatestBelow
  simp only [isBoundingBox_iff]
  cases getAiMeshBoundingBox p.2 with
  | none => simp
  | some corners =>
    obtain ⟨a, b⟩ := corners
    rcases bbox with - | ⟨lo, hi⟩
    · simp
    · cases hf <;> simp [hlower]

private theorem secondAbove_mergeMesh_iff (hf : IsAxis f) (bbox : Corners R) (p : RepoMatrix R × AiMesh R) :
    SecondAbove f t (mergeMesh bbox p.1 p.2) ↔ SecondAbove f t bbox ∨ LeastAbove f t p := by
  have hupper : ∀ {a b : R}, t ≤ (if b < a then a else b) ↔ t ≤ b ∨ t ≤ a := by
    intro a b
    rw [← max_def_lt, le_max_iff]
  unfold mergeMesh SecondAbove LeastAbove
  simp only [isBoundingBox_iff]
  cases getAiMeshBoundingBox p.2 with
  | none => simp
  | some corners =>
    obtain ⟨a, b⟩ := corners
    rcases bbox with - | ⟨lo, hi⟩
    · simp
    · cases hf <;> simp [hupper]

private theorem firstBelow_foldl_iff (hf : IsAxis f) (l : List (RepoMatrix R × AiMesh R)) (bbox : Corners R) :
    FirstBelow f t (l.foldl (fun bbox p => mergeMesh bbox p.1 p.2) bbox) ↔
      FirstBelow f t bbox ∨ ∃ p ∈ l, GreatestBelow f t p := by
  induction l generalizing bbox with
  | nil => simp
  | cons p l ih => rw [List.foldl_cons, ih, firstBelow_mergeMesh_iff hf, List.exists_mem_cons_iff, or_assoc]

private theorem secondAbove_foldl_iff (hf : IsAxis f) (l : List (RepoMatrix R × AiMesh R)) (bbox : Corners R) :
    SecondAbove f t (l.foldl (fun bbox p => mergeMesh bbox p.1 p.2) bbox) ↔
      SecondAbove f t bbox ∨ ∃ p ∈ l, LeastAbove f t p := by
  induction l generalizing bbox with
  | nil => simp
  | cons p l ih => rw [List.foldl_cons, ih, secondAbove_mergeMesh_iff hf, List.exists_mem_cons_iff, or_assoc]

/-! ### Enclosing the scene -/

/-- There are two corners, and on each axis the vertices of all instances lie between them. -/
def Encloses (scene : AiScene R) : Prop :=
  ∃ bbox, getSceneBoundingBox scene = some bbox ∧
    ∀ p ∈ scene.references, ∀ v ∈ p.2.vertices,
      ∃ lo hi, bbox = some (lo, hi) ∧ RepoBounds.Contains ⟨lo, hi⟩ (p.1.image v)

/-- On each axis, among the first meshes of the scene that are taken for the nodes, one has its corner of greatest
coordinates placed below, and one its corner of least coordinates placed above, each vertex of the scene. -/
structure CornersReach (scene : AiScene R) : Prop where
  inRange : InRange scene scene.rootNode
  below : ∀ p ∈ scene.references, ∀ v ∈ p.2.vertices, ∀ f, IsAxis f →
    ∃ q ∈ visits scene scene.rootNode 1, GreatestBelow f (f (p.1.image v)) q
  above : ∀ p ∈ scene.references, ∀ v ∈ p.2.vertices, ∀ f, IsAxis f →
    ∃ q ∈ visits scene scene.rootNode 1, LeastAbove f (f (p.1.image v)) q

omit [Field R] in
private theorem contains_corners_iff {bbox : Corners R} {v : RepoVector3D R} :
    (∃ lo hi, bbox = some (lo, hi) ∧ RepoBounds.Contains ⟨lo, hi⟩ v) ↔
      ∀ f, IsAxis f → FirstBelow f (f v) bbox ∧ SecondAbove f (f v) bbox := by
  constructor
  · rintro ⟨lo, hi, rfl, hx, hy, hz⟩ f hf
    cases hf
    · exact ⟨⟨lo, hi, rfl, hx.1⟩, ⟨lo, hi, rfl, hx.2⟩⟩
    · exact ⟨⟨lo, hi, rfl, hy.1⟩, ⟨lo, hi, rfl, hy.2⟩⟩
    · exact ⟨⟨lo, hi, rfl, hz.1⟩, ⟨lo, hi, rfl, hz.2⟩⟩
  · intro h
    obtain ⟨⟨lo, hi, rfl, -⟩, -⟩ := h _ .x
    have haxis : ∀ f, IsAxis f → f lo ≤ f v ∧ f v ≤ f hi := by
      intro f hf
      obtain ⟨⟨a, b, hfirst, ha⟩, ⟨a', b', hsecond, hb⟩⟩ := h f hf
      obtain ⟨rfl, -⟩ := Prod.mk.inj (Option.some.inj hfirst)
      obtain ⟨-, rfl⟩ := Prod.mk.inj (Option.some.inj hsecond)
      exact ⟨ha, hb⟩
    exact ⟨lo, hi, rfl, haxis _ .x, haxis _ .y, haxis _ .z⟩

omit [Field R] in
private theorem not_firstBelow_none : ¬FirstBelow f t none := by
  rintro ⟨_, _, h, -⟩
  cases h

omit [Field R] in
private theorem not_secondAbove_none : ¬SecondAbove f t none := by
  rintro ⟨_, _, h, -⟩
  cases h

/-- The two corners enclose the scene if and only if the corners that are taken reach that far. -/
theorem enclosesScene_iff (scene : AiScene R) : Encloses scene ↔ CornersReach scene := by
  have hcorners : ∀ p : RepoMatrix R × AiMesh R, ∀ v,
      (∃ lo hi, (visits scene scene.rootNode 1).foldl (fun bbox p => mergeMesh bbox p.1 p.2) none = some (lo, hi) ∧
          RepoBounds.Contains ⟨lo, hi⟩ (p.1.image v)) ↔
        ∀ f, IsAxis f → (∃ q ∈ visits scene scene.rootNode 1, GreatestBelow f (f (p.1.image v)) q) ∧
          ∃ q ∈ visits scene scene.rootNode 1, LeastAbove f (f (p.1.image v)) q := by
    intro p v
    rw [contains_corners_iff]
    refine forall₂_congr fun f hf => ?_
    rw [firstBelow_foldl_iff hf, secondAbove_foldl_iff hf, or_iff_right not_firstBelow_none,
      or_iff_right not_secondAbove_none]
  constructor
  · rintro ⟨bbox, hbbox, henclosed⟩
    have hrange := inRange_of_getSceneBoundingBoxInternal _ _ _ _ hbbox
    obtain rfl := Option.some.inj ((getSceneBoundingBoxInternal_eq _ _ _ hrange).symm.trans hbbox)
    refine ⟨hrange, fun p hp v hv f hf => ?_, fun p hp v hv f hf => ?_⟩
    · exact ((hcorners p v).1 (henclosed p hp v hv) f hf).1
    · exact ((hcorners p v).1 (henclosed p hp v hv) f hf).2
  · intro h
    refine ⟨_, getSceneBoundingBoxInternal_eq _ _ _ h.inRange, fun p hp v hv => ?_⟩
    exact (hcorners p v).2 fun f hf => ⟨h.below p hp v hv f hf, h.above p hp v hv f hf⟩

/-- One mesh, a segment along the axis `x`, at the root. -/
def segmentScene : AiScene ℚ where
  materials := [⟨"", none, []⟩]
  meshes := [⟨"", [⟨0, 0, 0⟩, ⟨1, 0, 0⟩], [], [], none, 0⟩]
  rootNode := .node ⟨"", 1, [0]⟩ []
  materialIndex_lt := by simp

theorem not_encloses_segmentScene : ¬Encloses segmentScene := by
  rintro ⟨bbox, hbbox, henclosed⟩
  have hcorners : getSceneBoundingBox segmentScene = some (some (⟨1, 0, 0⟩, ⟨0, 0, 0⟩)) := by
    simp [getSceneBoundingBox, getSceneBoundingBoxInternal, getSceneBoundingBoxInternal.go, segmentScene, mergeMesh,
      getAiMeshBoundingBox, extendCorners, RepoMatrix.image_one]
  obtain rfl := Option.some.inj (hcorners.symm.trans hbbox)
  obtain ⟨lo, hi, heq, ⟨hx, -⟩, -⟩ := henclosed (1, ⟨"", [⟨0, 0, 0⟩, ⟨1, 0, 0⟩], [], [], none, 0⟩)
    (by simp [AiScene.references, references, references.go, segmentScene]) ⟨0, 0, 0⟩ List.mem_cons_self
  obtain ⟨rfl, rfl⟩ := Prod.mk.inj (Option.some.inj heq)
  rw [RepoMatrix.image_one] at hx
  norm_num at hx

end Bouncer.AssimpModelImport
