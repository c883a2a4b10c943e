import Bouncer.Clash.Mesh

/-!
# Appending to an indexed mesh

`RepoIndexedMeshBuilder` with its own state: the `Context` keeps a map from positions to indices beside the array of
vertices, and every corner of every face goes through `find`.  While the map says where each vertex is
(`Context.Synchronised`), a call does what `RepoIndexedMesh.append` does for its triangles, except that a face stores
an index in 32 bits (`represents_build`).  So the mesh indexes the triangles that were appended exactly when these have
no more than `2 ^ 32` different corners (`build_indexes_iff`).
-/

namespace Bouncer

namespace Clash

open Library (intern prefix_intern getElem?_intern mem_intern nodup_intern)

variable {R : Type*}

/-- The triangles of a mesh, in their order. -/
def RepoIndexedMesh.getTriangles [Field R] (mesh : RepoIndexedMesh R) : List (RepoTriangle R) :=
  (List.range mesh.faces.length).map mesh.getTriangle

namespace RepoIndexedMeshBuilder

structure Context (R : Type*) where
  map : List (RepoVector3D R × ℕ)
  vertices : List (RepoVector3D R)

def Context.find [DecidableEq R] (ctx : Context R) (v : RepoVector3D R) : Context R × ℕ :=
  match ctx.map.lookup v with
  | none =>
    let newIdx := ctx.vertices.length
    (⟨(v, newIdx) :: ctx.map, ctx.vertices ++ [v]⟩, newIdx)
  | some i => (ctx, i)

end RepoIndexedMeshBuilder

open RepoIndexedMeshBuilder (Context)

/-- The vertices of the mesh are those of the context, which refers to them. -/
structure RepoIndexedMeshBuilder (R : Type*) where
  ctx : Context R
  faces : List RepoFace

namespace RepoIndexedMeshBuilder

def new : RepoIndexedMeshBuilder R := ⟨⟨[], []⟩, []⟩

def mesh (builder : RepoIndexedMeshBuilder R) : RepoIndexedMesh R := ⟨builder.ctx.vertices, builder.faces⟩

section Append

variable [DecidableEq R]

/-- The corner of a face is looked up and its index pushed. -/
def pushCorner (state : Context R × RepoFace) (v : RepoVector3D R) : Context R × RepoFace :=
  let found := state.1.find v
  (found.1, state.2.pushBack found.2)

def pushFace (builder : RepoIndexedMeshBuilder R) (corners : List (RepoVector3D R)) : RepoIndexedMeshBuilder R :=
  let r := corners.foldl pushCorner (builder.ctx, .empty)
  ⟨r.1, builder.faces ++ [r.2]⟩

/-- `append(triangle)`. -/
def appendTriangle (builder : RepoIndexedMeshBuilder R) (triangle : RepoTriangle R) : RepoIndexedMeshBuilder R :=
  builder.pushFace [triangle.a, triangle.b, triangle.c]

/-- `append(vertices, faces)`. -/
def appendMesh [Field R] (builder : RepoIndexedMeshBuilder R) (vertices : List (RepoVector3D R))
    (faces : List RepoFace) : RepoIndexedMeshBuilder R :=
  faces.foldl (fun builder f => builder.pushFace (f.indices.map fun i => vertices.getD i 0)) builder

end Append

/-- A call of one of the two `append` functions. -/
inductive Call (R : Type*) where
  | triangle (triangle : RepoTriangle R)
  | mesh (mesh : RepoIndexedMesh R)

variable [Field R]

/-- The triangles that a call appends. -/
def Call.triangles : Call R → List (RepoTriangle R)
  | triangle t => [t]
  | mesh m => m.getTriangles

/-- An indexed mesh has triangles for faces, with indices of its own vertices. -/
def Call.WellFormed : Call R → Prop
  | triangle _ => True
  | mesh m => m.Indexed

variable [DecidableEq R]

def call (builder : RepoIndexedMeshBuilder R) : Call R → RepoIndexedMeshBuilder R
  | .triangle t => builder.appendTriangle t
  | .mesh m => builder.appendMesh m.vertices m.faces

def build (calls : List (Call R)) : RepoIndexedMeshBuilder R := calls.foldl call new

end RepoIndexedMeshBuilder

/-! ### What an index is for -/

/-- The corners of triangles, in their order. -/
def corners (triangles : List (RepoTriangle R)) : List (RepoVector3D R) :=
  triangles.flatMap fun t => [t.a, t.b, t.c]

/-- The mesh is an index of the triangles. -/
structure RepoIndexedMesh.Indexes [Field R] (mesh : RepoIndexedMesh R) (triangles : List (RepoTriangle R)) : Prop where
  length_faces : mesh.faces.length = triangles.length
  getTriangle : ∀ i (hi : i < triangles.length), mesh.getTriangle i = triangles[i]
  nodup : mesh.vertices.Nodup
  referenced : ∀ v < mesh.vertices.length, ∃ face ∈ mesh.faces, v ∈ face.indices

variable {mesh : RepoIndexedMesh R}

namespace RepoIndexedMesh

variable [DecidableEq R]

private theorem nodup_append (h : mesh.vertices.Nodup) (triangle : RepoTriangle R) :
    (mesh.append triangle).vertices.Nodup :=
  nodup_intern (nodup_intern (nodup_intern h _) _) _

private theorem mem_append_vertices {triangle : RepoTriangle R} {v : RepoVector3D R} :
    v ∈ (mesh.append triangle).vertices ↔
      v ∈ mesh.vertices ∨ v = triangle.a ∨ v = triangle.b ∨ v = triangle.c := by
  unfold append
  simp only [mem_intern, or_assoc]

private theorem nodup_ofTriangles (triangles : List (RepoTriangle R)) : (ofTriangles triangles).vertices.Nodup := by
  induction triangles using List.reverseRecOn with
  | nil => exact List.nodup_nil
  | append_singleton triangles triangle ih =>
    rw [ofTriangles_concat]
    exact nodup_append ih triangle

private theorem mem_ofTriangles_vertices {triangles : List (RepoTriangle R)} {v : RepoVector3D R} :
    v ∈ (ofTriangles triangles).vertices ↔ v ∈ corners triangles := by
  induction triangles using List.reverseRecOn with
  | nil => simp [ofTriangles, empty, corners]
  | append_singleton triangles triangle ih =>
    rw [ofTriangles_concat, mem_append_vertices, ih]
    simp [corners]

private theorem length_vertices_ofTriangles (triangles : List (RepoTriangle R)) :
    (ofTriangles triangles).vertices.length = (corners triangles).dedup.length := by
  refine (List.Perm.length_eq ?_)
  rw [List.perm_ext_iff_of_nodup (nodup_ofTriangles triangles) (List.nodup_dedup _)]
  intro v
  rw [mem_ofTriangles_vertices, List.mem_dedup]

/-- A vertex is there for the sake of some face. -/
theorem referenced_append
    (h : ∀ v < mesh.vertices.length, ∃ face ∈ mesh.faces, v ∈ face.indices) (hnodup : mesh.vertices.Nodup)
    (triangle : RepoTriangle R) :
    ∀ v < (mesh.append triangle).vertices.length, ∃ face ∈ (mesh.append triangle).faces, v ∈ face.indices := by
  intro v hv
  obtain ⟨i, j, k, hfaces, hi, hj, hk⟩ := append_faces mesh triangle
  by_cases hold : v < mesh.vertices.length
  · obtain ⟨face, hface, hmem⟩ := h v hold
    exact ⟨face, by rw [hfaces]; exact List.mem_append_left _ hface, hmem⟩
  · -- a new vertex is a corner of the triangle, and stands only once in the array
    have hnodup' := nodup_append hnodup triangle
    have hgrown := prefix_append_vertices mesh triangle
    have hnot : (mesh.append triangle).vertices[v] ∉ mesh.vertices := by
      intro hmem
      obtain ⟨w, hw, heq⟩ := List.getElem_of_mem hmem
      have hlt : w < (mesh.append triangle).vertices.length := hw.trans_le hgrown.length_le
      have hsame : (mesh.append triangle).vertices[w] = (mesh.append triangle).vertices[v] := by
        rw [← heq]
        exact (hgrown.getElem hw).symm
      have := (List.Nodup.getElem_inj_iff hnodup').1 hsame
      omega
    have hindex : ∀ {l : ℕ} {p : RepoVector3D R}, (mesh.append triangle).vertices[l]? = some p →
        (mesh.append triangle).vertices[v] = p → v = l := by
      intro l p hl hp
      obtain ⟨hlt, rfl⟩ := List.getElem?_eq_some_iff.1 hl
      exact (List.Nodup.getElem_inj_iff hnodup').1 hp
    have hcorner := (mem_append_vertices.1 (List.getElem_mem hv)).resolve_left hnot
    refine ⟨.triangle i j k, by rw [hfaces]; exact List.mem_append_right _ List.mem_cons_self, ?_⟩
    rcases hcorner with hp | hp | hp
    · simp [RepoFace.triangle, hindex hi hp]
    · simp [RepoFace.triangle, hindex hj hp]
    · simp [RepoFace.triangle, hindex hk hp]

private theorem referenced_ofTriangles (triangles : List (RepoTriangle R)) :
    ∀ v < (ofTriangles triangles).vertices.length,
      ∃ face ∈ (ofTriangles triangles).faces, v ∈ face.indices := by
  induction triangles using List.reverseRecOn with
  | nil => exact fun v hv => absurd hv (Nat.not_lt_zero v)
  | append_singleton triangles triangle ih =>
    rw [ofTriangles_concat]
    exact referenced_append ih (nodup_ofTriangles triangles) triangle

private theorem indexes_ofTriangles [Field R] (triangles : List (RepoTriangle R)) :
    (ofTriangles triangles).Indexes triangles where
  length_faces := length_faces_ofTriangles triangles
  getTriangle := fun _ hi => getTriangle_ofTriangles hi
  nodup := nodup_ofTriangles triangles
  referenced := referenced_ofTriangles triangles

private theorem Indexes.length_corners_le [Field R] {triangles : List (RepoTriangle R)}
    (h : mesh.Indexes triangles) {n : ℕ} (hn : ∀ face ∈ mesh.faces, ∀ k < 3, face.get k < n) :
    (corners triangles).dedup.length ≤ n := by
  have hsub : (corners triangles).toFinset ⊆ (Finset.range n).image fun i => mesh.vertices.getD i 0 := by
    intro p hp
    rw [List.mem_toFinset, corners, List.mem_flatMap] at hp
    obtain ⟨t, ht, hp⟩ := hp
    obtain ⟨i, hi, rfl⟩ := List.getElem_of_mem ht
    have hi' : i < mesh.faces.length := by rwa [h.length_faces]
    have hface := hn _ (List.getElem_mem hi')
    rw [← h.getTriangle i hi] at hp
    unfold RepoIndexedMesh.getTriangle at hp
    rw [List.getD_eq_getElem _ _ hi'] at hp
    simp only [List.mem_cons, List.not_mem_nil, or_false] at hp
    simp only [Finset.mem_image, Finset.mem_range]
    rcases hp with rfl | rfl | rfl
    · exact ⟨_, hface 0 (by omega), rfl⟩
    · exact ⟨_, hface 1 (by omega), rfl⟩
    · exact ⟨_, hface 2 (by omega), rfl⟩
  have hcard := (Finset.card_le_card hsub).trans Finset.card_image_le
  rwa [List.card_toFinset, Finset.card_range] at hcard

end RepoIndexedMesh

/-! ### What the builder does -/

namespace RepoIndexedMeshBuilder

variable [DecidableEq R]

/-- The map has the index of every vertex, and nothing else. -/
def Context.Synchronised (ctx : Context R) : Prop :=
  ∀ v, ctx.map.lookup v = if v ∈ ctx.vertices then some (ctx.vertices.idxOf v) else none

theorem Context.find_vertices {ctx : Context R} (h : ctx.Synchronised) (v : RepoVector3D R) :
    (ctx.find v).1.vertices = (intern ctx.vertices v).1 ∧ (ctx.find v).2 = (intern ctx.vertices v).2 := by
  unfold find intern
  by_cases hv : v ∈ ctx.vertices
  · rw [h v, if_pos hv, if_pos hv]
    exact ⟨rfl, rfl⟩
  · rw [h v, if_neg hv, if_neg hv]
    exact ⟨rfl, rfl⟩

theorem Context.Synchronised.find {ctx : Context R} (h : ctx.Synchronised) (v : RepoVector3D R) :
    (ctx.find v).1.Synchronised := by
  by_cases hv : v ∈ ctx.vertices
  · have hctx : (ctx.find v).1 = ctx := by
      unfold Context.find
      rw [h v, if_pos hv]
    rwa [hctx]
  · have hctx : (ctx.find v).1 = ⟨(v, ctx.vertices.length) :: ctx.map, ctx.vertices ++ [v]⟩ := by
      unfold Context.find
      rw [h v, if_neg hv]
    rw [hctx]
    intro w
    simp only [List.lookup_cons]
    by_cases hw : w = v
    · subst hw
      simp [List.idxOf_append, hv]
    · have hne : (w == v) = false := beq_eq_false_iff_ne.2 hw
      rw [hne]
      simp only [h w]
      by_cases hmem : w ∈ ctx.vertices
      · simp [hmem, List.idxOf_append_of_mem hmem]
      · simp [hmem, hw]

/-- A face as it is stored. -/
def stored (face : RepoFace) : RepoFace := face.reindex (· % 2 ^ 32)

private theorem stored_eq_self {face : RepoFace} (h : ∀ i ∈ face.indices, i < 2 ^ 32) : stored face = face := by
  cases face with
  | mk indices sides_le =>
    unfold stored RepoFace.reindex
    congr 1
    exact (List.map_congr_left fun i hi => Nat.mod_eq_of_lt (h i hi)).trans (List.map_id _)

/-- The builder is where it is after appending the triangles one by one, but for the width of the indices. -/
structure Represents (builder : RepoIndexedMeshBuilder R) (triangles : List (RepoTriangle R)) : Prop where
  synchronised : builder.ctx.Synchronised
  vertices : builder.ctx.vertices = (RepoIndexedMesh.ofTriangles triangles).vertices
  faces : builder.faces = (RepoIndexedMesh.ofTriangles triangles).faces.map stored

private theorem represents_new : Represents (new : RepoIndexedMeshBuilder R) [] where
  synchronised := fun _ => rfl
  vertices := rfl
  faces := rfl

variable {builder : RepoIndexedMeshBuilder R} {triangles : List (RepoTriangle R)}

theorem Represents.appendTriangle (h : builder.Represents triangles) (triangle : RepoTriangle R) :
    (builder.appendTriangle triangle).Represents (triangles ++ [triangle]) := by
  have ha := Context.find_vertices h.synchronised triangle.a
  have hsa := h.synchronised.find triangle.a
  have hb := Context.find_vertices hsa triangle.b
  have hsb := hsa.find triangle.b
  have hc := Context.find_vertices hsb triangle.c
  have hsc := hsb.find triangle.c
  rw [h.vertices] at ha
  rw [ha.1] at hb
  rw [hb.1] at hc
  refine ⟨hsc, ?_, ?_⟩
  · rw [RepoIndexedMesh.ofTriangles_concat]
    exact hc.1
  · rw [RepoIndexedMesh.ofTriangles_concat]
    unfold RepoIndexedMeshBuilder.appendTriangle pushFace RepoIndexedMesh.append
    simp only [List.foldl_cons, List.foldl_nil, pushCorner, List.map_append, List.map_singleton, h.faces, ha.2, hb.2,
      hc.2]
    rfl

theorem Represents.appendTriangles (h : builder.Represents triangles) (more : List (RepoTriangle R)) :
    (more.foldl RepoIndexedMeshBuilder.appendTriangle builder).Represents (triangles ++ more) := by
  induction more generalizing builder triangles with
  | nil => rwa [List.append_nil]
  | cons triangle more ih =>
    have hrest := ih (h.appendTriangle triangle)
    rwa [List.append_assoc, List.singleton_append] at hrest

theorem Represents.get_lt (h : builder.Represents triangles) {face : RepoFace} (hface : face ∈ builder.mesh.faces) {k : ℕ}
    (hk : k < 3) : face.get k < 2 ^ 32 := by
  have hmem : face ∈ (RepoIndexedMesh.ofTriangles triangles).faces.map stored := by
    rw [← h.faces]
    exact hface
  obtain ⟨face', hface', rfl⟩ := List.mem_map.1 hmem
  have hsides := (RepoIndexedMesh.indexed_ofTriangles triangles face' hface').1
  unfold stored
  rw [RepoFace.get_reindex _ _ (by rwa [hsides])]
  exact Nat.mod_lt _ (by norm_num)

private theorem Represents.mesh_eq (h : builder.Represents triangles) (hsize : (corners triangles).dedup.length ≤ 2 ^ 32) :
    builder.mesh = RepoIndexedMesh.ofTriangles triangles := by
  have hfaces : (RepoIndexedMesh.ofTriangles triangles).faces.map stored =
      (RepoIndexedMesh.ofTriangles triangles).faces := by
    refine (List.map_congr_left fun face hface => ?_).trans (List.map_id _)
    refine stored_eq_self fun i hi => ?_
    have hlt := (RepoIndexedMesh.indexed_ofTriangles triangles face hface).2 i hi
    rw [RepoIndexedMesh.length_vertices_ofTriangles] at hlt
    exact hlt.trans_le hsize
  unfold mesh
  rw [h.vertices, h.faces, hfaces]

variable [Field R]

/-- The faces of an indexed mesh are appended like its triangles. -/
theorem appendMesh_eq (builder : RepoIndexedMeshBuilder R) (hmesh : mesh.Indexed) :
    builder.appendMesh mesh.vertices mesh.faces =
      mesh.getTriangles.foldl appendTriangle builder := by
  have hfaces : mesh.faces = (List.range mesh.faces.length).map fun i => mesh.faces.getD i (.triangle 0 0 0) := by
    refine List.ext_getElem (by simp) ?_
    intro i hi _
    rw [List.getElem_map, List.getElem_range, List.getD_eq_getElem _ _ hi]
  have hcorners : ∀ i ∈ List.range mesh.faces.length,
      ((mesh.faces.getD i (.triangle 0 0 0)).indices.map fun i => mesh.vertices.getD i 0) =
        [(mesh.getTriangle i).a, (mesh.getTriangle i).b, (mesh.getTriangle i).c] := by
    intro i hi
    rw [List.mem_range] at hi
    have hsides : mesh.faces[i].indices.length = 3 := (hmesh _ (List.getElem_mem hi)).1
    unfold RepoIndexedMesh.getTriangle
    rw [List.getD_eq_getElem _ _ hi]
    obtain ⟨a, b, c, habc⟩ := List.length_eq_three.1 hsides
    simp only [RepoFace.get, habc]
    rfl
  unfold appendMesh RepoIndexedMesh.getTriangles
  conv_lhs => rw [hfaces]
  rw [List.foldl_map, List.foldl_map]
  refine List.foldl_ext _ _ _ ?_
  intro builder i hi
  rw [hcorners i hi]
  rfl

theorem Represents.call (h : builder.Represents triangles) {c : Call R} (hc : c.WellFormed) :
    (builder.call c).Represents (triangles ++ c.triangles) := by
  cases c with
  | triangle t => exact h.appendTriangle t
  | mesh m =>
    have hcall : builder.call (.mesh m) = m.getTriangles.foldl RepoIndexedMeshBuilder.appendTriangle builder :=
      appendMesh_eq builder hc
    rw [hcall]
    exact h.appendTriangles _

private theorem represents_build {calls : List (Call R)} (hcalls : ∀ c ∈ calls, c.WellFormed) :
    (build calls).Represents (calls.flatMap Call.triangles) := by
  induction calls using List.reverseRecOn with
  | nil => exact represents_new
  | append_singleton calls c ih =>
    have hinit := ih fun c' hc' => hcalls c' (List.mem_append_left _ hc')
    have hlast := hinit.call (hcalls c (by simp))
    unfold build at hlast ⊢
    rw [List.foldl_append, List.flatMap_append, List.flatMap_singleton]
    exact hlast

/-- The mesh that is built from any calls indexes the appended triangles exactly when their different corners can be
numbered in 32 bits. -/
theorem build_indexes_iff (calls : List (Call R)) (hcalls : ∀ c ∈ calls, c.WellFormed) :
    (build calls).mesh.Indexes (calls.flatMap Call.triangles) ↔
      (corners (calls.flatMap Call.triangles)).dedup.length ≤ 2 ^ 32 := by
  have h := represents_build hcalls
  constructor
  · intro hindexes
    exact hindexes.length_corners_le fun face hface k hk => h.get_lt hface hk
  · intro hsize
    rw [h.mesh_eq hsize]
    exact RepoIndexedMesh.indexes_ofTriangles _

/-- A triangle, and a mesh that shares an edge with it. -/
theorem build_indexes_two :
    let calls : List (Call ℚ) := [.triangle ⟨⟨0, 0, 0⟩, ⟨1, 0, 0⟩, ⟨0, 1, 0⟩⟩,
      .mesh ⟨[⟨0, 0, 1⟩, ⟨0, 1, 0⟩, ⟨1, 0, 0⟩], [.triangle 2 1 0]⟩]
    (build calls).mesh.Indexes (calls.flatMap Call.triangles) ↔
      (corners (calls.flatMap Call.triangles)).dedup.length ≤ 2 ^ 32 := by
  refine build_indexes_iff _ ?_
  intro c hc
  simp only [List.mem_cons, List.not_mem_nil, or_false] at hc
  rcases hc with rfl | rfl
  · trivial
  · intro face hface
    rw [List.mem_singleton] at hface
    subst hface
    exact ⟨rfl, by decide⟩

/-! ### More corners than numbers for them -/

/-- Points of a parabola, no three of which are on a line. -/
def parabola (n : ℕ) : RepoVector3D ℚ := ⟨n, n * n, 0⟩

def strip (n : ℕ) : List (Call ℚ) :=
  (List.range n).map fun k => .triangle ⟨parabola (3 * k), parabola (3 * k + 1), parabola (3 * k + 2)⟩

private theorem corners_strip (n : ℕ) :
    corners ((strip n).flatMap Call.triangles) = (List.range (3 * n)).map parabola := by
  induction n with
  | zero => rfl
  | succ n ih =>
    unfold strip corners at ih ⊢
    rw [List.range_succ, List.map_append, List.flatMap_append, List.flatMap_append, ih]
    have : 3 * (n + 1) = 3 * n + 1 + 1 + 1 := by omega
    rw [this, List.range_succ, List.range_succ, List.range_succ]
    simp [Call.triangles]

private theorem length_corners_strip (n : ℕ) :
    (corners ((strip n).flatMap Call.triangles)).dedup.length = 3 * n := by
  have hinj : Function.Injective parabola := by
    intro m n h
    exact Nat.cast_injective (congrArg RepoVector3D.x h)
  rw [corners_strip, List.Nodup.dedup (List.nodup_range.map hinj), List.length_map, List.length_range]

private theorem wellFormed_strip (n : ℕ) : ∀ c ∈ strip n, c.WellFormed := by
  intro c hc
  obtain ⟨k, -, rfl⟩ := List.mem_map.1 hc
  trivial

/-- With `2 ^ 32 + 2` corners, two of them are given one number. -/
theorem not_indexes_strip : (∀ c ∈ strip 1431655766, c.WellFormed) ∧
    ¬ (build (strip 1431655766)).mesh.Indexes ((strip 1431655766).flatMap Call.triangles) := by
  refine ⟨wellFormed_strip _, ?_⟩
  intro hindexes
  have h := represents_build (wellFormed_strip 1431655766)
  have hle := hindexes.length_corners_le fun face hface k hk => h.get_lt hface hk
  rw [length_corners_strip] at hle
  omega

end RepoIndexedMeshBuilder

end Clash

end Bouncer
