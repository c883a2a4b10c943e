import Bouncer.Import.MeshBuilder
import Bouncer.Import.SceneBuilder

/-!
# Draw contexts

`GeometryCollector` is what the drawing callbacks of a CAD file write to.  A draw context is made for each drawable, and
pushed while it is drawn: faces go to the context on top, into the builder for the material that was last set there.  What
comes outside any context is to be ignored.

`Context.Holds` is what a context has after some faces: a builder for each material, with the faces that came under it.
Extraction returns each of them with its material (`Context.Holds.extractMeshes`), and does so if no builder has triangles
with and without UVs (`Context.Holds.extracts_iff`).
-/

namespace Bouncer

open Library (collect upsert)

/-- Draw contexts are known by their numbers, in the order in which they are made. -/
abbrev ContextId := ℕ

namespace GeometryCollector

open RepoMeshBuilder (Face MeshData Meshes Appearance Rounding Usable meshesOf Mixed Countable)

variable {R M : Type}

/-- What is thrown, or undefined. -/
inductive Failure where
  | emptyStack
  | notOnTop
  | noContext
  | danglingBuilder
  | meshBuilder (failure : RepoMeshBuilder.Failure)

/-- A `RepoMeshBuilder`: its material and its meshes. -/
structure Builder (R M : Type) where
  material : M
  meshes : Meshes R

/-- `Context`.  The pointer `meshBuilder` is a key of `meshBuilders`, or dangles. -/
structure Context (R M : Type) where
  meshBuilders : AList fun _ : BitVec 64 => Builder R M
  meshBuilder : BitVec 64
  offset : RepoVector3D R

/-- The orders in which an extraction goes through the builders, and through the meshes of each. -/
structure MapOrders (R M : Type) where
  builders : Iteration (Sigma fun _ : BitVec 64 => Builder R M)
  meshes : BitVec 64 → Iteration (MeshData R)

namespace Context

section Calls

variable (checksum : M → BitVec 64)

def setMaterial (ctx : Context R M) (material : M) : Context R M :=
  let id := checksum material
  match ctx.meshBuilders.lookup id with
  | none => { ctx with meshBuilders := ctx.meshBuilders.insert id ⟨material, ∅⟩, meshBuilder := id }
  | some _ => { ctx with meshBuilder := id }

/-- The constructor, with the world offset and the last material of the collector. -/
def make [Neg R] (worldOffset : RepoVector3D R) (lastMaterial : M) : Context R M :=
  setMaterial checksum ⟨∅, 0, -worldOffset⟩ lastMaterial

end Calls

variable [ExactReal R]

def addFace (ctx : Context R M) (bf : Face R) : Except Failure (Context R M) :=
  match ctx.meshBuilders.lookup ctx.meshBuilder with
  | none => .error .danglingBuilder
  | some builder => do
    let meshes ← (RepoMeshBuilder.addFace ctx.offset builder.meshes bf).mapError .meshBuilder
    return { ctx with meshBuilders := ctx.meshBuilders.insert ctx.meshBuilder ⟨builder.material, meshes⟩ }

/-- One turn of `extractMeshes`. -/
def extractBuilder (rounding : Rounding R) (m : RepoMatrix R) (meshes : Iteration (MeshData R)) (builder : Builder R M) :
    Except Failure (List (MeshGeometry R × M)) := do
  let nodes ← (RepoMeshBuilder.extractMeshes rounding m (meshes.order (builder.meshes.entries.map Sigma.snd))).mapError
    .meshBuilder
  return nodes.map fun mesh => (mesh, builder.material)

/-- `extractMeshes`: the pairs, and the context without its builders. -/
def extractMeshes (rounding : Rounding R) (m : RepoMatrix R) (orders : MapOrders R M) (ctx : Context R M) :
    Except Failure (List (MeshGeometry R × M) × Context R M) := do
  let pairs ← (orders.builders.order ctx.meshBuilders.entries).mapM fun entry =>
    extractBuilder rounding m (orders.meshes entry.1) entry.2
  return (pairs.flatten, { ctx with meshBuilders := ∅ })

end Context

/-- How the faces that are returned are drawn, and under which materials. -/
def drawn [ExactReal R] (pairs : List (MeshGeometry R × M)) : List (Appearance R × M) :=
  pairs.flatMap fun p => p.1.faces.map fun face => (RepoMeshBuilder.appearance p.1 face, p.2)

/-! ### What a context holds -/

/-- The faces that came under materials with this checksum. -/
def facesUnder (checksum : M → BitVec 64) (faces : List (Face R × M)) (id : BitVec 64) : List (Face R) :=
  (faces.filter fun p => decide (checksum p.2 = id)).map Prod.fst

private theorem facesUnder_append (checksum : M → BitVec 64) (faces faces' : List (Face R × M)) (id : BitVec 64) :
    facesUnder checksum (faces ++ faces') id = facesUnder checksum faces id ++ facesUnder checksum faces' id := by
  rw [facesUnder, List.filter_append, List.map_append]
  rfl

namespace Context

variable [ExactReal R]

/-- The context has a builder for each material of the faces, and for the one last set, which is active. -/
structure Holds (checksum : M → BitVec 64) (materials : Set M) (offset : RepoVector3D R) (ctx : Context R M)
    (faces : List (Face R × M)) (material : M) : Prop where
  offset_eq : ctx.offset = offset
  active : ctx.meshBuilder = checksum material
  activeBuilder : checksum material ∈ ctx.meshBuilders
  material_mem : material ∈ materials
  valid : ∀ p ∈ faces, p.1.Valid ∧ p.2 ∈ materials ∧ checksum p.2 ∈ ctx.meshBuilders
  builder : ∀ id builder, ctx.meshBuilders.lookup id = some builder →
    id = checksum builder.material ∧ builder.material ∈ materials ∧
      builder.meshes = meshesOf offset (facesUnder checksum faces id)

variable {checksum : M → BitVec 64} {materials : Set M} {offset : RepoVector3D R} {ctx : Context R M}
  {faces : List (Face R × M)} {material : M}

omit [ExactReal R] in
private theorem setMaterial_of_mem (h : checksum material ∈ ctx.meshBuilders) :
    ctx.setMaterial checksum material = { ctx with meshBuilder := checksum material } := by
  obtain ⟨builder, hlookup⟩ := Option.isSome_iff_exists.1 (AList.lookup_isSome.2 h)
  unfold setMaterial
  dsimp only
  rw [hlookup]

omit [ExactReal R] in
private theorem setMaterial_of_not_mem (h : checksum material ∉ ctx.meshBuilders) : ctx.setMaterial checksum material =
    { ctx with
      meshBuilders := ctx.meshBuilders.insert (checksum material) ⟨material, ∅⟩, meshBuilder := checksum material } := by
  unfold setMaterial
  dsimp only
  rw [AList.lookup_eq_none.2 h]

private theorem meshesOf_concat (faces : List (Face R)) (bf : Face R) : meshesOf offset (faces ++ [bf]) =
    upsert MeshData.empty (MeshData.addFace offset) (meshesOf offset faces) (bf.getFormat, bf) := by
  rw [meshesOf, List.map_append, collect, List.foldl_append]
  rfl

variable {id : BitVec 64}

omit [ExactReal R] in
private theorem facesUnder_eq_nil (h : ∀ p ∈ faces, checksum p.2 ∈ ctx.meshBuilders)
    (hid : id ∉ ctx.meshBuilders) : facesUnder checksum faces id = [] := by
  rw [facesUnder, List.map_eq_nil_iff, List.filter_eq_nil_iff]
  intro p hp hkey
  exact hid (of_decide_eq_true hkey ▸ h p hp)

theorem Holds.setMaterial (h : Holds checksum materials offset ctx faces material) {material' : M}
    (hmem : material' ∈ materials) :
    Holds checksum materials offset (ctx.setMaterial checksum material') faces material' := by
  by_cases hold : checksum material' ∈ ctx.meshBuilders
  · rw [setMaterial_of_mem hold]
    exact { h with active := rfl, activeBuilder := hold, material_mem := hmem }
  · rw [setMaterial_of_not_mem hold]
    exact
    { offset_eq := h.offset_eq
      active := rfl
      activeBuilder := (AList.mem_insert _).2 (.inl rfl)
      material_mem := hmem
      valid := fun p hp => ⟨(h.valid p hp).1, (h.valid p hp).2.1, (AList.mem_insert _).2 (.inr (h.valid p hp).2.2)⟩
      builder := by
        intro id builder hlookup
        by_cases hkey : id = checksum material'
        · subst hkey
          rw [AList.lookup_insert] at hlookup
          cases hlookup
          rw [facesUnder_eq_nil (fun p hp => (h.valid p hp).2.2) hold]
          exact ⟨rfl, hmem, rfl⟩
        · rw [AList.lookup_insert_ne hkey] at hlookup
          exact h.builder id builder hlookup }

variable (checksum) in
/-- A new context holds nothing. -/
theorem holds_make (worldOffset : RepoVector3D R) (hmem : material ∈ materials) :
    Holds checksum materials (-worldOffset) (Context.make checksum worldOffset material) [] material := by
  rw [make, setMaterial_of_not_mem (AList.notMem_empty _)]
  exact
  { offset_eq := rfl
    active := rfl
    activeBuilder := (AList.mem_insert _).2 (.inl rfl)
    material_mem := hmem
    valid := fun _ h => absurd h List.not_mem_nil
    builder := by
      intro id builder hlookup
      by_cases hkey : id = checksum material
      · subst hkey
        rw [AList.lookup_insert] at hlookup
        cases hlookup
        exact ⟨rfl, hmem, rfl⟩
      · rw [AList.lookup_insert_ne hkey] at hlookup
        exact nomatch hlookup }

/-- A valid face goes to the builder of the material that was last set. -/
theorem Holds.addFace (h : Holds checksum materials offset ctx faces material) {bf : Face R} (hvalid : bf.Valid) :
    ∃ ctx', ctx.addFace bf = .ok ctx' ∧ Holds checksum materials offset ctx' (faces ++ [(bf, material)]) material := by
  obtain ⟨builder, hlookup⟩ := Option.isSome_iff_exists.1 (AList.lookup_isSome.2 h.activeBuilder)
  obtain ⟨hid, hmaterial, hmeshes⟩ := h.builder _ _ hlookup
  have hadd : ctx.addFace bf = .ok { ctx with
      meshBuilders := ctx.meshBuilders.insert (checksum material) ⟨builder.material,
        upsert MeshData.empty (MeshData.addFace offset) builder.meshes (bf.getFormat, bf)⟩ } := by
    rw [Context.addFace, h.active, hlookup]
    dsimp only
    rw [RepoMeshBuilder.addFace_ok ctx.offset hvalid builder.meshes, h.offset_eq]
    rfl
  refine ⟨_, hadd, ?_⟩
  exact
  { offset_eq := h.offset_eq
    active := h.active
    activeBuilder := (AList.mem_insert _).2 (.inl rfl)
    material_mem := h.material_mem
    valid := by
      intro p hp
      rcases List.mem_append.1 hp with hp | hp
      · exact ⟨(h.valid p hp).1, (h.valid p hp).2.1, (AList.mem_insert _).2 (.inr (h.valid p hp).2.2)⟩
      · rw [List.mem_singleton.1 hp]
        exact ⟨hvalid, h.material_mem, (AList.mem_insert _).2 (.inl rfl)⟩
    builder := by
      intro id builder' hlookup'
      by_cases hkey : id = checksum material
      · subst hkey
        rw [AList.lookup_insert] at hlookup'
        cases hlookup'
        have hnew : facesUnder checksum [(bf, material)] (checksum material) = [bf] := by
          simp [facesUnder]
        rw [facesUnder_append, hnew, meshesOf_concat, ← hmeshes]
        exact ⟨hid, hmaterial, rfl⟩
      · rw [AList.lookup_insert_ne hkey] at hlookup'
        have hnone : facesUnder checksum [(bf, material)] id = [] := by
          simp [facesUnder, Ne.symm hkey]
        rw [facesUnder_append, hnone, List.append_nil]
        exact h.builder id builder' hlookup' }

/-! ### Extraction -/

section Extraction

variable {rounding : Rounding R} {m : RepoMatrix R} {orders : MapOrders R M}

private theorem extractMeshes_perm {bfs : List (Face R)} {order : List (MeshData R)} {nodes : List (MeshGeometry R)}
    (horder : order.Perm ((meshesOf offset bfs).entries.map Sigma.snd)) (hvalid : ∀ bf ∈ bfs, bf.Valid)
    (hm : Usable rounding m) (hnodes : RepoMeshBuilder.extractMeshes rounding m order = .ok nodes) :
    (nodes.flatMap fun node => node.faces.map (RepoMeshBuilder.appearance node)).Perm
      (bfs.map (Face.appearance rounding offset m)) := by
  have hkeeps : RepoMeshBuilder.KeepsApart rounding offset m bfs :=
    RepoMeshBuilder.keepsApart_of_not_mixed hvalid hm.vertices (.inl hm.normals)
      (RepoMeshBuilder.not_mixed_of_extractMeshes horder hnodes hvalid)
      (RepoMeshBuilder.countable_of_extractMeshes horder hnodes hvalid)
  obtain ⟨meshes, hmeshes, hall⟩ := hkeeps
  rw [RepoMeshBuilder.foldlM_addFace hvalid] at hmeshes
  cases hmeshes
  obtain ⟨nodes', hnodes', hperm, -⟩ := hall order horder
  rw [hnodes] at hnodes'
  cases hnodes'
  exact hperm

variable (rounding) in
private theorem exists_extractMeshes_iff {bfs : List (Face R)} {order : List (MeshData R)}
    (horder : order.Perm ((meshesOf offset bfs).entries.map Sigma.snd)) (hvalid : ∀ bf ∈ bfs, bf.Valid)
    (hm : Usable rounding m) :
    (∃ nodes, RepoMeshBuilder.extractMeshes rounding m order = .ok nodes) ↔ ¬ Mixed bfs ∧ Countable bfs := by
  constructor
  · rintro ⟨nodes, hnodes⟩
    exact ⟨RepoMeshBuilder.not_mixed_of_extractMeshes horder hnodes hvalid,
      RepoMeshBuilder.countable_of_extractMeshes horder hnodes hvalid⟩
  · rintro ⟨hmixed, hcount⟩
    have hkeeps : RepoMeshBuilder.KeepsApart rounding offset m bfs :=
      RepoMeshBuilder.keepsApart_of_not_mixed hvalid hm.vertices (.inl hm.normals) hmixed hcount
    obtain ⟨meshes, hmeshes, hall⟩ := hkeeps
    rw [RepoMeshBuilder.foldlM_addFace hvalid] at hmeshes
    cases hmeshes
    obtain ⟨nodes, hnodes, -⟩ := hall order horder
    exact ⟨nodes, hnodes⟩

variable {builder : Builder R M}

private theorem extractBuilder_eq_ok {meshes : Iteration (MeshData R)}
    {pairs : List (MeshGeometry R × M)} : extractBuilder rounding m meshes builder = .ok pairs ↔
      ∃ nodes, RepoMeshBuilder.extractMeshes rounding m (meshes.order (builder.meshes.entries.map Sigma.snd)) =
        .ok nodes ∧ (nodes.map fun mesh => (mesh, builder.material)) = pairs := by
  unfold extractBuilder
  cases RepoMeshBuilder.extractMeshes rounding m (meshes.order (builder.meshes.entries.map Sigma.snd)) with
  | error failure => exact ⟨nofun, fun ⟨_, h, _⟩ => nomatch h⟩
  | ok nodes =>
    constructor
    · intro h
      cases h
      exact ⟨nodes, rfl, rfl⟩
    · rintro ⟨_, ⟨⟩, rfl⟩
      rfl

private theorem drawn_map (nodes : List (MeshGeometry R)) (material : M) :
    drawn (nodes.map fun mesh => (mesh, material)) =
      (nodes.flatMap fun node => node.faces.map (RepoMeshBuilder.appearance node)).map fun a => (a, material) := by
  rw [drawn, List.flatMap_map, List.map_flatMap]
  simp only [List.map_map]
  rfl

theorem Holds.valid_facesUnder (h : Holds checksum materials offset ctx faces material) (id : BitVec 64) :
    ∀ bf ∈ facesUnder checksum faces id, bf.Valid := by
  intro bf hbf
  obtain ⟨p, hp, rfl⟩ := List.mem_map.1 hbf
  exact (h.valid p (List.mem_filter.1 hp).1).1

theorem Holds.material_eq (h : Holds checksum materials offset ctx faces material) (hinj : Set.InjOn checksum materials)
    (hlookup : ctx.meshBuilders.lookup id = some builder) {p : Face R × M}
    (hp : p ∈ faces) : checksum p.2 = id ↔ p.2 = builder.material := by
  obtain ⟨hid, hmaterial, -⟩ := h.builder id builder hlookup
  rw [hid]
  exact ⟨fun heq => hinj (h.valid p hp).2.1 hmaterial heq, fun heq => congrArg checksum heq⟩

private theorem Holds.extractBuilder (h : Holds checksum materials offset ctx faces material)
    (hinj : Set.InjOn checksum materials) (hm : Usable rounding m)
    (hlookup : ctx.meshBuilders.lookup id = some builder) {meshes : Iteration (MeshData R)}
    {pairs : List (MeshGeometry R × M)} (hpairs : Context.extractBuilder rounding m meshes builder = .ok pairs) :
    (drawn pairs).Perm ((faces.filter fun p => decide (checksum p.2 = id)).map fun p =>
      (p.1.appearance rounding offset m, p.2)) := by
  obtain ⟨nodes, hnodes, rfl⟩ := extractBuilder_eq_ok.1 hpairs
  obtain ⟨-, -, hmeshes⟩ := h.builder id builder hlookup
  have horder : (meshes.order (builder.meshes.entries.map Sigma.snd)).Perm
      ((meshesOf offset (facesUnder checksum faces id)).entries.map Sigma.snd) := hmeshes ▸ meshes.perm _
  have hperm := (extractMeshes_perm horder (h.valid_facesUnder id) hm hnodes).map fun a => (a, builder.material)
  have hmaterials : (faces.filter fun p => decide (checksum p.2 = id)).map
        (fun p => (p.1.appearance rounding offset m, p.2)) =
      ((facesUnder checksum faces id).map (Face.appearance rounding offset m)).map fun a => (a, builder.material) := by
    rw [facesUnder, List.map_map, List.map_map]
    apply List.map_congr_left
    intro p hp
    obtain ⟨hmem, hkey⟩ := List.mem_filter.1 hp
    exact Prod.ext rfl ((h.material_eq hinj hlookup hmem).1 (of_decide_eq_true hkey))
  rw [drawn_map, hmaterials]
  exact hperm

private theorem extractMeshes_eq_ok {result : List (MeshGeometry R × M) × Context R M} :
    ctx.extractMeshes rounding m orders = .ok result ↔
      ∃ pairs, (orders.builders.order ctx.meshBuilders.entries).mapM
        (fun entry => Context.extractBuilder rounding m (orders.meshes entry.1) entry.2) = .ok pairs ∧
        (pairs.flatten, { ctx with meshBuilders := ∅ }) = result := by
  rw [extractMeshes, Library.Fallible.bind_eq_ok]
  constructor
  · rintro ⟨pairs, hpairs, ⟨⟩⟩
    exact ⟨pairs, hpairs, rfl⟩
  · rintro ⟨pairs, hpairs, rfl⟩
    exact ⟨pairs, hpairs, rfl⟩

omit [ExactReal R] in
private theorem lookup_of_mem_order {entry : Sigma fun _ : BitVec 64 => Builder R M}
    (h : entry ∈ orders.builders.order ctx.meshBuilders.entries) : ctx.meshBuilders.lookup entry.1 = some entry.2 :=
  AList.mem_lookup_iff.2 ((orders.builders.perm _).mem_iff.1 h)

/-- An extraction returns every face of the context once, with the material under which it came. -/
theorem Holds.extractMeshes (h : Holds checksum materials offset ctx faces material)
    (hinj : Set.InjOn checksum materials) (hm : Usable rounding m)
    {result : List (MeshGeometry R × M) × Context R M} (hok : ctx.extractMeshes rounding m orders = .ok result) :
    (drawn result.1).Perm (faces.map fun p => (p.1.appearance rounding offset m, p.2)) := by
  obtain ⟨pairs, hpairs, rfl⟩ := extractMeshes_eq_ok.1 hok
  let expected : BitVec 64 → List (Appearance R × M) := fun id =>
    (faces.filter fun p => decide (checksum p.2 = id)).map fun p => (p.1.appearance rounding offset m, p.2)
  have hbuilders : List.Forall₂ (fun (entry : Sigma fun _ : BitVec 64 => Builder R M) ps =>
      (expected entry.1).Perm (drawn ps)) (orders.builders.order ctx.meshBuilders.entries) pairs := by
    rw [List.forall₂_iff_get]
    have hall := Library.Fallible.forall₂_of_mapM hpairs
    refine ⟨hall.length_eq, fun i hi hi' => ?_⟩
    have hlookup := lookup_of_mem_order (List.get_mem (orders.builders.order ctx.meshBuilders.entries) ⟨i, hi⟩)
    exact (h.extractBuilder hinj hm hlookup (hall.get hi hi')).symm
  have hflatten : drawn pairs.flatten = pairs.flatMap drawn := by
    rw [List.flatten_eq_flatMap]
    exact List.flatMap_assoc
  have hkeys : ((orders.builders.order ctx.meshBuilders.entries).flatMap fun entry => expected entry.1).Perm
      (faces.map fun p => (p.1.appearance rounding offset m, p.2)) := by
    have horder := (orders.builders.perm ctx.meshBuilders.entries).flatMap_right fun entry => expected entry.1
    have hentries : (ctx.meshBuilders.entries.flatMap fun entry => expected entry.1) =
        (ctx.meshBuilders.keys.flatMap fun id => faces.filter fun p => decide (checksum p.2 = id)).map
          fun p => (p.1.appearance rounding offset m, p.2) := by
      have hlist : ctx.meshBuilders.keys = ctx.meshBuilders.entries.map Sigma.fst := rfl
      rw [hlist, List.flatMap_map, List.map_flatMap]
    have hfaces := Library.perm_flatMap_filter (fun p : Face R × M => checksum p.2) ctx.meshBuilders.keys_nodup
      (l := faces) fun p hp => (h.valid p hp).2.2
    exact horder.trans (hentries ▸ hfaces.map _)
  rw [hflatten]
  exact (Library.perm_flatMap_of_forall₂ hbuilders).symm.trans hkeys

/-- The faces that came under a material. -/
def facesWith [DecidableEq M] (faces : List (Face R × M)) (material : M) : List (Face R) :=
  (faces.filter fun p => decide (p.2 = material)).map Prod.fst

/-- The faces under each material can be extracted. -/
def Extractable [DecidableEq M] (faces : List (Face R × M)) : Prop :=
  ∀ material, ¬ Mixed (facesWith faces material) ∧ Countable (facesWith faces material)

theorem Holds.facesUnder_eq [DecidableEq M] (h : Holds checksum materials offset ctx faces material)
    (hinj : Set.InjOn checksum materials)
    (hlookup : ctx.meshBuilders.lookup id = some builder) :
    facesUnder checksum faces id = facesWith faces builder.material := by
  unfold facesUnder facesWith
  congr 1
  apply List.filter_congr
  intro p hp
  exact decide_eq_decide.2 (h.material_eq hinj hlookup hp)

variable (rounding orders) in
/-- An extraction ends well exactly if the faces under each material can be extracted. -/
theorem Holds.extracts_iff [DecidableEq M] (h : Holds checksum materials offset ctx faces material)
    (hinj : Set.InjOn checksum materials) (hm : Usable rounding m) :
    (∃ result, ctx.extractMeshes rounding m orders = .ok result) ↔ Extractable faces := by
  have hresult : (∃ result, ctx.extractMeshes rounding m orders = .ok result) ↔
      ∀ entry ∈ orders.builders.order ctx.meshBuilders.entries, ∃ pairs,
        Context.extractBuilder rounding m (orders.meshes entry.1) entry.2 = .ok pairs := by
    rw [← Library.Fallible.exists_mapM_iff]
    constructor
    · rintro ⟨result, hok⟩
      obtain ⟨pairs, hpairs, -⟩ := extractMeshes_eq_ok.1 hok
      exact ⟨pairs, hpairs⟩
    · rintro ⟨pairs, hpairs⟩
      exact ⟨_, extractMeshes_eq_ok.2 ⟨pairs, hpairs, rfl⟩⟩
  have hbuilder : ∀ entry ∈ orders.builders.order ctx.meshBuilders.entries,
      ((∃ pairs, Context.extractBuilder rounding m (orders.meshes entry.1) entry.2 = .ok pairs) ↔
        ¬ Mixed (facesWith faces entry.2.material) ∧ Countable (facesWith faces entry.2.material)) := by
    intro entry hentry
    have hlookup := lookup_of_mem_order hentry
    obtain ⟨-, -, hmeshes⟩ := h.builder _ _ hlookup
    have horder : ((orders.meshes entry.1).order (entry.2.meshes.entries.map Sigma.snd)).Perm
        ((meshesOf offset (facesUnder checksum faces entry.1)).entries.map Sigma.snd) :=
      hmeshes ▸ (orders.meshes entry.1).perm _
    rw [← h.facesUnder_eq hinj hlookup, ← exists_extractMeshes_iff rounding horder
      (h.valid_facesUnder entry.1) hm]
    constructor
    · rintro ⟨pairs, hpairs⟩
      obtain ⟨nodes, hnodes, -⟩ := extractBuilder_eq_ok.1 hpairs
      exact ⟨nodes, hnodes⟩
    · rintro ⟨nodes, hnodes⟩
      exact ⟨_, extractBuilder_eq_ok.2 ⟨nodes, hnodes, rfl⟩⟩
  rw [hresult]
  constructor
  · intro hall material'
    by_cases hnone : facesWith faces material' = []
    · rw [hnone]
      exact ⟨fun ⟨⟨_, hbf, _⟩, _⟩ => absurd hbf List.not_mem_nil, fun _ hbf => absurd hbf List.not_mem_nil⟩
    · obtain ⟨bf, hbf⟩ := List.exists_mem_of_ne_nil _ hnone
      obtain ⟨p, hp, -⟩ := List.mem_map.1 hbf
      obtain ⟨hp, hmaterial⟩ := List.mem_filter.1 hp
      have hmaterial := of_decide_eq_true hmaterial
      obtain ⟨builder, hlookup⟩ := Option.isSome_iff_exists.1 (AList.lookup_isSome.2 (h.valid p hp).2.2)
      have hentry : (⟨checksum p.2, builder⟩ : Sigma fun _ : BitVec 64 => Builder R M) ∈
          orders.builders.order ctx.meshBuilders.entries :=
        (orders.builders.perm _).mem_iff.2 (AList.mem_lookup_iff.1 hlookup)
      have hsame : builder.material = material' := ((h.material_eq hinj hlookup hp).1 rfl).symm.trans hmaterial
      have hextract := (hbuilder _ hentry).1 (hall _ hentry)
      rwa [hsame] at hextract
  · intro hall entry hentry
    exact (hbuilder entry hentry).2 (hall entry.2.material)

end Extraction

end Context

end GeometryCollector

end Bouncer
