import Bouncer.Import.BimNames

/-!
# The order of the sections of a `.bim` header

The nodes, the materials and the textures of a header come in any order.  What is imported is the same, up to the choice of
UUIDs (`Same`), if the nodes come before the materials in both orders, or after them in both.  A mesh that comes after the
materials never gets one: `createMaterial` gives a material to the meshes that wait for it, and nothing looks for the
material of a mesh that comes later.
-/

namespace Bouncer.BimImport

variable {M : Type}

structure Header (M : Type) where
  nodes : List NodeRecord
  materials : List (M × ℤ)
  textures : List TextureRecord

inductive Section where
  | nodes
  | materials
  | textures
  deriving DecidableEq

/-- The order of the sections in a header. -/
structure SectionOrder where
  sections : List Section
  perm : sections.Perm [.nodes, .materials, .textures]

/-- The order in which the data of the textures is read. -/
structure Reading where
  arrange : List TextureRecord → List TextureRecord
  perm : ∀ ts, (arrange ts).Perm ts

structure Scene (M : Type) where
  builder : Builder M
  textures : List (TextureRecord × ℕ)

def SectionOrder.nodesFirst (o : SectionOrder) : Bool :=
  decide (o.sections.idxOf .nodes < o.sections.idxOf .materials)

namespace Header

def records (h : Header M) : Section → List (Record M)
  | .nodes => h.nodes.map .node
  | .materials => h.materials.map fun p => .material p.1 p.2
  | .textures => h.textures.map .texture

def stream (h : Header M) (o : SectionOrder) : List (Record M) := o.sections.flatMap h.records

/-- The import of a header, where `initial` is the material of a new mesh. -/
def importWith (h : Header M) (initial : M) (o : SectionOrder) (reading : Reading) : Option (Scene M) :=
  (Builder.start.run initial (h.stream o)).map fun s =>
    let read := s.readTextures (reading.arrange s.textures)
    ⟨read.2, read.1⟩

end Header

/-! ### The same scene -/

/-- Two scenes that differ in their UUIDs, which `R` relates, and in the order of their references and textures. -/
structure Related (R : ℕ → ℕ → Prop) (a b : Scene M) : Prop where
  transformations : List.Forall₂ (fun t t' => R t.sharedId t'.sharedId ∧ t.name = t'.name ∧
    List.Forall₂ R t.parents t'.parents) a.builder.transformations b.builder.transformations
  meshes : List.Forall₂ (fun m m' => R m.sharedId m'.sharedId ∧ List.Forall₂ R m.parents m'.parents ∧
    m.material = m'.material ∧ List.Forall₂ R m.textureId.toList m'.textureId.toList) a.builder.meshes b.builder.meshes
  metadata : List.Forall₂ (List.Forall₂ R) a.builder.metadata b.builder.metadata
  materials : List.Forall₂ (fun p q => R p.1.uniqueId q.1.uniqueId ∧ R p.1.sharedId q.1.sharedId ∧ p.2 = q.2)
    a.builder.materials b.builder.materials
  textures : ∃ textures, textures.Perm b.textures ∧
    List.Forall₂ (fun p q => p.1 = q.1 ∧ R p.2 q.2) a.textures textures
  references : ∃ references, references.Perm b.builder.references ∧
    List.Forall₂ (fun p q => R p.1 q.1 ∧ R p.2 q.2) a.builder.references references
  missingTextures : a.builder.missingTextures = b.builder.missingTextures

/-- The same scene, but for the choice of UUIDs. -/
def Same (a b : Scene M) : Prop := ∃ R : ℕ → ℕ → Prop, Relator.BiUnique R ∧ Related R a b

/-- Both imports fail, or both make the same scene. -/
def Agree (a b : Option (Scene M)) : Prop := Option.Rel Same a b

/-! ### The sketch of a header -/

namespace Sketch

variable {c : Sketch M}

private theorem run_append (initial : M) (rs rs' : List (Record M)) :
    c.run initial (rs ++ rs') = (c.run initial rs).bind (Sketch.run initial rs') :=
  List.foldlM_append ..

/-- The nodes of one sketch, with the materials and textures of another that was there before. -/
def overlay (c d : Sketch M) : Sketch M :=
  { c with
    numMaterials := d.numMaterials
    materials := d.materials
    textures := d.textures
    references := d.references ++ c.references
    missingTextures := d.missingTextures }

private theorem placeNode_overlay (d : Sketch M) (r : NodeRecord) :
    (c.overlay d).placeNode r = (c.placeNode r).map fun placed => (placed.1, placed.2.overlay d) := by
  unfold placeNode overlay
  dsimp only
  split_ifs
  · rfl
  · cases (c.transformOf r.parentId).toList <;> rfl

private theorem addMesh_overlay (d : Sketch M) (initial : M) (r : NodeRecord) (names : List Name) :
    (c.overlay d).addMesh initial r names = ((c.addMesh initial r names).1, (c.addMesh initial r names).2.overlay d) := by
  unfold addMesh overlay
  dsimp only
  rw [List.append_assoc]

private theorem createNode_overlay (d : Sketch M) (initial : M) (r : NodeRecord) :
    (c.overlay d).createNode initial r = (c.createNode initial r).map (Sketch.overlay · d) := by
  unfold createNode
  rw [placeNode_overlay]
  cases c.placeNode r with
  | none => rfl
  | some placed =>
    simp only [Option.map_some]
    rw [addMesh_overlay]
    by_cases hgeometry : r.hasGeometry <;> by_cases hmetadata : r.hasMetadata <;>
      simp only [hgeometry, hmetadata, if_true] <;> rfl

private theorem run_nodes_overlay (d : Sketch M) (initial : M) (nodes : List NodeRecord) :
    (c.overlay d).run initial (nodes.map .node) = (c.run initial (nodes.map .node)).map (Sketch.overlay · d) := by
  unfold Sketch.run
  induction nodes generalizing c with
  | nil => rfl
  | cons r rs ih =>
    rw [List.map_cons, List.foldlM_cons, List.foldlM_cons]
    show ((c.overlay d).createNode initial r).bind _ = ((c.createNode initial r).bind _).map _
    rw [createNode_overlay]
    cases c.createNode initial r with
    | none => rfl
    | some c' => exact ih

end Sketch

/-! ### Materials and textures of a sketch -/

/-- A mesh when a list of materials comes, numbered from `k`. -/
def SketchMesh.receiveAll : ℕ → List (M × ℤ) → SketchMesh M → SketchMesh M
  | _, [], mesh => mesh
  | k, p :: ps, mesh => receiveAll (k + 1) ps (mesh.receive (toInt k) p.1 p.2)

def listed : ℕ → List (M × ℤ) → List (ℤ × M)
  | _, [] => []
  | k, p :: ps => (toInt k, p.1) :: listed (k + 1) ps

/-- The references from materials to textures. -/
def mentions : ℕ → List (M × ℤ) → List (Name × Name)
  | _, [] => []
  | k, p :: ps => (if p.2 ≠ -1 then [(.texture p.2, .materialShared (toInt k))] else []) ++ mentions (k + 1) ps

namespace Sketch

variable {c : Sketch M}

private theorem run_materials (initial : M) (materials : List (M × ℤ)) :
    c.run initial (materials.map fun p => .material p.1 p.2) = some { c with
      numMaterials := c.numMaterials + materials.length
      materials := c.materials ++ listed c.numMaterials materials
      meshes := c.meshes.map (SketchMesh.receiveAll c.numMaterials materials)
      references := c.references ++ mentions c.numMaterials materials } := by
  unfold Sketch.run
  induction materials generalizing c with
  | nil =>
    have hmap : c.meshes.map (SketchMesh.receiveAll c.numMaterials []) = c.meshes := List.map_id _
    rw [hmap, listed, mentions, List.append_nil, List.append_nil]
    rfl
  | cons p ps ih =>
    rw [List.map_cons, List.foldlM_cons]
    show List.foldlM _ (c.createMaterial p.1 p.2) _ = _
    rw [ih]
    simp only [createMaterial, List.append_assoc, List.map_map, List.length_cons, listed, mentions, List.cons_append,
      List.nil_append, Nat.add_assoc, Nat.add_comm 1]
    rfl

private theorem run_textures (initial : M) (ts : List TextureRecord) :
    c.run initial (ts.map .texture) = some { c with
      textures := c.textures ++ ts.filter TextureRecord.isOK
      missingTextures := c.missingTextures || ts.any fun t => !t.isOK } := by
  unfold Sketch.run
  induction ts generalizing c with
  | nil => simp
  | cons t ts ih =>
    rw [List.map_cons, List.foldlM_cons]
    show List.foldlM _ (c.createTexture t) _ = _
    rw [ih, createTexture]
    cases hok : t.isOK <;> simp [hok]

end Sketch

/-- The sketch of a header whose nodes have the sketch `n`. -/
def Header.sketch (h : Header M) (nodesFirst : Bool) (n : Sketch M) : Sketch M :=
  { n with
    numMaterials := h.materials.length
    materials := listed 0 h.materials
    meshes := if nodesFirst then n.meshes.map (SketchMesh.receiveAll 0 h.materials) else n.meshes
    textures := h.textures.filter TextureRecord.isOK
    references := if nodesFirst then n.references ++ mentions 0 h.materials else mentions 0 h.materials ++ n.references
    missingTextures := h.textures.any fun t => !t.isOK }

private theorem over_start_of_run {initial : M} (nodes : List NodeRecord) {n : Sketch M}
    (hrun : Sketch.start.run initial (nodes.map .node) = some n) : n.overlay Sketch.start = n := by
  have hover := Sketch.run_nodes_overlay (c := (Sketch.start : Sketch M)) Sketch.start initial nodes
  have hstart : (Sketch.start : Sketch M).overlay Sketch.start = Sketch.start := rfl
  rw [hstart, hrun] at hover
  exact (Option.some.inj hover).symm

private theorem sections_cases (o : SectionOrder) : o.sections = [.nodes, .materials, .textures] ∨
    o.sections = [.nodes, .textures, .materials] ∨ o.sections = [.textures, .nodes, .materials] ∨
    o.sections = [.materials, .nodes, .textures] ∨ o.sections = [.materials, .textures, .nodes] ∨
    o.sections = [.textures, .materials, .nodes] := by
  obtain ⟨a, b, c, hsections⟩ := List.length_eq_three.1 o.perm.length_eq
  have hperm : [a, b, c].Perm [.nodes, .materials, .textures] := hsections ▸ o.perm
  rw [hsections]
  revert hperm
  cases a <;> cases b <;> cases c <;> decide

variable {h : Header M} {initial : M} {n : Sketch M}

private theorem records_materials : h.records .materials = h.materials.map fun p => .material p.1 p.2 := rfl

private theorem records_textures : h.records .textures = h.textures.map .texture := rfl

variable {c : Sketch M}

private theorem run_nodes (hc : Sketch.start.overlay c = c) : c.run initial (h.records .nodes) =
    (Sketch.start.run initial (h.records .nodes)).map (Sketch.overlay · c) := by
  have hover := Sketch.run_nodes_overlay (c := (Sketch.start : Sketch M)) c initial h.nodes
  rw [hc] at hover
  exact hover

private theorem run_stream_of_none (hrun : Sketch.start.run initial (h.records .nodes) = none) (o : SectionOrder) :
    Sketch.start.run initial (h.stream o) = none := by
  have hlater {c : Sketch M} (hc : Sketch.start.overlay c = c) : c.run initial (h.records .nodes) = none := by
    rw [run_nodes hc, hrun]
    rfl
  unfold Header.stream
  rcases sections_cases o with ho | ho | ho | ho | ho | ho <;> rw [ho] <;>
    simp only [List.flatMap_cons, List.flatMap_nil, List.append_nil, Sketch.run_append]
  · rw [hrun, Option.bind_none]
  · rw [hrun, Option.bind_none]
  · rw [records_textures, Sketch.run_textures, Option.bind_some, hlater rfl, Option.bind_none]
  · rw [records_materials, Sketch.run_materials, Option.bind_some, hlater (by simp [Sketch.overlay, Sketch.start]),
      Option.bind_none]
  · rw [records_materials, Sketch.run_materials, Option.bind_some, records_textures, Sketch.run_textures,
      Option.bind_some, hlater (by simp [Sketch.overlay, Sketch.start])]
  · rw [records_textures, Sketch.run_textures, Option.bind_some, records_materials, Sketch.run_materials,
      Option.bind_some, hlater (by simp [Sketch.overlay, Sketch.start])]

/-- Only the order of the nodes and the materials matters. -/
theorem run_stream_of_some (hrun : Sketch.start.run initial (h.records .nodes) = some n) (o : SectionOrder) :
    Sketch.start.run initial (h.stream o) = some (h.sketch o.nodesFirst n) := by
  have hover := over_start_of_run h.nodes hrun
  have hnumber : n.numMaterials = 0 := congrArg Sketch.numMaterials hover.symm
  have hmaterials : n.materials = [] := congrArg Sketch.materials hover.symm
  have htextures : n.textures = [] := congrArg Sketch.textures hover.symm
  have hmissing : n.missingTextures = false := congrArg Sketch.missingTextures hover.symm
  unfold Header.stream SectionOrder.nodesFirst
  rcases sections_cases o with ho | ho | ho | ho | ho | ho
  · rw [ho]
    simp only [List.flatMap_cons, List.flatMap_nil, List.append_nil, Sketch.run_append, hrun, Option.bind_some]
    simp [Header.records, Sketch.run_materials, Sketch.run_textures, Header.sketch, hnumber, hmaterials, htextures,
      hmissing]
  · rw [ho]
    simp only [List.flatMap_cons, List.flatMap_nil, List.append_nil, Sketch.run_append, hrun, Option.bind_some]
    simp [Header.records, Sketch.run_materials, Sketch.run_textures, Header.sketch, hnumber, hmaterials, htextures,
      hmissing]
  · rw [ho]
    simp only [List.flatMap_cons, List.flatMap_nil, List.append_nil, Sketch.run_append]
    rw [records_textures, Sketch.run_textures, Option.bind_some, run_nodes rfl, hrun, Option.map_some, Option.bind_some]
    simp [Header.records, Sketch.run_materials, Header.sketch, Sketch.overlay, Sketch.start]
  · rw [ho]
    simp only [List.flatMap_cons, List.flatMap_nil, List.append_nil, Sketch.run_append]
    rw [records_materials, Sketch.run_materials, Option.bind_some, run_nodes (by simp [Sketch.overlay, Sketch.start]),
      hrun, Option.map_some, Option.bind_some]
    simp [Header.records, Sketch.run_textures, Header.sketch, Sketch.overlay, Sketch.start]
  · rw [ho]
    simp only [List.flatMap_cons, List.flatMap_nil, List.append_nil, Sketch.run_append]
    rw [records_materials, Sketch.run_materials, Option.bind_some, records_textures, Sketch.run_textures, Option.bind_some,
      run_nodes (by simp [Sketch.overlay, Sketch.start]), hrun, Option.map_some]
    simp [Header.sketch, Sketch.overlay, Sketch.start]
  · rw [ho]
    simp only [List.flatMap_cons, List.flatMap_nil, List.append_nil, Sketch.run_append]
    rw [records_textures, Sketch.run_textures, Option.bind_some, records_materials, Sketch.run_materials, Option.bind_some,
      run_nodes (by simp [Sketch.overlay, Sketch.start]), hrun, Option.map_some]
    simp [Header.sketch, Sketch.overlay, Sketch.start]

/-! ### Meshes of a sketch -/

/-- The material with a number, counted from `k`. -/
def materialAt : ℕ → List (M × ℤ) → ℤ → Option (M × ℤ)
  | _, [], _ => none
  | k, p :: ps, index => if toInt k = index then some p else materialAt (k + 1) ps index

variable {mesh : SketchMesh M}

private theorem receiveAll_of_not_isPending (hpending : mesh.isPending = false) (k : ℕ)
    (ps : List (M × ℤ)) : mesh.receiveAll k ps = mesh := by
  induction ps generalizing k with
  | nil => rfl
  | cons p ps ih =>
    have hsame : mesh.receive (toInt k) p.1 p.2 = mesh :=
      receive_of_not (fun hwaits => absurd hwaits.1 (by rw [hpending]; exact Bool.false_ne_true)) _ _
    rw [SketchMesh.receiveAll, hsame, ih]

private theorem receiveAll_of_isPending (hpending : mesh.isPending = true) (k : ℕ) (ps : List (M × ℤ)) :
    mesh.receiveAll k ps = match materialAt k ps mesh.index with
      | none => mesh
      | some p => { mesh with
          isPending := false, material := p.1, texture := if p.2 ≠ -1 then some p.2 else mesh.texture } := by
  induction ps generalizing k with
  | nil => rfl
  | cons p ps ih =>
    rw [SketchMesh.receiveAll, materialAt]
    by_cases hindex : toInt k = mesh.index
    · rw [if_pos hindex, SketchMesh.receive, if_pos ⟨hpending, hindex.symm⟩]
      exact receiveAll_of_not_isPending rfl _ _
    · rw [if_neg hindex, receive_of_not (fun hwaits => hindex hwaits.2.symm), ih]

/-- A mesh that no material has been given to. -/
structure IsNew (initial : M) (mesh : SketchMesh M) : Prop where
  isPending : mesh.isPending = true
  material : mesh.material = initial
  texture : mesh.texture = none

variable {c c' : Sketch M}

private theorem createNode_meshes {r : NodeRecord} (hnode : c.createNode initial r = some c') :
    ∃ meshes, c'.meshes = c.meshes ++ meshes ∧ (∀ mesh ∈ meshes, IsNew initial mesh) ∧
      meshes.map SketchMesh.index = if r.hasGeometry then [r.material] else [] := by
  unfold Sketch.createNode at hnode
  obtain ⟨⟨names, c₁⟩, hplace, hrest⟩ := Option.map_eq_some_iff.1 hnode
  have hmeshes : c₁.meshes = c.meshes := by
    unfold Sketch.placeNode at hplace
    dsimp only at hplace
    split_ifs at hplace
    · cases hplace
      rfl
    · split at hplace
      · exact nomatch hplace
      · cases hplace
        rfl
  subst hrest
  dsimp only
  by_cases hgeometry : r.hasGeometry
  · refine ⟨[⟨names, r.material, true, initial, none⟩], ?_, ?_, ?_⟩
    · rw [if_pos hgeometry, ← hmeshes]
      split_ifs <;> rfl
    · intro mesh hmesh
      rw [List.mem_singleton.1 hmesh]
      exact ⟨rfl, rfl, rfl⟩
    · rw [if_pos hgeometry]
      rfl
  · refine ⟨[], ?_, nofun, ?_⟩
    · rw [if_neg hgeometry, ← hmeshes, List.append_nil]
      split_ifs <;> rfl
    · rw [if_neg hgeometry]
      rfl

private theorem run_nodes_meshes (nodes : List NodeRecord)
    (hrun : c.run initial (nodes.map .node) = some c') :
    ∃ meshes, c'.meshes = c.meshes ++ meshes ∧ (∀ mesh ∈ meshes, IsNew initial mesh) ∧
      meshes.map SketchMesh.index = (nodes.filter NodeRecord.hasGeometry).map NodeRecord.material := by
  unfold Sketch.run at hrun
  induction nodes generalizing c with
  | nil =>
    cases hrun
    exact ⟨[], (List.append_nil _).symm, nofun, rfl⟩
  | cons r rs ih =>
    rw [List.map_cons, List.foldlM_cons] at hrun
    obtain ⟨c₁, hnode, hrest⟩ := Option.bind_eq_some_iff.1 hrun
    obtain ⟨meshes, hmeshes, hnew, hindex⟩ := createNode_meshes hnode
    obtain ⟨meshes', hmeshes', hnew', hindex'⟩ := ih hrest
    refine ⟨meshes ++ meshes', by rw [hmeshes', hmeshes, List.append_assoc], ?_, ?_⟩
    · intro mesh hmesh
      exact (List.mem_append.1 hmesh).elim (hnew mesh) (hnew' mesh)
    · rw [List.map_append, hindex, hindex', List.filter_cons]
      split_ifs <;> rfl

/-! ### Nodes that can be placed -/

/-- Every node has a name, a transformation or a parent before it. -/
def Placeable (nodes : List NodeRecord) : Prop :=
  ∀ (pre : List NodeRecord) (r : NodeRecord) (post : List NodeRecord), nodes = pre ++ r :: post →
    r.isEntity = true ∨ ∃ q ∈ pre, q.id = r.parentId

private theorem isSome_createNode (r : NodeRecord) :
    (c.createNode initial r).isSome ↔ r.isEntity = true ∨ (c.transformOf r.parentId).isSome := by
  unfold Sketch.createNode
  rw [Option.isSome_map]
  unfold Sketch.placeNode
  by_cases hentity : r.isEntity
  · rw [if_pos hentity]
    exact iff_of_true rfl (.inl hentity)
  · rw [if_neg hentity, or_iff_right hentity]
    cases c.transformOf r.parentId <;> rfl

private theorem createNode_transformOf {r : NodeRecord} (hnode : c.createNode initial r = some c') (id : ℤ) :
    (c'.transformOf id).isSome ↔ (c.transformOf id).isSome ∨ r.id = id := by
  unfold Sketch.createNode at hnode
  obtain ⟨⟨names, c₁⟩, hplace, rfl⟩ := Option.map_eq_some_iff.1 hnode
  have hplaced : ∃ name, c₁.transformOf = Function.update c.transformOf r.id (some name) := by
    unfold Sketch.placeNode at hplace
    dsimp only at hplace
    split_ifs at hplace
    · cases hplace
      exact ⟨_, rfl⟩
    · split at hplace
      · exact nomatch hplace
      · cases hplace
        exact ⟨_, rfl⟩
  obtain ⟨name, hupdate⟩ := hplaced
  have hsame : (Function.update c.transformOf r.id (some name) id).isSome ↔
      (c.transformOf id).isSome ∨ r.id = id := by
    by_cases hid : id = r.id
    · rw [hid, Function.update_self]
      exact iff_of_true rfl (.inr rfl)
    · rw [Function.update_of_ne hid, or_iff_left (Ne.symm hid)]
  rw [← hsame, ← hupdate]
  dsimp only
  split_ifs <;> rfl

private theorem run_concat_node (nodes : List NodeRecord) (r : NodeRecord) :
    c.run initial ((nodes ++ [r]).map .node) =
      (c.run initial (nodes.map .node)).bind fun c' => c'.createNode initial r := by
  rw [List.map_append, Sketch.run_append]
  congr 1
  funext c'
  exact bind_pure (c'.createNode initial r)

private theorem run_nodes_transformOf {nodes : List NodeRecord}
    (hrun : Sketch.start.run initial (nodes.map .node) = some c) (id : ℤ) :
    (c.transformOf id).isSome ↔ ∃ q ∈ nodes, q.id = id := by
  induction nodes using List.reverseRecOn generalizing c with
  | nil =>
    cases hrun
    simp [Sketch.start]
  | append_singleton nodes r ih =>
    rw [run_concat_node] at hrun
    obtain ⟨c₁, hrun₁, hnode⟩ := Option.bind_eq_some_iff.1 hrun
    rw [createNode_transformOf hnode, ih hrun₁]
    simp [or_and_right, exists_or]

private theorem placeable_concat (nodes : List NodeRecord) (r : NodeRecord) :
    Placeable (nodes ++ [r]) ↔ Placeable nodes ∧ (r.isEntity = true ∨ ∃ q ∈ nodes, q.id = r.parentId) := by
  constructor
  · intro hall
    refine ⟨fun pre q post hnodes => hall pre q (post ++ [r]) (by rw [hnodes]; simp), hall nodes r [] rfl⟩
  · rintro ⟨hnodes, hlast⟩ pre q post heq
    rcases List.eq_nil_or_concat post with rfl | ⟨post, x, rfl⟩
    · obtain ⟨rfl, hrq⟩ := List.append_inj' heq rfl
      cases hrq
      exact hlast
    · have heq' : nodes ++ [r] = (pre ++ q :: post) ++ [x] := by rw [heq]; simp
      exact hnodes pre q post (List.append_inj' heq' rfl).1

private theorem isSome_run_nodes (nodes : List NodeRecord) :
    (Sketch.start.run initial (nodes.map .node)).isSome ↔ Placeable nodes := by
  induction nodes using List.reverseRecOn with
  | nil => exact iff_of_true rfl fun pre r post h => absurd h (by simp)
  | append_singleton nodes r ih =>
    rw [placeable_concat, ← ih, run_concat_node]
    cases hrun : Sketch.start.run initial (nodes.map Record.node) with
    | none => exact iff_of_false Bool.false_ne_true fun hand => absurd hand.1 Bool.false_ne_true
    | some c =>
      rw [Option.bind_some, isSome_createNode, run_nodes_transformOf hrun]
      exact (and_iff_right rfl).symm

/-! ### Alike sketches make the same scene -/

/-- Sketches of the same scene. -/
structure Alike (c c' : Sketch M) : Prop where
  transformations : c.transformations = c'.transformations
  meshes : List.Forall₂ (fun m m' => m.parents = m'.parents ∧ m.material = m'.material ∧ m.texture = m'.texture)
    c.meshes c'.meshes
  metadata : c.metadata = c'.metadata
  materials : c.materials = c'.materials
  textures : c.textures = c'.textures
  references : c.references.Perm c'.references
  missingTextures : c.missingTextures = c'.missingTextures

/-- UUIDs with the same name. -/
def SameName (uuid uuid' : Name → Option ℕ) (u v : ℕ) : Prop := ∃ n, uuid n = some u ∧ uuid' n = some v

private theorem biUnique_sameName {uuid uuid' : Name → Option ℕ} {created created' : ℕ} (h : Sound uuid created)
    (h' : Sound uuid' created') : Relator.BiUnique (SameName uuid uuid') := by
  constructor
  · rintro u u' v ⟨n, hu, hv⟩ ⟨n', hu', hv'⟩
    rw [h'.injective n n' v hv hv'] at hu
    exact Option.some.inj (hu.symm.trans hu')
  · rintro u v v' ⟨n, hu, hv⟩ ⟨n', hu', hv'⟩
    rw [h.injective n n' u hu hu'] at hv
    exact Option.some.inj (hv.symm.trans hv')

private theorem forall₂_through {α β γ : Type*} {R : α → γ → Prop} {S : β → γ → Prop} {T : α → β → Prop} {as : List α}
    {bs : List β} {cs : List γ} (h : List.Forall₂ R as cs) (h' : List.Forall₂ S bs cs)
    (hT : ∀ a b c, R a c → S b c → T a b) : List.Forall₂ T as bs := by
  induction h generalizing bs with
  | nil =>
    cases h'
    exact .nil
  | cons ha _ ih =>
    cases h' with
    | cons hb hbs => exact .cons (hT _ _ _ ha hb) (ih hbs)

private theorem forall₂_through_perm {α β γ : Type*} {R : α → γ → Prop} {S : β → γ → Prop} {T : α → β → Prop} {as : List α}
    {bs : List β} {cs cs' : List γ} (h : List.Forall₂ R as cs) (h' : List.Forall₂ S bs cs') (hperm : cs.Perm cs')
    (hT : ∀ a b c, R a c → S b c → T a b) : ∃ bs', bs'.Perm bs ∧ List.Forall₂ T as bs' := by
  obtain ⟨bs', hbs', hperm'⟩ := List.perm_comp_forall₂ hperm h'.flip
  exact ⟨bs', hperm', forall₂_through h hbs'.flip hT⟩

theorem Named.sameName {uuid uuid' : Name → Option ℕ} {ids ids' : List ℕ} {names : List Name}
    (h : Named uuid ids names) (h' : Named uuid' ids' names) : List.Forall₂ (SameName uuid uuid') ids ids' :=
  forall₂_through h h' fun _ _ n hu hv => ⟨n, hu, hv⟩

private theorem same_of_alike {a b : Scene M} (h : Follows a.builder c) (h' : Follows b.builder c')
    (halike : Alike c c') {ts ts' : List TextureRecord} (hts : ts.Perm ts')
    (hread : List.Forall₂ (fun p t => p.1 = t ∧ a.builder.uuid (.texture t.id) = some p.2) a.textures ts)
    (hread' : List.Forall₂ (fun p t => p.1 = t ∧ b.builder.uuid (.texture t.id) = some p.2) b.textures ts') :
    Same a b := by
  refine ⟨SameName a.builder.uuid b.builder.uuid, biUnique_sameName h.sound h'.sound, ?_⟩
  have hp := h.pictures
  have hp' := h'.pictures
  constructor
  · have hrest : List.Forall₂ (fun t t' => t.name = t'.name ∧
        List.Forall₂ (SameName a.builder.uuid b.builder.uuid) t.parents t'.parents)
        a.builder.transformations b.builder.transformations :=
      forall₂_through hp.transformations (halike.transformations ▸ hp'.transformations) fun _ _ _ ht ht' =>
        ⟨ht.1.trans ht'.1.symm, ht.2.sameName ht'.2⟩
    refine List.forall₂_of_length_eq_of_get hrest.length_eq fun i hi hi' => ⟨⟨.transformation i, ?_, ?_⟩, hrest.get hi hi'⟩
    · exact congrArg (Option.map _) (List.getElem?_eq_getElem hi)
    · exact congrArg (Option.map _) (List.getElem?_eq_getElem hi')
  · have hsketch : List.Forall₂ (MeshNamed a.builder.uuid) a.builder.meshes c'.meshes :=
      forall₂_through hp.meshes halike.meshes.flip fun _ _ _ hm hsame =>
        ⟨hsame.1 ▸ hm.1, hm.2.1.trans hsame.2.1, hsame.2.2 ▸ hm.2.2⟩
    have hrest : List.Forall₂ (fun m m' => List.Forall₂ (SameName a.builder.uuid b.builder.uuid) m.parents m'.parents ∧
        m.material = m'.material ∧
        List.Forall₂ (SameName a.builder.uuid b.builder.uuid) m.textureId.toList m'.textureId.toList)
        a.builder.meshes b.builder.meshes :=
      forall₂_through hsketch hp'.meshes fun _ _ _ hm hm' =>
        ⟨hm.1.sameName hm'.1, hm.2.1.trans hm'.2.1.symm, hm.2.2.sameName hm'.2.2⟩
    refine List.forall₂_of_length_eq_of_get hrest.length_eq fun i hi hi' => ⟨⟨.mesh i, ?_, ?_⟩, hrest.get hi hi'⟩
    · exact congrArg (Option.map _) (List.getElem?_eq_getElem hi)
    · exact congrArg (Option.map _) (List.getElem?_eq_getElem hi')
  · exact forall₂_through hp.metadata (halike.metadata ▸ hp'.metadata) fun _ _ _ hn hn' => hn.sameName hn'
  · refine forall₂_through hp.materials (halike.materials ▸ hp'.materials) fun _ _ q hm hm' => ?_
    exact ⟨⟨_, hm.1, hm'.1⟩, ⟨_, hm.2.1, hm'.2.1⟩, hm.2.2.trans hm'.2.2.symm⟩
  · refine forall₂_through_perm hread hread' hts fun p q t ht ht' => ?_
    exact ⟨ht.1.trans ht'.1.symm, ⟨_, ht.2, ht'.2⟩⟩
  · refine forall₂_through_perm hp.references hp'.references halike.references fun p q r hr hr' => ?_
    exact ⟨⟨_, hr.1, hr'.1⟩, ⟨_, hr.2, hr'.2⟩⟩
  · exact hp.missingTextures.trans (halike.missingTextures.trans hp'.missingTextures.symm)

/-! ### Imports with the sections in two orders -/

private theorem importWith_follows (h : Header M) (initial : M) (o : SectionOrder) (reading : Reading) :
    Option.Rel (fun (a : Scene M) c => Follows a.builder c ∧ ∃ ts : List TextureRecord, ts.Perm c.textures ∧
        List.Forall₂ (fun p t => p.1 = t ∧ a.builder.uuid (.texture t.id) = some p.2) a.textures ts)
      (h.importWith initial o reading)
      ((Sketch.start.run initial (h.records .nodes)).map (h.sketch o.nodesFirst)) := by
  have hfollows := follows_start.run initial (h.stream o)
  have hstream : Sketch.start.run initial (h.stream o) =
      (Sketch.start.run initial (h.records .nodes)).map (h.sketch o.nodesFirst) := by
    cases hrun : Sketch.start.run initial (h.records .nodes) with
    | none => exact run_stream_of_none hrun o
    | some n => exact run_stream_of_some hrun o
  rw [hstream] at hfollows
  unfold Header.importWith
  generalize Builder.start.run initial (h.stream o) = s at hfollows
  generalize (Sketch.start.run initial (h.records .nodes)).map (h.sketch o.nodesFirst) = c at hfollows
  cases hfollows with
  | none => exact .none
  | some hfollows =>
    obtain ⟨hread, -, hall⟩ := hfollows.readTextures (reading.arrange _)
    exact .some ⟨hread, _, hfollows.pictures.textures ▸ reading.perm _, hall⟩

private theorem receiveAll_alike (hnew : IsNew initial mesh) {materials : List (M × ℤ)}
    (hnone : ∀ p, materialAt 0 materials mesh.index = some p → p = (initial, -1)) :
    (mesh.receiveAll 0 materials).parents = mesh.parents ∧ (mesh.receiveAll 0 materials).material = mesh.material ∧
      (mesh.receiveAll 0 materials).texture = mesh.texture := by
  rw [receiveAll_of_isPending hnew.isPending]
  cases hfound : materialAt 0 materials mesh.index with
  | none => exact ⟨rfl, rfl, rfl⟩
  | some p =>
    rw [hnone p hfound]
    exact ⟨rfl, hnew.material.symm, rfl⟩

private theorem alike_sketch (hnew : ∀ mesh ∈ n.meshes, IsNew initial mesh) {nodesFirst nodesFirst' : Bool}
    (hnone : nodesFirst = nodesFirst' ∨
      ∀ mesh ∈ n.meshes, ∀ p, materialAt 0 h.materials mesh.index = some p → p = (initial, -1)) :
    Alike (h.sketch nodesFirst n) (h.sketch nodesFirst' n) := by
  constructor
  · rfl
  · rcases hnone with rfl | hnone
    · exact List.forall₂_same.2 fun _ _ => ⟨rfl, rfl, rfl⟩
    · -- whether the materials come before or after, no mesh changes
      have hsame (b : Bool) : List.Forall₂ (fun m m' : SketchMesh M =>
          m.parents = m'.parents ∧ m.material = m'.material ∧ m.texture = m'.texture) (h.sketch b n).meshes n.meshes := by
        cases b with
        | false => exact List.forall₂_same.2 fun _ _ => ⟨rfl, rfl, rfl⟩
        | true =>
          refine List.forall₂_map_left_iff.2 (List.forall₂_same.2 fun mesh hmesh => ?_)
          exact receiveAll_alike (hnew mesh hmesh) (hnone mesh hmesh)
      exact forall₂_through (hsame nodesFirst) (hsame nodesFirst') fun _ _ _ hm hm' =>
        ⟨hm.1.trans hm'.1.symm, hm.2.1.trans hm'.2.1.symm, hm.2.2.trans hm'.2.2.symm⟩
  · rfl
  · rfl
  · rfl
  · cases nodesFirst <;> cases nodesFirst'
    · exact .refl _
    · exact List.perm_append_comm
    · exact List.perm_append_comm
    · exact .refl _
  · rfl

theorem Named.isSome {uuid : Name → Option ℕ} {textureId : Option ℕ} {texture : Option ℤ}
    (h : Named uuid textureId.toList (texture.map Name.texture).toList) : textureId.isSome = texture.isSome := by
  cases textureId <;> cases texture <;> first | rfl | cases h

private theorem meshes_of_same {a b : Scene M} (h : Follows a.builder c) (h' : Follows b.builder c')
    (hsame : Same a b) : List.Forall₂ (fun m m' => m.material = m'.material ∧ m.texture.isSome = m'.texture.isSome)
      c.meshes c'.meshes := by
  obtain ⟨R, -, hrelated⟩ := hsame
  have hsketch : List.Forall₂ (fun m' m => m'.material = m.material ∧ m'.texture.isSome = m.textureId.isSome)
      c'.meshes a.builder.meshes := by
    refine forall₂_through h'.pictures.meshes.flip hrelated.meshes fun m' m mesh hm' hm => ?_
    have hlength := hm.2.2.2.length_eq
    refine ⟨hm'.2.1.symm.trans hm.2.2.1.symm, hm'.2.2.isSome.symm.trans ?_⟩
    cases hid : m.textureId <;> cases hid' : mesh.textureId <;> rw [hid, hid'] at hlength <;>
      first | rfl | exact absurd hlength (by simp)
  refine forall₂_through h.pictures.meshes.flip hsketch fun m m' mesh hm hm' => ?_
  exact ⟨hm.2.1.symm.trans hm'.1.symm, hm.2.2.isSome.symm.trans hm'.2.symm⟩

private theorem eq_of_receiveAll (hnew : IsNew initial mesh) {materials : List (M × ℤ)}
    (hmaterial : (mesh.receiveAll 0 materials).material = mesh.material)
    (htexture : (mesh.receiveAll 0 materials).texture.isSome = mesh.texture.isSome) {p : M × ℤ}
    (hp : materialAt 0 materials mesh.index = some p) : p = (initial, -1) := by
  rw [receiveAll_of_isPending hnew.isPending, hp] at hmaterial htexture
  have hfst : p.1 = initial := hmaterial.trans hnew.material
  have hsnd : p.2 = -1 := by
    by_contra hne
    dsimp only at htexture
    rw [if_pos hne, hnew.texture] at htexture
    exact absurd htexture (by simp)
  exact Prod.ext hfst hsnd

/-- The imports agree just when the nodes and the materials come in one order, or the materials of all meshes are those of
a new mesh, or the nodes cannot be placed at all. -/
theorem agree_iff_nodesFirst (h : Header M) (initial : M) (o o' : SectionOrder) (reading reading' : Reading) :
    Agree (h.importWith initial o reading) (h.importWith initial o' reading') ↔ o.nodesFirst = o'.nodesFirst ∨
      (∀ r ∈ h.nodes, r.hasGeometry = true → ∀ p, materialAt 0 h.materials r.material = some p → p = (initial, -1)) ∨
      ¬ Placeable h.nodes := by
  have ha := importWith_follows h initial o reading
  have hb := importWith_follows h initial o' reading'
  have hplace : (Sketch.start.run initial (h.records .nodes)).isSome ↔ Placeable h.nodes := isSome_run_nodes h.nodes
  generalize h.importWith initial o reading = a at ha
  generalize h.importWith initial o' reading' = b at hb
  cases hrun : Sketch.start.run initial (h.records .nodes) with
  | none =>
    rw [hrun] at ha hb hplace
    cases ha
    cases hb
    exact iff_of_true .none (.inr (.inr fun hplaceable => absurd (hplace.2 hplaceable) Bool.false_ne_true))
  | some n =>
    rw [hrun] at ha hb hplace
    obtain ⟨meshes, hmeshes, hnew, hindex⟩ := run_nodes_meshes h.nodes hrun
    have hn : n.meshes = meshes := hmeshes
    rw [← hn] at hnew hindex
    cases ha with
    | some ha =>
    cases hb with
    | some hb =>
    obtain ⟨ha, ts, hts, hread⟩ := ha
    obtain ⟨hb, ts', hts', hread'⟩ := hb
    have hmesh {mesh : SketchMesh M} (hmem : mesh ∈ n.meshes) :
        ∃ r ∈ h.nodes, r.hasGeometry = true ∧ r.material = mesh.index := by
      have hin : mesh.index ∈ (h.nodes.filter NodeRecord.hasGeometry).map NodeRecord.material :=
        hindex ▸ List.mem_map_of_mem hmem
      obtain ⟨r, hr, heq⟩ := List.mem_map.1 hin
      exact ⟨r, (List.mem_filter.1 hr).1, (List.mem_filter.1 hr).2, heq⟩
    have hnode {r : NodeRecord} (hr : r ∈ h.nodes) (hgeometry : r.hasGeometry = true) :
        ∃ mesh ∈ n.meshes, mesh.index = r.material := by
      have hin : r.material ∈ n.meshes.map SketchMesh.index :=
        hindex ▸ List.mem_map_of_mem (List.mem_filter.2 ⟨hr, hgeometry⟩)
      exact List.mem_map.1 hin
    constructor
    · intro hagree
      cases hagree with
      | some hsame =>
      have hmeshes' := meshes_of_same ha hb hsame
      by_cases hfirst : o.nodesFirst = o'.nodesFirst
      · exact .inl hfirst
      · refine .inr (.inl fun r hr hgeometry p hp => ?_)
        obtain ⟨mesh, hmem, hmaterial⟩ := hnode hr hgeometry
        rw [← hmaterial] at hp
        -- one of the two sketches has given the materials to its meshes
        have hgiven : (mesh.receiveAll 0 h.materials).material = mesh.material ∧
            (mesh.receiveAll 0 h.materials).texture.isSome = mesh.texture.isSome := by
          cases hb₁ : o.nodesFirst <;> cases hb₂ : o'.nodesFirst
          · exact absurd (hb₁.trans hb₂.symm) hfirst
          · rw [hb₁, hb₂] at hmeshes'
            have hall := List.forall₂_same.1 (List.forall₂_map_right_iff.1 hmeshes') mesh hmem
            exact ⟨hall.1.symm, hall.2.symm⟩
          · rw [hb₁, hb₂] at hmeshes'
            exact List.forall₂_same.1 (List.forall₂_map_left_iff.1 hmeshes') mesh hmem
          · exact absurd (hb₁.trans hb₂.symm) hfirst
        exact eq_of_receiveAll (hnew mesh hmem) hgiven.1 hgiven.2 hp
    · intro hcondition
      have hnone : o.nodesFirst = o'.nodesFirst ∨
          ∀ mesh ∈ n.meshes, ∀ p, materialAt 0 h.materials mesh.index = some p → p = (initial, -1) := by
        rcases hcondition with hfirst | hnone | hplaced
        · exact .inl hfirst
        · refine .inr fun mesh hmem p hp => ?_
          obtain ⟨r, hr, hgeometry, heq⟩ := hmesh hmem
          exact hnone r hr hgeometry p (heq ▸ hp)
        · exact absurd (hplace.1 rfl) hplaced
      exact .some (same_of_alike ha hb (alike_sketch hnew hnone) (hts.trans hts'.symm) hread hread')

/-- One named node with a mesh that has the first material. -/
def exampleHeader : Header ℕ where
  nodes := [⟨0, -1, "node", true, true, 0, false⟩]
  materials := [(1, -1)]
  textures := []

def nodesThenMaterials : SectionOrder where
  sections := [.nodes, .materials, .textures]
  perm := .refl _

def materialsThenNodes : SectionOrder where
  sections := [.materials, .nodes, .textures]
  perm := .swap ..

def asListed : Reading where
  arrange := id
  perm := .refl

/-- With the materials first, the mesh keeps the material of a new mesh. -/
theorem not_agree : ¬ Agree (exampleHeader.importWith 0 nodesThenMaterials asListed)
    (exampleHeader.importWith 0 materialsThenNodes asListed) := by
  intro hagree
  cases hagree with
  | some hsame =>
    obtain ⟨R, -, hrelated⟩ := hsame
    cases hrelated.meshes with
    | cons hmesh _ => exact absurd hmesh.2.2.1 (by decide)

end Bouncer.BimImport
