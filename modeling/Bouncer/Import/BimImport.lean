import Mathlib.Data.BitVec

/-!
# Importing a `.bim` header

The header of a `.bim` file is read as a stream of nodes, materials and textures, which refer to each other by numbers.  The
`Builder` makes the UUIDs of a material or of a texture when the first of them is mentioned, and keeps, for each material,
the meshes that wait for it.

A `Sketch` is the same with names for UUIDs: what a UUID is for.
-/

namespace Bouncer.BimImport

variable {M : Type}

/-- What the parser knows of a node, but for its geometry in the data. -/
structure NodeRecord where
  id : ℤ
  parentId : ℤ
  name : String
  isIdentity : Bool
  hasGeometry : Bool
  material : ℤ
  hasMetadata : Bool

def NodeRecord.isEntity (r : NodeRecord) : Bool := decide (r.name ≠ "") || !r.isIdentity

structure TextureRecord where
  id : ℤ
  filename : String
  width : ℤ
  height : ℤ
  numBytes : ℕ

def TextureRecord.isOK (t : TextureRecord) : Bool := decide (t.numBytes > 0 ∧ t.width > 0 ∧ t.height > 0)

/-- What the parser calls the builder with. -/
inductive Record (M : Type) where
  | node (r : NodeRecord)
  | material (material : M) (texture : ℤ)
  | texture (t : TextureRecord)

/-- The conversion of a `size_t` to an `int`. -/
def toInt (n : ℕ) : ℤ := (BitVec.ofNat 32 n).toInt

structure Ids where
  uniqueId : ℕ
  sharedId : ℕ

structure Transformation where
  sharedId : ℕ
  name : String
  parents : List ℕ

structure Mesh (M : Type) where
  sharedId : ℕ
  parents : List ℕ
  material : M
  textureId : Option ℕ

/-- `Builder`.  UUIDs are numbered in the order in which they are created, and meshes are known by their positions. -/
structure Builder (M : Type) where
  created : ℕ
  transformSharedIds : ℤ → Option ℕ
  materialIds : ℤ → Option Ids
  textureIds : ℤ → Option Ids
  matToMeshNodes : ℕ → List ℕ
  numMaterials : ℕ
  transformations : List Transformation
  meshes : List (Mesh M)
  metadata : List (List ℕ)
  materials : List (Ids × M)
  textures : List TextureRecord
  references : List (ℕ × ℕ)
  missingTextures : Bool

namespace Builder

def start : Builder M where
  created := 0
  transformSharedIds := fun _ => none
  materialIds := fun _ => none
  textureIds := fun _ => none
  matToMeshNodes := fun _ => []
  numMaterials := 0
  transformations := []
  meshes := []
  metadata := []
  materials := []
  textures := []
  references := []
  missingTextures := false

variable (s : Builder M)

/-- `materialIds[id]`: the UUIDs are created when they are first looked for. -/
def materialIdsAt (id : ℤ) : Ids × Builder M :=
  match s.materialIds id with
  | some ids => (ids, s)
  | none =>
    let ids : Ids := ⟨s.created, s.created + 1⟩
    (ids, { s with created := s.created + 2, materialIds := Function.update s.materialIds id (some ids) })

/-- `textureIds[id]`. -/
def textureIdsAt (id : ℤ) : Ids × Builder M :=
  match s.textureIds id with
  | some ids => (ids, s)
  | none =>
    let ids : Ids := ⟨s.created, s.created + 1⟩
    (ids, { s with created := s.created + 2, textureIds := Function.update s.textureIds id (some ids) })

/-- The transformation of a node, or that of its parent if the node has neither a name nor a transformation.  A node of
this kind without a parent reads past the end of a vector. -/
def placeNode (r : NodeRecord) : Option (List ℕ × Builder M) :=
  let parentIds := (s.transformSharedIds r.parentId).toList
  if r.isEntity then
    let sharedId := s.created
    some ([sharedId], { s with
      created := s.created + 1
      transformSharedIds := Function.update s.transformSharedIds r.id (some sharedId)
      transformations := s.transformations ++ [⟨sharedId, r.name, parentIds⟩] })
  else
    match parentIds with
    | [] => none
    | parent :: _ =>
      some (parentIds, { s with transformSharedIds := Function.update s.transformSharedIds r.id (some parent) })

/-- The mesh of a node, and the parents for its metadata. -/
def addMesh (initial : M) (r : NodeRecord) (parentIds : List ℕ) : List ℕ × Builder M :=
  let sharedId := s.created
  let position := s.meshes.length
  let s : Builder M := { s with created := s.created + 1, meshes := s.meshes ++ [⟨sharedId, parentIds, initial, none⟩] }
  let found := s.materialIdsAt r.material
  let s := found.2
  (if r.isEntity then parentIds else [sharedId],
    { s with
      references := s.references ++ [(found.1.uniqueId, sharedId)]
      matToMeshNodes := Function.update s.matToMeshNodes found.1.uniqueId
        (s.matToMeshNodes found.1.uniqueId ++ [position]) })

/-- `createNode`, where `initial` is the material of a new mesh. -/
def createNode (initial : M) (r : NodeRecord) : Option (Builder M) :=
  (s.placeNode r).map fun placed =>
    let meshed := if r.hasGeometry then placed.2.addMesh initial r placed.1 else placed
    if r.hasMetadata then { meshed.2 with metadata := meshed.2.metadata ++ [meshed.1] } else meshed.2

/-- What is done with the meshes that wait for a material. -/
def assign (nodes : List ℕ) (f : Mesh M → Mesh M) : Builder M :=
  { s with meshes := s.meshes.mapIdx fun j mesh => if j ∈ nodes then f mesh else mesh }

/-- `matToMeshNodes.erase`. -/
def release (uniqueId : ℕ) : Builder M := { s with matToMeshNodes := Function.update s.matToMeshNodes uniqueId [] }

def createMaterial (material : M) (texture : ℤ) : Builder M :=
  let found := ({ s with numMaterials := s.numMaterials + 1 } : Builder M).materialIdsAt (toInt s.numMaterials)
  let ids := found.1
  let s := { found.2 with materials := found.2.materials ++ [(ids, material)] }
  let nodes := s.matToMeshNodes ids.uniqueId
  let s := s.assign nodes fun mesh => { mesh with material := material }
  let s :=
    if texture ≠ -1 then
      let found := s.textureIdsAt texture
      let texId := found.1.uniqueId
      ({ found.2 with references := found.2.references ++ [(texId, ids.sharedId)] } : Builder M).assign nodes
        fun mesh => { mesh with textureId := some texId }
    else s
  s.release ids.uniqueId

def createTexture (t : TextureRecord) : Builder M :=
  if t.isOK then { s with textures := s.textures ++ [t] } else { s with missingTextures := true }

def create (initial : M) : Record M → Option (Builder M)
  | .node r => s.createNode initial r
  | .material material texture => some (s.createMaterial material texture)
  | .texture t => some (s.createTexture t)

/-- The texture nodes that are made when the data is read. -/
def readTextures : List TextureRecord → Builder M → List (TextureRecord × ℕ) × Builder M
  | [], s => ([], s)
  | t :: ts, s =>
    let found := s.textureIdsAt t.id
    let rest := readTextures ts found.2
    ((t, found.1.uniqueId) :: rest.1, rest.2)

end Builder

/-! ### Sketches -/

/-- What a UUID is for.  Transformations and meshes are numbered. -/
inductive Name where
  | transformation (i : ℕ)
  | mesh (i : ℕ)
  | material (id : ℤ)
  | materialShared (id : ℤ)
  | texture (id : ℤ)
  deriving DecidableEq

/-- A mesh, the number of its material, and whether it waits for this. -/
structure SketchMesh (M : Type) where
  parents : List Name
  index : ℤ
  isPending : Bool
  material : M
  texture : Option ℤ

/-- A mesh when the material with this number comes. -/
def SketchMesh.receive (id : ℤ) (material : M) (texture : ℤ) (mesh : SketchMesh M) : SketchMesh M :=
  if mesh.isPending ∧ mesh.index = id then
    { mesh with
      isPending := false
      material := material
      texture := if texture ≠ -1 then some texture else mesh.texture }
  else mesh

structure Sketch (M : Type) where
  transformOf : ℤ → Option Name
  numMaterials : ℕ
  transformations : List (String × List Name)
  meshes : List (SketchMesh M)
  metadata : List (List Name)
  materials : List (ℤ × M)
  textures : List TextureRecord
  references : List (Name × Name)
  missingTextures : Bool

namespace Sketch

def start : Sketch M where
  transformOf := fun _ => none
  numMaterials := 0
  transformations := []
  meshes := []
  metadata := []
  materials := []
  textures := []
  references := []
  missingTextures := false

variable (c : Sketch M)

def placeNode (r : NodeRecord) : Option (List Name × Sketch M) :=
  let parents := (c.transformOf r.parentId).toList
  if r.isEntity then
    let name := Name.transformation c.transformations.length
    some ([name], { c with
      transformOf := Function.update c.transformOf r.id (some name)
      transformations := c.transformations ++ [(r.name, parents)] })
  else
    match parents with
    | [] => none
    | parent :: _ => some (parents, { c with transformOf := Function.update c.transformOf r.id (some parent) })

def addMesh (initial : M) (r : NodeRecord) (parents : List Name) : List Name × Sketch M :=
  let name := Name.mesh c.meshes.length
  (if r.isEntity then parents else [name],
    { c with
      meshes := c.meshes ++ [⟨parents, r.material, true, initial, none⟩]
      references := c.references ++ [(.material r.material, name)] })

def createNode (initial : M) (r : NodeRecord) : Option (Sketch M) :=
  (c.placeNode r).map fun placed =>
    let meshed := if r.hasGeometry then placed.2.addMesh initial r placed.1 else placed
    if r.hasMetadata then { meshed.2 with metadata := meshed.2.metadata ++ [meshed.1] } else meshed.2

def createMaterial (material : M) (texture : ℤ) : Sketch M :=
  let id := toInt c.numMaterials
  { c with
    numMaterials := c.numMaterials + 1
    materials := c.materials ++ [(id, material)]
    meshes := c.meshes.map (SketchMesh.receive id material texture)
    references := c.references ++ if texture ≠ -1 then [(.texture texture, .materialShared id)] else [] }

def createTexture (t : TextureRecord) : Sketch M :=
  if t.isOK then { c with textures := c.textures ++ [t] } else { c with missingTextures := true }

def create (initial : M) : Record M → Option (Sketch M)
  | .node r => c.createNode initial r
  | .material material texture => some (c.createMaterial material texture)
  | .texture t => some (c.createTexture t)

end Sketch

/-! ### The whole stream -/

def Builder.run (initial : M) (records : List (Record M)) (s : Builder M) : Option (Builder M) :=
  records.foldlM (fun s record => s.create initial record) s

def Sketch.run (initial : M) (records : List (Record M)) (c : Sketch M) : Option (Sketch M) :=
  records.foldlM (fun c record => c.create initial record) c

end Bouncer.BimImport
