import Bouncer.Core.MeshGeometry

/-!
# The rendering class of a mesh

The constructor `MeshNode(RepoBSON)` reads all fields of a mesh document, and the node it makes can be stored again.  The
material is not among the fields, and the texture id is looked up under the dotted path of the filters, which no field of
a document has for its name.

So what is stored again is always the tag of an opaque mesh (`ofBSON_storedTag`), which is what was stored before exactly
for the opaque meshes (`storedTag_eq_iff`).  The documents that `serialise` writes can be read (`exists_ofBSON`).
-/

namespace Bouncer

open Library (Packing Value lookup lookup_nil)
open Library.Fallible (bind_eq_ok)

namespace RepoBSON

variable {U R : Type} (bson : RepoBSON (RepoVariant U R)) (label : String)

def getUUIDField : Except RepoBSONError U := do
  match ← bson.getField label with
  | .scalar (.uuid u) => .ok u
  | _ => .error (.fieldType label)

/-- `RepoBSONElement::UUID`, for an element of an array. -/
def uuidElement : Value (RepoVariant U R) → Except RepoBSONError U
  | .scalar (.uuid u) => .ok u
  | _ => .error (.fieldType label)

/-- A missing array is an empty one. -/
def getUUIDFieldArray : Except RepoBSONError (List U) :=
  match lookup bson.fields label with
  | none => .ok []
  | some (.array items) => items.mapM (uuidElement label)
  | some _ => .error (.fieldType label)

end RepoBSON

namespace RepoBounds

variable {R : Type} [LE R] [DecidableLE R]

def lesser (x y : R) : R := if x ≤ y then x else y

def greater (x y : R) : R := if x ≤ y then y else x

/-- `RepoBounds(min, max)`, for coordinates that are in the range of a `double`. -/
def ofCorners (a b : RepoVector3D R) : RepoBounds R :=
  ⟨⟨lesser a.x b.x, lesser a.y b.y, lesser a.z b.z⟩, ⟨greater a.x b.x, greater a.y b.y, greater a.z b.z⟩⟩

end RepoBounds

namespace MeshNode

variable {U R : Type}

/-- How the constructor fails.  What the driver throws at a value of another type is not caught for the bounds. -/
inductive ConstructFailure where
  | bson (e : RepoBSONError)
  | driver
  | geometry (failure : DeserialiseFailure)

/-- A field that is left at its default if the document does not have it. -/
def readField {α : Type} (bson : RepoBSON (RepoVariant U R)) (label : String)
    (get : RepoBSON (RepoVariant U R) → String → Except RepoBSONError α) (otherwise : α) : Except ConstructFailure α :=
  if bson.hasField label then (get bson label).mapError .bson else .ok otherwise

def vectorOf : Value (RepoVariant U R) → Except ConstructFailure (RepoVector3D R)
  | .array (.scalar (.double x) :: .scalar (.double y) :: .scalar (.double z) :: _) => .ok ⟨x, y, z⟩
  | _ => .error .driver

/-- `getBoundsField`. -/
def readBounds [LE R] [DecidableLE R] (bson : RepoBSON (RepoVariant U R)) (label : String) :
    Except ConstructFailure (RepoBounds R) := do
  match ← (bson.getField label).mapError ConstructFailure.bson with
  | .array (min :: max :: _) =>
    let bmin ← vectorOf min
    let bmax ← vectorOf max
    return .ofCorners bmin bmax
  | _ => throw .driver

variable [DecidableEq U] [Inhabited U] [DecidableEq R] [One R] [LE R] [DecidableLE R]

/-- `MeshNode(RepoBSON)`, with at most `n` turns of the loop over the faces.  The material is that of a new
`repo_material_t`. -/
def ofBSON (P : Packing R Byte) (bson : RepoBSON (RepoVariant U R)) (n : ℕ) :
    Except ConstructFailure (MeshNode U R) := do
  let uniqueId ← readField bson "_id" RepoBSON.getUUIDField default
  let name ← readField bson "name" RepoBSON.getStringField ""
  let sharedId ← readField bson "shared_id" RepoBSON.getUUIDField default
  let revId ← readField bson "rev_id" RepoBSON.getUUIDField default
  let parents ← (bson.getUUIDFieldArray "parents").mapError ConstructFailure.bson
  let grouping ← readField bson "grouping" RepoBSON.getStringField ""
  let textureId ← readField bson "materialProperties.textureId" RepoBSON.getUUIDField default
  let _primitive ← readField bson "primitive" RepoBSON.getIntField Primitive.triangles.toInt
  let boundingBox ← readBounds bson "bounding_box"
  let geometry ← (deserialise P bson n).mapError ConstructFailure.geometry
  return { uniqueId := uniqueId
           sharedId := sharedId
           name := name
           parentIds := parents.dedup
           revId := revId
           boundingBox := boundingBox
           vertices := geometry.vertices
           faces := geometry.faces
           normals := geometry.normals
           channels := geometry.channels
           opacity := 1
           textureId := textureId
           grouping := grouping }

omit [LE R] [DecidableLE R] in
/-- The rendering class that is stored with a mesh. -/
def storedTag (node : MeshNode U R) : Option (Value (RepoVariant U R)) :=
  lookup (node.serialise .empty).fields "materialProperties"

/-! ### What is stored again -/

section Again

variable {P : Packing R Byte} {node : MeshNode U R}

omit [LE R] [DecidableLE R] in
private theorem hasField_textureId : (node.bson P).hasField "materialProperties.textureId" = false := by
  have hlookup : lookup (node.serialise .empty).fields "materialProperties.textureId" = none := by
    simp [serialise, serialiseNode, appendBounds, appendVertices, appendFaces, appendNormals, appendUVChannels,
      appendFilterTags, lookup_ite, RepoBSONBuilder.empty]
  show (lookup (node.serialise .empty).fields "materialProperties.textureId").isSome = false
  rw [hlookup]
  rfl

private theorem ofBSON_material {n : ℕ} {restored : MeshNode U R} (h : ofBSON P (node.bson P) n = .ok restored) :
    restored.textureId = default ∧ restored.opacity = 1 := by
  unfold ofBSON at h
  obtain ⟨_, -, h⟩ := bind_eq_ok.1 h
  obtain ⟨_, -, h⟩ := bind_eq_ok.1 h
  obtain ⟨_, -, h⟩ := bind_eq_ok.1 h
  obtain ⟨_, -, h⟩ := bind_eq_ok.1 h
  obtain ⟨_, -, h⟩ := bind_eq_ok.1 h
  obtain ⟨_, -, h⟩ := bind_eq_ok.1 h
  obtain ⟨textureId, htexture, h⟩ := bind_eq_ok.1 h
  obtain ⟨_, -, h⟩ := bind_eq_ok.1 h
  obtain ⟨_, -, h⟩ := bind_eq_ok.1 h
  obtain ⟨_, -, h⟩ := bind_eq_ok.1 h
  obtain rfl := Except.ok.inj h
  refine ⟨?_, rfl⟩
  rw [readField, hasField_textureId, if_neg Bool.false_ne_true] at htexture
  exact (Except.ok.inj htexture).symm

omit [LE R] [DecidableLE R] in
private theorem storedTag_eq (node : MeshNode U R) : node.storedTag = some (matPropsBson node.matProps node.textureId) :=
  node.fields_serialise.materialProperties

omit [LE R] [DecidableLE R] in
private theorem matProps_eq_opaqueMat : node.matProps = .opaqueMat ↔
    node.opacity = 1 ∧ (node.textureId = default ∨ node.channels = []) := by
  unfold matProps determineMaterialProperties
  by_cases htexture : node.textureId = default
  · by_cases hopacity : node.opacity = 1 <;> simp [htexture, hopacity]
  · cases hchannels : node.channels with
    | nil => by_cases hopacity : node.opacity = 1 <;> simp [hopacity]
    | cons uvs channels => simp [htexture]

omit [DecidableEq U] [Inhabited U] [DecidableEq R] [One R] [LE R] [DecidableLE R] in
private theorem matPropsBson_eq_opaque {matProps : MaterialProperties} {textureId textureId' : U} :
    (matPropsBson matProps textureId : Value (RepoVariant U R)) = matPropsBson .opaqueMat textureId' ↔
      matProps = .opaqueMat := by
  cases matProps <;> simp [matPropsBson]

private theorem ofBSON_storedTag {n : ℕ} {restored : MeshNode U R} (h : ofBSON P (node.bson P) n = .ok restored) :
    restored.storedTag = some (matPropsBson .opaqueMat restored.textureId) := by
  obtain ⟨htexture, hopacity⟩ := ofBSON_material h
  rw [storedTag_eq, matProps_eq_opaqueMat.2 ⟨hopacity, .inl htexture⟩]

end Again

/-! ### Documents can be read -/

section Read

variable {P : Packing R Byte} {node : MeshNode U R}

omit [LE R] [DecidableLE R] in
private theorem exists_readField {α : Type} {label : String} {p : Prop} [Decidable p] {value : Value (RepoVariant U R)}
    (hlookup : lookup (node.serialise .empty).fields label = if p then none else some value)
    {get : RepoBSON (RepoVariant U R) → String → Except RepoBSONError α} {x : α}
    (hget : lookup (node.bson P).fields label = some value → get (node.bson P) label = .ok x) (otherwise : α) :
    ∃ y, readField (node.bson P) label get otherwise = .ok y := by
  have hfields : (node.bson P).fields = (node.serialise .empty).fields := rfl
  unfold readField RepoBSON.hasField
  rw [hfields, hlookup]
  by_cases hp : p
  · rw [if_pos hp]
    exact ⟨otherwise, rfl⟩
  · have hsome := (hfields ▸ hlookup).trans (if_neg hp)
    rw [if_neg hp, Option.isSome_some, if_pos rfl, hget hsome]
    exact ⟨x, rfl⟩

omit [LE R] [DecidableLE R] in
private theorem lookup_serialise :
    lookup (node.serialise .empty).fields "_id" = some (.scalar (.uuid node.uniqueId)) ∧
    lookup (node.serialise .empty).fields "name" = (if node.name = "" then none else some (.scalar (.string node.name))) ∧
    lookup (node.serialise .empty).fields "shared_id" =
      (if node.sharedId = default then none else some (.scalar (.uuid node.sharedId))) ∧
    lookup (node.serialise .empty).fields "parents" =
      (if node.parentIds = [] then none else some (.array (node.parentIds.map fun id => .scalar (.uuid id)))) ∧
    lookup (node.serialise .empty).fields "grouping" =
      (if node.grouping = "" then none else some (.scalar (.string node.grouping))) ∧
    lookup (node.serialise .empty).fields "bounding_box" =
      some (.array [vectorValue node.boundingBox.bmin, vectorValue node.boundingBox.bmax]) := by
  refine ⟨?_, ?_, ?_, ?_, ?_, ?_⟩ <;>
    simp [serialise, serialiseNode, appendBounds, appendVertices, appendFaces, appendNormals, appendUVChannels,
      appendFilterTags, lookup_ite, RepoBSONBuilder.empty]

omit [LE R] [DecidableLE R] in
private theorem exists_deserialise (hmemory : node.InMemory P) (hfaces : (facesLevel1 node.faces).length < 2 ^ 31)
    (hchannels : node.channels.length < 2 ^ 32) : ∃ n geometry, deserialise P (node.bson P) n = .ok geometry := by
  obtain ⟨n, hread⟩ := (deserialiseFaces_iff hmemory).2 hfaces
  have huvs : ∃ channels, deserialiseChannels P (node.bson P) = .ok channels := by
    rw [deserialiseChannels_bson]
    by_cases hnone : node.uvChannelsSerialised = []
    · exact ⟨[], if_pos hnone⟩
    · have hpos : node.channels.length ≠ 0 := by
        intro hzero
        rw [uvChannelsSerialised, List.length_eq_zero_iff.1 hzero] at hnone
        exact hnone rfl
      have hcount : (int32 node.channels.length % 2 ^ 32).toNat ≠ 0 := by
        unfold int32
        rw [bmod_emod, Nat.mod_eq_of_lt hchannels]
        exact hpos
      obtain ⟨channels, hsplit⟩ := exists_splitChannels node.uvChannelsSerialised hcount
      exact ⟨channels, by rw [if_neg hnone, hsplit]; rfl⟩
  obtain ⟨channels, huvs⟩ := huvs
  refine ⟨n, ⟨⟨node.vertices, node.normals, channels⟩, node.faces⟩, ?_⟩
  unfold deserialise
  rw [hread, deserialiseVectors_eq "vertices" node.vertices (node.find_vertices P),
    deserialiseVectors_eq "normals" node.normals (node.find_normals P), huvs]
  rfl

/-- The document of a mesh in memory can be read, if the positions among the words of its faces are `int`s and its
channels can be counted. -/
theorem exists_ofBSON (hmemory : node.InMemory P) (hfaces : (facesLevel1 node.faces).length < 2 ^ 31)
    (hchannels : node.channels.length < 2 ^ 32) : ∃ n restored, ofBSON P (node.bson P) n = .ok restored := by
  obtain ⟨n, geometry, hgeometry⟩ := exists_deserialise hmemory hfaces hchannels
  obtain ⟨hid, hname, hshared, hparents, hgrouping, hbounds⟩ := node.lookup_serialise
  have hget : ∀ {label : String} {value : Value (RepoVariant U R)}, lookup (node.bson P).fields label = some value →
      (node.bson P).getField label = .ok value := by
    intro label value hlookup
    rw [RepoBSON.getField, hlookup]
  have huuid : ∀ {label : String} {u : U}, lookup (node.bson P).fields label = some (.scalar (.uuid u)) →
      (node.bson P).getUUIDField label = .ok u := by
    intro label u hlookup
    rw [RepoBSON.getUUIDField, hget hlookup]
    rfl
  have hstring : ∀ {label s : String}, lookup (node.bson P).fields label = some (.scalar (.string s)) →
      (node.bson P).getStringField label = .ok s := by
    intro label s hlookup
    rw [RepoBSON.getStringField, hget hlookup]
    rfl
  have hint : ∀ {label : String} {i : ℤ}, lookup (node.bson P).fields label = some (.scalar (.int i)) →
      (node.bson P).getIntField label = .ok i := by
    intro label i hlookup
    rw [RepoBSON.getIntField, hget hlookup]
    rfl
  have hid' : ∃ u, readField (node.bson P) "_id" RepoBSON.getUUIDField default = .ok u :=
    exists_readField (p := False) (by rw [hid, if_neg not_false]) huuid default
  obtain ⟨uniqueId, hid'⟩ := hid'
  obtain ⟨name, hname⟩ := exists_readField (P := P) hname hstring ""
  obtain ⟨sharedId, hshared⟩ := exists_readField (P := P) hshared huuid default
  obtain ⟨revId, hrevId⟩ := exists_readField (P := P) node.fields_serialise.revId huuid default
  obtain ⟨grouping, hgrouping⟩ := exists_readField (P := P) hgrouping hstring ""
  obtain ⟨primitive, hprimitive⟩ := exists_readField (P := P) node.fields_serialise.primitive hint Primitive.triangles.toInt
  have htexture : readField (node.bson P) "materialProperties.textureId" RepoBSON.getUUIDField default = .ok default := by
    rw [readField, hasField_textureId]
    rfl
  have hparents' : ∃ parents, ((node.bson P).getUUIDFieldArray "parents").mapError ConstructFailure.bson = .ok parents := by
    have hfields : (node.bson P).fields = (node.serialise .empty).fields := rfl
    rw [RepoBSON.getUUIDFieldArray, hfields, hparents]
    by_cases hnone : node.parentIds = []
    · rw [if_pos hnone]
      exact ⟨[], rfl⟩
    · obtain ⟨parents, hall⟩ : ∃ parents, (node.parentIds.map fun id => Value.scalar (.uuid id)).mapM
          (RepoBSON.uuidElement (R := R) "parents") = .ok parents := by
        refine Library.Fallible.exists_mapM_iff.2 fun value hvalue => ?_
        obtain ⟨id, -, rfl⟩ := List.mem_map.1 hvalue
        exact ⟨id, rfl⟩
      rw [if_neg hnone]
      exact ⟨parents, congrArg _ hall⟩
  obtain ⟨parents, hparents'⟩ := hparents'
  have hbounds' : ∃ bounds, readBounds (node.bson P) "bounding_box" = .ok bounds := by
    rw [readBounds, hget hbounds]
    exact ⟨_, rfl⟩
  obtain ⟨bounds, hbounds'⟩ := hbounds'
  unfold ofBSON
  refine ⟨n, ?_⟩
  rw [hid', hname, hshared, hrevId, hparents', hgrouping, htexture, hprimitive, hbounds', hgeometry]
  exact ⟨_, rfl⟩

end Read

/-- A mesh that is read and stored again keeps its rendering class exactly if it is opaque. -/
theorem storedTag_eq_iff (P : Packing R Byte) (node : MeshNode U R) (n : ℕ) (restored : MeshNode U R)
    (h : ofBSON P (node.bson P) n = .ok restored) :
    restored.storedTag = node.storedTag ↔ node.opacity = 1 ∧ (node.textureId = default ∨ node.channels = []) := by
  rw [ofBSON_storedTag h, storedTag_eq, Option.some.injEq, eq_comm, matPropsBson_eq_opaque, matProps_eq_opaqueMat]

/-- A triangle with two UV channels, and a texture. -/
def texturedTriangle : MeshNode ℕ (BitVec 32) := { triangleWith bothChannels with textureId := 7 }

private theorem exists_ofBSON_texturedTriangle :
    ∃ n restored, ofBSON Packing.word (texturedTriangle.bson Packing.word) n = .ok restored := by
  have hmemory : (triangleWith bothChannels).InMemory Packing.word := inMemory_triangleWith (by decide)
  exact exists_ofBSON ⟨hmemory.index_lt, hmemory.size_lt⟩ (by decide) (by decide)

theorem storedTag_eq_iff_texturedTriangle : ∃ n restored,
    ofBSON Packing.word (texturedTriangle.bson Packing.word) n = .ok restored ∧
      (restored.storedTag = texturedTriangle.storedTag ↔
        texturedTriangle.opacity = 1 ∧ (texturedTriangle.textureId = default ∨ texturedTriangle.channels = [])) := by
  obtain ⟨n, restored, h⟩ := exists_ofBSON_texturedTriangle
  exact ⟨n, restored, h, storedTag_eq_iff Packing.word texturedTriangle n restored h⟩

/-- It comes back without the texture, and is opaque from then on. -/
theorem not_storedTag_eq : ¬ ∀ (node : MeshNode ℕ (BitVec 32)) (n : ℕ) (restored : MeshNode ℕ (BitVec 32)),
    ofBSON Packing.word (node.bson Packing.word) n = .ok restored → restored.storedTag = node.storedTag := by
  intro hall
  obtain ⟨n, restored, h⟩ := exists_ofBSON_texturedTriangle
  have hsame := hall texturedTriangle n restored h
  rw [ofBSON_storedTag h, storedTag_eq, Option.some.injEq, eq_comm, matPropsBson_eq_opaque, matProps_eq_opaqueMat] at hsame
  exact absurd hsame.2 (by decide)

end MeshNode

end Bouncer
