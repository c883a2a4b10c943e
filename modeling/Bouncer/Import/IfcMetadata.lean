import Bouncer.Library.Overwriting
import Bouncer.Library.RoseTree

/-!
# The metadata of an IFC object

`collectProperties` goes from the relationships of an object to its property and quantity sets, and to those of its type,
and makes an entry for each value.  The sets of the type are collected with a flag that forbids to overwrite, which is
copied with the context.  But the method of measurement of a quantity set is written past that flag.

So the object's own sets win if and only if no other source writes one of their keys later in a way that overwrites
(`setsWin_iff`), and of the sets of the type only the methods of measurement do (`isMethod_of_overwrite`).
-/

namespace Bouncer.IfcSerialiser

open Library Library.Overwriting

variable {V : Type}

/-! ### The functions -/

structure RepoValue (V : Type) where
  v : Option V
  units : String

/-- `Metadata`, without the map that it refers to. -/
structure Metadata where
  keyPrefix : String
  suffix : String
  overwrite : Bool

namespace Metadata

def new : Metadata := ⟨"", "", true⟩

def addSuffix (metadata : Metadata) (suffix : String) : Metadata :=
  { metadata with suffix := if metadata.suffix ≠ "" then metadata.suffix ++ ":" ++ suffix else suffix }

def setGroup (metadata : Metadata) (group : String) : Metadata := { metadata with keyPrefix := group }

def setOverwrite (metadata : Metadata) (overwrite : Bool) : Metadata := { metadata with overwrite := overwrite }

def getKey (metadata : Metadata) (name units : String) : String :=
  let fullName := if metadata.keyPrefix ≠ "" then metadata.keyPrefix ++ "::" ++ name else name
  let fullName := if metadata.suffix ≠ "" then fullName ++ " (" ++ metadata.suffix ++ ")" else fullName
  if units ≠ "" then fullName ++ " (" ++ units ++ ")" else fullName

/-- An assignment to what `operator()` returns. -/
def assign (metadata : Metadata) (name : String) (value : V) (map : String → Option V) : String → Option V :=
  Function.update map (metadata.getKey name "") (some value)

def setValue (metadata : Metadata) (name : String) (value : RepoValue V) (map : String → Option V) : String → Option V :=
  match value.v with
  | some v =>
    let key := metadata.getKey name value.units
    if metadata.overwrite = false ∧ (map key).isSome then map else Function.update map key (some v)
  | none => map

end Metadata

/-- What the relationships lead to, without the entities to which it leads on. -/
inductive IfcDefinition (V : Type) where
  | IfcPropertySet (name : Option String) (declaration : String)
  | IfcPreDefinedPropertySet (name : Option String) (declaration : String)
  | IfcElementQuantity (name : Option String) (declaration : String) (methodOfMeasurement : Option String)
  | IfcClassification (name : String)
  /-- With a `ReferencedSource`, to which it leads on. -/
  | IfcReferencedClassification
  | IfcClassificationReference (name : Option String) (declaration : String)
  | IfcPreDefinedProperties
  | IfcProfileDef
  | IfcComplexProperty (usageName : String)
  | IfcPhysicalComplexQuantity (usage : Option String) (name : String)
  /-- An attribute that refers to an entity; an aggregate has one for each entry, with the number of the entry. -/
  | reference (attributeName : String)
  /-- The other properties and quantities, and other attributes, with what is found for their value and units. -/
  | value (name : String) (value : RepoValue V)

namespace IfcDefinition

/-- The context in which an entity collects what it leads to. -/
def context (object : IfcDefinition V) (metadata : Metadata) : Metadata :=
  match object with
  | IfcPropertySet name declaration => metadata.setGroup (name.getD declaration)
  | IfcPreDefinedPropertySet name declaration => metadata.setGroup (name.getD declaration)
  | IfcElementQuantity name declaration _ => metadata.setGroup (name.getD declaration)
  | IfcClassification name => metadata.setGroup name
  | IfcReferencedClassification => metadata
  | IfcClassificationReference name declaration => metadata.setGroup (name.getD declaration)
  | IfcPreDefinedProperties => metadata
  | IfcProfileDef => metadata
  | IfcComplexProperty usageName => metadata.addSuffix usageName
  | IfcPhysicalComplexQuantity usage name => metadata.addSuffix (usage.getD name)
  | reference attributeName => metadata.addSuffix attributeName
  | value _ _ => metadata

/-- What an entity writes itself. -/
def write (text : String → V) (object : IfcDefinition V) (metadata : Metadata) (map : String → Option V) :
    String → Option V :=
  match object with
  | IfcElementQuantity _ _ methodOfMeasurement =>
    let method := methodOfMeasurement.getD ""
    if method ≠ "" then (object.context metadata).assign "MethodOfMeasurement" (text method) map else map
  | value name v => metadata.setValue name v map
  | _ => map

end IfcDefinition

/-- `collectProperties`, and `collectAttributes`, for what a relationship leads to. -/
def collectDefinition (text : String → V) :
    RoseTree (IfcDefinition V) → Metadata → (String → Option V) → String → Option V
  | .node object children, metadata, map => go text children (object.context metadata) (object.write text metadata map)
where
  go (text : String → V) : List (RoseTree (IfcDefinition V)) → Metadata → (String → Option V) → String → Option V
    | [], _, map => map
    | child :: children, metadata, map => go text children metadata (collectDefinition text child metadata map)

/-- An `IfcRelationship`.  There is no definition instead of an `IfcPropertySetDefinitionSet`. -/
inductive IfcRelationship (V : Type) where
  | IfcRelDefinesByProperties (relatingPropertyDefinition : Option (RoseTree (IfcDefinition V)))
  /-- With the property sets of the type, and the definitions that `getInverse` finds for it. -/
  | IfcRelDefinesByType (hasPropertySets : List (RoseTree (IfcDefinition V)))
    (related : List (Option (RoseTree (IfcDefinition V))))
  | IfcRelDefinesByObject (props : List (Option (RoseTree (IfcDefinition V))))
  | IfcRelAssociatesClassification (relatingClassification : RoseTree (IfcDefinition V))
  /-- Also `IfcRelNests`: `collectProperties` does nothing with the objects that it relates. -/
  | other

/-- `collectProperties` for a relationship. -/
def collectProperties (text : String → V) (object : IfcRelationship V) (metadata : Metadata) (map : String → Option V) :
    String → Option V :=
  match object with
  | .IfcRelDefinesByProperties definition => collectDefinition.go text definition.toList metadata map
  | .IfcRelDefinesByType hasPropertySets related =>
    let noOverwrite := metadata.setOverwrite false
    collectDefinition.go text related.reduceOption noOverwrite
      (collectDefinition.go text hasPropertySets noOverwrite map)
  | .IfcRelDefinesByObject props => collectDefinition.go text props.reduceOption metadata map
  | .IfcRelAssociatesClassification classification => collectDefinition text classification metadata map
  | .other => map

/-- `createMetadataNode`, after the attributes of the object: the `IfcRelDefines`, the `IfcRelNests` and the
`IfcRelAssociates`, each in the order in which `getInverse` returns them. -/
def createMetadataNode (text : String → V) (attributes : String → Option V)
    (defines nests associates : List (IfcRelationship V)) : String → Option V :=
  (defines ++ nests ++ associates).foldl (fun map object => collectProperties text object .new map) attributes

/-! ### The entries of a definition -/

namespace IfcDefinition

def entries (text : String → V) (object : IfcDefinition V) (metadata : Metadata) : List (Entry String V) :=
  match object with
  | IfcElementQuantity _ _ methodOfMeasurement =>
    let method := methodOfMeasurement.getD ""
    if method ≠ "" then [⟨(object.context metadata).getKey "MethodOfMeasurement" "", text method, true⟩] else []
  | value name v => v.v.toList.map fun x => ⟨metadata.getKey name v.units, x, metadata.overwrite⟩
  | _ => []

private theorem write_eq (text : String → V) (object : IfcDefinition V) (metadata : Metadata) (map : String → Option V) :
    object.write text metadata map = writeAll map (object.entries text metadata) := by
  cases object with
  | IfcElementQuantity name declaration methodOfMeasurement =>
    simp only [write, entries]
    split_ifs
    · rw [writeAll_cons, writeAll_nil, Entry.write, if_neg (by simp)]
      rfl
    · rfl
  | value name v =>
    obtain ⟨v, units⟩ := v
    cases v <;> rfl
  | _ => rfl

end IfcDefinition

/-- The entries of a definition and of what it leads to. -/
def entries (text : String → V) : RoseTree (IfcDefinition V) → Metadata → List (Entry String V)
  | .node object children, metadata => object.entries text metadata ++ go text children (object.context metadata)
where
  go (text : String → V) : List (RoseTree (IfcDefinition V)) → Metadata → List (Entry String V)
    | [], _ => []
    | child :: children, metadata => entries text child metadata ++ go text children metadata

variable {text : String → V}

private theorem go_eq_of_forall {children : List (RoseTree (IfcDefinition V))}
    (h : ∀ t ∈ children, ∀ metadata map, collectDefinition text t metadata map = writeAll map (entries text t metadata))
    (metadata : Metadata) (map : String → Option V) :
    collectDefinition.go text children metadata map = writeAll map (entries.go text children metadata) := by
  induction children generalizing map with
  | nil => rfl
  | cons t children ih =>
    obtain ⟨ht, hchildren⟩ := List.forall_mem_cons.1 h
    rw [collectDefinition.go, entries.go, writeAll_append, ht, ih hchildren]

private theorem collectDefinition_eq (t : RoseTree (IfcDefinition V)) :
    ∀ metadata map, collectDefinition text t metadata map = writeAll map (entries text t metadata) := by
  induction t using RoseTree.rec_children with
  | h object children ih =>
    intro metadata map
    rw [collectDefinition, entries, writeAll_append, go_eq_of_forall ih, IfcDefinition.write_eq]

private theorem collectDefinition_go_eq (children : List (RoseTree (IfcDefinition V))) (metadata : Metadata)
    (map : String → Option V) :
    collectDefinition.go text children metadata map = writeAll map (entries.go text children metadata) :=
  go_eq_of_forall (fun t _ => collectDefinition_eq t) metadata map

theorem IfcDefinition.context_overwrite (object : IfcDefinition V) (metadata : Metadata) :
    (object.context metadata).overwrite = metadata.overwrite := by
  cases object <;> rfl

/-- The key of a method of measurement, in some group and with some suffix. -/
def IsMethod (k : String) : Prop := ∃ metadata : Metadata, k = metadata.getKey "MethodOfMeasurement" ""

theorem IfcDefinition.overwrite_of_mem_entries {object : IfcDefinition V} {metadata : Metadata} {e : Entry String V}
    (he : e ∈ object.entries text metadata) :
    e.overwrite = metadata.overwrite ∨ (e.overwrite = true ∧ IsMethod e.key) := by
  cases object with
  | IfcElementQuantity name declaration methodOfMeasurement =>
    simp only [entries] at he
    split_ifs at he
    · rw [List.mem_singleton.1 he]
      exact .inr ⟨rfl, _, rfl⟩
    · cases he
  | value name v =>
    obtain ⟨x, -, rfl⟩ := List.mem_map.1 he
    exact .inl rfl
  | _ => cases he

/-- An entry has the flag of the context, unless it is a method of measurement. -/
theorem overwrite_of_mem_entries (t : RoseTree (IfcDefinition V)) :
    ∀ metadata, ∀ e ∈ entries text t metadata, e.overwrite = metadata.overwrite ∨ (e.overwrite = true ∧ IsMethod e.key) := by
  induction t using RoseTree.rec_children with
  | h object children ih =>
    intro metadata e he
    rw [entries, List.mem_append] at he
    rcases he with he | he
    · exact IfcDefinition.overwrite_of_mem_entries he
    · rw [← object.context_overwrite]
      induction children with
      | nil => cases he
      | cons t children iht =>
        obtain ⟨ht, hchildren⟩ := List.forall_mem_cons.1 ih
        rw [entries.go, List.mem_append] at he
        rcases he with he | he
        · exact ht _ e he
        · exact iht hchildren he

private theorem overwrite_of_mem_go {children : List (RoseTree (IfcDefinition V))} {metadata : Metadata} {e : Entry String V}
    (he : e ∈ entries.go text children metadata) :
    e.overwrite = metadata.overwrite ∨ (e.overwrite = true ∧ IsMethod e.key) := by
  induction children with
  | nil => cases he
  | cons t children ih =>
    rw [entries.go, List.mem_append] at he
    rcases he with he | he
    · exact overwrite_of_mem_entries t _ e he
    · exact ih he

/-! ### The entries of an object -/

inductive Source where
  | own
  | type
  | other
  deriving DecidableEq

namespace IfcRelationship

def source : IfcRelationship V → Source
  | IfcRelDefinesByProperties _ => .own
  | IfcRelDefinesByType _ _ => .type
  | _ => .other

def entries (text : String → V) : IfcRelationship V → List (Entry String V)
  | IfcRelDefinesByProperties definition => IfcSerialiser.entries.go text definition.toList .new
  | IfcRelDefinesByType hasPropertySets related =>
    IfcSerialiser.entries.go text hasPropertySets (Metadata.new.setOverwrite false) ++
      IfcSerialiser.entries.go text related.reduceOption (Metadata.new.setOverwrite false)
  | IfcRelDefinesByObject props => IfcSerialiser.entries.go text props.reduceOption .new
  | IfcRelAssociatesClassification classification => IfcSerialiser.entries text classification .new
  | other => []

private theorem collectProperties_eq (object : IfcRelationship V) (map : String → Option V) :
    collectProperties text object .new map = writeAll map (object.entries text) := by
  cases object with
  | IfcRelDefinesByProperties definition => exact collectDefinition_go_eq _ _ _
  | IfcRelDefinesByType hasPropertySets related =>
    rw [collectProperties, entries, writeAll_append, ← collectDefinition_go_eq, ← collectDefinition_go_eq]
  | IfcRelDefinesByObject props => exact collectDefinition_go_eq _ _ _
  | IfcRelAssociatesClassification classification => exact collectDefinition_eq _ _ _
  | other => rfl

private theorem overwrite_of_own {object : IfcRelationship V} (h : object.source = .own) {e : Entry String V}
    (he : e ∈ object.entries text) : e.overwrite = true := by
  cases object with
  | IfcRelDefinesByProperties definition =>
    rcases overwrite_of_mem_go he with hflag | ⟨hflag, -⟩
    · exact hflag
    · exact hflag
  | _ => cases h

/-- Of the sets of the type only the methods of measurement overwrite. -/
theorem isMethod_of_overwrite {object : IfcRelationship V} (h : object.source = .type) {e : Entry String V}
    (he : e ∈ object.entries text) (hoverwrite : e.overwrite = true) : IsMethod e.key := by
  cases object with
  | IfcRelDefinesByType hasPropertySets related =>
    have hflag : e.overwrite = false ∨ (e.overwrite = true ∧ IsMethod e.key) := by
      rcases List.mem_append.1 he with he | he
      · exact overwrite_of_mem_go he
      · exact overwrite_of_mem_go he
    rcases hflag with hflag | ⟨-, hmethod⟩
    · rw [hflag] at hoverwrite
      cases hoverwrite
    · exact hmethod
  | _ => cases h

end IfcRelationship

/-- All entries of an object, with the source that each has. -/
def objectEntries (text : String → V) (objects : List (IfcRelationship V)) : List (Source × Entry String V) :=
  objects.flatMap fun object => (object.entries text).map fun e => (object.source, e)

private theorem objectEntries_cons (object : IfcRelationship V) (objects : List (IfcRelationship V)) :
    objectEntries text (object :: objects) =
      (object.entries text).map (fun e => (object.source, e)) ++ objectEntries text objects := List.flatMap_cons

private theorem createMetadataNode_eq (attributes : String → Option V) (defines nests associates : List (IfcRelationship V)) :
    createMetadataNode text attributes defines nests associates =
      writeAll attributes ((objectEntries text (defines ++ nests ++ associates)).map Prod.snd) := by
  unfold createMetadataNode
  generalize defines ++ nests ++ associates = objects
  induction objects generalizing attributes with
  | nil => rfl
  | cons object objects ih =>
    have hentries : ((object.entries text).map fun e => (object.source, e)).map Prod.snd = object.entries text := by
      rw [List.map_map]
      exact List.map_id _
    rw [List.foldl_cons, ih, objectEntries_cons, List.map_append, writeAll_append, hentries,
      IfcRelationship.collectProperties_eq]

/-- Each key that a source defines has a value from that source, if it is a key of the object's own sets, or one that only
the sets of the type define. -/
structure SetsWin (text : String → V) (attributes : String → Option V)
    (defines nests associates : List (IfcRelationship V)) : Prop where
  own : ∀ k, (∃ q ∈ objectEntries text (defines ++ nests ++ associates), q.1 = .own ∧ q.2.key = k) →
    ∃ q ∈ objectEntries text (defines ++ nests ++ associates), q.1 = .own ∧ q.2.key = k ∧
      createMetadataNode text attributes defines nests associates k = some q.2.value
  type : ∀ k, (∃ q ∈ objectEntries text (defines ++ nests ++ associates), q.2.key = k) → attributes k = none →
    (∀ q ∈ objectEntries text (defines ++ nests ++ associates), q.2.key = k → q.1 = .type) →
    ∃ q ∈ objectEntries text (defines ++ nests ++ associates), q.1 = .type ∧ q.2.key = k ∧
      createMetadataNode text attributes defines nests associates k = some q.2.value

private theorem mem_objectEntries {objects : List (IfcRelationship V)} {q : Source × Entry String V}
    (hq : q ∈ objectEntries text objects) : ∃ object ∈ objects, object.source = q.1 ∧ q.2 ∈ object.entries text := by
  obtain ⟨object, hobject, hq⟩ := List.mem_flatMap.1 hq
  obtain ⟨e, he, rfl⟩ := List.mem_map.1 hq
  exact ⟨object, hobject, rfl, he⟩

/-- The object's own sets win if and only if none of their keys is overwritten later with another value. -/
theorem setsWin_iff (attributes : String → Option V) (defines nests associates : List (IfcRelationship V)) :
    SetsWin text attributes defines nests associates ↔
      ∀ k, (∃ q ∈ objectEntries text (defines ++ nests ++ associates), q.1 = .own ∧ q.2.key = k) →
        ¬Overruled (· = Source.own) (objectEntries text (defines ++ nests ++ associates)) k := by
  have hown : ∀ k, (∃ q ∈ objectEntries text (defines ++ nests ++ associates), q.1 = .own ∧ q.2.key = k) →
      ((∃ q ∈ objectEntries text (defines ++ nests ++ associates), q.1 = .own ∧ q.2.key = k ∧
          createMetadataNode text attributes defines nests associates k = some q.2.value) ↔
        ¬Overruled (· = Source.own) (objectEntries text (defines ++ nests ++ associates)) k) := by
    rintro k ⟨q, hq, hsource, hkey⟩
    obtain ⟨object, -, hobject, he⟩ := mem_objectEntries hq
    have hoverwrite := IfcRelationship.overwrite_of_own (hobject.trans hsource) he
    rw [createMetadataNode_eq]
    exact exists_value_iff_not_overruled (· = Source.own) ⟨q, hq, hkey, hoverwrite⟩ attributes
  constructor
  · intro h k hk
    exact (hown k hk).1 (h.own k hk)
  · intro h
    refine ⟨fun k hk => (hown k hk).2 (h k hk), ?_⟩
    rintro k ⟨q, hq, hkey⟩ hattributes htype
    have hsome : (createMetadataNode text attributes defines nests associates k).isSome := by
      rw [createMetadataNode_eq]
      exact isSome_writeAll _ (.inr ⟨q.2, List.mem_map_of_mem hq, hkey⟩)
    rw [createMetadataNode_eq] at hsome ⊢
    rcases writeAll_cases ((objectEntries text (defines ++ nests ++ associates)).map Prod.snd) attributes k with
      hsame | ⟨e, he, hkey', hvalue⟩
    · rw [hsame, hattributes] at hsome
      cases hsome
    · obtain ⟨q', hq', rfl⟩ := List.mem_map.1 he
      exact ⟨q', hq', htype q' hq' hkey', hkey', hvalue⟩

/-- A set with one quantity and a method of measurement. -/
def quantities (method : String) : RoseTree (IfcDefinition String) :=
  .node (.IfcElementQuantity (some "BaseQuantities") "IfcElementQuantity" (some method))
    [.node (.value "Length" ⟨some "3", "m"⟩) []]

/-- The method of measurement is overruled by that of the type. -/
theorem not_setsWin_quantities :
    ¬SetsWin id (fun _ => none)
      [.IfcRelDefinesByProperties (some (quantities "measured")), .IfcRelDefinesByType [quantities "catalogue"] []] []
      [] := by
  intro h
  have hentries : objectEntries id
      ([.IfcRelDefinesByProperties (some (quantities "measured")), .IfcRelDefinesByType [quantities "catalogue"] []] ++
        [] ++ []) =
      [(.own, ⟨"BaseQuantities::MethodOfMeasurement", "measured", true⟩),
        (.own, ⟨"BaseQuantities::Length (m)", "3", true⟩),
        (.type, ⟨"BaseQuantities::MethodOfMeasurement", "catalogue", true⟩),
        (.type, ⟨"BaseQuantities::Length (m)", "3", false⟩)] := by
    decide
  have hlast : writeAll (fun _ => none) ([⟨"BaseQuantities::MethodOfMeasurement", "measured", true⟩,
        ⟨"BaseQuantities::Length (m)", "3", true⟩] ++
      (⟨"BaseQuantities::MethodOfMeasurement", "catalogue", true⟩ : Entry String String) ::
        [⟨"BaseQuantities::Length (m)", "3", false⟩]) "BaseQuantities::MethodOfMeasurement" = some "catalogue" :=
    writeAll_last rfl (by decide) _
  have hown := h.own "BaseQuantities::MethodOfMeasurement"
  rw [createMetadataNode_eq, hentries] at hown
  obtain ⟨q, hq, hsource, hkey, hvalue⟩ := hown ⟨_, List.mem_cons_self, rfl, rfl⟩
  have hq' : ∀ q ∈ [((.own, ⟨"BaseQuantities::MethodOfMeasurement", "measured", true⟩) : Source × Entry String String),
      (.own, ⟨"BaseQuantities::Length (m)", "3", true⟩),
      (.type, ⟨"BaseQuantities::MethodOfMeasurement", "catalogue", true⟩),
      (.type, ⟨"BaseQuantities::Length (m)", "3", false⟩)], q.1 = .own → q.2.value ≠ "catalogue" := by
    decide
  exact hq' q hq hsource (Option.some.inj (hvalue.symm.trans hlast))

end Bouncer.IfcSerialiser
