import Bouncer.Core.JsonParser
import Bouncer.Clash.Config

/-!
# Parsing clash configurations

The parsers of a clash configuration: one for the document, two for the sets, and those for their members.  A function that
a parser does not override records an error at the parser, and `MyHandler` ends the parsing when it finds a parser with an
error at the top of the stack.

A document without faults leaves the stack balanced, and members with unknown names can be deleted from it
(`run_balanced`).  A value of a kind that its parser does not accept makes that a document is rejected, but for a null, which
no parser is told about, and for an array that comes first: `Parser::StartArray` does not return anything (`rejected_iff`).
-/

namespace Bouncer.Clash

open Library (Json)
open Library.Json (Items Members)
open MyHandler (State run run_append run_cons checkTopParser handle)

/-- A scalar, as `rapidjson` reports it. -/
inductive JsonScalar (R : Type) where
  | null
  | bool (b : Bool)
  | int (i : ℤ)
  | uint (i : ℕ)
  | int64 (i : ℤ)
  | uint64 (i : ℕ)
  | double (d : R)
  | string (s : String)

/-- What a value can be. -/
inductive Kind where
  | object
  | array
  | string
  | number
  | boolean
  | null
  deriving DecidableEq

section Scalars

variable {R : Type}

def JsonScalar.kind : JsonScalar R → Kind
  | .null => .null
  | .bool _ => .boolean
  | .string _ => .string
  | _ => .number

/-- What `SetError` is called with. -/
def JsonScalar.actual : JsonScalar R → String
  | .null => "Null"
  | .bool _ => "Bool"
  | .int _ => "Int"
  | .uint _ => "Unsigned Int"
  | .int64 _ => "Int64"
  | .uint64 _ => "Unsigned Int64"
  | .double _ => "Double"
  | .string _ => "String"

/-- The conversions between `double` and the integers. -/
structure Casts (R : Type) where
  toDouble : ℤ → R
  toInt : R → ℤ

/-- The argument of `NumberParser<double>::Number`, for a number. -/
def JsonScalar.double? (casts : Casts R) : JsonScalar R → Option R
  | .int i | .int64 i => some (casts.toDouble i)
  | .uint i | .uint64 i => some (casts.toDouble i)
  | .double d => some d
  | _ => none

/-- The argument of `NumberParser<int>::Number`, for a number. -/
def JsonScalar.int? (casts : Casts R) : JsonScalar R → Option ℤ
  | .int i | .int64 i => some (i.bmod (2 ^ 32))
  | .uint i | .uint64 i => some ((i : ℤ).bmod (2 ^ 32))
  | .double d => some (casts.toInt d)
  | _ => none

end Scalars

/-! ### The parsers -/

/-- The two sets. -/
inductive SetName where
  | a
  | b
  deriving DecidableEq

/-- The parsers that a `ClashConfigParser` consists of. -/
inductive ClashParser where
  | clashConfig
  | type
  | tolerance
  | numThreads
  | resultsFile
  | selfIntersects (set : SetName)
  | set (set : SetName)
  | compositeObjectSet (set : SetName)
  | teamspace (set : SetName)
  | container (set : SetName)
  | revision (set : SetName)
  | objects (set : SetName)
  | compositeObject (set : SetName)
  | id (set : SetName)
  | meshIds (set : SetName)
  | meshId (set : SetName)
  deriving DecidableEq

namespace ClashParser

/-- `ObjectParser::parsers`, for those parsers that are one. -/
def parsers : ClashParser → Option (List (String × ClashParser))
  | .clashConfig => some
    [("type", .type), ("tolerance", .tolerance), ("numThreads", .numThreads), ("resultsFile", .resultsFile),
      ("setA", .set .a), ("setB", .set .b), ("selfIntersectsA", .selfIntersects .a), ("selfIntersectsB", .selfIntersects .b)]
  | .compositeObjectSet name => some
    [("teamspace", .teamspace name), ("container", .container name), ("revision", .revision name),
      ("objects", .objects name)]
  | .compositeObject name => some [("id", .id name), ("meshIds", .meshIds name)]
  | _ => none

/-- `ArrayParser::elementParser`, for those parsers that are one. -/
def elementParser : ClashParser → Option ClashParser
  | .set name => some (.compositeObjectSet name)
  | .objects name => some (.compositeObject name)
  | .meshIds name => some (.meshId name)
  | _ => none

def getExpected : ClashParser → String
  | .clashConfig | .compositeObjectSet _ | .compositeObject _ => "Object"
  | .set _ | .objects _ | .meshIds _ => "Array"
  | .tolerance | .numThreads => "Number"
  | .resultsFile | .teamspace _ | .container _ | .id _ => "String"
  | .revision _ => "RepoUUID"
  | .selfIntersects _ => "Boolean"
  | .type | .meshId _ => "Unknown"

/-- The kind of the values that a parser accepts. -/
def kind : ClashParser → Kind
  | .clashConfig | .compositeObjectSet _ | .compositeObject _ => .object
  | .set _ | .objects _ | .meshIds _ => .array
  | .tolerance | .numThreads => .number
  | .type | .resultsFile | .teamspace _ | .container _ | .id _ | .revision _ | .meshId _ => .string
  | .selfIntersects _ => .boolean

/-- The parser of a member, or null. -/
def child (p : ClashParser) (key : String) : Option ClashParser := p.parsers.bind (List.lookup key)

end ClashParser

/-! ### The state of the parsers -/

inductive ClashDetectionType where
  | none
  | clearance
  | hard
  deriving DecidableEq

structure Container (boost : Boost) where
  teamspace : String
  container : String
  revision : boost.Uuid

/-- The members of a `CompositeObjectSetParser`, its map, and those of its `CompositeObjectParser`. -/
structure CompositeObjectSetState (boost : Boost) where
  teamspace : String
  containerName : String
  revision : boost.Uuid
  container : ℕ
  set : List (String × CompositeObject boost)
  id : String
  meshIds : List (MeshReference boost)

/-- The configuration, and the members of all parsers.  A container has its position as its address, and the maps are
lists in the order in which the keys are new. -/
structure ClashConfigState (boost : Boost) (R : Type) extends ClashDetectionConfig boost R where
  type : ClashDetectionType
  numThreads : ℤ
  resultsFile : String
  containers : List (Container boost)
  containerKeys : List (String × ℕ)
  sets : SetName → CompositeObjectSetState boost
  error : ClashParser → String

section Parsers

variable {boost : Boost} {R : Type}

namespace ClashConfigState

def setError (p : ClashParser) (actual : String) (s : ClashConfigState boost R) : ClashConfigState boost R :=
  { s with
    error := Function.update s.error p
      ("Json does not match expected schema - expected " ++ p.getExpected ++ " but found " ++ actual) }

def updateSet (set : SetName) (f : CompositeObjectSetState boost → CompositeObjectSetState boost)
    (s : ClashConfigState boost R) : ClashConfigState boost R :=
  { s with sets := Function.update s.sets set (f (s.sets set)) }

/-- `getContainer`, whose result becomes the container of the set. -/
def getContainer (toString : boost.Uuid → String) (set : SetName) (s : ClashConfigState boost R) :
    ClashConfigState boost R :=
  let parser := s.sets set
  let key := parser.teamspace ++ ":" ++ parser.containerName ++ ":" ++ toString parser.revision
  match s.containerKeys.lookup key with
  | some container => s.updateSet set fun parser => { parser with container := container }
  | none =>
    let container : Container boost := ⟨parser.teamspace, parser.containerName, parser.revision⟩
    let s' := { s with
      containers := s.containers ++ [container]
      containerKeys := s.containerKeys ++ [(key, s.containers.length)] }
    s'.updateSet set fun parser => { parser with container := s.containers.length }

end ClashConfigState

/-- The entry for a key, which is added if it is new. -/
def CompositeObjectSetState.getCompositeObject (set : List (String × CompositeObject boost)) (id : String)
    (f : CompositeObject boost → CompositeObject boost) : List (String × CompositeObject boost) :=
  match set with
  | [] => [(id, f ⟨id, []⟩)]
  | (id', obj) :: rest =>
    if id' = id then (id', f { obj with id := id }) :: rest else (id', obj) :: getCompositeObject rest id f

def CompositeObjectSetState.endObject (parser : CompositeObjectSetState boost) : CompositeObjectSetState boost :=
  { parser with
    set := getCompositeObject parser.set parser.id fun obj =>
      if obj.meshes.length ≠ 0 then { obj with meshes := obj.meshes ++ parser.meshIds }
      else { obj with meshes := parser.meshIds }
    meshIds := [] }

variable (casts : Casts R) (toString : boost.Uuid → String)

open ClashConfigState in
/-- The functions for scalars. -/
def clashScalar (p : ClashParser) (l : JsonScalar R) (s : ClashConfigState boost R) :
    Except Stop (ClashConfigState boost R) :=
  match p, l with
  | .type, .string name =>
    if name = "clearance" then .ok { s with type := .clearance }
    else if name = "hard" then .ok { s with type := .hard }
    else .error (.thrown ("Unknown clash detection type: " ++ name))
  | .tolerance, l =>
    match l.double? casts with
    | some tolerance => .ok { s with tolerance := tolerance }
    | none => .ok (s.setError .tolerance l.actual)
  | .numThreads, l =>
    match l.int? casts with
    | some numThreads => .ok { s with numThreads := numThreads }
    | none => .ok (s.setError .numThreads l.actual)
  | .resultsFile, .string resultsFile => .ok { s with resultsFile := resultsFile }
  | .selfIntersects .a, .bool b => .ok { s with selfIntersectsA := b }
  | .selfIntersects .b, .bool b => .ok { s with selfIntersectsB := b }
  | .teamspace set, .string teamspace => .ok (s.updateSet set fun parser => { parser with teamspace := teamspace })
  | .container set, .string container => .ok (s.updateSet set fun parser => { parser with containerName := container })
  | .revision set, .string revision =>
    .ok (s.updateSet set fun parser => { parser with revision := boost.stringToUUID revision })
  | .id set, .string id => .ok (s.updateSet set fun parser => { parser with id := id })
  | .meshId set, .string id =>
    .ok (s.updateSet set fun parser =>
      { parser with meshIds := parser.meshIds ++ [⟨parser.container, boost.stringToUUID id⟩] })
  | p, l => .ok (s.setError p l.actual)

/-- The virtual functions of all parsers.  `Parser::StartArray` has no return statement, and `Parser::Null` is not called. -/
def clashParsers : Parsers ClashParser (ClashConfigState boost R) String (JsonScalar R) where
  isNull l := l.kind = .null
  scalar := clashScalar casts
  startObject p s := if p.parsers.isSome then s else s.setError p "Object"
  key p key s :=
    match p, p.parsers with
    | .compositeObjectSet set, some parsers =>
      (if key = "objects" then s.getContainer toString set else s, parsers.lookup key)
    | _, some parsers => (s, parsers.lookup key)
    | p, none => (s.setError p "Key", none)
  endObject p s :=
    match p with
    | .clashConfig =>
      { s with
        setA := (s.sets .a).set.map Prod.snd
        setB := (s.sets .b).set.map Prod.snd }
    | .compositeObject set => s.updateSet set CompositeObjectSetState.endObject
    | _ => s
  startArray p s :=
    match p.elementParser with
    | some elementParser => .ok (s, some elementParser)
    | none => .error .undefined
  endArray _ s := s
  error p s := s.error p

/-- `CompositeObjectSetParser` and its `CompositeObjectParser`, before anything is read. -/
def CompositeObjectSetState.initial (boost : Boost) : CompositeObjectSetState boost :=
  ⟨"", "", boost.stringToUUID Boost.defaultValue, 0, [], "", []⟩

/-- `ClashConfigParser`, for a configuration `{}`. -/
def ClashConfigState.initial (boost : Boost) (casts : Casts R) : ClashConfigState boost R where
  tolerance := casts.toDouble 0
  setA := []
  setB := []
  selfIntersectsA := false
  selfIntersectsB := false
  type := .none
  numThreads := 0
  resultsFile := ""
  containers := []
  containerKeys := []
  sets _ := .initial boost
  error _ := ""

variable (boost) in
/-- `ClashConfigParser::ParseJson`. -/
def parseClashConfig (v : Json String (JsonScalar R)) : Except Halt (State ClashParser (ClashConfigState boost R)) :=
  MyHandler.parseJson (clashParsers casts toString) .clashConfig (.initial boost casts) v

/-! ### Faults -/

/-- What is wrong with a document. -/
inductive Fault where
  /-- A parser is given a value of a kind that it does not accept. -/
  | kind (p : ClashParser) (found : Kind)
  | unknownType (name : String)

/-- The fault of a scalar. -/
def scalarFaults (p : ClashParser) (l : JsonScalar R) : List Fault :=
  if l.kind ≠ p.kind then [.kind p l.kind]
  else
    match p, l with
    | .type, .string name => if name = "clearance" ∨ name = "hard" then [] else [.unknownType name]
    | _, _ => []

mutual

/-- The faults of a value that is given to a parser, or ignored, in their order.  There are no others in a value of the wrong
kind. -/
def faults : Option ClashParser → Json String (JsonScalar R) → List Fault
  | none, _ => []
  | some p, .scalar l => scalarFaults p l
  | some p, .array items => if p.kind = .array then itemFaults p.elementParser items else [.kind p .array]
  | some p, .object members => if p.kind = .object then memberFaults p members else [.kind p .object]

def itemFaults (element : Option ClashParser) : Items String (JsonScalar R) → List Fault
  | .nil => []
  | .cons v rest => faults element v ++ itemFaults element rest

def memberFaults (p : ClashParser) : Members String (JsonScalar R) → List Fault
  | .nil => []
  | .cons key v rest => faults (p.child key) v ++ memberFaults p rest

end

@[simp] theorem faults_none (v : Json String (JsonScalar R)) : faults none v = [] := by
  cases v <;> rfl

def Fault.isNull : Fault → Bool
  | .kind _ .null => true
  | _ => false

/-- The faults that the parsers are told about. -/
def told (fs : List Fault) : List Fault := fs.filter fun fault => !fault.isNull

@[simp] theorem told_append (fs fs' : List Fault) : told (fs ++ fs') = told fs ++ told fs' := List.filter_append ..

/-- How the parsing ends at a fault. -/
def Fault.Ends : Fault → Halt → Prop
  | .kind _ .array, halt => halt = .stopped .undefined
  | .kind _ _, halt => ∃ error, halt = .terminated error
  | .unknownType name, halt => halt = .stopped (.thrown ("Unknown clash detection type: " ++ name))

/-- No parser has an error. -/
def ClashConfigState.Clean (s : ClashConfigState boost R) : Prop := ∀ p, s.error p = ""

/-- The parsing ends at the first of the faults, or goes on without an error. -/
def EndsAt (Q : List (Option ClashParser) → Prop) :
    List Fault → Except Halt (State ClashParser (ClashConfigState boost R)) → Prop
  | [], .ok state => Q state.1 ∧ state.2.Clean
  | fault :: _, .error halt => fault.Ends halt
  | _, _ => False

theorem EndsAt.bind {Q Q' : List (Option ClashParser) → Prop} {fs fs' : List Fault}
    {result : Except Halt (State ClashParser (ClashConfigState boost R))}
    {f : State ClashParser (ClashConfigState boost R) → Except Halt (State ClashParser (ClashConfigState boost R))}
    (h : EndsAt Q fs result) (hf : ∀ stack s, Q stack → s.Clean → EndsAt Q' fs' (f (stack, s))) :
    EndsAt Q' (fs ++ fs') (result >>= f) := by
  match fs, result, h with
  | [], .ok (stack, s), h => exact hf stack s h.1 h.2
  | fault :: _, .error halt, h => exact h

theorem EndsAt.run_nil {Q : List (Option ClashParser) → Prop} {fs : List Fault}
    {result : Except Halt (State ClashParser (ClashConfigState boost R))}
    {parsers : Parsers ClashParser (ClashConfigState boost R) String (JsonScalar R)} (h : EndsAt Q fs result) :
    EndsAt Q fs (result >>= run parsers []) := by
  match fs, result, h with
  | [], .ok (stack, s), h => exact h
  | fault :: _, .error halt, h => exact h

private theorem parsers_isSome_iff (p : ClashParser) : p.parsers.isSome = true ↔ p.kind = .object := by
  cases p <;> simp [ClashParser.parsers, ClashParser.kind]

theorem elementParser_eq_none_iff (p : ClashParser) : p.elementParser = none ↔ p.kind ≠ .array := by
  cases p <;> simp [ClashParser.elementParser, ClashParser.kind]

private theorem setError_error_ne (p : ClashParser) (actual : String) (s : ClashConfigState boost R) :
    (s.setError p actual).error p ≠ "" := by
  unfold ClashConfigState.setError
  simp

variable {casts : Casts R} {toString : boost.Uuid → String}

private theorem double?_eq_none_iff (l : JsonScalar R) : l.double? casts = none ↔ l.kind ≠ .number := by
  cases l <;> simp [JsonScalar.double?, JsonScalar.kind]

private theorem int?_eq_none_iff (l : JsonScalar R) : l.int? casts = none ↔ l.kind ≠ .number := by
  cases l <;> simp [JsonScalar.int?, JsonScalar.kind]

variable {p : ClashParser}

private theorem scalarFaults_of_kind (hp : p ≠ .type) {l : JsonScalar R} (h : l.kind = p.kind) :
    scalarFaults p l = [] := by
  unfold scalarFaults
  rw [if_neg (not_not.mpr h)]
  split
  · exact absurd rfl hp
  · rfl

variable (casts) in
/-- A scalar that is accepted does not cause an error. -/
theorem clashScalar_cases (p : ClashParser) (l : JsonScalar R) (s : ClashConfigState boost R) :
    (l.kind ≠ p.kind ∧ clashScalar casts p l s = .ok (s.setError p l.actual)) ∨
      (scalarFaults p l = [] ∧ ∃ s', clashScalar casts p l s = .ok s' ∧ s'.error = s.error) ∨
      ∃ name, scalarFaults p l = [.unknownType name] ∧
        clashScalar casts p l s = .error (.thrown ("Unknown clash detection type: " ++ name)) := by
  cases p with
  | type =>
    cases l with
    | string name =>
      by_cases hname : name = "clearance" ∨ name = "hard"
      · refine .inr (.inl ⟨by simp [scalarFaults, JsonScalar.kind, ClashParser.kind, hname], ?_⟩)
        obtain rfl | rfl := hname
        · exact ⟨_, rfl, rfl⟩
        · exact ⟨_, rfl, rfl⟩
      · refine .inr (.inr ⟨name, by simp [scalarFaults, JsonScalar.kind, ClashParser.kind, hname], ?_⟩)
        obtain ⟨hclearance, hhard⟩ := not_or.mp hname
        rw [clashScalar, if_neg hclearance, if_neg hhard]
    | _ => exact .inl ⟨nofun, rfl⟩
  | selfIntersects set =>
    cases l with
    | bool b => cases set <;> exact .inr (.inl ⟨rfl, _, rfl, rfl⟩)
    | _ => cases set <;> exact .inl ⟨nofun, rfl⟩
  | tolerance =>
    cases hl : l.double? casts with
    | none => exact .inl ⟨(double?_eq_none_iff l).mp hl, by rw [clashScalar, hl]⟩
    | some d =>
      have hkind : l.kind = .number := by
        by_contra hne
        rw [(double?_eq_none_iff l).mpr hne] at hl
        cases hl
      exact .inr (.inl ⟨scalarFaults_of_kind (by decide) hkind, { s with tolerance := d }, by rw [clashScalar, hl], rfl⟩)
  | numThreads =>
    cases hl : l.int? casts with
    | none => exact .inl ⟨(int?_eq_none_iff l).mp hl, by rw [clashScalar, hl]⟩
    | some i =>
      have hkind : l.kind = .number := by
        by_contra hne
        rw [(int?_eq_none_iff l).mpr hne] at hl
        cases hl
      exact .inr (.inl ⟨scalarFaults_of_kind (by decide) hkind, { s with numThreads := i }, by rw [clashScalar, hl], rfl⟩)
  | _ => cases l <;> first | exact .inl ⟨nofun, rfl⟩ | exact .inr (.inl ⟨rfl, _, rfl, rfl⟩)

private theorem endsAt_checkTopParser {s : ClashConfigState boost R} (hs : s.Clean) (top : Option ClashParser)
    (stack : List (Option ClashParser)) :
    EndsAt (· = top :: stack) [] (checkTopParser (clashParsers casts toString) (top :: stack, s)) := by
  cases top with
  | none => exact ⟨rfl, hs⟩
  | some p =>
    have herror : (clashParsers casts toString).error p s = "" := hs p
    rw [checkTopParser, if_pos herror]
    exact ⟨rfl, hs⟩

private theorem checkTopParser_of_error {s : ClashConfigState boost R} (h : s.error p ≠ "")
    (stack : List (Option ClashParser)) :
    checkTopParser (clashParsers casts toString) (some p :: stack, s) = .error (.terminated (s.error p)) := by
  have herror : (clashParsers casts toString).error p s ≠ "" := h
  rw [checkTopParser, if_neg herror]
  rfl

variable (casts toString) in
private theorem endsAt_scalar {s : ClashConfigState boost R} (hs : s.Clean) (p : ClashParser) (l : JsonScalar R)
    (stack : List (Option ClashParser)) :
    EndsAt (· = some p :: stack) (told (scalarFaults p l))
      (handle (clashParsers casts toString) (.scalar l) (some p :: stack, s)) := by
  by_cases hnull : l.kind = .null
  · have hpass : (clashParsers casts toString : Parsers _ (ClashConfigState boost R) _ _).isNull l = true :=
      decide_eq_true hnull
    have htold : told (scalarFaults p l) = [] := by
      unfold scalarFaults
      rw [hnull]
      cases p <;> rfl
    rw [handle, if_pos hpass, htold]
    exact ⟨rfl, hs⟩
  have hcalled : ¬ (clashParsers casts toString : Parsers _ (ClashConfigState boost R) _ _).isNull l = true :=
    mt of_decide_eq_true hnull
  have hscalar : (clashParsers casts toString).scalar p l s = clashScalar casts p l s := rfl
  rw [handle, if_neg hcalled, MyHandler.forward, hscalar]
  rcases clashScalar_cases casts p l s with ⟨hkind, hcall⟩ | ⟨hfaults, s', hcall, herror⟩ | ⟨name, hfaults, hcall⟩
  · unfold scalarFaults
    rw [hcall, if_pos hkind]
    simp only
    rw [checkTopParser_of_error (setError_error_ne p _ s)]
    cases l <;> first | exact absurd rfl hnull | exact ⟨_, rfl⟩
  · rw [hcall, hfaults]
    have hclean : s'.Clean := fun q => by rw [herror, hs q]
    exact endsAt_checkTopParser hclean (some p) stack
  · rw [hcall, hfaults]
    exact rfl

section Calls

variable (casts toString) (p : ClashParser) (s : ClashConfigState boost R)

theorem startObject_of_kind (hp : p.kind = .object) : (clashParsers casts toString).startObject p s = s :=
  if_pos ((parsers_isSome_iff p).mpr hp)

private theorem startObject_of_kind_ne (hp : p.kind ≠ .object) :
    (clashParsers casts toString).startObject p s = s.setError p "Object" :=
  if_neg (mt (parsers_isSome_iff p).mp hp)

theorem error_getContainer (set : SetName) : (s.getContainer toString set).error = s.error := by
  unfold ClashConfigState.getContainer
  simp only
  split <;> rfl

theorem key_of_kind (hp : p.kind = .object) (key : String) :
    ((clashParsers casts toString).key p key s).2 = p.child key ∧
      ((clashParsers casts toString).key p key s).1.error = s.error := by
  cases p with
  | compositeObjectSet set =>
    refine ⟨rfl, ?_⟩
    change (if key = "objects" then s.getContainer toString set else s).error = s.error
    split
    · exact error_getContainer toString s set
    · rfl
  | clashConfig | compositeObject => exact ⟨rfl, rfl⟩
  | _ => cases hp

private theorem key_of_kind_ne (hp : p.kind ≠ .object) (key : String) :
    (clashParsers casts toString).key p key s = (s.setError p "Key", none) := by
  cases p with
  | clashConfig | compositeObject | compositeObjectSet => exact absurd rfl hp
  | _ => rfl

private theorem error_endObject : ((clashParsers casts toString).endObject p s).error = s.error := by
  cases p <;> rfl

end Calls

variable (casts toString) in
private theorem run_members_of_kind_ne (hp : p.kind ≠ .object) (members : Members String (JsonScalar R))
    (stack : List (Option ClashParser)) {s : ClashConfigState boost R} (hs : s.error p ≠ "") :
    ∃ s', s'.error p ≠ "" ∧ run (clashParsers casts toString) members.events (none :: some p :: stack, s) =
      .ok (none :: some p :: stack, s') := by
  cases members with
  | nil => exact ⟨s, hs, rfl⟩
  | cons key v rest =>
    obtain ⟨s', hs', hrest⟩ := run_members_of_kind_ne hp rest stack (setError_error_ne p "Key" s)
    refine ⟨s', hs', ?_⟩
    have hkey : handle (clashParsers casts toString) (.key key) (none :: some p :: stack, s) =
        .ok (none :: some p :: stack, s.setError p "Key") := by
      rw [handle, key_of_kind_ne casts toString p s hp]
      rfl
    rw [Members.events, List.cons_append, run_cons, hkey]
    change run (clashParsers casts toString) (v.events ++ rest.events) (none :: some p :: stack, s.setError p "Key") = _
    rw [run_append, MyHandler.run_ignored]
    exact hrest

variable (casts toString) in
private theorem run_object_of_kind_ne (hp : p.kind ≠ .object) (members : Members String (JsonScalar R))
    (stack : List (Option ClashParser)) (s : ClashConfigState boost R) :
    ∃ error, run (clashParsers casts toString) (Json.object members).events (some p :: stack, s) =
      .error (.terminated error) := by
  obtain ⟨s', hs', hmembers⟩ := run_members_of_kind_ne casts toString hp members stack
    (setError_error_ne p "Object" s)
  have hstart : handle (clashParsers casts toString) (.startObject : Json.Event String (JsonScalar R)) (some p :: stack, s) =
      .ok (none :: some p :: stack, s.setError p "Object") := by
    rw [handle, MyHandler.call, startObject_of_kind_ne casts toString p s hp]
    rfl
  have hend : handle (clashParsers casts toString) (.endObject : Json.Event String (JsonScalar R))
      (none :: some p :: stack, s') = .error (.terminated (s'.error p)) := by
    have herror : ((clashParsers casts toString).endObject p s').error p ≠ "" := by
      rw [error_endObject]
      exact hs'
    rw [handle, MyHandler.call, checkTopParser_of_error herror, error_endObject]
  refine ⟨s'.error p, ?_⟩
  rw [Json.events, List.cons_append, run_cons, hstart]
  change run (clashParsers casts toString) (members.events ++ [.endObject]) (none :: some p :: stack, s.setError p "Object") = _
  rw [run_append, hmembers]
  change handle (clashParsers casts toString) .endObject (none :: some p :: stack, s') >>= _ = _
  rw [hend]
  rfl

/-- The parsing of a value ends at the first fault that is told, and leaves the stack as it was if there is none. -/
theorem endsAt_events :
    (∀ (v : Json String (JsonScalar R)) top stack (s : ClashConfigState boost R), s.Clean →
      EndsAt (· = top :: stack) (told (faults top v)) (run (clashParsers casts toString) v.events (top :: stack, s))) ∧
    (∀ (items : Items String (JsonScalar R)) top stack (s : ClashConfigState boost R), s.Clean →
      EndsAt (· = top :: stack) (told (itemFaults top items))
        (run (clashParsers casts toString) items.events (top :: stack, s))) ∧
    ∀ (members : Members String (JsonScalar R)) p, p.kind = .object →
      ∀ member stack (s : ClashConfigState boost R), s.Clean →
        EndsAt (fun stack' => ∃ member', stack' = member' :: some p :: stack) (told (memberFaults p members))
          (run (clashParsers casts toString) members.events (member :: some p :: stack, s)) := by
  apply Json.induct
  case scalar =>
    intro l top stack s hs
    cases top with
    | none =>
      rw [faults_none, MyHandler.run_ignored]
      exact ⟨rfl, hs⟩
    | some p =>
      rw [faults, Json.events, run_cons]
      exact (endsAt_scalar casts toString hs p l stack).run_nil
  case array =>
    intro items ih top stack s hs
    cases top with
    | none =>
      rw [faults_none, MyHandler.run_ignored]
      exact ⟨rfl, hs⟩
    | some p =>
      rw [Json.events, List.cons_append, run_cons]
      cases helement : p.elementParser with
      | none =>
        have hcall : (clashParsers casts toString).startArray p s = .error .undefined := by
          unfold clashParsers
          simp only [helement]
        rw [faults, if_neg ((elementParser_eq_none_iff p).mp helement), handle, hcall]
        exact rfl
      | some element =>
        have hkind : p.kind = .array := by
          by_contra hne
          rw [(elementParser_eq_none_iff p).mpr hne] at helement
          cases helement
        have hcall : (clashParsers casts toString).startArray p s = .ok (s, some element) := by
          unfold clashParsers
          simp only [helement]
        rw [faults, if_pos hkind, handle, hcall, helement]
        apply (endsAt_checkTopParser hs (some element) (some p :: stack)).bind
        rintro _ s rfl hs
        change EndsAt _ (told (itemFaults (some element) items)) _
        rw [run_append, ← List.append_nil (told _)]
        apply (ih (some element) (some p :: stack) s hs).bind
        rintro _ s rfl hs
        exact (endsAt_checkTopParser hs (some p) stack).run_nil
  case object =>
    intro members ih top stack s hs
    cases top with
    | none =>
      rw [faults_none, MyHandler.run_ignored]
      exact ⟨rfl, hs⟩
    | some p =>
      by_cases hkind : p.kind = .object
      · rw [faults, if_pos hkind, Json.events, List.cons_append, run_cons, handle, MyHandler.call,
          startObject_of_kind casts toString p s hkind]
        change EndsAt _ _ (run _ (members.events ++ [.endObject]) (none :: some p :: stack, s))
        rw [run_append, ← List.append_nil (told (memberFaults p members))]
        apply (ih p hkind none stack s hs).bind
        rintro _ s ⟨member, rfl⟩ hs
        have hs' : ((clashParsers casts toString).endObject p s).Clean := fun q => by
          rw [error_endObject]
          exact hs q
        exact (endsAt_checkTopParser hs' (some p) stack).run_nil
      · obtain ⟨error, hrun⟩ := run_object_of_kind_ne casts toString hkind members stack s
        rw [faults, if_neg hkind, hrun]
        exact ⟨error, rfl⟩
  case itemsNil =>
    intro top stack s hs
    exact ⟨rfl, hs⟩
  case itemsCons =>
    intro v rest hv hrest top stack s hs
    rw [itemFaults, told_append, Items.events, run_append]
    apply (hv top stack s hs).bind
    rintro _ s rfl hs
    exact hrest top stack s hs
  case membersNil =>
    intro p _ member stack s hs
    exact ⟨⟨member, rfl⟩, hs⟩
  case membersCons =>
    intro key v rest hv hrest p hkind member stack s hs
    obtain ⟨hchild, herror⟩ := key_of_kind casts toString p s hkind key
    have hs' : ((clashParsers casts toString).key p key s).1.Clean := fun q => by
      rw [herror]
      exact hs q
    rw [memberFaults, told_append, Members.events, List.cons_append, run_cons, handle, hchild]
    apply (endsAt_checkTopParser hs' (p.child key) (some p :: stack)).bind
    rintro _ s rfl hs
    rw [run_append]
    apply (hv (p.child key) (some p :: stack) s hs).bind
    rintro _ s rfl hs
    exact hrest p hkind (p.child key) stack s hs

/-! ### Balance -/

def childOf (p : Option ClashParser) (key : String) : Option ClashParser := p.bind fun p => p.child key

def elementOf (p : Option ClashParser) : Option ClashParser := p.bind ClashParser.elementParser

/-- A name that an object parser does not know, or any name in a part that is ignored. -/
def UnknownTo : Option ClashParser → String → Prop
  | none, _ => True
  | some p, key => ∃ parsers, p.parsers = some parsers ∧ key ∉ parsers.map Prod.fst

private theorem lookup_eq_none_of_notMem {parsers : List (String × ClashParser)} {key : String} (h : key ∉ parsers.map Prod.fst) :
    parsers.lookup key = none := by
  induction parsers with
  | nil => rfl
  | cons entry rest ih =>
    rw [List.map_cons, List.mem_cons, not_or] at h
    have hentry : (key == entry.1) = false := by simpa using h.1
    rw [List.lookup_cons, hentry]
    exact ih h.2

private theorem child_of_kind_ne (hp : p.kind ≠ .object) (key : String) : p.child key = none := by
  have hnone : p.parsers = none := Option.not_isSome_iff_eq_none.mp (mt (parsers_isSome_iff p).mp hp)
  rw [ClashParser.child, hnone]
  rfl

variable (casts toString) in
private theorem selects_clashParsers :
    MyHandler.Selects (clashParsers casts toString : Parsers ClashParser (ClashConfigState boost R) String (JsonScalar R))
      childOf elementOf UnknownTo where
  key p key s := by
    by_cases hp : p.kind = .object
    · exact (key_of_kind casts toString p s hp key).1
    · rw [key_of_kind_ne casts toString p s hp]
      exact (child_of_kind_ne hp key).symm
  key_none _ := rfl
  startArray p s s' q h := by
    unfold clashParsers at h
    simp only at h
    split at h
    · rename_i element helement
      obtain ⟨rfl, rfl⟩ := Prod.mk.inj (Except.ok.inj h)
      exact helement.symm
    · cases h
  startArray_none := rfl
  unknown p key s := by
    rintro ⟨parsers, hparsers, hkey⟩
    have hlookup := lookup_eq_none_of_notMem hkey
    cases p with
    | compositeObjectSet set =>
      obtain rfl := Option.some.inj hparsers
      have hobjects : key ≠ "objects" := by
        rintro rfl
        exact hkey (by simp)
      change (if key = "objects" then s.getContainer toString set else s, List.lookup key _) = (s, none)
      rw [if_neg hobjects, hlookup]
    | clashConfig | compositeObject =>
      obtain rfl := Option.some.inj hparsers
      change (s, List.lookup key _) = (s, none)
      rw [hlookup]
    | _ => cases hparsers

theorem clean_initial : (ClashConfigState.initial boost casts).Clean := fun _ => rfl

variable (casts toString) in
private theorem endsAt_parseClashConfig (doc : Json String (JsonScalar R)) :
    EndsAt (· = [some .clashConfig]) (told (faults (some .clashConfig) doc))
      (parseClashConfig boost casts toString doc) :=
  endsAt_events.1 doc (some .clashConfig) [] _ clean_initial

variable (boost casts toString) in
/-- The stack is balanced at every value of a document, the parsing of a document without values of a wrong kind ends with
the parser of the document or an exception, and members with unknown names do not change what is parsed. -/
theorem run_balanced (doc : Json String (JsonScalar R)) :
    parseClashConfig boost casts toString doc ≠ .error .emptyStack ∧
    (∀ before (v : Json String (JsonScalar R)) after, doc.events = before ++ v.events ++ after → ∀ stack s,
      run (clashParsers casts toString) before ([some .clashConfig], .initial boost casts) = .ok (stack, s) →
        stack ≠ [] ∧ ∀ state, run (clashParsers casts toString) v.events (stack, s) = .ok state → state.1 = stack) ∧
    ((∀ p found, .kind p found ∉ faults (some .clashConfig) doc) →
      (∃ s, parseClashConfig boost casts toString doc = .ok ([some .clashConfig], s)) ∨
        ∃ message, parseClashConfig boost casts toString doc = .error (.stopped (.thrown message))) ∧
    ∀ doc', MyHandler.Trims childOf elementOf UnknownTo (some .clashConfig) doc doc' →
      parseClashConfig boost casts toString doc' = parseClashConfig boost casts toString doc := by
  have hdoc := MyHandler.run_events (clashParsers casts toString) doc (some .clashConfig) []
    (ClashConfigState.initial boost casts)
  have hempty : parseClashConfig boost casts toString doc ≠ .error .emptyStack := by
    intro he
    have hhalt : MyHandler.Leaves (· = [some ClashParser.clashConfig]) (parseClashConfig boost casts toString doc) :=
      hdoc
    rw [he] at hhalt
    exact hhalt rfl
  refine ⟨hempty, ?_, ?_, fun doc' h => (MyHandler.run_of_trims (selects_clashParsers casts toString) h [] _).symm⟩
  · intro before v after hevents stack s hbefore
    cases stack with
    | nil =>
      refine absurd ?_ hempty
      unfold parseClashConfig MyHandler.parseJson
      rw [hevents, List.append_assoc, run_append, hbefore]
      change run (clashParsers casts toString) (v.events ++ after) ([], s) = _
      cases v <;> rfl
    | cons top stack =>
      refine ⟨nofun, fun state hstate => ?_⟩
      have hv := MyHandler.run_events (clashParsers casts toString) v top stack s
      rw [hstate] at hv
      exact hv
  · intro hkinds
    have hends := endsAt_parseClashConfig casts toString doc
    match hfaults : told (faults (some .clashConfig) doc), hresult : parseClashConfig boost casts toString doc with
    | [], .ok (stack, s) =>
      rw [hfaults, hresult] at hends
      obtain ⟨rfl, -⟩ : stack = [some .clashConfig] ∧ _ := hends
      exact .inl ⟨s, rfl⟩
    | .unknownType name :: _, .error halt =>
      rw [hfaults, hresult] at hends
      obtain rfl : halt = _ := hends
      exact .inr ⟨_, rfl⟩
    | .kind p found :: _, _ =>
      have hmem : Fault.kind p found ∈ told (faults (some .clashConfig) doc) := hfaults ▸ List.mem_cons_self
      exact absurd (List.mem_of_mem_filter hmem) (hkinds p found)
    | [], .error _ | .unknownType _ :: _, .ok _ =>
      rw [hfaults, hresult] at hends
      exact hends.elim

/-! ### Rejection -/

/-- `ParseJson` throws an exception. -/
def Rejected (result : Except Halt (State ClashParser (ClashConfigState boost R))) : Prop :=
  (∃ error, result = .error (.terminated error)) ∨ ∃ message, result = .error (.stopped (.thrown message))

variable (boost casts toString) in
/-- A document is rejected exactly if it has a fault other than a null, and the first one is not an array. -/
theorem rejected_iff (doc : Json String (JsonScalar R)) :
    Rejected (parseClashConfig boost casts toString doc) ↔
      ∃ fault, (told (faults (some .clashConfig) doc)).head? = some fault ∧ ∀ p, fault ≠ .kind p .array := by
  have hends := endsAt_parseClashConfig casts toString doc
  match hfaults : told (faults (some .clashConfig) doc), hresult : parseClashConfig boost casts toString doc with
  | [], .ok _ =>
    refine iff_of_false ?_ ?_
    · rintro (⟨error, he⟩ | ⟨message, he⟩) <;> cases he
    · rintro ⟨fault, he, -⟩
      cases he
  | .unknownType name :: rest, .error halt =>
    rw [hfaults, hresult] at hends
    obtain rfl : halt = _ := hends
    exact iff_of_true (.inr ⟨_, rfl⟩) ⟨_, rfl, nofun⟩
  | .kind p' found' :: rest, .error halt =>
    rw [hfaults, hresult] at hends
    by_cases harray : found' = .array
    · subst harray
      obtain rfl : halt = .stopped .undefined := hends
      refine iff_of_false ?_ ?_
      · rintro (⟨error, he⟩ | ⟨message, he⟩) <;> cases he
      · rintro ⟨fault, he, hfault⟩
        exact hfault p' (Option.some.inj he).symm
    · have hterminated : ∃ error, halt = .terminated error := by
        cases found' <;> first | exact hends | exact absurd rfl harray
      obtain ⟨error, rfl⟩ := hterminated
      refine iff_of_true (.inl ⟨error, rfl⟩) ⟨_, rfl, fun p he => ?_⟩
      rw [Fault.kind.injEq] at he
      exact harray he.2
  | [], .error _ | _ :: _, .ok _ =>
    rw [hfaults, hresult] at hends
    exact hends.elim

end Parsers

/-! ### A wrong kind for the tolerance -/

/-- A configuration with one member, `tolerance`. -/
def toleranceOnly (v : Json String (JsonScalar ℤ)) : Json String (JsonScalar ℤ) :=
  .object (.cons "tolerance" v .nil)

def integerCasts : Casts ℤ := ⟨id, id⟩

example : Rejected (parseClashConfig Boost.digits integerCasts String.ofList (toleranceOnly (.scalar (.string "1")))) :=
  .inl ⟨_, rfl⟩

/-- A null passes, and an array leads into a function without a return statement. -/
theorem not_rejected_tolerance :
    parseClashConfig Boost.digits integerCasts String.ofList (toleranceOnly (.scalar .null)) =
      .ok ([some .clashConfig], .initial Boost.digits integerCasts) ∧
    parseClashConfig Boost.digits integerCasts String.ofList (toleranceOnly (.array .nil)) = .error (.stopped .undefined) ∧
    ¬ ∀ doc : Json String (JsonScalar ℤ), (∃ p found, .kind p found ∈ faults (some .clashConfig) doc) →
      Rejected (parseClashConfig Boost.digits integerCasts String.ofList doc) := by
  have hnull : parseClashConfig Boost.digits integerCasts String.ofList (toleranceOnly (.scalar .null)) =
      .ok ([some .clashConfig], .initial Boost.digits integerCasts) := rfl
  refine ⟨hnull, rfl, fun h => ?_⟩
  obtain ⟨error, he⟩ | ⟨message, he⟩ := h (toleranceOnly (.scalar .null)) ⟨.tolerance, .null, List.mem_singleton_self _⟩
  · rw [hnull] at he
    cases he
  · rw [hnull] at he
    cases he

/-- A comment, which is no member that is known, makes no difference. -/
theorem parseClashConfig_comment :
    parseClashConfig Boost.digits integerCasts String.ofList (toleranceOnly (.scalar (.int 1))) =
      parseClashConfig Boost.digits integerCasts String.ofList
        (.object (.cons "comment" (.array (.cons (.scalar .null) .nil)) (.cons "tolerance" (.scalar (.int 1)) .nil))) := by
  refine (run_balanced Boost.digits integerCasts String.ofList _).2.2.2 _ ⟨_, rfl, .inr ⟨⟨_, rfl, by decide⟩, ?_⟩⟩
  exact .inl ⟨_, _, rfl, rfl, rfl⟩

end Bouncer.Clash
