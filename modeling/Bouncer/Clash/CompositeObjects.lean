import Bouncer.Clash.ConfigParser
import Bouncer.Library.Fallible

/-!
# Composite objects, one after the other

One `CompositeObjectParser` reads all composite objects of a set.  At the end of an object it records the references that it
has read under the `id` that it has read, and drops the references, but not the `id`.  So an object without an `id` is recorded
under that of an object before it.

What is recorded for the references of an object does not depend on the objects before it exactly if the object has an `id`
that is not null, or no references, unless the parsing ends before its end in any case (`parsedIndependently_iff`).
-/

namespace Bouncer.Clash

open Library (Json)
open Library.Json (Items Members Event)
open Library.Fallible (bind_eq_ok)
open MyHandler (State run run_append run_cons checkTopParser handle)

variable {boost : Boost} {R : Type}

/-! ### Documents with an array of objects -/

def SetName.key : SetName → String
  | .a => "setA"
  | .b => "setB"

/-- A configuration around an object of an `objects` array, without the objects that precede it. -/
structure Surroundings (R : Type) where
  set : SetName
  membersBefore : Members String (JsonScalar R)
  setsBefore : Items String (JsonScalar R)
  setBefore : Members String (JsonScalar R)
  objectsAfter : Items String (JsonScalar R)
  setAfter : Members String (JsonScalar R)
  setsAfter : Items String (JsonScalar R)
  membersAfter : Members String (JsonScalar R)

namespace Surroundings

variable (c : Surroundings R) (preceding : Items String (JsonScalar R)) (members : Members String (JsonScalar R))

/-- The configuration with an object of these members, and objects that precede it. -/
def document : Json String (JsonScalar R) :=
  let objects := preceding.append (.cons (.object members) c.objectsAfter)
  let set := c.setBefore.append (.cons "objects" (.array objects) c.setAfter)
  let sets := c.setsBefore.append (.cons (.object set) c.setsAfter)
  .object (c.membersBefore.append (.cons c.set.key (.array sets) c.membersAfter))

/-- The events up to the start of the array. -/
def eventsBefore : List (Event String (JsonScalar R)) :=
  .startObject :: c.membersBefore.events ++ .key c.set.key :: .startArray :: c.setsBefore.events ++
    .startObject :: c.setBefore.events ++ [.key "objects", .startArray]

/-- The events up to the end of the object. -/
def eventsUntil : List (Event String (JsonScalar R)) :=
  c.eventsBefore ++ (preceding.events ++ .startObject :: members.events)

/-- After these events of the document, the next one is the end of the object. -/
theorem events_document : ∃ rest, (c.document preceding members).events =
    c.eventsUntil preceding members ++ .endObject :: rest := by
  refine ⟨c.objectsAfter.events ++ .endArray :: c.setAfter.events ++ .endObject :: c.setsAfter.events ++
    .endArray :: c.membersAfter.events ++ [.endObject], ?_⟩
  simp [document, eventsUntil, eventsBefore, Json.events, Items.events, Members.events, Items.events_append,
    Members.events_append]

end Surroundings

section Recorded

variable (boost) (casts : Casts R) (toString : boost.Uuid → String) (c : Surroundings R)

/-- The references that are recorded at the end of the object, with their identifier, if the parsing gets there. -/
def recorded (preceding : Items String (JsonScalar R)) (members : Members String (JsonScalar R)) :
    Option (List (String × MeshReference boost)) :=
  match run (clashParsers casts toString) (c.eventsUntil preceding members)
    ([some .clashConfig], ClashConfigState.initial boost casts) with
  | .ok (_, s) => some ((s.sets c.set).meshIds.map fun reference => ((s.sets c.set).id, reference))
  | .error _ => none

/-- What is recorded for the object is the same whatever the objects before it are. -/
def ParsedIndependently (members : Members String (JsonScalar R)) : Prop :=
  ∀ preceding preceding' r r', recorded boost casts toString c preceding members = some r →
    recorded boost casts toString c preceding' members = some r' → r = r'

end Recorded

/-! ### What an object contains -/

/-- The strings of an array. -/
def strings : Items String (JsonScalar R) → List String
  | .nil => []
  | .cons (.scalar (.string s)) rest => s :: strings rest
  | .cons _ rest => strings rest

/-- The strings of the arrays for the references. -/
def ownMeshIds : Members String (JsonScalar R) → List String
  | .nil => []
  | .cons key (.array items) rest => (if key = "meshIds" then strings items else []) ++ ownMeshIds rest
  | .cons _ _ rest => ownMeshIds rest

/-- One of the members is an identifier. -/
def HasId : Members String (JsonScalar R) → Prop
  | .nil => False
  | .cons key (.scalar (.string _)) rest => key = "id" ∨ HasId rest
  | .cons _ _ rest => HasId rest

def references (container : ℕ) (ids : List String) : List (MeshReference boost) :=
  ids.map fun id => ⟨container, boost.stringToUUID id⟩

/-- The identifier and the references, after a member was read. -/
def afterMember (container : ℕ) (key : String) (v : Json String (JsonScalar R))
    (r : String × List (MeshReference boost)) : String × List (MeshReference boost) :=
  match v with
  | .scalar (.string id) => if key = "id" then (id, r.2) else r
  | .array items => if key = "meshIds" then (r.1, r.2 ++ references container (strings items)) else r
  | _ => r

def afterMembers (container : ℕ) : Members String (JsonScalar R) → String × List (MeshReference boost) →
    String × List (MeshReference boost)
  | .nil, r => r
  | .cons key v rest, r => afterMembers container rest (afterMember container key v r)

/-! ### Runs of an object -/

variable {key : String}

section Runs

variable {casts : Casts R} {toString : boost.Uuid → String} {s : ClashConfigState boost R} {set : SetName}

private theorem checkTopParser_of_clean (hs : s.Clean) (top : Option ClashParser) (stack : List (Option ClashParser)) :
    checkTopParser (clashParsers casts toString) (top :: stack, s) = .ok (top :: stack, s) := by
  cases top with
  | none => rfl
  | some p => exact if_pos (hs p)

section Update

variable {f g : CompositeObjectSetState boost → CompositeObjectSetState boost}

@[simp] theorem sets_updateSet : (s.updateSet set f).sets set = f (s.sets set) := Function.update_self ..

private theorem clean_updateSet (hs : s.Clean) : (s.updateSet set f).Clean := hs

private theorem updateSet_updateSet : (s.updateSet set f).updateSet set g = s.updateSet set fun parser => g (f parser) := by
  unfold ClashConfigState.updateSet
  simp

private theorem updateSet_of_eq (h : f (s.sets set) = s.sets set) : s.updateSet set f = s := by
  unfold ClashConfigState.updateSet
  rw [h, Function.update_eq_self]

end Update

/-- The parser, with an identifier and references. -/
def CompositeObjectSetState.withObject (r : String × List (MeshReference boost)) (parser : CompositeObjectSetState boost) :
    CompositeObjectSetState boost :=
  { parser with id := r.1, meshIds := r.2 }

variable {p : ClashParser}

private theorem scalarFaults_of_told {l : JsonScalar R} (h : told (scalarFaults p l) = []) :
    l = .null ∨ l.kind = p.kind := by
  by_contra hne
  rw [not_or] at hne
  unfold scalarFaults at h
  rw [if_pos hne.2] at h
  cases l <;> first | exact hne.1 rfl | cases h

variable {v : Json String (JsonScalar R)}

private theorem scalar_of_told (hp : p.kind = .string)
    (h : told (faults (some p) v) = []) : v = .scalar .null ∨ ∃ name, v = .scalar (.string name) := by
  cases v with
  | scalar l =>
    rcases scalarFaults_of_told h with rfl | hkind
    · exact .inl rfl
    · rw [hp] at hkind
      cases l with
      | string name => exact .inr ⟨name, rfl⟩
      | _ => cases hkind
  | array items =>
    rw [faults, hp, if_neg (by decide)] at h
    cases h
  | object members =>
    rw [faults, hp, if_neg (by decide)] at h
    cases h

private theorem items_of_told (hp : p.kind = .array)
    (h : told (faults (some p) v) = []) :
    v = .scalar .null ∨ ∃ items, v = .array items ∧ told (itemFaults p.elementParser items) = [] := by
  cases v with
  | scalar l =>
    rcases scalarFaults_of_told h with rfl | hkind
    · exact .inl rfl
    · rw [hp] at hkind
      cases l <;> cases hkind
  | array items =>
    rw [faults, if_pos hp] at h
    exact .inr ⟨items, rfl, h⟩
  | object members =>
    rw [faults, hp, if_neg (by decide)] at h
    cases h

private theorem members_of_told (hp : p.kind = .object)
    (h : told (faults (some p) v) = []) :
    v = .scalar .null ∨ ∃ members, v = .object members ∧ told (memberFaults p members) = [] := by
  cases v with
  | scalar l =>
    rcases scalarFaults_of_told h with rfl | hkind
    · exact .inl rfl
    · rw [hp] at hkind
      cases l <;> cases hkind
  | array items =>
    rw [faults, hp, if_neg (by decide)] at h
    cases h
  | object members =>
    rw [faults, if_pos hp] at h
    exact .inr ⟨members, rfl, h⟩

variable (casts toString) in
private theorem run_null (top : Option ClashParser) (stack : List (Option ClashParser)) (s : ClashConfigState boost R) :
    run (clashParsers casts toString) (Json.scalar .null : Json String (JsonScalar R)).events (top :: stack, s) =
      .ok (top :: stack, s) := rfl

variable (casts toString) in
/-- The references of an array are added to those that there are. -/
theorem run_references (items : Items String (JsonScalar R)) (h : told (itemFaults (some (.meshId set)) items) = [])
    (stack : List (Option ClashParser)) {s : ClashConfigState boost R} (hs : s.Clean) :
    run (clashParsers casts toString) items.events (some (.meshId set) :: stack, s) =
      .ok (some (.meshId set) :: stack, s.updateSet set fun parser =>
        { parser with meshIds := parser.meshIds ++ references parser.container (strings items) }) := by
  match items with
  | .nil =>
    rw [updateSet_of_eq (by simp [references, strings])]
    rfl
  | .cons v rest =>
    rw [itemFaults, told_append, List.append_eq_nil_iff] at h
    obtain ⟨hv, hrest⟩ := h
    obtain rfl | ⟨id, rfl⟩ := scalar_of_told rfl hv
    · rw [Items.events, run_append, run_null]
      exact run_references rest hrest stack hs
    let s' := s.updateSet set fun parser =>
      { parser with meshIds := parser.meshIds ++ [⟨parser.container, boost.stringToUUID id⟩] }
    have hs' : s'.Clean := clean_updateSet hs
    have hscalar : handle (clashParsers casts toString) (.scalar (.string id)) (some (.meshId set) :: stack, s) =
        .ok (some (.meshId set) :: stack, s') := by
      show checkTopParser (clashParsers casts toString) (some (.meshId set) :: stack, s') = _
      exact checkTopParser_of_clean hs' _ _
    have htail := run_references rest hrest stack hs'
    rw [Items.events, Json.events, List.singleton_append, run_cons, hscalar]
    show run (clashParsers casts toString) rest.events (some (.meshId set) :: stack, s') = _
    rw [htail, updateSet_updateSet]
    simp [references, strings]

variable (casts toString) in
/-- A member of an object, at its parser. -/
theorem run_member
    (h : told (faults ((ClashParser.compositeObject set).child key) v) = []) (member : Option ClashParser)
    (stack : List (Option ClashParser)) (hs : s.Clean) :
    ∃ member', run (clashParsers casts toString) (.key key :: v.events) (member :: some (.compositeObject set) :: stack, s) =
      .ok (member' :: some (.compositeObject set) :: stack, s.updateSet set fun parser =>
        parser.withObject (afterMember parser.container key v (parser.id, parser.meshIds))) := by
  refine ⟨(ClashParser.compositeObject set).child key, ?_⟩
  have hkey : handle (clashParsers casts toString) (.key key) (member :: some (.compositeObject set) :: stack, s) =
      .ok ((ClashParser.compositeObject set).child key :: some (.compositeObject set) :: stack, s) :=
    checkTopParser_of_clean hs _ _
  rw [run_cons, hkey]
  show run (clashParsers casts toString) v.events (_ :: some (.compositeObject set) :: stack, s) = _
  by_cases hid : key = "id"
  · subst hid
    obtain rfl | ⟨id, rfl⟩ := scalar_of_told (p := .id set) rfl h
    · rw [run_null, updateSet_of_eq (by rfl)]
    show (checkTopParser (clashParsers casts toString) (some (.id set) :: some (.compositeObject set) :: stack,
      s.updateSet set fun parser => { parser with id := id }) >>= run _ []) = _
    rw [checkTopParser_of_clean (clean_updateSet hs)]
    rfl
  · by_cases hmeshIds : key = "meshIds"
    · subst hmeshIds
      obtain rfl | ⟨items, rfl, hitems⟩ := items_of_told (p := .meshIds set) rfl h
      · rw [run_null, updateSet_of_eq (by rfl)]
      have hrun := run_references casts toString items hitems (some (.meshIds set) :: some (.compositeObject set) :: stack) hs
      have hstart : handle (clashParsers casts toString) .startArray
          (some (.meshIds set) :: some (.compositeObject set) :: stack, s) =
          .ok (some (.meshId set) :: some (.meshIds set) :: some (.compositeObject set) :: stack, s) := by
        rw [handle]
        exact checkTopParser_of_clean hs _ _
      rw [Json.events, List.cons_append, run_cons]
      show (handle (clashParsers casts toString) .startArray (some (.meshIds set) :: _, s) >>= _) = _
      rw [hstart]
      show run (clashParsers casts toString) (items.events ++ [.endArray]) (some (.meshId set) :: _, s) = _
      rw [run_append, hrun]
      show (checkTopParser (clashParsers casts toString) (some (.meshIds set) :: some (.compositeObject set) :: stack,
        s.updateSet set fun parser =>
          { parser with meshIds := parser.meshIds ++ references parser.container (strings items) }) >>= run _ []) = _
      rw [checkTopParser_of_clean (clean_updateSet hs)]
      rfl
    · have hchild : (ClashParser.compositeObject set).child key = none := by
        have hid' : (key == "id") = false := beq_false_of_ne hid
        have hmeshIds' : (key == "meshIds") = false := beq_false_of_ne hmeshIds
        simp [ClashParser.child, ClashParser.parsers, List.lookup_cons, List.lookup_nil, hid', hmeshIds']
      have hafter : ∀ container (r : String × List (MeshReference boost)), afterMember container key v r = r := by
        intro container r
        unfold afterMember
        split
        · rw [if_neg hid]
        · rw [if_neg hmeshIds]
        · rfl
      rw [hchild, MyHandler.run_ignored, updateSet_of_eq (by rw [hafter]; rfl)]

variable (casts toString) in
private theorem run_objectMembers (members : Members String (JsonScalar R)) (h : told (memberFaults (.compositeObject set) members) = [])
    (member : Option ClashParser) (stack : List (Option ClashParser)) {s : ClashConfigState boost R} (hs : s.Clean) :
    ∃ member', run (clashParsers casts toString) members.events (member :: some (.compositeObject set) :: stack, s) =
      .ok (member' :: some (.compositeObject set) :: stack, s.updateSet set fun parser =>
        parser.withObject (afterMembers parser.container members (parser.id, parser.meshIds))) := by
  match members with
  | .nil =>
    refine ⟨member, ?_⟩
    rw [updateSet_of_eq (by rfl)]
    rfl
  | .cons key v rest =>
    rw [memberFaults, told_append, List.append_eq_nil_iff] at h
    obtain ⟨hv, hrest⟩ := h
    obtain ⟨member₁, hmember⟩ := run_member casts toString hv member stack hs
    obtain ⟨member₂, htail⟩ := run_objectMembers rest hrest member₁ stack (clean_updateSet hs)
    refine ⟨member₂, ?_⟩
    rw [Members.events, run_append, hmember]
    show run (clashParsers casts toString) rest.events _ = _
    rw [htail, updateSet_updateSet]
    rfl

variable (casts toString) in
private theorem run_objectStart (members : Members String (JsonScalar R)) (h : told (memberFaults (.compositeObject set) members) = [])
    (stack : List (Option ClashParser)) (hs : s.Clean) :
    ∃ member, run (clashParsers casts toString) (.startObject :: members.events) (some (.compositeObject set) :: stack, s) =
      .ok (member :: some (.compositeObject set) :: stack, s.updateSet set fun parser =>
        parser.withObject (afterMembers parser.container members (parser.id, parser.meshIds))) :=
  run_objectMembers casts toString members h none stack hs

/-- What a whole object does. -/
def readObject (members : Members String (JsonScalar R)) (parser : CompositeObjectSetState boost) :
    CompositeObjectSetState boost :=
  (parser.withObject (afterMembers parser.container members (parser.id, parser.meshIds))).endObject

variable (casts toString) in
private theorem run_object (members : Members String (JsonScalar R)) (h : told (memberFaults (.compositeObject set) members) = [])
    (stack : List (Option ClashParser)) (hs : s.Clean) :
    run (clashParsers casts toString) (Json.object members).events (some (.compositeObject set) :: stack, s) =
      .ok (some (.compositeObject set) :: stack, s.updateSet set (readObject members)) := by
  obtain ⟨member, hstart⟩ := run_objectStart casts toString members h stack hs
  let object : CompositeObjectSetState boost → CompositeObjectSetState boost := fun parser =>
    parser.withObject (afterMembers parser.container members (parser.id, parser.meshIds))
  rw [Json.events, run_append, hstart]
  show (checkTopParser (clashParsers casts toString) (some (.compositeObject set) :: stack,
    (s.updateSet set object).updateSet set CompositeObjectSetState.endObject) >>= run _ []) = _
  rw [checkTopParser_of_clean (clean_updateSet (clean_updateSet hs)), updateSet_updateSet]
  rfl

variable (casts toString) in
/-- Objects, which leave no references behind. -/
theorem run_objects (items : Items String (JsonScalar R)) (h : told (itemFaults (some (.compositeObject set)) items) = [])
    (stack : List (Option ClashParser)) {s : ClashConfigState boost R} (hs : s.Clean) (hnone : (s.sets set).meshIds = []) :
    ∃ id recordedSet, run (clashParsers casts toString) items.events (some (.compositeObject set) :: stack, s) =
      .ok (some (.compositeObject set) :: stack, s.updateSet set fun parser =>
        { parser with id := id, set := recordedSet, meshIds := [] }) := by
  match items with
  | .nil =>
    refine ⟨(s.sets set).id, (s.sets set).set, ?_⟩
    have hsame : s.updateSet set (fun parser =>
        { parser with id := (s.sets set).id, set := (s.sets set).set, meshIds := [] }) = s := by
      refine updateSet_of_eq ?_
      rw [← hnone]
    rw [hsame]
    rfl
  | .cons v rest =>
    rw [itemFaults, told_append, List.append_eq_nil_iff] at h
    obtain ⟨hv, hrest⟩ := h
    obtain rfl | ⟨members, rfl, hmembers⟩ := members_of_told (p := .compositeObject set) rfl hv
    · obtain ⟨id, recordedSet, hobjects⟩ := run_objects rest hrest stack hs hnone
      refine ⟨id, recordedSet, ?_⟩
      rw [Items.events, run_append, run_null]
      exact hobjects
    have hobject := run_object casts toString members hmembers stack hs
    have hquiet : ((s.updateSet set (readObject members)).sets set).meshIds = [] := by
      rw [sets_updateSet]
      rfl
    obtain ⟨id, recordedSet, htail⟩ := run_objects rest hrest stack (clean_updateSet hs) hquiet
    refine ⟨id, recordedSet, ?_⟩
    rw [Items.events, run_append, hobject]
    show run (clashParsers casts toString) rest.events _ = _
    rw [htail, updateSet_updateSet]
    rfl

/-! ### Between the objects -/

/-- The parser of the objects of a set has no references. -/
def Quiet (set : SetName) (s : ClashConfigState boost R) : Prop := (s.sets set).meshIds = []

private theorem quiet_updateSet {set' : SetName} {f : CompositeObjectSetState boost → CompositeObjectSetState boost}
    (hf : set' = set → (s.sets set).meshIds = [] → (f (s.sets set)).meshIds = []) (h : Quiet set s) :
    Quiet set (s.updateSet set' f) := by
  unfold Quiet ClashConfigState.updateSet
  dsimp only
  by_cases heq : set' = set
  · subst heq
    rw [Function.update_self]
    exact hf rfl h
  · rw [Function.update_of_ne (Ne.symm heq)]
    exact h

private theorem quiet_getContainer {set' : SetName} (h : Quiet set s) : Quiet set (s.getContainer toString set') := by
  unfold ClashConfigState.getContainer
  dsimp only
  split
  · exact quiet_updateSet (fun _ h => h) h
  · exact quiet_updateSet (s := { s with containers := _, containerKeys := _ }) (fun _ h => h) h

variable {s' : ClashConfigState boost R}

private theorem quiet_clashScalar {l : JsonScalar R} (hp : p ≠ .meshId set)
    (h : Quiet set s) (hcall : clashScalar casts p l s = .ok s') : Quiet set s' := by
  unfold clashScalar at hcall
  split at hcall
  · split_ifs at hcall <;> cases hcall <;> exact h
  · split at hcall <;> cases hcall <;> exact h
  · split at hcall <;> cases hcall <;> exact h
  · cases hcall; exact h
  · cases hcall; exact h
  · cases hcall; exact h
  · cases hcall; exact quiet_updateSet (fun _ h => h) h
  · cases hcall; exact quiet_updateSet (fun _ h => h) h
  · cases hcall; exact quiet_updateSet (fun _ h => h) h
  · cases hcall; exact quiet_updateSet (fun _ h => h) h
  · cases hcall
    exact quiet_updateSet (fun heq => absurd (by rw [heq]) hp) h
  · cases hcall; exact h

theorem EndsAt.of_ok {Q : List (Option ClashParser) → Prop} {fs : List Fault}
    {state : State ClashParser (ClashConfigState boost R)} (h : EndsAt Q fs (.ok state)) : fs = [] ∧ Q state.1 ∧ state.2.Clean := by
  match fs, h with
  | [], h => exact ⟨rfl, h⟩

variable {stack stack' : List (Option ClashParser)}

private theorem of_run_eq_ok {top : Option ClashParser}
    (hs : s.Clean)
    (h : run (clashParsers casts toString) v.events (top :: stack, s) = .ok (stack', s')) :
    told (faults top v) = [] ∧ stack' = top :: stack ∧ s'.Clean := by
  have hends : EndsAt (· = top :: stack) (told (faults top v)) (run (clashParsers casts toString) v.events (top :: stack, s)) :=
    endsAt_events.1 v top stack s hs
  rw [h] at hends
  exact hends.of_ok

/-- A parser of values other than the references of this set. -/
def Outside (set : SetName) (p : ClashParser) : Prop := p ≠ .meshIds set ∧ p ≠ .meshId set

private theorem outside_elementParser {p element : ClashParser} (hp : Outside set p) (h : p.elementParser = some element) :
    Outside set element := by
  obtain ⟨hmeshIds, -⟩ := hp
  cases p <;> cases h
  · exact ⟨nofun, nofun⟩
  · exact ⟨nofun, nofun⟩
  · exact ⟨nofun, fun heq => hmeshIds (by cases heq; rfl)⟩

private theorem outside_child {p child : ClashParser} (hp : ∀ set', p ≠ .compositeObject set')
    (h : p.child key = some child) : Outside set child := by
  obtain ⟨parsers, hparsers, hlookup⟩ := Option.bind_eq_some_iff.1 h
  obtain ⟨before, after, hsplit, -⟩ := List.lookup_eq_some_iff.1 hlookup
  have hmem : (key, child) ∈ parsers := by
    rw [hsplit]
    exact List.mem_append_right _ List.mem_cons_self
  have hall : ∀ entry ∈ parsers, Outside set entry.2 := by
    intro entry hentry
    cases p with
    | clashConfig | compositeObjectSet =>
      cases hparsers
      fin_cases hentry <;> exact ⟨nofun, nofun⟩
    | compositeObject set' => exact absurd rfl (hp set')
    | _ => cases hparsers
  exact hall _ hmem

private theorem state_of_checkTopParser {state state' : State ClashParser (ClashConfigState boost R)}
    (h : checkTopParser (clashParsers casts toString) state = .ok state') : state = state' := by
  unfold checkTopParser at h
  split at h
  · cases h
  · cases h
    rfl
  · split_ifs at h
    cases h
    rfl

private theorem leaves_items {items : Items String (JsonScalar R)} {top : Option ClashParser}
    (h : run (clashParsers casts toString) items.events (top :: stack, s) = .ok (stack', s')) : stack' = top :: stack := by
  have hleaves : MyHandler.Leaves (· = top :: stack) (run (clashParsers casts toString) items.events (top :: stack, s)) :=
    MyHandler.leaves_events.2.1 items top stack s
  rwa [h] at hleaves

private theorem leaves_members {members : Members String (JsonScalar R)} {member top : Option ClashParser}
    (h : run (clashParsers casts toString) members.events (member :: top :: stack, s) = .ok (stack', s')) :
    ∃ member', stack' = member' :: top :: stack := by
  have hleaves : MyHandler.Leaves (fun stack' => ∃ member', stack' = member' :: top :: stack)
      (run (clashParsers casts toString) members.events (member :: top :: stack, s)) :=
    MyHandler.leaves_events.2.2 members member top stack s
  rwa [h] at hleaves

variable (casts toString) in
private theorem handle_startArray {element : ClashParser} (hs : s.Clean) (helement : p.elementParser = some element)
    (stack : List (Option ClashParser)) :
    handle (clashParsers casts toString) .startArray (some p :: stack, s) =
      .ok (some element :: some p :: stack, s) := by
  have hcall : (clashParsers casts toString).startArray p s = .ok (s, some element) := by
    unfold clashParsers
    simp only [helement]
  rw [handle, hcall]
  exact checkTopParser_of_clean hs _ _

/-- An array is as quiet as its items. -/
private theorem quiet_array {items : Items String (JsonScalar R)} (hs : s.Clean)
    (hitems : ∀ element stack' s', p.elementParser = some element →
      run (clashParsers casts toString) items.events (some element :: some p :: stack, s) = .ok (stack', s') → Quiet set s')
    (hrun : run (clashParsers casts toString) (Json.array items).events (some p :: stack, s) = .ok (stack', s')) :
    Quiet set s' := by
  obtain ⟨hfaults, -, -⟩ := of_run_eq_ok hs hrun
  have hkind : p.kind = .array := by
    by_contra hne
    rw [faults, if_neg hne] at hfaults
    cases hfaults
  cases helement : p.elementParser with
  | none => exact absurd hkind ((elementParser_eq_none_iff p).1 helement)
  | some element =>
    rw [Json.events, List.cons_append, run_cons, handle_startArray casts toString hs helement] at hrun
    change run _ (items.events ++ [.endArray]) (some element :: some p :: stack, s) = _ at hrun
    rw [run_append] at hrun
    obtain ⟨⟨stack₁, s₁⟩, hfirst, hend⟩ := bind_eq_ok.1 hrun
    have hquiet := hitems element stack₁ s₁ helement hfirst
    cases leaves_items hfirst
    obtain ⟨state, hhandle, hlast⟩ := bind_eq_ok.1 hend
    cases hlast
    change checkTopParser (clashParsers casts toString) (some p :: stack, s₁) = _ at hhandle
    cases state_of_checkTopParser hhandle
    exact hquiet

/-- Other than one of a set, an object is as quiet as its members. -/
private theorem quiet_object {members : Members String (JsonScalar R)} (hs : s.Clean)
    (hp : ∀ set', p ≠ .compositeObject set')
    (hmembers : ∀ stack' s', p.kind = .object →
      run (clashParsers casts toString) members.events (none :: some p :: stack, s) = .ok (stack', s') → Quiet set s')
    (hrun : run (clashParsers casts toString) (Json.object members).events (some p :: stack, s) = .ok (stack', s')) :
    Quiet set s' := by
  obtain ⟨hfaults, -, -⟩ := of_run_eq_ok hs hrun
  have hkind : p.kind = .object := by
    by_contra hne
    rw [faults, if_neg hne] at hfaults
    cases hfaults
  rw [Json.events, List.cons_append, run_cons, handle, MyHandler.call, startObject_of_kind casts toString p s hkind] at hrun
  change run _ (members.events ++ [.endObject]) (none :: some p :: stack, s) = _ at hrun
  rw [run_append] at hrun
  obtain ⟨⟨stack₁, s₁⟩, hfirst, hend⟩ := bind_eq_ok.1 hrun
  have hquiet := hmembers stack₁ s₁ hkind hfirst
  obtain ⟨member, hstack⟩ := leaves_members hfirst
  cases hstack
  obtain ⟨state, hhandle, hlast⟩ := bind_eq_ok.1 hend
  cases hlast
  change checkTopParser (clashParsers casts toString)
    (some p :: stack, (clashParsers casts toString).endObject p s₁) = _ at hhandle
  cases state_of_checkTopParser hhandle
  cases p with
  | clashConfig | compositeObjectSet => exact hquiet
  | compositeObject set' => exact absurd rfl (hp set')
  | _ => cases hkind

variable (casts toString) in
private theorem quiet_key (hkind : p.kind = .object) (hp : ∀ set', p ≠ .compositeObject set') (hquiet : Quiet set s)
    (key : String) : Quiet set ((clashParsers casts toString).key p key s).1 := by
  cases p with
  | compositeObjectSet set' =>
    show Quiet set (if key = "objects" then s.getContainer toString set' else s)
    split_ifs
    · exact quiet_getContainer hquiet
    · exact hquiet
  | clashConfig => exact hquiet
  | compositeObject set' => exact absurd rfl (hp set')
  | _ => cases hkind

/-- Outside of an object no references stay behind. -/
theorem quiet_events :
    (∀ (v : Json String (JsonScalar R)) top stack stack' (s s' : ClashConfigState boost R),
      (∀ p, top = some p → Outside set p) → s.Clean → Quiet set s →
      run (clashParsers casts toString) v.events (top :: stack, s) = .ok (stack', s') → Quiet set s') ∧
    (∀ (items : Items String (JsonScalar R)) top stack stack' (s s' : ClashConfigState boost R),
      (∀ p, top = some p → Outside set p) → s.Clean → Quiet set s →
      run (clashParsers casts toString) items.events (top :: stack, s) = .ok (stack', s') → Quiet set s') ∧
    ∀ (members : Members String (JsonScalar R)) p member stack stack' (s s' : ClashConfigState boost R),
      p.kind = .object → (∀ set', p ≠ .compositeObject set') → s.Clean → Quiet set s →
      run (clashParsers casts toString) members.events (member :: some p :: stack, s) = .ok (stack', s') → Quiet set s' := by
  apply Json.induct
  case scalar =>
    intro l top stack stack' s s' hout hs hquiet hrun
    cases top with
    | none =>
      rw [MyHandler.run_ignored] at hrun
      cases hrun
      exact hquiet
    | some p =>
      obtain ⟨state, hhandle, hend⟩ := bind_eq_ok.1 hrun
      cases hend
      change handle (clashParsers casts toString) (.scalar l) (some p :: stack, s) = _ at hhandle
      rw [handle] at hhandle
      split at hhandle
      · cases hhandle
        exact hquiet
      rw [MyHandler.forward] at hhandle
      split at hhandle
      · rename_i s₁ hcall
        cases state_of_checkTopParser hhandle
        exact quiet_clashScalar (hout p rfl).2 hquiet hcall
      · cases hhandle
  case array =>
    intro items ih top stack stack' s s' hout hs hquiet hrun
    cases top with
    | none =>
      rw [MyHandler.run_ignored] at hrun
      cases hrun
      exact hquiet
    | some p =>
      refine quiet_array hs ?_ hrun
      intro element stack₁ s₁ helement hitems
      refine ih (some element) _ stack₁ s s₁ ?_ hs hquiet hitems
      intro q hq
      cases hq
      exact outside_elementParser (hout p rfl) helement
  case object =>
    intro members ih top stack stack' s s' hout hs hquiet hrun
    cases top with
    | none =>
      rw [MyHandler.run_ignored] at hrun
      cases hrun
      exact hquiet
    | some p =>
      by_cases hobject : ∃ set', p = .compositeObject set'
      · obtain ⟨set', rfl⟩ := hobject
        obtain ⟨hfaults, -, -⟩ := of_run_eq_ok hs hrun
        change told (memberFaults (.compositeObject set') members) = [] at hfaults
        rw [run_object casts toString members hfaults stack hs] at hrun
        cases hrun
        exact quiet_updateSet (fun _ _ => rfl) hquiet
      · have hp := not_exists.1 hobject
        refine quiet_object hs hp ?_ hrun
        intro stack₁ s₁ hkind hmembers
        exact ih p none stack stack₁ s s₁ hkind hp hs hquiet hmembers
  case itemsNil =>
    intro top stack stack' s s' hout hs hquiet hrun
    cases hrun
    exact hquiet
  case itemsCons =>
    intro v rest hv hrest top stack stack' s s' hout hs hquiet hrun
    rw [Items.events, run_append] at hrun
    obtain ⟨⟨stack₁, s₁⟩, hfirst, hlater⟩ := bind_eq_ok.1 hrun
    obtain ⟨-, rfl, hs₁⟩ := of_run_eq_ok hs hfirst
    exact hrest top stack stack' s₁ s' hout hs₁ (hv top stack _ s s₁ hout hs hquiet hfirst) hlater
  case membersNil =>
    intro p member stack stack' s s' hkind hp hs hquiet hrun
    cases hrun
    exact hquiet
  case membersCons =>
    intro key v rest hv hrest p member stack stack' s s' hkind hp hs hquiet hrun
    obtain ⟨hchild, herror⟩ := key_of_kind casts toString p s hkind key
    let s₁ := ((clashParsers casts toString).key p key s).1
    have hs₁ : s₁.Clean := fun q => by rw [herror, hs q]
    have hquiet₁ : Quiet set s₁ := quiet_key casts toString hkind hp hquiet key
    rw [Members.events, List.cons_append, run_cons, handle, hchild, checkTopParser_of_clean hs₁] at hrun
    change run _ (v.events ++ rest.events) (p.child key :: some p :: stack, s₁) = _ at hrun
    rw [run_append] at hrun
    obtain ⟨⟨stack₂, s₂⟩, hvalue, hlater⟩ := bind_eq_ok.1 hrun
    obtain ⟨-, rfl, hs₂⟩ := of_run_eq_ok hs₁ hvalue
    have hquiet₂ := hv (p.child key) _ _ s₁ s₂ (fun q hq => outside_child hp hq) hs₁ hquiet₁ hvalue
    exact hrest p _ _ _ s₂ s' hkind hp hs₂ hquiet₂ hlater

/-- The parsing ends at the first of the faults, or goes on without references. -/
def EndsQuiet (set : SetName) (Q : List (Option ClashParser) → Prop) (fs : List Fault)
    (result : Except Halt (State ClashParser (ClashConfigState boost R))) : Prop :=
  EndsAt Q fs result ∧ ∀ state, result = .ok state → Quiet set state.2

theorem EndsQuiet.bind {Q Q' : List (Option ClashParser) → Prop} {fs fs' : List Fault}
    {result : Except Halt (State ClashParser (ClashConfigState boost R))}
    {f : State ClashParser (ClashConfigState boost R) → Except Halt (State ClashParser (ClashConfigState boost R))}
    (h : EndsQuiet set Q fs result)
    (hf : ∀ stack s, Q stack → s.Clean → Quiet set s → EndsQuiet set Q' fs' (f (stack, s))) :
    EndsQuiet set Q' (fs ++ fs') (result >>= f) := by
  match fs, result, h with
  | [], .ok (stack, s), h => exact hf stack s h.1.1 h.1.2 (h.2 _ rfl)
  | fault :: _, .error halt, h => exact ⟨h.1, nofun⟩

variable (casts toString) in
private theorem endsQuiet_members (hkind : p.kind = .object) (hp : ∀ set', p ≠ .compositeObject set')
    (members : Members String (JsonScalar R)) (member : Option ClashParser) (stack : List (Option ClashParser))
    (hs : s.Clean) (hquiet : Quiet set s) :
    EndsQuiet set (fun stack' => ∃ member', stack' = member' :: some p :: stack) (told (memberFaults p members))
      (run (clashParsers casts toString) members.events (member :: some p :: stack, s)) :=
  ⟨endsAt_events.2.2 members p hkind member stack s hs,
    fun state hrun => quiet_events.2.2 members p member stack state.1 s state.2 hkind hp hs hquiet hrun⟩

variable (casts toString) in
private theorem endsQuiet_items (hp : Outside set p) (items : Items String (JsonScalar R))
    (stack : List (Option ClashParser)) (hs : s.Clean) (hquiet : Quiet set s) :
    EndsQuiet set (· = some p :: stack) (told (itemFaults (some p) items))
      (run (clashParsers casts toString) items.events (some p :: stack, s)) := by
  refine ⟨endsAt_events.2.1 items (some p) stack s hs, ?_⟩
  intro state hrun
  refine quiet_events.2.1 items (some p) stack state.1 s state.2 ?_ hs hquiet hrun
  intro q hq
  cases hq
  exact hp

variable (casts toString) in
private theorem run_keyStartArray {p q element : ClashParser} {s₁ : ClashConfigState boost R} (hs : s₁.Clean)
    (hkey : (clashParsers casts toString).key p key s = (s₁, some q)) (helement : q.elementParser = some element)
    (member : Option ClashParser) (stack : List (Option ClashParser)) (events : List (Event String (JsonScalar R))) :
    run (clashParsers casts toString) (.key key :: .startArray :: events) (member :: some p :: stack, s) =
      run (clashParsers casts toString) events (some element :: some q :: some p :: stack, s₁) := by
  rw [run_cons, handle, hkey, checkTopParser_of_clean hs]
  show (handle (clashParsers casts toString) .startArray (some q :: some p :: stack, s₁) >>= _) = _
  rw [handle_startArray casts toString hs helement]
  rfl

end Runs

/-! ### What is recorded -/

namespace Surroundings

/-- The faults before the array. -/
def faultsBefore (c : Surroundings R) : List Fault :=
  memberFaults .clashConfig c.membersBefore ++ (itemFaults (some (.compositeObjectSet c.set)) c.setsBefore ++
    memberFaults (.compositeObjectSet c.set) c.setBefore)

/-- The parsers below the one of the objects. -/
def stack (c : Surroundings R) : List (Option ClashParser) :=
  [some (.objects c.set), some (.compositeObjectSet c.set), some (.set c.set), some .clashConfig]

end Surroundings

section Independence

variable {casts : Casts R} {toString : boost.Uuid → String} {c : Surroundings R}

variable (boost casts toString c) in
/-- The parsing gets to the array without references, or there is a fault. -/
theorem endsQuiet_eventsBefore : EndsQuiet c.set (· = some (.compositeObject c.set) :: c.stack) (told c.faultsBefore)
    (run (clashParsers casts toString) c.eventsBefore ([some .clashConfig], ClashConfigState.initial boost casts)) := by
  have hinitial : Quiet c.set (ClashConfigState.initial boost casts) := rfl
  have hstart : ∀ events, run (clashParsers casts toString) (.startObject :: events)
      ([some .clashConfig], ClashConfigState.initial boost casts) =
      run (clashParsers casts toString) events ([none, some .clashConfig], ClashConfigState.initial boost casts) :=
    fun _ => rfl
  unfold Surroundings.eventsBefore Surroundings.faultsBefore
  simp only [List.append_assoc, List.cons_append, told_append]
  rw [hstart, run_append]
  apply (endsQuiet_members casts toString (p := .clashConfig) rfl nofun c.membersBefore none [] clean_initial hinitial).bind
  rintro _ s ⟨member, rfl⟩ hs hquiet
  have hset : (clashParsers casts toString).key .clashConfig c.set.key s = (s, some (.set c.set)) := by
    cases c.set <;> rfl
  rw [run_keyStartArray casts toString hs hset rfl, run_append]
  have houtside : Outside c.set (.compositeObjectSet c.set) := ⟨nofun, nofun⟩
  apply (endsQuiet_items casts toString houtside c.setsBefore _ hs hquiet).bind
  rintro _ s rfl hs hquiet
  rw [← List.append_nil (told (memberFaults _ c.setBefore))]
  have hobject : ∀ events stack, run (clashParsers casts toString) (.startObject :: events)
      (some (.compositeObjectSet c.set) :: stack, s) =
      run (clashParsers casts toString) events (none :: some (.compositeObjectSet c.set) :: stack, s) := fun _ _ => rfl
  rw [hobject, run_append]
  apply (endsQuiet_members casts toString (p := .compositeObjectSet c.set) rfl nofun c.setBefore none _ hs hquiet).bind
  rintro _ s ⟨member, rfl⟩ hs hquiet
  have hobjects : (clashParsers casts toString).key (.compositeObjectSet c.set) "objects" s =
      (s.getContainer toString c.set, some (.objects c.set)) := rfl
  have hs' : (s.getContainer toString c.set).Clean := fun p => by rw [error_getContainer, hs p]
  rw [run_keyStartArray casts toString hs' hobjects rfl]
  refine ⟨⟨rfl, hs'⟩, ?_⟩
  intro state hstate
  cases hstate
  exact quiet_getContainer hquiet

/-- The references, each with the identifier. -/
def recordedPairs (r : String × List (MeshReference boost)) : List (String × MeshReference boost) :=
  r.2.map fun reference => (r.1, reference)

variable (boost casts toString c) in
private theorem recorded_eq {preceding : Items String (JsonScalar R)} {members : Members String (JsonScalar R)}
    {s s₁ : ClashConfigState boost R}
    (hbefore : run (clashParsers casts toString) c.eventsBefore ([some .clashConfig], .initial boost casts) =
      .ok (some (.compositeObject c.set) :: c.stack, s))
    (hpreceding : run (clashParsers casts toString) preceding.events (some (.compositeObject c.set) :: c.stack, s) =
      .ok (some (.compositeObject c.set) :: c.stack, s₁))
    (hs₁ : s₁.Clean) (hmembers : told (memberFaults (.compositeObject c.set) members) = []) :
    recorded boost casts toString c preceding members =
      some (recordedPairs (afterMembers (s₁.sets c.set).container members ((s₁.sets c.set).id, (s₁.sets c.set).meshIds))) := by
  obtain ⟨member, hobject⟩ := run_objectStart casts toString members hmembers c.stack hs₁
  have hrun : run (clashParsers casts toString) (c.eventsUntil preceding members)
      ([some .clashConfig], ClashConfigState.initial boost casts) =
      run (clashParsers casts toString) (.startObject :: members.events) (some (.compositeObject c.set) :: c.stack, s₁) := by
    unfold Surroundings.eventsUntil
    rw [run_append, hbefore]
    show run (clashParsers casts toString) (preceding.events ++ .startObject :: members.events) _ = _
    rw [run_append, hpreceding]
    rfl
  unfold recorded
  rw [hrun, hobject]
  dsimp only
  rw [sets_updateSet]
  rfl

/-- Something is recorded only if there is no fault, and then it is what the object contains, after an identifier from before. -/
theorem of_recorded {preceding : Items String (JsonScalar R)} {members : Members String (JsonScalar R)}
    {r : List (String × MeshReference boost)} (h : recorded boost casts toString c preceding members = some r) :
    ∃ s : ClashConfigState boost R, run (clashParsers casts toString) c.eventsBefore
        ([some .clashConfig], .initial boost casts) = .ok (some (.compositeObject c.set) :: c.stack, s) ∧ s.Clean ∧
      Quiet c.set s ∧ told c.faultsBefore = [] ∧ told (memberFaults (.compositeObject c.set) members) = [] ∧
      ∃ id, r = recordedPairs (afterMembers (s.sets c.set).container members (id, [])) := by
  have hends := endsQuiet_eventsBefore boost casts toString c
  cases hrun : run (clashParsers casts toString) (c.eventsUntil preceding members)
      ([some .clashConfig], ClashConfigState.initial boost casts) with
  | error e =>
    unfold recorded at h
    rw [hrun] at h
    cases h
  | ok state =>
    unfold Surroundings.eventsUntil at hrun
    rw [run_append] at hrun
    obtain ⟨⟨stack, s⟩, hbefore, hrun⟩ := bind_eq_ok.1 hrun
    rw [hbefore] at hends
    obtain ⟨hfaults, hstack, hs⟩ := hends.1.of_ok
    cases hstack
    have hquiet : Quiet c.set s := hends.2 _ rfl
    rw [run_append] at hrun
    obtain ⟨⟨stack₁, s₁⟩, hpreceding, hrun⟩ := bind_eq_ok.1 hrun
    have hitems : EndsAt (· = some (.compositeObject c.set) :: c.stack)
        (told (itemFaults (some (.compositeObject c.set)) preceding))
        (run (clashParsers casts toString) preceding.events (some (.compositeObject c.set) :: c.stack, s)) :=
      endsAt_events.2.1 preceding _ c.stack s hs
    rw [hpreceding] at hitems
    obtain ⟨hitemFaults, hstack₁, hs₁⟩ := hitems.of_ok
    cases hstack₁
    have hobject : EndsAt (fun stack' => ∃ member', stack' = member' :: some (.compositeObject c.set) :: c.stack)
        (told (memberFaults (.compositeObject c.set) members))
        (run (clashParsers casts toString) members.events (none :: some (.compositeObject c.set) :: c.stack, s₁)) :=
      endsAt_events.2.2 members _ rfl none c.stack s₁ hs₁
    have hmembersRun : run (clashParsers casts toString) members.events
        (none :: some (.compositeObject c.set) :: c.stack, s₁) = .ok state := hrun
    rw [hmembersRun] at hobject
    obtain ⟨hmembers, -, -⟩ := hobject.of_ok
    refine ⟨s, hbefore, hs, hquiet, hfaults, hmembers, (s₁.sets c.set).id, ?_⟩
    obtain ⟨id, recordedSet, hobjects⟩ := run_objects casts toString preceding hitemFaults c.stack hs hquiet
    rw [hobjects] at hpreceding
    cases hpreceding
    rw [recorded_eq boost casts toString c hbefore hobjects (clean_updateSet hs) hmembers, sets_updateSet] at h
    rw [sets_updateSet]
    exact (Option.some.inj h).symm

private theorem afterMember_of_ne (hkey : key ≠ "id") (container : ℕ) (v : Json String (JsonScalar R))
    (refs : List (MeshReference boost)) : ∃ refs', ∀ id, afterMember container key v (id, refs) = (id, refs') := by
  unfold afterMember
  split
  · exact ⟨refs, fun id => if_neg hkey⟩
  · rename_i items
    by_cases hmeshIds : key = "meshIds"
    · exact ⟨refs ++ references container (strings items), fun id => if_pos hmeshIds⟩
    · exact ⟨refs, fun id => if_neg hmeshIds⟩
  · exact ⟨refs, fun id => rfl⟩

/-- If there is an identifier, the one from before does not matter. -/
theorem afterMembers_of_id {set : SetName} {members : Members String (JsonScalar R)}
    (hfaults : told (memberFaults (.compositeObject set) members) = []) (hid : HasId members) (container : ℕ)
    (id id' : String) (refs : List (MeshReference boost)) :
    afterMembers container members (id, refs) = afterMembers container members (id', refs) := by
  match members with
  | .nil => cases hid
  | .cons key v rest =>
    rw [memberFaults, told_append, List.append_eq_nil_iff] at hfaults
    obtain ⟨hv, hrest⟩ := hfaults
    show afterMembers container rest (afterMember container key v (id, refs)) =
      afterMembers container rest (afterMember container key v (id', refs))
    by_cases hkey : key = "id"
    · subst hkey
      obtain rfl | ⟨name, rfl⟩ := scalar_of_told (p := .id set) rfl hv
      · exact afterMembers_of_id hrest hid container id id' refs
      · rfl
    · have hlater : HasId rest := by
        unfold HasId at hid
        split at hid
        · exact hid.elim
        · rename_i heq
          cases heq
          exact hid.resolve_left hkey
        · rename_i heq
          cases heq
          exact hid
      obtain ⟨refs', hmember⟩ := afterMember_of_ne hkey container v refs
      rw [hmember, hmember]
      exact afterMembers_of_id hrest hlater container id id' refs'

/-- Otherwise it is the identifier of the object. -/
theorem afterMembers_of_no_id {set : SetName} {members : Members String (JsonScalar R)}
    (hfaults : told (memberFaults (.compositeObject set) members) = []) (hid : ¬ HasId members) (container : ℕ) (id : String)
    (refs : List (MeshReference boost)) : (afterMembers container members (id, refs)).1 = id := by
  match members with
  | .nil => rfl
  | .cons key v rest =>
    rw [memberFaults, told_append, List.append_eq_nil_iff] at hfaults
    obtain ⟨hv, hrest⟩ := hfaults
    show (afterMembers container rest (afterMember container key v (id, refs))).1 = id
    by_cases hkey : key = "id"
    · subst hkey
      obtain rfl | ⟨name, rfl⟩ := scalar_of_told (p := .id set) rfl hv
      · exact afterMembers_of_no_id hrest hid container id refs
      · exact absurd (.inl rfl) hid
    · have hlater : ¬ HasId rest := by
        intro hrest
        apply hid
        unfold HasId
        split
        · contradiction
        · rename_i heq
          cases heq
          exact .inr hrest
        · rename_i heq
          cases heq
          exact hrest
      obtain ⟨refs', hmember⟩ := afterMember_of_ne hkey container v refs
      rw [hmember]
      exact afterMembers_of_no_id hrest hlater container id refs'

private theorem afterMembers_snd (container : ℕ) (members : Members String (JsonScalar R)) (r : String × List (MeshReference boost)) :
    (afterMembers container members r).2 = r.2 ++ references container (ownMeshIds members) := by
  match members with
  | .nil => exact (List.append_nil _).symm
  | .cons key v rest =>
    have hmember : (afterMember container key v r).2 ++ references container (ownMeshIds rest) =
        r.2 ++ references container (ownMeshIds (.cons key v rest)) := by
      unfold afterMember
      cases v with
      | scalar l =>
        cases l with
        | string name =>
          dsimp only
          split_ifs <;> rfl
        | _ => rfl
      | array items =>
        dsimp only [ownMeshIds]
        split_ifs <;> simp [references]
      | object members => rfl
    show (afterMembers container rest (afterMember container key v r)).2 = _
    rw [afterMembers_snd container rest, hmember]

/-- Without an identifier, that of the object before is recorded. -/
theorem not_parsedIndependently {members : Members String (JsonScalar R)} (hbefore : told c.faultsBefore = [])
    (hmembers : told (memberFaults (.compositeObject c.set) members) = []) (hid : ¬ HasId members)
    (hown : ownMeshIds members ≠ []) : ¬ ParsedIndependently boost casts toString c members := by
  intro h
  have hends := endsQuiet_eventsBefore boost casts toString c
  rw [hbefore] at hends
  cases hrun : run (clashParsers casts toString) c.eventsBefore ([some .clashConfig], ClashConfigState.initial boost casts) with
  | error e =>
    rw [hrun] at hends
    exact hends.1.elim
  | ok state =>
    obtain ⟨stack, s⟩ := state
    rw [hrun] at hends
    obtain ⟨-, hstack, hs⟩ := hends.1.of_ok
    cases hstack
    have hnone := recorded_eq boost casts toString c hrun
      (show run (clashParsers casts toString) (Items.nil).events _ = .ok _ from rfl) hs hmembers
    -- an object before it, with another identifier
    let other := (s.sets c.set).id ++ "x"
    let others : Members String (JsonScalar R) := .cons "id" (.scalar (.string other)) .nil
    have hothers : told (memberFaults (.compositeObject c.set) others) = [] := rfl
    have hobject := run_object casts toString others hothers c.stack hs
    have hitems : run (clashParsers casts toString) (Items.cons (.object others) .nil).events
        (some (.compositeObject c.set) :: c.stack, s) =
        .ok (some (.compositeObject c.set) :: c.stack,
          s.updateSet c.set (readObject others)) := by
      rw [Items.events, Items.events, List.append_nil]
      exact hobject
    have hother := recorded_eq boost casts toString c hrun hitems (clean_updateSet hs) hmembers
    have hsame := h _ _ _ _ hnone hother
    obtain ⟨first, rest, hfirst⟩ := List.exists_cons_of_ne_nil hown
    have hquiet : (s.sets c.set).meshIds = [] := hends.2 _ rfl
    have hid' : ∀ (container : ℕ) (id : String), (recordedPairs (afterMembers container members (id, ([] :
        List (MeshReference boost))))).head?.map Prod.fst = some id := by
      intro container id
      unfold recordedPairs
      rw [afterMembers_snd, afterMembers_of_no_id hmembers hid, hfirst]
      rfl
    have hreset : ((s.updateSet c.set (readObject others)).sets c.set).meshIds = [] := by
      rw [sets_updateSet]
      rfl
    have hids := congrArg (fun pairs => pairs.head?.map Prod.fst) hsame
    rw [hquiet, hid', hreset, hid', sets_updateSet, Option.some.injEq] at hids
    have hlength := congrArg String.length hids
    rw [show (readObject others (s.sets c.set)).id = (s.sets c.set).id ++ "x" from rfl, String.length_append] at hlength
    have hx : "x".length = 1 := rfl
    omega

/-- An object is parsed independently of the objects before it exactly if it has an identifier, or no references, or there is a
fault before its end in any case. -/
theorem parsedIndependently_iff (boost : Boost) (casts : Casts R) (toString : boost.Uuid → String) (c : Surroundings R)
    (members : Members String (JsonScalar R)) : ParsedIndependently boost casts toString c members ↔
      HasId members ∨ ownMeshIds members = [] ∨
        told (c.faultsBefore ++ memberFaults (.compositeObject c.set) members) ≠ [] := by
  constructor
  · intro h
    by_contra hnot
    rw [not_or, not_or, not_not, told_append, List.append_eq_nil_iff] at hnot
    obtain ⟨hid, hown, hbefore, hmembers⟩ := hnot
    exact not_parsedIndependently hbefore hmembers hid hown h
  · intro h preceding preceding' r r' hr hr'
    obtain ⟨s, hrun, -, -, hbefore, hmembers, id, rfl⟩ := of_recorded hr
    obtain ⟨s', hrun', -, -, -, -, id', rfl⟩ := of_recorded hr'
    rw [hrun] at hrun'
    cases hrun'
    rcases h with hid | hown | hfaults
    · exact congrArg recordedPairs (afterMembers_of_id hmembers hid _ id id' [])
    · have hnone : ∀ id, recordedPairs (afterMembers (s.sets c.set).container members (id, ([] :
          List (MeshReference boost)))) = [] := by
        intro id
        unfold recordedPairs
        rw [afterMembers_snd, hown]
        rfl
      rw [hnone, hnone]
    · rw [told_append, hbefore, hmembers] at hfaults
      exact absurd rfl hfaults

end Independence

/-! ### An object without an identifier -/

/-- A configuration with one set that has one array of objects. -/
def oneSet : Surroundings ℤ where
  set := .a
  membersBefore := .nil
  setsBefore := .nil
  setBefore := .nil
  objectsAfter := .nil
  setAfter := .nil
  setsAfter := .nil
  membersAfter := .nil

/-- An object that has only references. -/
def onlyReferences : Members String (JsonScalar ℤ) :=
  .cons "meshIds" (.array (.cons (.scalar (.string "1")) .nil)) .nil

/-- An object that has only an identifier. -/
def onlyIdentifier (id : String) : Json String (JsonScalar ℤ) := .object (.cons "id" (.scalar (.string id)) .nil)

/-- Without an identifier, the references are recorded under that of the object before. -/
theorem not_parsedIndependently_onlyReferences :
    recorded Boost.digits integerCasts String.ofList oneSet (.cons (onlyIdentifier "x") .nil) onlyReferences =
      some [("x", ⟨0, Boost.digits.stringToUUID "1"⟩)] ∧
    recorded Boost.digits integerCasts String.ofList oneSet .nil onlyReferences =
      some [("", ⟨0, Boost.digits.stringToUUID "1"⟩)] ∧
    ¬ ParsedIndependently Boost.digits integerCasts String.ofList oneSet onlyReferences := by
  have hafter : recorded Boost.digits integerCasts String.ofList oneSet (.cons (onlyIdentifier "x") .nil) onlyReferences =
      some [("x", ⟨0, Boost.digits.stringToUUID "1"⟩)] := rfl
  have halone : recorded Boost.digits integerCasts String.ofList oneSet .nil onlyReferences =
      some [("", ⟨0, Boost.digits.stringToUUID "1"⟩)] := rfl
  refine ⟨hafter, halone, ?_⟩
  intro h
  have hsame := congrArg (List.map Prod.fst) (h _ _ _ _ hafter halone)
  exact absurd hsame (by decide)

end Bouncer.Clash
