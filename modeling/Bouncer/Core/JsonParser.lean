import Bouncer.Library.Json

/-!
# Parsing JSON by a stack of parsers

`MyHandler` keeps a stack of parsers, in which a null pointer stands for a part that is ignored, and forwards every event to
the parser at the top.  An object has two entries: one for its own parser, and one for that of its current member, which
is exchanged at every key.

Whatever the parsers do, a value leaves the stack as it was (`run_events`), and an ignored value does not do anything
(`run_ignored`).  So members that are ignored can be deleted (`run_of_trims`).
-/

namespace Bouncer

open Library (Json)
open Library.Json (Event Items Members)

/-- How a call of a parser ends other than by returning. -/
inductive Stop where
  | undefined
  | thrown (message : String)
  deriving DecidableEq

/-- How the parsing ends before the end of the text. -/
inductive Halt where
  /-- `top` or `pop` of an empty stack. -/
  | emptyStack
  | stopped (stop : Stop)
  /-- The parser at the top has an error. -/
  | terminated (error : String)
  deriving DecidableEq

/-- The virtual functions of the parsers `P`, which have the state `S`.  Those that return a parser may return any, or null. -/
structure Parsers (P S K L : Type) where
  /-- The scalars for which `MyHandler` has no function, so that `rapidjson::BaseReaderHandler` lets them pass. -/
  isNull : L → Bool
  scalar : P → L → S → Except Stop S
  startObject : P → S → S
  key : P → K → S → S × Option P
  endObject : P → S → S
  startArray : P → S → Except Stop (S × Option P)
  endArray : P → S → S
  error : P → S → String

namespace MyHandler

variable {P S K L : Type}

/-- The stack, and the state of the parsers. -/
abbrev State (P S : Type) := List (Option P) × S

section Handler

variable (parsers : Parsers P S K L)

def checkTopParser : State P S → Except Halt (State P S)
  | ([], _) => .error .emptyStack
  | (none :: stack, s) => .ok (none :: stack, s)
  | (some p :: stack, s) =>
    if parsers.error p s = "" then .ok (some p :: stack, s) else .error (.terminated (parsers.error p s))

/-- The call of a function of a parser, if it is not null. -/
def call (f : P → S → S) : Option P → S → S
  | none, s => s
  | some p, s => f p s

/-- The functions for the scalars. -/
def forward (l : L) : Option P → List (Option P) → S → Except Halt (State P S)
  | none, stack, s => checkTopParser parsers (none :: stack, s)
  | some p, stack, s =>
    match parsers.scalar p l s with
    | .ok s' => checkTopParser parsers (some p :: stack, s')
    | .error stop => .error (.stopped stop)

def handle : Event K L → State P S → Except Halt (State P S)
  | .startObject, (top :: stack, s) => checkTopParser parsers (none :: top :: stack, call parsers.startObject top s)
  | .key k, (_ :: some p :: stack, s) =>
    checkTopParser parsers ((parsers.key p k s).2 :: some p :: stack, (parsers.key p k s).1)
  | .key _, (_ :: none :: stack, s) => checkTopParser parsers (none :: none :: stack, s)
  | .endObject, (_ :: top :: stack, s) => checkTopParser parsers (top :: stack, call parsers.endObject top s)
  | .startArray, (some p :: stack, s) =>
    match parsers.startArray p s with
    | .ok (s', element) => checkTopParser parsers (element :: some p :: stack, s')
    | .error stop => .error (.stopped stop)
  | .startArray, (none :: stack, s) => checkTopParser parsers (none :: none :: stack, s)
  | .endArray, (_ :: top :: stack, s) => checkTopParser parsers (top :: stack, call parsers.endArray top s)
  -- no function is called for a null, and the parser at the top is not asked for an error
  | .scalar l, (top :: stack, s) =>
    if parsers.isNull l then .ok (top :: stack, s) else forward parsers l top stack s
  | _, _ => .error .emptyStack

/-- The events of a text. -/
def run (events : List (Event K L)) (state : State P S) : Except Halt (State P S) :=
  events.foldlM (fun state event => handle parsers event state) state

/-- `ParseJson`, where an error means that a `JsonParsingException` or another one is thrown. -/
def parseJson (parser : P) (s : S) (v : Json K L) : Except Halt (State P S) :=
  run parsers v.events ([some parser], s)

end Handler

variable {parsers : Parsers P S K L}

theorem run_cons (event : Event K L) (events : List (Event K L)) (state : State P S) :
    run parsers (event :: events) state = handle parsers event state >>= run parsers events := rfl

theorem run_append (events events' : List (Event K L)) (state : State P S) :
    run parsers (events ++ events') state = run parsers events state >>= run parsers events' :=
  List.foldlM_append

/-! ### Balance -/

/-- The parsing is not stopped by the stack, and goes on with a stack of the given form. -/
def Leaves (Q : List (Option P) → Prop) : Except Halt (State P S) → Prop
  | .ok state => Q state.1
  | .error halt => halt ≠ .emptyStack

variable {result : Except Halt (State P S)}

theorem Leaves.bind {Q Q' : List (Option P) → Prop}
    {f : State P S → Except Halt (State P S)} (h : Leaves Q result) (hf : ∀ stack s, Q stack → Leaves Q' (f (stack, s))) :
    Leaves Q' (result >>= f) := by
  match result, h with
  | .ok (stack, s), h => exact hf stack s h
  | .error halt, h => exact h

theorem Leaves.mono {Q Q' : List (Option P) → Prop} (h : Leaves Q result)
    (hQ : ∀ stack, Q stack → Q' stack) : Leaves Q' result := by
  match result, h with
  | .ok (stack, _), h => exact hQ stack h
  | .error halt, h => exact h

private theorem leaves_checkTopParser (top : Option P) (stack : List (Option P)) (s : S) :
    Leaves (· = top :: stack) (checkTopParser parsers (top :: stack, s)) := by
  cases top with
  | none => exact rfl
  | some p =>
    rw [checkTopParser]
    split
    · exact rfl
    · exact nofun

/-- What a value, the items of an array and the members of an object do to the stack. -/
theorem leaves_events :
    (∀ v : Json K L, ∀ top stack s, Leaves (· = top :: stack) (run parsers v.events (top :: stack, s))) ∧
    (∀ items : Items K L, ∀ top stack s, Leaves (· = top :: stack) (run parsers items.events (top :: stack, s))) ∧
    ∀ members : Members K L, ∀ member top stack s,
      Leaves (fun stack' => ∃ member', stack' = member' :: top :: stack)
        (run parsers members.events (member :: top :: stack, s)) := by
  apply Json.induct
  case scalar =>
    intro l top stack s
    have hscalar : Leaves (· = top :: stack) (handle parsers (.scalar l) (top :: stack, s)) := by
      rw [handle]
      split
      · exact rfl
      cases top with
      | none => exact rfl
      | some p =>
        rw [forward]
        split
        · exact leaves_checkTopParser (some p) stack _
        · exact nofun
    exact hscalar.bind fun _ _ h => h
  case array =>
    intro items ih top stack s
    have hstart : Leaves (fun stack' => ∃ element, stack' = element :: top :: stack)
        (handle parsers .startArray (top :: stack, s)) := by
      cases top with
      | none => exact ⟨none, rfl⟩
      | some p =>
        rw [handle]
        split
        · exact (leaves_checkTopParser _ (some p :: stack) _).mono fun _ h => ⟨_, h⟩
        · exact nofun
    rw [Json.events, List.cons_append, run_cons]
    apply hstart.bind
    rintro _ s ⟨element, rfl⟩
    rw [run_append]
    apply (ih element (top :: stack) s).bind
    rintro _ s rfl
    exact (leaves_checkTopParser top stack _).bind fun _ _ h => h
  case object =>
    intro members ih top stack s
    have hstart : Leaves (· = none :: top :: stack) (handle parsers .startObject (top :: stack, s)) := rfl
    rw [Json.events, List.cons_append, run_cons]
    apply hstart.bind
    rintro _ s rfl
    rw [run_append]
    apply (ih none top stack s).bind
    rintro _ s ⟨member, rfl⟩
    exact (leaves_checkTopParser top stack _).bind fun _ _ h => h
  case itemsNil =>
    intro top stack s
    exact rfl
  case itemsCons =>
    intro v rest hv hrest top stack s
    rw [Items.events, run_append]
    apply (hv top stack s).bind
    rintro _ s rfl
    exact hrest top stack s
  case membersNil =>
    intro member top stack s
    exact ⟨member, rfl⟩
  case membersCons =>
    intro k v rest hv hrest member top stack s
    have hkey : Leaves (fun stack' => ∃ member', stack' = member' :: top :: stack)
        (handle parsers (.key k) (member :: top :: stack, s)) := by
      cases top with
      | none => exact ⟨none, rfl⟩
      | some p => exact (leaves_checkTopParser _ (some p :: stack) _).mono fun _ h => ⟨_, h⟩
    rw [Members.events, List.cons_append, run_cons]
    apply hkey.bind
    rintro _ s ⟨member', rfl⟩
    rw [run_append]
    apply (hv member' (top :: stack) s).bind
    rintro _ s rfl
    exact hrest member' top stack s

variable (parsers) in
/-- A value leaves the stack as it was, and no event of it finds an empty one. -/
theorem run_events (v : Json K L) (top : Option P) (stack : List (Option P)) (s : S) :
    Leaves (· = top :: stack) (run parsers v.events (top :: stack, s)) :=
  leaves_events.1 v top stack s

/-! ### What is ignored -/

/-- Below a null pointer nothing is done. -/
theorem ignored_events :
    (∀ v : Json K L, ∀ stack (s : S), run parsers v.events (none :: stack, s) = .ok (none :: stack, s)) ∧
    (∀ items : Items K L, ∀ stack (s : S), run parsers items.events (none :: stack, s) = .ok (none :: stack, s)) ∧
    ∀ members : Members K L, ∀ stack (s : S),
      run parsers members.events (none :: none :: stack, s) = .ok (none :: none :: stack, s) := by
  apply Json.induct
  case scalar =>
    intro l stack s
    have hscalar : handle parsers (.scalar l) (none :: stack, s) = .ok (none :: stack, s) := ite_self _
    rw [Json.events, run_cons, hscalar]
    rfl
  case array =>
    intro items ih stack s
    rw [Json.events, List.cons_append, run_cons]
    change run parsers (items.events ++ [.endArray]) (none :: none :: stack, s) = _
    rw [run_append, ih]
    rfl
  case object =>
    intro members ih stack s
    rw [Json.events, List.cons_append, run_cons]
    change run parsers (members.events ++ [.endObject]) (none :: none :: stack, s) = _
    rw [run_append, ih]
    rfl
  case itemsNil | membersNil =>
    intro stack s
    rfl
  case itemsCons =>
    intro v rest hv hrest stack s
    rw [Items.events, run_append, hv]
    exact hrest stack s
  case membersCons =>
    intro k v rest hv hrest stack s
    rw [Members.events, List.cons_append, run_cons]
    change run parsers (v.events ++ rest.events) (none :: none :: stack, s) = _
    rw [run_append, hv]
    exact hrest stack s

theorem run_ignored (v : Json K L) (stack : List (Option P)) (s : S) :
    run parsers v.events (none :: stack, s) = .ok (none :: stack, s) :=
  ignored_events.1 v stack s

/-! ### Deleting members -/

private theorem Leaves.bind_congr {Q : List (Option P) → Prop}
    {f g : State P S → Except Halt (State P S)} (h : Leaves Q result)
    (hfg : ∀ stack s, result = .ok (stack, s) → Q stack → f (stack, s) = g (stack, s)) : result >>= f = result >>= g := by
  match result, h with
  | .ok (stack, s), h => exact hfg stack s rfl h
  | .error _, _ => rfl

private theorem handle_key_member (k : K) (member member' top : Option P) (stack : List (Option P)) (s : S) :
    handle parsers (.key k) (member :: top :: stack, s) = handle parsers (.key k) (member' :: top :: stack, s) := by
  cases top <;> rfl

section Trims

variable (child : Option P → K → Option P) (element : Option P → Option P) (unknown : Option P → K → Prop)

mutual

/-- Members that are unknown to the parser of their object are deleted, in any part of a value. -/
def Trims (p : Option P) : Json K L → Json K L → Prop
  | .scalar l, w => w = .scalar l
  | .array items, w => ∃ items', w = .array items' ∧ TrimsItems (element p) items items'
  | .object members, w => ∃ members', w = .object members' ∧ TrimsMembers p members members'

def TrimsItems (p : Option P) : Items K L → Items K L → Prop
  | .nil, w => w = .nil
  | .cons v rest, w => ∃ v' rest', w = .cons v' rest' ∧ Trims p v v' ∧ TrimsItems p rest rest'

def TrimsMembers (p : Option P) : Members K L → Members K L → Prop
  | .nil, w => w = .nil
  | .cons k v rest, w =>
    (∃ v' rest', w = .cons k v' rest' ∧ Trims (child p k) v v' ∧ TrimsMembers p rest rest') ∨
      unknown p k ∧ TrimsMembers p rest w

end

variable {child element unknown}

/-- Which parser an event that returns one puts on the stack. -/
structure Selects (parsers : Parsers P S K L) (child : Option P → K → Option P) (element : Option P → Option P)
    (unknown : Option P → K → Prop) : Prop where
  key : ∀ p k s, (parsers.key p k s).2 = child (some p) k
  key_none : ∀ k, child none k = none
  startArray : ∀ p s s' q, parsers.startArray p s = .ok (s', q) → q = element (some p)
  startArray_none : element none = none
  /-- For an unknown key nothing is done, and null is returned. -/
  unknown : ∀ p k s, unknown (some p) k → parsers.key p k s = (s, none)

variable (hselects : Selects parsers child element unknown)

include hselects

private theorem leaves_handle_key (k : K) (member top : Option P) (stack : List (Option P)) (s : S) :
    Leaves (· = child top k :: top :: stack) (handle parsers (.key k) (member :: top :: stack, s)) := by
  cases top with
  | none =>
    rw [hselects.key_none]
    exact rfl
  | some p =>
    rw [handle, hselects.key]
    exact leaves_checkTopParser _ _ _

private theorem handle_key_unknown {k : K} {top : Option P} (h : unknown top k) (member : Option P) (stack : List (Option P))
    (s : S) : handle parsers (.key k) (member :: top :: stack, s) = .ok (none :: top :: stack, s) := by
  cases top with
  | none => rfl
  | some p =>
    rw [handle, hselects.unknown p k s h]
    rfl

/-- The deleted members do not do anything, and neither does the entry for them on the stack. -/
theorem trims_events :
    (∀ v w top, Trims child element unknown top v w → ∀ stack s,
      run parsers v.events (top :: stack, s) = run parsers w.events (top :: stack, s)) ∧
    (∀ items items' top, TrimsItems child element unknown top items items' → ∀ stack s,
      run parsers items.events (top :: stack, s) = run parsers items'.events (top :: stack, s)) ∧
    ∀ members members' top, TrimsMembers child element unknown top members members' → ∀ member member' stack s,
      run parsers (members.events ++ [.endObject]) (member :: top :: stack, s) =
        run parsers (members'.events ++ [.endObject]) (member' :: top :: stack, s) := by
  apply Json.induct
  case scalar =>
    rintro l _ top rfl stack s
    rfl
  case array =>
    rintro items ih _ top ⟨items', rfl, htrims⟩ stack s
    have hstart : Leaves (· = element top :: top :: stack) (handle parsers .startArray (top :: stack, s)) := by
      cases top with
      | none =>
        rw [hselects.startArray_none]
        exact rfl
      | some p =>
        rw [handle]
        split
        · rename_i s' q hcall
          obtain rfl := hselects.startArray p s s' q hcall
          exact leaves_checkTopParser _ _ _
        · exact nofun
    rw [Json.events, Json.events, List.cons_append, List.cons_append, run_cons, run_cons]
    apply hstart.bind_congr
    rintro _ s - rfl
    rw [run_append, run_append, ih _ _ htrims]
  case object =>
    rintro members ih _ top ⟨members', rfl, htrims⟩ stack s
    rw [Json.events, Json.events, List.cons_append, List.cons_append, run_cons, run_cons]
    exact ih members' top htrims none none stack _
  case itemsNil =>
    rintro _ top rfl stack s
    rfl
  case itemsCons =>
    rintro v rest hv hrest _ top ⟨v', rest', rfl, htrims, htrims'⟩ stack s
    rw [Items.events, Items.events, run_append, run_append, ← hv v' top htrims]
    apply (run_events parsers v top stack s).bind_congr
    rintro _ s - rfl
    exact hrest rest' top htrims' stack s
  case membersNil =>
    rintro _ top rfl member member' stack s
    rfl
  case membersCons =>
    rintro k v rest hv hrest _ top (⟨v', rest', rfl, htrims, htrims'⟩ | ⟨hunknown, htrims⟩) member member' stack s
    · rw [Members.events, Members.events, List.cons_append, List.cons_append, List.cons_append, List.cons_append, run_cons,
        run_cons, handle_key_member k member member']
      apply (leaves_handle_key hselects k member' top stack s).bind_congr
      rintro _ s - rfl
      rw [List.append_assoc, List.append_assoc, run_append, run_append, ← hv v' _ htrims]
      apply (run_events parsers v _ (top :: stack) s).bind_congr
      rintro _ s - rfl
      exact hrest rest' top htrims' _ _ stack s
    · rw [Members.events, List.cons_append, List.cons_append, run_cons, handle_key_unknown hselects hunknown]
      change run parsers (v.events ++ rest.events ++ [.endObject]) (none :: top :: stack, s) = _
      rw [List.append_assoc, run_append, run_ignored]
      exact hrest _ top htrims _ _ stack s

/-- Deleting unknown members does not change the result. -/
theorem run_of_trims {v w : Json K L} {top : Option P} (h : Trims child element unknown top v w) (stack : List (Option P))
    (s : S) : run parsers v.events (top :: stack, s) = run parsers w.events (top :: stack, s) :=
  (trims_events hselects).1 v w top h stack s

end Trims

end MyHandler

end Bouncer
