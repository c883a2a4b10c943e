import Mathlib.Data.List.Basic

/-!
# Documents and filters

The documents of a document store: scalars, arrays, and objects with named fields.  `Value.get?` follows a path of
names, and a filter is a list of conditions on fields that are given by dotted paths, all of which have to hold.

Fields are written one after the other, and of two with one name the first counts (`lookup_append`).
-/

namespace Bouncer.Library

inductive Value (S : Type) where
  | scalar (s : S)
  | array (items : List (Value S))
  | object (fields : List (String × Value S))

variable {S : Type}

/-- The field of an object. -/
def lookup (fields : List (String × Value S)) (name : String) : Option (Value S) :=
  (fields.find? fun field => decide (field.1 = name)).map Prod.snd

section Lookup

variable {fields fields' : List (String × Value S)} {name : String}

@[simp] theorem lookup_nil : lookup ([] : List (String × Value S)) name = none := rfl

theorem lookup_cons (field : String × Value S) :
    lookup (field :: fields) name = if field.1 = name then some field.2 else lookup fields name := by
  unfold lookup
  rw [List.find?_cons]
  by_cases h : field.1 = name <;> simp [h]

theorem lookup_append : lookup (fields ++ fields') name = (lookup fields name).or (lookup fields' name) := by
  induction fields with
  | nil => rfl
  | cons field fields ih =>
    rw [List.cons_append, lookup_cons, lookup_cons]
    split
    · rfl
    · exact ih

theorem lookup_concat (field : String × Value S) :
    lookup (fields ++ [field]) name = (lookup fields name).or (if field.1 = name then some field.2 else none) := by
  rw [lookup_append, lookup_cons, lookup_nil]

end Lookup

/-- The fields, and those of the others whose names are new. -/
def appendElementsUnique (fields others : List (String × Value S)) : List (String × Value S) :=
  others.foldl (fun fields field => if (lookup fields field.1).isNone then fields ++ [field] else fields) fields

theorem lookup_appendElementsUnique (fields others : List (String × Value S)) (name : String) :
    lookup (appendElementsUnique fields others) name = (lookup fields name).or (lookup others name) := by
  unfold appendElementsUnique
  induction others generalizing fields with
  | nil => exact (Option.or_none).symm
  | cons field others ih =>
    rw [List.foldl_cons, ih, lookup_cons]
    by_cases hnew : (lookup fields field.1).isNone
    · rw [if_pos hnew, lookup_concat, Option.or_assoc]
      by_cases hname : field.1 = name
      · rw [if_pos hname, if_pos hname, Option.some_or]
      · rw [if_neg hname, if_neg hname, Option.none_or]
    · rw [if_neg hnew]
      by_cases hname : field.1 = name
      · -- the name is there already, and stays
        obtain ⟨v, hv⟩ : ∃ v, lookup fields field.1 = some v := by
          simpa [Option.ne_none_iff_exists'] using hnew
        rw [← hname, hv, Option.some_or, Option.some_or]
      · rw [if_neg hname]

/-- Of fields with different names, all new ones are appended, in their order. -/
theorem appendElementsUnique_eq (fields : List (String × Value S)) {others : List (String × Value S)}
    (hnodup : (others.map Prod.fst).Nodup) :
    appendElementsUnique fields others = fields ++ others.filter fun field => (lookup fields field.1).isNone := by
  induction others generalizing fields with
  | nil => exact (List.append_nil _).symm
  | cons field others ih =>
    obtain ⟨hfirst, hnodup⟩ := List.nodup_cons.1 hnodup
    have hstep : appendElementsUnique fields (field :: others) =
        appendElementsUnique (if (lookup fields field.1).isNone then fields ++ [field] else fields) others := rfl
    rw [hstep]
    by_cases hnew : (lookup fields field.1).isNone
    · have hsame : others.filter (fun other => (lookup (fields ++ [field]) other.1).isNone) =
          others.filter fun other => (lookup fields other.1).isNone := by
        apply List.filter_congr
        intro other hother
        have hname : field.1 ≠ other.1 := fun he => hfirst (he ▸ List.mem_map_of_mem hother)
        rw [lookup_concat, if_neg hname, Option.or_none]
      rw [if_pos hnew, ih (fields ++ [field]) hnodup, hsame, List.filter_cons, if_pos hnew, List.append_assoc]
      rfl
    · rw [if_neg hnew, ih fields hnodup, List.filter_cons, if_neg hnew]

namespace Value

/-- The value at a path. -/
def get? : Value S → List String → Option (Value S)
  | value, [] => some value
  | .object fields, name :: path => (lookup fields name).bind fun value => value.get? path
  | _, _ :: _ => none

@[simp] theorem get?_nil (value : Value S) : value.get? [] = some value := by cases value <;> rfl

theorem get?_object (fields : List (String × Value S)) (name : String) (path : List String) :
    (object fields).get? (name :: path) = (lookup fields name).bind fun value => value.get? path := rfl

theorem get?_object_singleton (fields : List (String × Value S)) (name : String) :
    (object fields).get? [name] = lookup fields name := by
  rw [get?_object]
  simp

/-- A field equals a scalar if its value does, or that of an element of an array. -/
def equals [DecidableEq S] : Value S → S → Bool
  | .scalar s, t => decide (s = t)
  | .array items, t => items.any fun
    | .scalar s => decide (s = t)
    | _ => false
  | .object _, _ => false

end Value

/-- The path that a dotted name stands for. -/
def dotted (name : String) : List String := (name.toList.splitOn '.').map String.ofList

/-- A condition on one field: that it has one of some values, or whether it exists. -/
inductive Condition (S : Type) where
  | eq (field : String) (values : List S)
  | exists (field : String) (present : Bool)

/-- What a condition says about a document.  Without values there is no condition. -/
def Condition.holds [DecidableEq S] (document : Value S) : Condition S → Bool
  | .eq field values => values.isEmpty || values.any fun s =>
    match document.get? (dotted field) with
    | some value => value.equals s
    | none => false
  | .exists field present => (document.get? (dotted field)).isSome == present

/-- The document satisfies all conditions. -/
def satisfies [DecidableEq S] (filter : List (Condition S)) (document : Value S) : Bool :=
  filter.all (Condition.holds document)

section Condition

variable [DecidableEq S] {document : Value S} {field : String} {path : List String}

theorem holds_eq_of_scalar {s t : S} (hpath : dotted field = path) (h : document.get? path = some (.scalar s)) :
    (Condition.eq field [t]).holds document = decide (s = t) := by
  simp [Condition.holds, hpath, h, Value.equals]

theorem holds_eq_of_none {t : S} (hpath : dotted field = path) (h : document.get? path = none) :
    (Condition.eq field [t]).holds document = false := by
  simp [Condition.holds, hpath, h]

theorem holds_exists {present : Bool} (hpath : dotted field = path) :
    (Condition.exists field present).holds document = ((document.get? path).isSome == present) := by
  rw [← hpath]
  rfl

end Condition

end Bouncer.Library
