import Bouncer.Core.SanitizeStr

/-!
# Property trees

`PropertyTree` collects strings, arrays and subtrees under labels, and `write_json` writes it with a writer of its own,
which leaves the quotation marks and the backslashes as they are, since `sanitizeStr` has dealt with them.  But it has
dealt with the newlines, too, which the writer escapes once more, and it takes a quotation mark after a backslash to be
escaped, though this backslash has been doubled.

An empty array or subtree is a node without children, of which the writer writes nothing at all.

So the text is one of what was added exactly if no array and no subtree is empty, there is no newline in the strings, and no
quotation mark directly after a backslash (`decodes_iff`).
-/

namespace Bouncer

open Library (Json)
open Library.Json (Text Token Mode Items Members quotationMark reverseSolidus solidus read scan)

mutual

inductive Ptree where
  | node (data : Text) (children : Ptrees)

inductive Ptrees where
  | nil
  | cons (key : Text) (child : Ptree) (rest : Ptrees)

end

/-! ### The writer -/

/-- `hexdigits[d]`. -/
def hexdigits (d : ℕ) : BitVec 8 := if d < 10 then .ofNat 8 (0x30 + d) else .ofNat 8 (0x41 + (d - 10))

/-- One turn of the loop of `create_escapes`. -/
def createEscape (c : BitVec 8) : Text :=
  if c = 0x20 ∨ c = 0x21 ∨ (0x23 ≤ c ∧ c ≤ 0x2E) ∨ (0x30 ≤ c ∧ c ≤ 0x5B) ∨ (0x5D ≤ c ∧ c ≤ 0xFF) ∨ c = quotationMark then [c]
  else if c = 0x08 then [reverseSolidus, 0x62]
  else if c = 0x0C then [reverseSolidus, 0x66]
  else if c = 0x0A then [reverseSolidus, 0x6E]
  else if c = 0x0D then [reverseSolidus, 0x72]
  else if c = 0x09 then [reverseSolidus, 0x74]
  else if c = solidus then [reverseSolidus, solidus]
  else if c = reverseSolidus then [reverseSolidus]
  else
    let u := min c.toNat 0xFFFF
    [reverseSolidus, 0x75, hexdigits (u / 4096), hexdigits (u % 4096 / 256), hexdigits (u % 256 / 16), hexdigits (u % 16)]

def createEscapes (s : Text) : Text := s.flatMap createEscape

def Ptrees.isEmpty : Ptrees → Bool
  | .nil => true
  | .cons .. => false

/-- `pt.count(Str()) == pt.size()`. -/
def Ptrees.unnamed : Ptrees → Bool
  | .nil => true
  | .cons key _ rest => key.isEmpty && rest.unnamed

mutual

/-- `write_json_helper` without `pretty`, where `nested` is `indent > 0`. -/
def Ptree.write (nested : Bool) : Ptree → Text
  | .node data children =>
    if nested && children.isEmpty then createEscapes data
    else if nested && children.unnamed then 0x5B :: children.writeItems ++ [0x5D]
    else 0x7B :: children.writeMembers ++ [0x7D]

def Ptrees.writeItems : Ptrees → Text
  | .nil => []
  | .cons _ child .nil => child.write true
  | .cons _ child rest => child.write true ++ 0x2C :: rest.writeItems

def Ptrees.writeMembers : Ptrees → Text
  | .nil => []
  | .cons key child .nil => quotationMark :: createEscapes key ++ quotationMark :: 0x3A :: child.write true
  | .cons key child rest =>
    quotationMark :: createEscapes key ++ quotationMark :: 0x3A :: child.write true ++ 0x2C :: rest.writeMembers

end

mutual

/-- `verify_json`, where `root` is `depth == 0`. -/
def Ptree.verify (root : Bool) : Ptree → Bool
  | .node data children =>
    !(root && !data.isEmpty) && !(!data.isEmpty && !children.isEmpty) && children.verify

def Ptrees.verify : Ptrees → Bool
  | .nil => true
  | .cons _ child rest => child.verify false && rest.verify

end

/-! ### The tree -/

/-- `push_back`. -/
def Ptrees.concat (trees : Ptrees) (key : Text) (child : Ptree) : Ptrees :=
  match trees with
  | .nil => .cons key child .nil
  | .cons key' child' rest => .cons key' child' (rest.concat key child)

def Ptree.children : Ptree → Ptrees
  | .node _ children => children

/-- `add_child`, for a label that is no path. -/
def Ptree.addChild (tree : Ptree) (label : Text) (child : Ptree) : Ptree :=
  match tree with
  | .node data children => .node data (children.concat label child)

def Ptree.putValue (tree : Ptree) (data : Text) : Ptree := .node data tree.children

/-- `stringTranslator::put_value`. -/
def stringTranslator (v : Text) : Text := quotationMark :: v ++ [quotationMark]

structure PropertyTree where
  tree : Ptree := .node [] .nil
  hackStrings : Bool := true

namespace PropertyTree

/-- `addToTree` for a string, where a loop of `sanitizeStr` takes at most `n` turns.  The label is either empty or no path;
it is sanitised, but then used as it is. -/
def addToTree (n : ℕ) (t : PropertyTree) (label value : Text) : Option PropertyTree := do
  let _labelSanitized ← sanitizeStr n label
  let valueSanitized ← sanitizeStr n value
  let data := if t.hackStrings then stringTranslator valueSanitized else valueSanitized
  some { t with
    tree := if label.isEmpty then t.tree.putValue data else t.tree.addChild label (.node data .nil) }

/-- An array without names. -/
def arrayTree : List Ptree → Ptrees
  | [] => .nil
  | child :: rest => .cons [] child (arrayTree rest)

/-- `addToTree` for a vector of strings. -/
def addStrings (n : ℕ) (t : PropertyTree) (label : Text) (values : List Text) : Option PropertyTree := do
  let children ← values.mapM fun value => addToTree n {} [] value
  some { t with tree := t.tree.addChild label (.node [] (arrayTree (children.map PropertyTree.tree))) }

def addArrayObjects (t : PropertyTree) (label : Text) (value : List PropertyTree) : PropertyTree :=
  { t with tree := t.tree.addChild label (.node [] (arrayTree (value.map PropertyTree.tree))) }

def mergeSubTree (t : PropertyTree) (label : Text) (subTree : PropertyTree) : PropertyTree :=
  { t with tree := t.tree.addChild label subTree.tree }

/-- `write_json`, or an exception. -/
def writeJson (t : PropertyTree) : Option Text :=
  if t.tree.verify true then some (t.tree.write false ++ [newline]) else none

end PropertyTree

/-! ### What is added -/

/-- A name that is no path and needs no escaping, like those that are given in the source. -/
structure Label where
  text : Text
  ne_nil : text ≠ []
  dot_notMem : 0x2E ∉ text
  plain : ∀ c ∈ text, c ≠ quotationMark ∧ c ≠ reverseSolidus

/-- A tree to which the strings, arrays and subtrees of an object were added. -/
inductive Holds : PropertyTree → Members Label Text → Prop
  | new : Holds {} .nil
  | string {t t' : PropertyTree} {members : Members Label Text} {n : ℕ} {label : Label} {value : Text} :
    Holds t members → t.addToTree n label.text value = some t' → Holds t' (members.concat label (.scalar value))
  | strings {t t' : PropertyTree} {members : Members Label Text} {n : ℕ} {label : Label} {values : List Text} :
    Holds t members → t.addStrings n label.text values = some t' →
      Holds t' (members.concat label (.array (.ofList (values.map .scalar))))
  | objects {t : PropertyTree} {members : Members Label Text} {label : Label}
    {value : List (PropertyTree × Members Label Text)} :
    Holds t members → (∀ e ∈ value, Holds e.1 e.2) →
      Holds (t.addArrayObjects label.text (value.map Prod.fst))
        (members.concat label (.array (.ofList (value.map fun e => .object e.2))))
  | subTree {t subTree : PropertyTree} {members subMembers : Members Label Text} {label : Label} :
    Holds t members → Holds subTree subMembers →
      Holds (t.mergeSubTree label.text subTree) (members.concat label (.object subMembers))

/-- A JSON text of the members of an object. -/
def DecodesTo (text : Text) (members : Members Label Text) : Prop :=
  read .between text = some ((Json.object members).tokens Label.text Token.string)

mutual

/-- No array and no object is empty. -/
def Filled : Json Label Text → Prop
  | .scalar _ => True
  | .array items => items ≠ .nil ∧ FilledItems items
  | .object members => members ≠ .nil ∧ FilledMembers members

def FilledItems : Items Label Text → Prop
  | .nil => True
  | .cons v rest => Filled v ∧ FilledItems rest

def FilledMembers : Members Label Text → Prop
  | .nil => True
  | .cons _ v rest => Filled v ∧ FilledMembers rest

end

/-- Neither a newline, nor a quotation mark directly after a backslash. -/
def Escapable (s : Text) : Prop :=
  newline ∉ s ∧ ∀ a b, s ≠ a ++ reverseSolidus :: quotationMark :: b

/-! ### Strings -/

variable {members : Members Label Text}

namespace PropertyTree

open Library.Json (read_scan read_string read_close read_quotationMark read_separator)

/-- What a byte is written as, given whether a backslash precedes it. -/
def piece (after : Bool) (c : BitVec 8) : Text :=
  if c = reverseSolidus then [reverseSolidus, reverseSolidus]
  else if isSpecial after c then reverseSolidus :: createEscape c
  else createEscape c

private theorem createEscapes_append (s t : Text) : createEscapes (s ++ t) = createEscapes s ++ createEscapes t :=
  List.flatMap_append

/-- What the rest of a string is written as. -/
def written (after : Bool) (s : Text) : Text := createEscapes (escapeWith isSpecial after (doubleBackSlashes s))

@[simp] theorem written_nil (after : Bool) : written after [] = [] := rfl

private theorem written_cons (after : Bool) (c : BitVec 8) (cs : Text) :
    written after (c :: cs) = piece after c ++ written (decide (c = reverseSolidus)) cs := by
  unfold written piece
  rw [doubleBackSlashes_cons]
  by_cases hc : c = reverseSolidus
  · subst hc
    cases after <;> rfl
  · rw [if_neg hc, if_neg hc, List.cons_append, List.nil_append, escapeWith, createEscapes_append]
    by_cases hspecial : isSpecial after c = true
    · rw [if_pos hspecial, if_pos hspecial]
      simp [createEscapes, createEscape, reverseSolidus, quotationMark, solidus]
    · rw [if_neg hspecial, if_neg hspecial]
      simp [createEscapes]

variable {c : BitVec 8}

private theorem scan_createEscape (hquote : c ≠ quotationMark) (hslash : c ≠ reverseSolidus) :
    scan .plain (createEscape c) = some (.plain, [c]) := by
  revert c
  decide +kernel

private theorem scan_piece {after : Bool} (hnewline : c ≠ newline) (hquote : ¬(after = true ∧ c = quotationMark)) :
    scan .plain (piece after c) = some (.plain, [c]) := by
  revert after c
  decide +kernel

private theorem scan_piece_newline (after : Bool) : scan .plain (piece after newline) = some (.plain, [reverseSolidus, 0x6E]) := by
  revert after
  decide

private theorem piece_quotationMark : piece true quotationMark = [quotationMark] := by
  decide

/-- Nothing in the rest of a string is lost. -/
def EscapableAfter : Bool → Text → Prop
  | _, [] => True
  | after, c :: cs =>
    c ≠ newline ∧ ¬(after = true ∧ c = quotationMark) ∧ EscapableAfter (decide (c = reverseSolidus)) cs

/-- The rest of a string is read back exactly if nothing of it is lost. -/
theorem read_written (after : Bool) (s read' rest : Text) (ts : List Token) :
    read (.string .plain read') (written after s ++ quotationMark :: rest) = some (.string (read' ++ s) :: ts) ↔
      EscapableAfter after s ∧ read .between rest = some ts := by
  induction s generalizing after read' with
  | nil =>
    rw [written_nil, List.nil_append, read_close, List.append_nil]
    simp [EscapableAfter]
  | cons c cs ih =>
    rw [written_cons, List.append_assoc]
    by_cases hnewline : c = newline
    · subst hnewline
      rw [read_scan (scan_piece_newline after)]
      refine iff_of_false (fun h => ?_) (fun h => h.1.1 rfl)
      obtain ⟨s', rest', he⟩ := read_string h
      simp [newline, reverseSolidus] at he
    · by_cases hquote : after = true ∧ c = quotationMark
      · obtain ⟨rfl, rfl⟩ := hquote
        rw [piece_quotationMark, List.cons_append, List.nil_append, read_close]
        refine iff_of_false (fun h => ?_) (fun h => h.1.2.1 ⟨rfl, rfl⟩)
        obtain ⟨ts', -, he⟩ := Option.map_eq_some_iff.mp h
        simp at he
      · have := ih (decide (c = reverseSolidus)) (read' ++ [c])
        rw [List.append_assoc, List.cons_append, List.nil_append] at this
        rw [read_scan (scan_piece hnewline hquote), this]
        simp [EscapableAfter, hnewline, hquote]

private theorem escapable_cons (c : BitVec 8) (cs : Text) :
    Escapable (c :: cs) ↔ c ≠ newline ∧ ¬(c = reverseSolidus ∧ cs.head? = some quotationMark) ∧ Escapable cs := by
  unfold Escapable
  rw [List.mem_cons, not_or]
  constructor
  · rintro ⟨⟨hc, hcs⟩, hsplit⟩
    refine ⟨Ne.symm hc, fun ⟨hslash, hhead⟩ => ?_, hcs, fun a b he => hsplit (c :: a) b (by rw [he]; rfl)⟩
    obtain ⟨b, rfl⟩ := List.head?_eq_some_iff.mp hhead
    exact hsplit [] b (by rw [hslash]; rfl)
  · rintro ⟨hc, hhead, hcs, hsplit⟩
    refine ⟨⟨Ne.symm hc, hcs⟩, fun a b he => ?_⟩
    cases a with
    | nil =>
      obtain ⟨rfl, rfl⟩ := List.cons.inj he
      exact hhead ⟨rfl, rfl⟩
    | cons d a => exact hsplit a b (List.cons.inj he).2

private theorem escapableAfter_iff (after : Bool) (s : Text) :
    EscapableAfter after s ↔ Escapable s ∧ ¬(after = true ∧ s.head? = some quotationMark) := by
  induction s generalizing after with
  | nil => simp [EscapableAfter, Escapable]
  | cons c cs ih =>
    rw [EscapableAfter, ih, escapable_cons, decide_eq_true_iff, List.head?_cons, Option.some.injEq]
    tauto

private theorem read_stringTranslator (s rest : Text) (ts : List Token) :
    read .between (createEscapes (stringTranslator (escapeSpecials (doubleBackSlashes s))) ++ rest) =
        some (.string s :: ts) ↔ Escapable s ∧ read .between rest = some ts := by
  have hquoted : createEscapes (stringTranslator (escapeSpecials (doubleBackSlashes s))) ++ rest =
      quotationMark :: (written false s ++ quotationMark :: rest) := by
    unfold stringTranslator
    rw [List.cons_append, ← List.singleton_append, createEscapes_append, createEscapes_append, List.append_assoc,
      List.append_assoc]
    rfl
  have hread := read_written false s [] rest ts
  rw [List.nil_append, escapableAfter_iff] at hread
  rw [hquoted, read_quotationMark, hread]
  simp

private theorem read_label (label : Label) (rest : Text) :
    read .between (quotationMark :: createEscapes label.text ++ quotationMark :: rest) =
      (read .between rest).map (.string label.text :: ·) := by
  have hscan : ∀ text : Text, (∀ c ∈ text, c ≠ quotationMark ∧ c ≠ reverseSolidus) →
      scan .plain (createEscapes text) = some (.plain, text) := by
    intro text htext
    induction text with
    | nil => rfl
    | cons c cs ih =>
      obtain ⟨hquote, hslash⟩ := htext c List.mem_cons_self
      have hfirst : scan .plain (createEscapes [c]) = some (.plain, [c]) := by
        simpa [createEscapes] using scan_createEscape hquote hslash
      rw [← List.singleton_append, createEscapes_append, Json.scan_append hfirst,
        ih fun d hd => htext d (List.mem_cons_of_mem _ hd)]
      rfl
  rw [List.cons_append, read_quotationMark, read_scan (hscan label.text label.plain), read_close, List.nil_append]

/-! ### Trees -/

mutual

/-- The tree of a value. -/
def treeOf : Json Label Text → Ptree
  | .scalar s => .node (stringTranslator (escapeSpecials (doubleBackSlashes s))) .nil
  | .array items => .node [] (treesOfItems items)
  | .object members => .node [] (treesOfMembers members)

def treesOfItems : Items Label Text → Ptrees
  | .nil => .nil
  | .cons v rest => .cons [] (treeOf v) (treesOfItems rest)

def treesOfMembers : Members Label Text → Ptrees
  | .nil => .nil
  | .cons label v rest => .cons label.text (treeOf v) (treesOfMembers rest)

end

/-- A text that starts with what follows a value. -/
def Delimited (rest : Text) : Prop :=
  ∃ c token rest', rest = c :: rest' ∧ Json.separator c = some [token] ∧ token ≠ .openBracket ∧ token ≠ .openBrace

private theorem unnamed_treesOfItems (items : Items Label Text) : (treesOfItems items).unnamed = true := by
  cases items with
  | nil => rfl
  | cons v rest =>
    rw [treesOfItems, Ptrees.unnamed, unnamed_treesOfItems rest]
    rfl

private theorem unnamed_treesOfMembers (h : members ≠ .nil) :
    (treesOfMembers members).unnamed = false := by
  cases members with
  | nil => exact absurd rfl h
  | cons label v rest =>
    rw [treesOfMembers, Ptrees.unnamed, Bool.and_eq_false_iff]
    exact .inl (by simpa using label.ne_nil)

private theorem isEmpty_treesOfItems {items : Items Label Text} (h : items ≠ .nil) : (treesOfItems items).isEmpty = false := by
  cases items with
  | nil => exact absurd rfl h
  | cons v rest => rfl

private theorem isEmpty_treesOfMembers (h : members ≠ .nil) :
    (treesOfMembers members).isEmpty = false := by
  cases members with
  | nil => exact absurd rfl h
  | cons label v rest => rfl

private theorem verify_treesOf :
    (∀ v, (treeOf v).verify false = true) ∧ (∀ items, (treesOfItems items).verify = true) ∧
      ∀ members, (treesOfMembers members).verify = true := by
  apply Json.induct
  case scalar =>
    intro l
    simp [treeOf, Ptree.verify, Ptrees.verify, Ptrees.isEmpty]
  case array | object =>
    intro _ ih
    simp [treeOf, Ptree.verify, ih]
  case itemsNil | membersNil => rfl
  case itemsCons =>
    intro v rest hv hrest
    simp [treesOfItems, Ptrees.verify, hv, hrest]
  case membersCons =>
    intro label v rest hv hrest
    simp [treesOfMembers, Ptrees.verify, hv, hrest]

private theorem write_array {items : Items Label Text} (h : items ≠ .nil) :
    (treeOf (.array items)).write true = 0x5B :: (treesOfItems items).writeItems ++ [0x5D] := by
  rw [treeOf, Ptree.write, isEmpty_treesOfItems h, unnamed_treesOfItems]
  rfl

private theorem write_object (h : members ≠ .nil) :
    (treeOf (.object members)).write true = 0x7B :: (treesOfMembers members).writeMembers ++ [0x7D] := by
  rw [treeOf, Ptree.write, isEmpty_treesOfMembers h, unnamed_treesOfMembers h]
  rfl

private theorem read_brackets {c d : BitVec 8} {opening closing : Token} (hc : Json.separator c = some [opening])
    (hd : Json.separator d = some [closing]) {text rest : Text} {inner ts : List Token} {P : Prop}
    (h : read .between (text ++ d :: rest) = some (inner ++ closing :: ts) ↔
      P ∧ read .between (d :: rest) = some (closing :: ts)) :
    read .between (c :: text ++ [d] ++ rest) = some (opening :: inner ++ [closing] ++ ts) ↔
      P ∧ read .between rest = some ts := by
  rw [read_separator hd] at h
  have hsplit : c :: text ++ [d] ++ rest = c :: (text ++ d :: rest) := by simp
  rw [hsplit, read_separator hc]
  simp only [List.cons_append, List.nil_append, List.append_assoc, Option.map_eq_some_iff, List.cons.injEq,
    true_and, exists_eq_right] at h ⊢
  exact h

private theorem read_token {token : Token} (hc : Json.separator c = some [token]) (rest : Text) (ts : List Token) :
    read .between (c :: rest) = some (token :: ts) ↔ read .between rest = some ts := by
  rw [read_separator hc]
  simp only [List.cons_append, List.nil_append, Option.map_eq_some_iff, List.cons.injEq, true_and, exists_eq_right]

private theorem read_nothing {rest : Text} (hrest : Delimited rest) {opening : Token} (ho : opening = .openBracket ∨ opening = .openBrace)
    (ts : List Token) : read .between rest ≠ some (opening :: ts) := by
  obtain ⟨c, token, rest', rfl, hc, hbracket, hbrace⟩ := hrest
  rw [read_separator hc]
  intro h
  obtain ⟨ts', -, he⟩ := Option.map_eq_some_iff.mp h
  obtain ⟨rfl, -⟩ := List.cons.inj he
  exact ho.elim hbracket hbrace

private theorem read_comma {text tail rest : Text} {first inner ts : List Token} {P Q : Prop}
    (hfirst : ∀ rest ts, Delimited rest →
      (read .between (text ++ rest) = some (first ++ ts) ↔ P ∧ read .between rest = some ts))
    (htail : read .between (tail ++ rest) = some (inner ++ ts) ↔ Q ∧ read .between rest = some ts) :
    read .between (text ++ 0x2C :: tail ++ rest) = some (first ++ .comma :: inner ++ ts) ↔
      (P ∧ Q) ∧ read .between rest = some ts := by
  rw [List.append_assoc, List.append_assoc, List.cons_append, List.cons_append,
    hfirst _ _ ⟨_, .comma, _, rfl, rfl, nofun, nofun⟩, read_token rfl, htail, and_assoc]

private theorem read_member (label : Label) {text : Text} {value : List Token} {P : Prop}
    (h : ∀ rest ts, Delimited rest →
      (read .between (text ++ rest) = some (value ++ ts) ↔ P ∧ read .between rest = some ts))
    (rest : Text) (ts : List Token) (hrest : Delimited rest) :
    read .between (quotationMark :: createEscapes label.text ++ quotationMark :: 0x3A :: text ++ rest) =
        some (.string label.text :: .colon :: value ++ ts) ↔ P ∧ read .between rest = some ts := by
  have hsplit : quotationMark :: createEscapes label.text ++ quotationMark :: 0x3A :: text ++ rest =
      quotationMark :: createEscapes label.text ++ quotationMark :: 0x3A :: (text ++ rest) := by simp
  have hseparator : Json.separator 0x3A = some [.colon] := rfl
  have hcolon := (read_token hseparator (text ++ rest) (value ++ ts)).trans (h rest ts hrest)
  rw [hsplit, read_label, ← hcolon]
  simp

/-- What is written of a value is read as its tokens exactly if nothing in it is empty and its strings are escapable. -/
theorem read_write :
    (∀ v rest ts, Delimited rest → (read .between ((treeOf v).write true ++ rest) =
        some (v.tokens Label.text Token.string ++ ts) ↔
          (Filled v ∧ ∀ s ∈ v.scalars, Escapable s) ∧ read .between rest = some ts)) ∧
      (∀ items rest ts, Delimited rest → (read .between ((treesOfItems items).writeItems ++ rest) =
        some (items.tokens Label.text Token.string ++ ts) ↔
          (FilledItems items ∧ ∀ s ∈ items.scalars, Escapable s) ∧ read .between rest = some ts)) ∧
      ∀ members rest ts, Delimited rest → (read .between ((treesOfMembers members).writeMembers ++ rest) =
        some (members.tokens Label.text Token.string ++ ts) ↔
          (FilledMembers members ∧ ∀ s ∈ members.scalars, Escapable s) ∧ read .between rest = some ts) := by
  have hnil : True ∧ ∀ s ∈ ([] : List Text), Escapable s := ⟨trivial, List.forall_mem_nil _⟩
  apply Json.induct
  case scalar =>
    intro s rest ts _
    rw [Filled, true_and, Json.scalars, List.forall_mem_singleton]
    exact read_stringTranslator s rest ts
  case array =>
    intro items ih rest ts hrest
    by_cases hitems : items = .nil
    · subst hitems
      exact iff_of_false (read_nothing hrest (.inl rfl) _) fun h => h.1.1.1 rfl
    rw [Filled, and_iff_right hitems, write_array hitems]
    exact read_brackets rfl rfl (ih (0x5D :: rest) (.closeBracket :: ts) ⟨_, .closeBracket, _, rfl, rfl, nofun, nofun⟩)
  case object =>
    intro members ih rest ts hrest
    by_cases hmembers : members = .nil
    · subst hmembers
      exact iff_of_false (read_nothing hrest (.inr rfl) _) fun h => h.1.1.1 rfl
    rw [Filled, and_iff_right hmembers, write_object hmembers]
    exact read_brackets rfl rfl (ih (0x7D :: rest) (.closeBrace :: ts) ⟨_, .closeBrace, _, rfl, rfl, nofun, nofun⟩)
  case itemsNil | membersNil =>
    intro rest ts _
    simp [treesOfItems, treesOfMembers, Ptrees.writeItems, Ptrees.writeMembers, Items.tokens, Members.tokens,
      Items.scalars, Members.scalars, FilledItems, FilledMembers]
  case itemsCons =>
    intro v tail hv htail rest ts hrest
    rw [Items.scalars, List.forall_mem_append, FilledItems, and_and_and_comm]
    cases tail with
    | nil =>
      rw [FilledItems, Items.scalars, and_iff_left hnil]
      exact hv rest ts hrest
    | cons w tail => exact read_comma hv (htail rest ts hrest)
  case membersCons =>
    intro label v tail hv htail rest ts hrest
    rw [Members.scalars, List.forall_mem_append, FilledMembers, and_and_and_comm]
    have hmember := read_member label hv
    cases tail with
    | nil =>
      rw [FilledMembers, Members.scalars, and_iff_left hnil]
      exact hmember rest ts hrest
    | cons label' w tail => exact read_comma hmember (htail rest ts hrest)

/-! ### What is added -/

private theorem treesOfMembers_concat (members : Members Label Text) (label : Label) (v : Json Label Text) :
    treesOfMembers (members.concat label v) = (treesOfMembers members).concat label.text (treeOf v) := by
  cases members with
  | nil => rfl
  | cons label' w rest =>
    rw [Members.concat, treesOfMembers, treesOfMembers_concat rest, treesOfMembers, Ptrees.concat]

private theorem scalars_concat (members : Members Label Text) (label : Label) (v : Json Label Text) :
    (members.concat label v).scalars = members.scalars ++ v.scalars := by
  cases members with
  | nil => simp [Members.concat, Members.scalars]
  | cons label' w rest =>
    rw [Members.concat, Members.scalars, scalars_concat rest, Members.scalars, List.append_assoc]

private theorem treesOfItems_ofList (vs : List (Json Label Text)) :
    treesOfItems (.ofList vs) = arrayTree (vs.map treeOf) := by
  induction vs with
  | nil => rfl
  | cons v vs ih => rw [Items.ofList, treesOfItems, ih, List.map_cons, arrayTree]

private theorem scalars_ofList (vs : List (Json Label Text)) : (Items.ofList vs).scalars = vs.flatMap Json.scalars := by
  induction vs with
  | nil => rfl
  | cons v vs ih => rw [Items.ofList, Items.scalars, ih, List.flatMap_cons]

private theorem addToTree_eq {n : ℕ} {t t' : PropertyTree} {label value : Text} (hhack : t.hackStrings = true)
    (hfits : Fits value) (h : t.addToTree n label value = some t') :
    t' = { t with
      tree :=
        if label.isEmpty then t.tree.putValue (stringTranslator (escapeSpecials (doubleBackSlashes value)))
        else t.tree.addChild label (treeOf (.scalar value)) } := by
  obtain ⟨tree, hack⟩ := t
  obtain rfl : hack = true := hhack
  obtain ⟨_, -, h⟩ := Option.bind_eq_some_iff.mp h
  obtain ⟨word, hword, h⟩ := Option.bind_eq_some_iff.mp h
  obtain rfl := (sanitizeStr_iff hfits word).mp ⟨n, hword⟩
  exact (Option.some.inj h).symm

private theorem tree_of_mapM {n : ℕ} {values : List Text} {children : List PropertyTree}
    (hfits : ∀ value ∈ values, Fits value)
    (h : values.mapM (fun value => addToTree n {} [] value) = some children) :
    children.map PropertyTree.tree = (values.map Json.scalar).map treeOf := by
  induction values generalizing children with
  | nil =>
    rw [List.mapM_nil] at h
    cases h
    rfl
  | cons value values ih =>
    rw [List.mapM_cons] at h
    obtain ⟨child, hchild, h⟩ := Option.bind_eq_some_iff.mp h
    obtain ⟨children', hchildren', he⟩ := Option.bind_eq_some_iff.mp h
    obtain rfl := Option.some.inj he
    have hvalue := addToTree_eq rfl (hfits value List.mem_cons_self) hchild
    rw [List.map_cons, ih (fun v hv => hfits v (List.mem_cons_of_mem _ hv)) hchildren', hvalue]
    rfl

private theorem addStrings_eq {n : ℕ} {t t' : PropertyTree} {label : Text} {values : List Text}
    (hfits : ∀ value ∈ values, Fits value) (h : t.addStrings n label values = some t') :
    t' = { t with tree := t.tree.addChild label (treeOf (.array (.ofList (values.map .scalar)))) } := by
  obtain ⟨children, hchildren, h⟩ := Option.bind_eq_some_iff.mp h
  rw [treeOf, treesOfItems_ofList, ← tree_of_mapM hfits hchildren]
  exact (Option.some.inj h).symm

private theorem addChild_treeOf {tree : Ptree} (h : tree = treeOf (.object members))
    (label : Label) (v : Json Label Text) :
    tree.addChild label.text (treeOf v) = treeOf (.object (members.concat label v)) := by
  rw [h, treeOf, Ptree.addChild, ← treesOfMembers_concat, treeOf]

end PropertyTree

open PropertyTree

/-- What the tree is, if the positions in its strings fit. -/
theorem Holds.tree_eq {t : PropertyTree} (h : Holds t members)
    (hfits : ∀ s ∈ members.scalars, Fits s) : t.hackStrings = true ∧ t.tree = treeOf (.object members) := by
  induction h with
  | new => exact ⟨rfl, rfl⟩
  | @string t t' members n label value _ ht' ih =>
    rw [scalars_concat, List.forall_mem_append] at hfits
    obtain ⟨hhack, htree⟩ := ih hfits.1
    obtain rfl := addToTree_eq hhack (hfits.2 value (by simp [Json.scalars])) ht'
    refine ⟨hhack, ?_⟩
    rw [← addChild_treeOf htree]
    exact if_neg (by simpa using label.ne_nil)
  | @strings t t' members n label values _ ht' ih =>
    rw [scalars_concat, List.forall_mem_append] at hfits
    obtain ⟨hhack, htree⟩ := ih hfits.1
    have hvalues : ∀ value ∈ values, Fits value := fun value hvalue =>
      hfits.2 value (by simpa [Json.scalars, scalars_ofList, List.flatMap_map] using hvalue)
    obtain rfl := addStrings_eq hvalues ht'
    exact ⟨hhack, addChild_treeOf htree _ _⟩
  | @objects t members label value _ _ ih ihs =>
    rw [scalars_concat, List.forall_mem_append] at hfits
    obtain ⟨hhack, htree⟩ := ih hfits.1
    have hvalue : ∀ e ∈ value, e.1.tree = treeOf (.object e.2) := fun e he =>
      (ihs e he fun s hs => hfits.2 s (by
        rw [Json.scalars, scalars_ofList, List.flatMap_map]
        exact List.mem_flatMap.mpr ⟨e, he, hs⟩)).2
    refine ⟨hhack, ?_⟩
    rw [← addChild_treeOf htree, treeOf, treesOfItems_ofList, List.map_map]
    have htrees : (value.map Prod.fst).map PropertyTree.tree = value.map (treeOf ∘ fun e => .object e.2) := by
      rw [List.map_map]
      exact List.map_congr_left fun e he => hvalue e he
    unfold addArrayObjects
    rw [htrees]
  | @subTree t subTree members subMembers label _ _ ih ih' =>
    rw [scalars_concat, List.forall_mem_append] at hfits
    obtain ⟨hhack, htree⟩ := ih hfits.1
    obtain ⟨-, hsub⟩ := ih' hfits.2
    refine ⟨hhack, ?_⟩
    rw [← addChild_treeOf htree, ← hsub]
    rfl

/-- The text that is written of a tree is one of what was added to it exactly if no array and no subtree is empty and all
strings are escapable. -/
theorem decodes_iff {t : PropertyTree} {members : Members Label Text} (h : Holds t members)
    (hfits : ∀ s ∈ members.scalars, Fits s) :
    (∃ text, t.writeJson = some text ∧ DecodesTo text members) ↔
      FilledMembers members ∧ ∀ s ∈ members.scalars, Escapable s := by
  obtain ⟨-, htree⟩ := h.tree_eq hfits
  have hwrite : t.writeJson = some (0x7B :: (treesOfMembers members).writeMembers ++ [0x7D] ++ [newline]) := by
    unfold PropertyTree.writeJson
    rw [htree, treeOf, if_pos]
    · rfl
    · simp [Ptree.verify, verify_treesOf.2.2 members]
  have hopen : Json.separator 0x7B = some [.openBrace] := rfl
  have hclose : Json.separator 0x7D = some [.closeBrace] := rfl
  have hread := read_brackets hopen hclose
    (read_write.2.2 members (0x7D :: [newline]) [.closeBrace] ⟨_, _, _, rfl, hclose, nofun, nofun⟩)
  rw [List.append_nil] at hread
  simp only [hwrite, Option.some.injEq, exists_eq_left', DecodesTo, Json.tokens, hread]
  exact and_iff_left rfl

/-- The label `a`. -/
private def letter : Label := ⟨[0x61], by decide, by decide, by decide⟩

/-- A quotation mark, a backslash and a tabulator are read back. -/
theorem decodes_quoted :
    ∃ text, (PropertyTree.mk (.node [] (.cons [0x61] (.node [0x22, 0x5C, 0x22, 0x5C, 0x5C, 0x09, 0x22] .nil) .nil)) true).writeJson =
        some text ∧ DecodesTo text (.cons letter (.scalar [0x22, 0x5C, 0x09]) .nil) := by
  refine (decodes_iff (.string .new (show ({} : PropertyTree).addToTree 4 letter.text [0x22, 0x5C, 0x09] = _ from rfl)) ?_).mpr ?_
  · intro s hs
    obtain rfl := List.mem_singleton.mp hs
    exact fits_of_length (by decide)
  · refine ⟨⟨trivial, trivial⟩, fun s hs => ?_⟩
    obtain rfl := List.mem_singleton.mp hs
    have hnil : Escapable [] := by simp [Escapable]
    iterate 3 refine (escapable_cons _ _).mpr ⟨by decide, by decide, ?_⟩
    exact hnil

/-- A newline is not. -/
theorem not_decodes_newline :
    ¬ ∀ t members, Holds t members → ∃ text, t.writeJson = some text ∧ DecodesTo text members := by
  intro h
  obtain ⟨text, hwrite, hread⟩ := h ⟨.node [] (.cons [0x61] (.node [0x22, 0x5C, 0x0A, 0x22] .nil) .nil), true⟩ _
    (.string .new (show ({} : PropertyTree).addToTree 2 letter.text [newline] = _ from rfl))
  obtain rfl := Option.some.inj hwrite
  revert hread
  unfold DecodesTo
  decide

end Bouncer
