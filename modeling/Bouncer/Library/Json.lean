import Mathlib.Data.BitVec

/-!
# JSON

The values of JSON, for any type of keys and of scalars, the events that they are reported as, and how a text of bytes is
read.  The text is cut into tokens by an automaton (`read`), and it is a text of a value if they are the tokens of the
value (`Json.tokens`).

Between the quotation marks of a string the automaton is in one of a few modes, and what it has read in one of them only
grows (`read_string`).
-/

namespace Bouncer.Library

mutual

inductive Json (K L : Type) where
  | scalar (l : L)
  | array (items : Json.Items K L)
  | object (members : Json.Members K L)

inductive Json.Items (K L : Type) where
  | nil
  | cons (v : Json K L) (rest : Json.Items K L)

inductive Json.Members (K L : Type) where
  | nil
  | cons (key : K) (v : Json K L) (rest : Json.Members K L)

end

namespace Json

variable {K L : Type}

/-- Induction on a value, with the items and the members below it. -/
theorem induct {P : Json K L → Prop} {Q : Items K L → Prop} {R : Members K L → Prop} (scalar : ∀ l, P (.scalar l))
    (array : ∀ items, Q items → P (.array items)) (object : ∀ members, R members → P (.object members)) (itemsNil : Q .nil)
    (itemsCons : ∀ v rest, P v → Q rest → Q (.cons v rest)) (membersNil : R .nil)
    (membersCons : ∀ key v rest, P v → R rest → R (.cons key v rest)) :
    (∀ v, P v) ∧ (∀ items, Q items) ∧ ∀ members, R members :=
  ⟨fun v => Json.rec scalar array object itemsNil itemsCons membersNil membersCons v,
    fun items => Json.Items.rec scalar array object itemsNil itemsCons membersNil membersCons items,
    fun members => Json.Members.rec scalar array object itemsNil itemsCons membersNil membersCons members⟩

def Items.ofList : List (Json K L) → Items K L
  | [] => .nil
  | v :: vs => .cons v (ofList vs)

def Members.concat (members : Members K L) (key : K) (v : Json K L) : Members K L :=
  match members with
  | .nil => .cons key v .nil
  | .cons key' v' rest => .cons key' v' (rest.concat key v)

def Items.append : Items K L → Items K L → Items K L
  | .nil, items => items
  | .cons v rest, items => .cons v (rest.append items)

def Members.append : Members K L → Members K L → Members K L
  | .nil, members => members
  | .cons key v rest, members => .cons key v (rest.append members)

mutual

/-- The scalars of a value. -/
def scalars : Json K L → List L
  | .scalar l => [l]
  | .array items => items.scalars
  | .object members => members.scalars

def Items.scalars : Items K L → List L
  | .nil => []
  | .cons v rest => v.scalars ++ rest.scalars

def Members.scalars : Members K L → List L
  | .nil => []
  | .cons _ v rest => v.scalars ++ rest.scalars

end

/-! ### Events -/

/-- What a parser that goes through a text once reports. -/
inductive Event (K L : Type) where
  | startObject
  | key (k : K)
  | endObject
  | startArray
  | endArray
  | scalar (l : L)

mutual

/-- The events of a value. -/
def events : Json K L → List (Event K L)
  | .scalar l => [.scalar l]
  | .array items => .startArray :: items.events ++ [.endArray]
  | .object members => .startObject :: members.events ++ [.endObject]

def Items.events : Items K L → List (Event K L)
  | .nil => []
  | .cons v rest => v.events ++ rest.events

def Members.events : Members K L → List (Event K L)
  | .nil => []
  | .cons k v rest => .key k :: v.events ++ rest.events

end

theorem Items.events_append (items items' : Items K L) : (items.append items').events = items.events ++ items'.events := by
  match items with
  | .nil => rfl
  | .cons v rest => rw [Items.append, Items.events, Items.events, events_append rest items', List.append_assoc]

theorem Members.events_append (members members' : Members K L) :
    (members.append members').events = members.events ++ members'.events := by
  match members with
  | .nil => rfl
  | .cons key v rest => rw [Members.append, Members.events, Members.events, events_append rest members', List.append_assoc]

/-! ### Tokens -/

abbrev Text := List (BitVec 8)

inductive Token where
  | openBrace
  | closeBrace
  | openBracket
  | closeBracket
  | colon
  | comma
  | string (s : Text)
  | literal (t : Text)
  deriving DecidableEq

mutual

def tokens (key : K → Text) (scalar : L → Token) : Json K L → List Token
  | .scalar l => [scalar l]
  | .array items => .openBracket :: items.tokens key scalar ++ [.closeBracket]
  | .object members => .openBrace :: members.tokens key scalar ++ [.closeBrace]

/-- The items, with a comma between two of them. -/
def Items.tokens (key : K → Text) (scalar : L → Token) : Items K L → List Token
  | .nil => []
  | .cons v .nil => v.tokens key scalar
  | .cons v rest => v.tokens key scalar ++ .comma :: rest.tokens key scalar

def Members.tokens (key : K → Text) (scalar : L → Token) : Members K L → List Token
  | .nil => []
  | .cons k v .nil => .string (key k) :: .colon :: v.tokens key scalar
  | .cons k v rest => .string (key k) :: .colon :: v.tokens key scalar ++ .comma :: rest.tokens key scalar

end

/-! ### Reading strings -/

def quotationMark : BitVec 8 := 0x22
def reverseSolidus : BitVec 8 := 0x5C
def solidus : BitVec 8 := 0x2F

/-- What has been read of an escape sequence.  The first half of a pair of surrogates is kept until the second follows. -/
inductive Mode where
  | plain
  | escape (high : Option ℕ)
  | hex (high : Option ℕ) (digits code : ℕ)
  | low (high : ℕ)
  deriving DecidableEq

/-- What the next byte of a string does. -/
inductive Step where
  | close
  | next (mode : Mode) (out : Text)
  | invalid
  deriving DecidableEq

def hexDigit (c : BitVec 8) : Option ℕ :=
  if 0x30 ≤ c ∧ c ≤ 0x39 then some (c.toNat - 0x30)
  else if 0x41 ≤ c ∧ c ≤ 0x46 then some (c.toNat - 0x41 + 10)
  else if 0x61 ≤ c ∧ c ≤ 0x66 then some (c.toNat - 0x61 + 10)
  else none

/-- The bytes of a character. -/
def utf8 (code : ℕ) : Text :=
  if code < 0x80 then [.ofNat 8 code]
  else if code < 0x800 then [.ofNat 8 (0xC0 + code / 0x40), .ofNat 8 (0x80 + code % 0x40)]
  else if code < 0x10000 then
    [.ofNat 8 (0xE0 + code / 0x1000), .ofNat 8 (0x80 + code / 0x40 % 0x40), .ofNat 8 (0x80 + code % 0x40)]
  else
    [.ofNat 8 (0xF0 + code / 0x40000), .ofNat 8 (0x80 + code / 0x1000 % 0x40), .ofNat 8 (0x80 + code / 0x40 % 0x40),
      .ofNat 8 (0x80 + code % 0x40)]

/-- What a letter after a backslash stands for. -/
def unescape (c : BitVec 8) : Option (BitVec 8) :=
  if c = quotationMark ∨ c = reverseSolidus ∨ c = solidus then some c
  else if c = 0x62 then some 0x08
  else if c = 0x66 then some 0x0C
  else if c = 0x6E then some 0x0A
  else if c = 0x72 then some 0x0D
  else if c = 0x74 then some 0x09
  else none

/-- Four digits have been read, after the first half of a pair or not. -/
def character (high : Option ℕ) (code : ℕ) : Step :=
  match high with
  | none =>
    if 0xD800 ≤ code ∧ code < 0xDC00 then .next (.low code) []
    else if 0xDC00 ≤ code ∧ code < 0xE000 then .invalid
    else .next .plain (utf8 code)
  | some high =>
    if 0xDC00 ≤ code ∧ code < 0xE000 then
      .next .plain (utf8 (0x10000 + (high - 0xD800) * 0x400 + (code - 0xDC00)))
    else .invalid

def step (mode : Mode) (c : BitVec 8) : Step :=
  match mode with
  | .plain =>
    if c = quotationMark then .close
    else if c = reverseSolidus then .next (.escape none) []
    else if c < 0x20 then .invalid
    else .next .plain [c]
  | .escape none =>
    match unescape c with
    | some c' => .next .plain [c']
    | none => if c = 0x75 then .next (.hex none 0 0) [] else .invalid
  | .escape (some high) => if c = 0x75 then .next (.hex (some high) 0 0) [] else .invalid
  | .hex high digits code =>
    match hexDigit c with
    | none => .invalid
    | some d => if digits = 3 then character high (code * 16 + d) else .next (.hex high (digits + 1) (code * 16 + d)) []
  | .low high => if c = reverseSolidus then .next (.escape (some high)) [] else .invalid

/-- The steps of a part of a string. -/
def scan : Mode → Text → Option (Mode × Text)
  | mode, [] => some (mode, [])
  | mode, c :: cs =>
    match step mode c with
    | .next mode' out => (scan mode' cs).map fun r => (r.1, out ++ r.2)
    | _ => none

/-! ### Reading a text -/

def digits (t : Text) : Bool := !t.isEmpty && t.all fun c => decide (0x30 ≤ c ∧ c ≤ 0x39)

/-- An exponent, or nothing. -/
def isExponent : Text → Bool
  | [] => true
  | e :: sign :: ds => (e = 0x65 ∨ e = 0x45) && (((sign = 0x2B ∨ sign = 0x2D) && digits ds) || digits (sign :: ds))
  | _ => false

def isNumber (t : Text) : Bool :=
  let unsigned := match t with
    | 0x2D :: ds => ds
    | ds => ds
  let (whole, rest) := unsigned.span fun c => decide (0x30 ≤ c ∧ c ≤ 0x39)
  (whole = [0x30] ∨ digits whole ∧ whole.head? ≠ some 0x30) &&
    match rest with
    | 0x2E :: rest =>
      let (fraction, rest) := rest.span fun c => decide (0x30 ≤ c ∧ c ≤ 0x39)
      digits fraction && isExponent rest
    | rest => isExponent rest

/-- A number, or one of the three names. -/
def isLiteral (t : Text) : Bool :=
  isNumber t || t = [0x6E, 0x75, 0x6C, 0x6C] || t = [0x74, 0x72, 0x75, 0x65] || t = [0x66, 0x61, 0x6C, 0x73, 0x65]

/-- The token that a byte is by itself, if it stands between the tokens. -/
def separator (c : BitVec 8) : Option (List Token) :=
  if c = 0x20 ∨ c = 0x09 ∨ c = 0x0A ∨ c = 0x0D then some []
  else if c = 0x7B then some [.openBrace]
  else if c = 0x7D then some [.closeBrace]
  else if c = 0x5B then some [.openBracket]
  else if c = 0x5D then some [.closeBracket]
  else if c = 0x3A then some [.colon]
  else if c = 0x2C then some [.comma]
  else none

/-- Where the text is read: between the tokens, in a string, or in another literal. -/
inductive State where
  | between
  | string (mode : Mode) (s : Text)
  | literal (t : Text)

def read : State → Text → Option (List Token)
  | .between, [] => some []
  | .string _ _, [] => none
  | .literal t, [] => if isLiteral t then some [.literal t] else none
  | .between, c :: cs =>
    match separator c with
    | some ts => (read .between cs).map (ts ++ ·)
    | none => if c = quotationMark then read (.string .plain []) cs else read (.literal [c]) cs
  | .string mode s, c :: cs =>
    match step mode c with
    | .close => (read .between cs).map (.string s :: ·)
    | .next mode' out => read (.string mode' (s ++ out)) cs
    | .invalid => none
  | .literal t, c :: cs =>
    match separator c with
    | some ts => if isLiteral t then (read .between cs).map (.literal t :: ts ++ ·) else none
    | none => read (.literal (t ++ [c])) cs

theorem scan_append {mode : Mode} {t : Text} {mode' : Mode} {out : Text} (h : scan mode t = some (mode', out)) (t' : Text) :
    scan mode (t ++ t') = (scan mode' t').map fun r => (r.1, out ++ r.2) := by
  induction t generalizing mode out with
  | nil =>
    obtain ⟨rfl, rfl⟩ := Prod.mk.inj (Option.some.inj h)
    simp
  | cons c cs ih =>
    rw [scan] at h
    rw [List.cons_append, scan]
    cases hstep : step mode c with
    | close => simp [hstep] at h
    | invalid => simp [hstep] at h
    | next mode₁ out₁ =>
      simp only [hstep, Option.map_eq_some_iff, Prod.mk.injEq] at h ⊢
      obtain ⟨⟨mode₂, out₂⟩, hscan, rfl, rfl⟩ := h
      rw [ih hscan, Option.map_map]
      congr 1
      funext r
      simp

/-- A part of a string is read. -/
theorem read_scan {mode mode' : Mode} {t out : Text} (h : scan mode t = some (mode', out)) (s rest : Text) :
    read (.string mode s) (t ++ rest) = read (.string mode' (s ++ out)) rest := by
  induction t generalizing mode out s with
  | nil =>
    obtain ⟨rfl, rfl⟩ := Prod.mk.inj (Option.some.inj h)
    simp
  | cons c cs ih =>
    rw [scan] at h
    rw [List.cons_append, read]
    cases hstep : step mode c with
    | close => simp [hstep] at h
    | invalid => simp [hstep] at h
    | next mode₁ out₁ =>
      simp only [hstep, Option.map_eq_some_iff, Prod.mk.injEq] at h ⊢
      obtain ⟨⟨mode₂, out₂⟩, hscan, rfl, rfl⟩ := h
      rw [ih hscan, List.append_assoc]

/-- What has been read of a string stays. -/
theorem read_string {mode : Mode} {s t : Text} {ts : List Token} (h : read (.string mode s) t = some ts) :
    ∃ s' rest, ts = .string (s ++ s') :: rest := by
  induction t generalizing mode s with
  | nil => simp [read] at h
  | cons c cs ih =>
    rw [read] at h
    cases hstep : step mode c with
    | invalid => simp [hstep] at h
    | close =>
      simp only [hstep, Option.map_eq_some_iff] at h
      obtain ⟨rest, -, rfl⟩ := h
      exact ⟨[], rest, by rw [List.append_nil]⟩
    | next mode' out =>
      simp only [hstep] at h
      obtain ⟨s', rest, rfl⟩ := ih h
      exact ⟨out ++ s', rest, by rw [List.append_assoc]⟩

theorem read_quotationMark (t : Text) : read .between (quotationMark :: t) = read (.string .plain []) t := rfl

theorem read_close (s t : Text) :
    read (.string .plain s) (quotationMark :: t) = (read .between t).map (.string s :: ·) := rfl

theorem read_separator {c : BitVec 8} {ts : List Token} (h : separator c = some ts) (t : Text) :
    read .between (c :: t) = (read .between t).map (ts ++ ·) := by
  rw [read, h]

end Json

end Bouncer.Library
