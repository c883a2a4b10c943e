import Mathlib.Data.List.Forall2
import Mathlib.Data.List.TakeWhile
import Mathlib.Algebra.Order.Group.Int

/-!
# Labels of derived units

The label of a derived unit is built from the labels of its elements and their exponents.  `getExponentAsString` reads a
digit with `atoi` at the address of its character, which takes in all digits that follow.  So a numeral with more than one
digit is looked up beyond the ten superscripts.  And the separator is set after an element that is skipped, too.  The
label is right if and only if neither happens (`isExact_iff`).
-/

namespace Bouncer.IfcSerialiser

/-! ### The functions -/

def to_string (value : ℤ) : List Char :=
  if value < 0 then '-' :: Nat.toDigits 10 value.natAbs else Nat.toDigits 10 value.natAbs

/-- `atoi`, of a text that starts with a digit. -/
def atoi (text : List Char) : ℕ := Nat.ofDigitChars 10 (text.takeWhile Char.isDigit) 0

/-- The superscripts from zero to nine, in UTF-8. -/
def symbolMapping : List (List UInt8) :=
  [[0xE2, 0x81, 0xB0], [0xC2, 0xB9], [0xC2, 0xB2], [0xC2, 0xB3], [0xE2, 0x81, 0xB4], [0xE2, 0x81, 0xB5],
    [0xE2, 0x81, 0xB6], [0xE2, 0x81, 0xB7], [0xE2, 0x81, 0xB8], [0xE2, 0x81, 0xB9]]

/-- The superscript minus. -/
def superscriptMinus : List UInt8 := [0xE2, 0x81, 0xBB]

/-- The loop of `getExponentAsString`, which has no result if it looks up a number beyond the table. -/
def exponentSymbols : List Char → Option (List UInt8)
  | [] => some []
  | chr :: rest => do
    let symbol ← if chr = '-' then some superscriptMinus else symbolMapping[atoi (chr :: rest)]?
    let symbols ← exponentSymbols rest
    return symbol ++ symbols

def getExponentAsString (value : ℤ) : Option (List UInt8) :=
  if value = 1 then some [] else exponentSymbols (to_string value)

/-- `removeExponentFromString`: the base without its superscript, and the exponent. -/
def removeExponentFromString (base : List UInt8) : List UInt8 × ℤ :=
  let length := base.length
  if length > 2 then
    if base[length - 2]? = some 0xC2 then
      if base[length - 1]? = some 0xB2 then (base.take (length - 2), 2)
      else if base[length - 1]? = some 0xB3 then (base.take (length - 2), 3)
      else (base, 1)
    else (base, 1)
  else (base, 1)

/-- An `IfcDerivedUnitElement`, with the label of its unit. -/
structure IfcDerivedUnitElement where
  label : List UInt8
  exponent : ℤ

/-- A product of `int`s, which has no result if it overflows. -/
def intProduct (a b : ℤ) : Option ℤ := if -2 ^ 31 ≤ a * b ∧ a * b < 2 ^ 31 then some (a * b) else none

/-- The middle dot. -/
def middleDot : List UInt8 := [0xC2, 0xB7]

/-- The loop of `getUnitsLabel` over the elements of a derived unit. -/
def derivedUnitLoop : List IfcDerivedUnitElement → List UInt8 → List UInt8 → Option (List UInt8)
  | [], ss, _ => some ss
  | e :: elements, ss, multiplier =>
    if e.label ≠ [] then do
      let (base, ex) := removeExponentFromString e.label
      let exponent ← getExponentAsString (← intProduct e.exponent ex)
      derivedUnitLoop elements (ss ++ multiplier ++ base ++ exponent) middleDot
    else derivedUnitLoop elements ss middleDot

/-- `getUnitsLabel` for an `IfcDerivedUnit`. -/
def getUnitsLabel (elements : List IfcDerivedUnitElement) : Option (List UInt8) := derivedUnitLoop elements [] []

/-! ### Exponents -/

/-- The decimal numeral in superscripts; there is none for one. -/
def superscript (value : ℤ) : List UInt8 :=
  if value = 1 then []
  else
    (if value < 0 then superscriptMinus else []) ++
      (Nat.toDigits 10 value.natAbs).flatMap fun c => symbolMapping.getD (c.toNat - '0'.toNat) []

private theorem atoi_toDigits (n : ℕ) : atoi (Nat.toDigits 10 n) = n := by
  have hdigits : (Nat.toDigits 10 n).takeWhile Char.isDigit = Nat.toDigits 10 n :=
    List.takeWhile_eq_self_iff.2 fun c hc => Nat.isDigit_of_mem_toDigits (by decide) (by decide) hc
  rw [atoi, hdigits, Nat.ofDigitChars_ten_toDigits]

private theorem exponentSymbols_toDigits_of_le {n : ℕ} (hn : 10 ≤ n) : exponentSymbols (Nat.toDigits 10 n) = none := by
  have hatoi := atoi_toDigits n
  have hdigit : ∀ c ∈ Nat.toDigits 10 n, c.isDigit := fun c hc => Nat.isDigit_of_mem_toDigits (by decide) (by decide) hc
  cases htext : Nat.toDigits 10 n with
  | nil => exact absurd htext Nat.toDigits_ne_nil
  | cons chr rest =>
    rw [htext] at hatoi hdigit
    have hchr : chr ≠ '-' := by
      rintro rfl
      exact absurd (hdigit '-' List.mem_cons_self) (by decide)
    have hlookup : symbolMapping[n]? = none := List.getElem?_eq_none hn
    rw [exponentSymbols, if_neg hchr, hatoi, hlookup]
    rfl

private theorem exponentSymbols_toDigits_of_lt {n : ℕ} (hn : n < 10) :
    exponentSymbols (Nat.toDigits 10 n) =
      some ((Nat.toDigits 10 n).flatMap fun c => symbolMapping.getD (c.toNat - '0'.toNat) []) := by
  have htable : ∀ n < 10, exponentSymbols (Nat.toDigits 10 n) =
      some ((Nat.toDigits 10 n).flatMap fun c => symbolMapping.getD (c.toNat - '0'.toNat) []) := by decide
  exact htable n hn

private theorem exponentSymbols_minus (text : List Char) :
    exponentSymbols ('-' :: text) = (exponentSymbols text).map (superscriptMinus ++ ·) := by
  rw [exponentSymbols, if_pos rfl]
  cases exponentSymbols text <;> rfl

private theorem getExponentAsString_of_lt {value : ℤ} (h : value.natAbs < 10) :
    getExponentAsString value = some (superscript value) := by
  unfold getExponentAsString superscript to_string
  split_ifs with hone hneg
  · rfl
  · rw [exponentSymbols_minus, exponentSymbols_toDigits_of_lt h]
    rfl
  · rw [exponentSymbols_toDigits_of_lt h]
    rfl

private theorem getExponentAsString_of_le {value : ℤ} (h : 10 ≤ value.natAbs) : getExponentAsString value = none := by
  unfold getExponentAsString to_string
  split_ifs with hone hneg
  · omega
  · rw [exponentSymbols_minus, exponentSymbols_toDigits_of_le h]
    rfl
  · exact exponentSymbols_toDigits_of_le h

/-! ### Base labels -/

/-- The symbol and the exponent of a base label. -/
inductive Splits : List UInt8 → List UInt8 → ℤ → Prop
  | square {base : List UInt8} (h : base ≠ []) : Splits (base ++ [0xC2, 0xB2]) base 2
  | cube {base : List UInt8} (h : base ≠ []) : Splits (base ++ [0xC2, 0xB3]) base 3
  | plain {label : List UInt8} (h : ∀ base, base ≠ [] → label ≠ base ++ [0xC2, 0xB2] ∧ label ≠ base ++ [0xC2, 0xB3]) :
    Splits label label 1

private theorem removeExponentFromString_append {base : List UInt8} (h : base ≠ []) (c : UInt8) :
    removeExponentFromString (base ++ [0xC2, c]) =
      if c = 0xB2 then (base, 2) else if c = 0xB3 then (base, 3) else (base ++ [0xC2, c], 1) := by
  have hlength := List.length_pos_iff.2 h
  have hfirst : (base ++ [0xC2, c])[base.length + 2 - 2]? = some 0xC2 := by simp
  have hsecond : (base ++ [0xC2, c])[base.length + 2 - 1]? = some c := by simp
  have htake : (base ++ [0xC2, c]).take (base.length + 2 - 2) = base := by simp
  unfold removeExponentFromString
  simp only [List.length_append, List.length_cons, List.length_nil, Nat.zero_add, Nat.reduceAdd, hfirst, hsecond, htake,
    Option.some.injEq]
  rw [if_pos (by omega), if_pos trivial]

variable {label : List UInt8}

private theorem exists_eq_append {a : UInt8} (hlength : label.length > 2)
    (hfirst : label[label.length - 2]? = some a) : ∃ base c, base ≠ [] ∧ label = base ++ [a, c] := by
  rcases List.eq_nil_or_concat label with rfl | ⟨init, c, rfl⟩
  · simp at hlength
  rcases List.eq_nil_or_concat init with rfl | ⟨base, b, rfl⟩
  · simp at hlength
  refine ⟨base, c, ?_, ?_⟩
  · rintro rfl
    simp at hlength
  · simp at hfirst
    rw [hfirst]
    simp

private theorem removeExponentFromString_splits (label : List UInt8) :
    Splits label (removeExponentFromString label).1 (removeExponentFromString label).2 := by
  by_cases hsuffix : ∃ base c, base ≠ [] ∧ label = base ++ [0xC2, c]
  · obtain ⟨base, c, hbase, rfl⟩ := hsuffix
    rw [removeExponentFromString_append hbase]
    split_ifs with htwo hthree
    · subst htwo
      exact .square hbase
    · subst hthree
      exact .cube hbase
    · refine .plain fun base' _ => ⟨fun heq => htwo ?_, fun heq => hthree ?_⟩
      · simpa using (List.append_inj' heq rfl).2
      · simpa using (List.append_inj' heq rfl).2
  · have hplain : removeExponentFromString label = (label, 1) := by
      unfold removeExponentFromString
      dsimp only
      split_ifs with hlength hfirst
      · obtain ⟨base, c, hbase, rfl⟩ := exists_eq_append hlength hfirst
        exact absurd ⟨base, c, hbase, rfl⟩ hsuffix
      · obtain ⟨base, c, hbase, rfl⟩ := exists_eq_append hlength hfirst
        exact absurd ⟨base, c, hbase, rfl⟩ hsuffix
      · rfl
      · rfl
      · rfl
    rw [hplain]
    refine .plain fun base hbase => ⟨?_, ?_⟩
    · rintro rfl
      exact hsuffix ⟨base, _, hbase, rfl⟩
    · rintro rfl
      exact hsuffix ⟨base, _, hbase, rfl⟩

private theorem Splits.eq {label base : List UInt8} {ex : ℤ} (h : Splits label base ex) :
    removeExponentFromString label = (base, ex) := by
  cases h with
  | square hbase => rw [removeExponentFromString_append hbase, if_pos rfl]
  | cube hbase => rw [removeExponentFromString_append hbase, if_neg (by decide), if_pos rfl]
  | plain hplain =>
    generalize hr : removeExponentFromString label = r
    have hsplits := removeExponentFromString_splits label
    rw [hr] at hsplits
    obtain ⟨base, ex⟩ := r
    cases hsplits with
    | square hbase => exact absurd rfl (hplain base hbase).1
    | cube hbase => exact absurd rfl (hplain base hbase).2
    | plain _ => rfl

/-! ### Labels -/

/-- The symbol of an element with its exponent. -/
def IsPart (e : IfcDerivedUnitElement) (part : List UInt8) : Prop :=
  ∃ base ex, Splits e.label base ex ∧ part = base ++ superscript (e.exponent * ex)

/-- The recognised elements in order, with single middle dots between them. -/
def IsUnitLabel (elements : List IfcDerivedUnitElement) (label : List UInt8) : Prop :=
  ∃ parts, List.Forall₂ IsPart (elements.filter fun e => decide (e.label ≠ [])) parts ∧
    label = middleDot.intercalate parts

/-- All lookups stay in the table, and the label is right. -/
def IsExact (elements : List IfcDerivedUnitElement) : Prop :=
  ∃ label, getUnitsLabel elements = some label ∧ IsUnitLabel elements label

/-- The exponent that is written for an element. -/
def fullExponent (e : IfcDerivedUnitElement) : ℤ := e.exponent * (removeExponentFromString e.label).2

def part (e : IfcDerivedUnitElement) : List UInt8 := (removeExponentFromString e.label).1 ++ superscript (fullExponent e)

private theorem isPart_iff {e : IfcDerivedUnitElement} {p : List UInt8} : IsPart e p ↔ p = part e := by
  constructor
  · rintro ⟨base, ex, hsplits, rfl⟩
    rw [part, fullExponent, hsplits.eq]
  · rintro rfl
    exact ⟨_, _, removeExponentFromString_splits e.label, rfl⟩

variable {elements : List IfcDerivedUnitElement}

private theorem isUnitLabel_iff :
    IsUnitLabel elements label ↔
      label = middleDot.intercalate ((elements.filter fun e => decide (e.label ≠ [])).map part) := by
  constructor
  · rintro ⟨parts, hparts, rfl⟩
    have heq := List.forall₂_map_left_iff.2 (hparts.imp fun _ _ h => (isPart_iff.1 h).symm)
    rw [List.forall₂_eq_eq_eq] at heq
    rw [heq]
  · rintro rfl
    exact ⟨_, List.forall₂_map_right_iff.2 (List.forall₂_same.2 fun _ _ => isPart_iff.2 rfl), rfl⟩

/-- What the loop adds to the label. -/
def joined : List IfcDerivedUnitElement → List UInt8 → List UInt8
  | [], _ => []
  | e :: elements, multiplier => (if e.label ≠ [] then multiplier ++ part e else []) ++ joined elements middleDot

/-- No full exponent of a recognised element has more than one digit. -/
def SingleDigits (elements : List IfcDerivedUnitElement) : Prop :=
  ∀ e ∈ elements, e.label ≠ [] → (fullExponent e).natAbs < 10

private theorem derivedUnitLoop_of_singleDigits (h : SingleDigits elements)
    (ss multiplier : List UInt8) : derivedUnitLoop elements ss multiplier = some (ss ++ joined elements multiplier) := by
  induction elements generalizing ss multiplier with
  | nil => rw [derivedUnitLoop, joined, List.append_nil]
  | cons e elements ih =>
    obtain ⟨he, helements⟩ := List.forall_mem_cons.1 h
    rw [derivedUnitLoop, joined]
    split_ifs with hlabel
    · have hdigit := he hlabel
      have hproduct : intProduct e.exponent (removeExponentFromString e.label).2 = some (fullExponent e) := by
        unfold fullExponent at hdigit
        exact if_pos ⟨by omega, by omega⟩
      simp only [hproduct, Option.bind_eq_bind, Option.bind_some, getExponentAsString_of_lt hdigit]
      rw [ih helements]
      simp only [part, List.append_assoc]
    · rw [ih helements, List.nil_append]

private theorem derivedUnitLoop_of_not_singleDigits (h : ¬SingleDigits elements)
    (ss multiplier : List UInt8) : derivedUnitLoop elements ss multiplier = none := by
  induction elements generalizing ss multiplier with
  | nil => exact absurd (fun _ he => absurd he List.not_mem_nil) h
  | cons e elements ih =>
    have hcases : (e.label ≠ [] ∧ 10 ≤ (fullExponent e).natAbs) ∨ ¬SingleDigits elements := by
      by_contra hnot
      obtain ⟨he, helements⟩ := not_or.1 hnot
      exact h (List.forall_mem_cons.2 ⟨fun hlabel => by_contra fun hle => he ⟨hlabel, by omega⟩, not_not.1 helements⟩)
    rw [derivedUnitLoop]
    rcases hcases with ⟨hlabel, hle⟩ | hrest
    · rw [if_pos hlabel]
      have hnone : (intProduct e.exponent (removeExponentFromString e.label).2).bind getExponentAsString = none := by
        unfold intProduct
        split_ifs
        · exact getExponentAsString_of_le hle
        · rfl
      cases hproduct : intProduct e.exponent (removeExponentFromString e.label).2 with
      | none => simp [hproduct]
      | some product =>
        rw [hproduct] at hnone
        have hexponent : getExponentAsString product = none := hnone
        simp [hproduct, hexponent]
    · split_ifs
      · simp [ih hrest]
      · exact ih hrest _ _

private theorem getUnitsLabel_eq_some_iff :
    getUnitsLabel elements = some label ↔ SingleDigits elements ∧ label = joined elements [] := by
  by_cases h : SingleDigits elements
  · rw [getUnitsLabel, derivedUnitLoop_of_singleDigits h, List.nil_append, Option.some.injEq, and_iff_right h, eq_comm]
  · rw [getUnitsLabel, derivedUnitLoop_of_not_singleDigits h]
    simp [h]

private theorem joined_middleDot (elements : List IfcDerivedUnitElement) :
    joined elements middleDot =
      ((elements.filter fun e => decide (e.label ≠ [])).map part).flatMap (middleDot ++ ·) := by
  induction elements with
  | nil => rfl
  | cons e elements ih =>
    rw [joined, ih, List.filter_cons]
    split_ifs with hlabel <;> simp_all

private theorem append_flatMap_eq_intercalate (p : List UInt8) (parts : List (List UInt8)) :
    p ++ parts.flatMap (middleDot ++ ·) = middleDot.intercalate (p :: parts) := by
  induction parts generalizing p with
  | nil => simp
  | cons q parts ih =>
    rw [List.flatMap_cons, List.append_assoc, ih, List.intercalate_cons_cons, List.append_assoc]

/-- The first element is recognised, or none is. -/
def StartsRecognised (elements : List IfcDerivedUnitElement) : Prop :=
  (∀ e ∈ elements.head?, e.label ≠ []) ∨ ∀ e ∈ elements, e.label = []

private theorem flatMap_eq_intercalate_iff (parts : List (List UInt8)) :
    parts.flatMap (middleDot ++ ·) = middleDot.intercalate parts ↔ parts = [] := by
  refine ⟨fun h => ?_, fun h => by rw [h]; rfl⟩
  cases parts with
  | nil => rfl
  | cons p parts =>
    rw [List.flatMap_cons, List.append_assoc, append_flatMap_eq_intercalate] at h
    have hlength := congrArg List.length h
    rw [List.length_append] at hlength
    have hdot : middleDot.length = 2 := rfl
    omega

private theorem joined_nil_eq_iff (elements : List IfcDerivedUnitElement) :
    joined elements [] = middleDot.intercalate ((elements.filter fun e => decide (e.label ≠ [])).map part) ↔
      StartsRecognised elements := by
  cases elements with
  | nil => simp [joined, StartsRecognised]
  | cons e elements =>
    rw [joined, joined_middleDot]
    by_cases hlabel : e.label = []
    · rw [if_neg (not_not.2 hlabel), List.nil_append, List.filter_cons_of_neg (by simpa using hlabel),
        flatMap_eq_intercalate_iff]
      simp [StartsRecognised, hlabel]
    · rw [if_pos hlabel, List.filter_cons_of_pos (by simpa using hlabel), List.nil_append, List.map_cons,
        append_flatMap_eq_intercalate]
      simp [StartsRecognised, hlabel]

/-- The label of a derived unit is exact if and only if all exponents that are written have one digit, and the first
element is recognised if any is. -/
theorem isExact_iff (elements : List IfcDerivedUnitElement) :
    IsExact elements ↔ SingleDigits elements ∧ StartsRecognised elements := by
  unfold IsExact
  simp only [getUnitsLabel_eq_some_iff, isUnitLabel_iff]
  rw [← joined_nil_eq_iff]
  constructor
  · rintro ⟨label, ⟨hdigits, rfl⟩, heq⟩
    exact ⟨hdigits, heq⟩
  · rintro ⟨hdigits, heq⟩
    exact ⟨_, ⟨hdigits, rfl⟩, heq⟩

/-- Kilograms to the power of twelve. -/
theorem not_isExact_twelve : ¬IsExact [⟨[0x6B, 0x67], 12⟩] := by
  rintro ⟨label, hlabel, -⟩
  have hnone : getUnitsLabel [⟨[0x6B, 0x67], 12⟩] = none := by decide
  rw [hnone] at hlabel
  cases hlabel

end Bouncer.IfcSerialiser
