import Bouncer.Library.Json
import Bouncer.Library.Loop

/-!
# Sanitising strings

`sanitizeStr` puts a backslash before every backslash, and then one before every newline and every quotation mark, except
for the quotation marks after a backslash, which are taken to be escaped already.  The positions are kept in an `int`.

If they fit then the first loop is `doubleBackSlashes` and the second one is `escapeSpecials` (`sanitizeStr_iff`).
-/

namespace Bouncer

open Library.Json (Text quotationMark reverseSolidus)
open Library.Loop (Turn run run_again run_leave run_mono)

def newline : BitVec 8 := 0x0A

/-- `std::string::find` from the start. -/
def findIn (pattern : Text) : Text → Option ℕ
  | [] => none
  | c :: cs => if pattern <+: c :: cs then some 0 else (findIn pattern cs).map (· + 1)

/-- `std::string::find`, with `none` for `npos`. -/
def find (value pattern : Text) (start : ℕ) : Option ℕ :=
  (findIn pattern (value.drop start)).map (· + start)

/-- The conversion of a position to an `int`, in which `npos` is `-1`. -/
def toInt : Option ℕ → ℤ
  | none => -1
  | some position => (position : ℤ).bmod (2 ^ 32)

/-- Whether the first position is behind the second one, where `npos` is the largest of all. -/
def behind : Option ℕ → Option ℕ → Bool
  | _, none => false
  | none, some _ => true
  | some p, some q => decide (q < p)

namespace PropertyTree

def findBackSlash (value : Text) (start : ℕ) : ℤ := toInt (find value [reverseSolidus] start)

/-- The loop of `findSpecialWords`.  It goes on at least two positions in a turn. -/
def skipEscaped (value : Text) : ℕ → Option ℕ → Option ℕ → Option ℕ
  | n + 1, firstDoubleQuote, some escaped =>
    if behind firstDoubleQuote (some escaped) then
      skipEscaped value n (find value [quotationMark] (escaped + 2))
        (find value [reverseSolidus, quotationMark] (escaped + 2))
    else firstDoubleQuote
  | _, firstDoubleQuote, _ => firstDoubleQuote

def findSpecialWords (value : Text) (start : ℕ) : ℤ :=
  let firstCr := find value [newline] start
  let firstDoubleQuote := skipEscaped value value.length (find value [quotationMark] start)
    (find value [reverseSolidus, quotationMark] start)
  toInt (if behind firstDoubleQuote firstCr then firstCr else firstDoubleQuote)

/-- One turn of a loop of `sanitizeStr`: the character at the position that is found is replaced by two.  A position that
is negative, or too large for `startIndex += 2`, is undefined behaviour. -/
def escapeTurn (findNext : Text → ℕ → ℤ) (s : Text × ℕ) : Turn (Text × ℕ) Text Unit :=
  let startIndex := findNext s.1 s.2
  if startIndex = -1 then .leave s.1
  else if 0 ≤ startIndex ∧ startIndex + 2 < 2 ^ 31 then
    .again (s.1.take startIndex.toNat ++ reverseSolidus :: s.1.drop startIndex.toNat, startIndex.toNat + 2)
  else .fail ()

/-- `sanitizeStr`, in at most `n` turns of each loop. -/
def sanitizeStr (n : ℕ) (value : Text) : Option Text :=
  match run (escapeTurn findBackSlash) n (value, 0) with
  | some (.inl word) =>
    match run (escapeTurn findSpecialWords) n (word, 0) with
    | some (.inl word) => some word
    | _ => none
  | _ => none

/-! ### What a loop does -/

/-- A backslash before each character for which `next` says so, given whether a backslash precedes it. -/
def escapeWith (next : Bool → BitVec 8 → Bool) : Bool → Text → Text
  | _, [] => []
  | after, c :: cs =>
    (if next after c then [reverseSolidus, c] else [c]) ++ escapeWith next (decide (c = reverseSolidus)) cs

/-- The position of the first of these characters. -/
def firstOf (next : Bool → BitVec 8 → Bool) : Bool → Text → Option ℕ
  | _, [] => none
  | after, c :: cs =>
    if next after c then some 0 else (firstOf next (decide (c = reverseSolidus)) cs).map (· + 1)

variable {cs : Text} {c : BitVec 8}

section Loops

variable {next : Bool → BitVec 8 → Bool}

variable {after : Bool}

private theorem escapeWith_of_firstOf_eq_none (h : firstOf next after cs = none) :
    escapeWith next after cs = cs := by
  induction cs generalizing after with
  | nil => rfl
  | cons c cs ih =>
    rw [firstOf] at h
    split at h
    · cases h
    · rename_i hc
      rw [escapeWith, if_neg hc, ih (Option.map_eq_none_iff.mp h)]
      rfl

private theorem exists_of_firstOf_eq_some {k : ℕ} (h : firstOf next after cs = some k) :
    ∃ skipped c tail after', cs = skipped ++ c :: tail ∧ skipped.length = k ∧ next after' c = true ∧
      escapeWith next after skipped = skipped ∧
      ∀ t, escapeWith next after (skipped ++ c :: t) =
        skipped ++ reverseSolidus :: c :: escapeWith next (decide (c = reverseSolidus)) t := by
  induction cs generalizing after k with
  | nil => cases h
  | cons d cs ih =>
    rw [firstOf] at h
    split at h
    · rename_i hd
      cases h
      refine ⟨[], d, cs, after, rfl, rfl, hd, rfl, fun t => ?_⟩
      rw [List.nil_append, escapeWith, if_pos hd]
      rfl
    · rename_i hd
      obtain ⟨k', hk', rfl⟩ := Option.map_eq_some_iff.mp h
      obtain ⟨skipped, c, tail, after', rfl, rfl, hc, hskipped, hescape⟩ := ih hk'
      refine ⟨d :: skipped, c, tail, after', rfl, rfl, hc, ?_, fun t => ?_⟩
      · rw [escapeWith, if_neg hd, hskipped]
        rfl
      · rw [List.cons_append, escapeWith, if_neg hd, hescape]
        rfl

/-- After a character that is escaped it does not count that it was a backslash. -/
def Resets (next : Bool → BitVec 8 → Bool) : Prop :=
  ∀ after c, next after c = true → next false c = true ∧ ∀ d, next (decide (c = reverseSolidus)) d = next false d

theorem Resets.escapeWith_eq (hnext : Resets next) (hc : next after c = true) (t : Text) :
    escapeWith next (decide (c = reverseSolidus)) t = escapeWith next false t := by
  cases t with
  | nil => rfl
  | cons d t => rw [escapeWith, escapeWith, (hnext after c hc).2]

private theorem bmod_of_lt {k m : ℕ} (hm : 2 * k < m) : (k : ℤ).bmod m = k := by
  apply Int.bmod_eq_of_le_mul_two
  · omega
  · omega

private theorem toInt_some {k : ℕ} (h : k < 2 ^ 31) : toInt (some k) = k := by
  unfold toInt
  apply bmod_of_lt
  omega

/-- A loop that always finds the next of these characters escapes all of them, if the positions fit. -/
theorem run_escapeTurn (hnext : Resets next) {findNext : Text → ℕ → ℤ}
    (hfind : ∀ done rest, findNext (done ++ rest) done.length = toInt ((firstOf next false rest).map (· + done.length)))
    (done rest : Text) (hfits : ∀ a c b, rest = a ++ c :: b → next false c = true →
      done.length + (escapeWith next false a).length + 2 < 2 ^ 31) {n : ℕ} (hn : rest.length < n) :
    run (escapeTurn findNext) n (done ++ rest, done.length) = some (.inl (done ++ escapeWith next false rest)) := by
  induction n generalizing done rest with
  | zero => omega
  | succ n ih =>
    cases hfirst : firstOf next false rest with
    | none =>
      rw [escapeWith_of_firstOf_eq_none hfirst]
      refine run_leave ?_ n
      unfold escapeTurn
      rw [hfind, hfirst]
      rfl
    | some k =>
      obtain ⟨skipped, c, tail, after, rfl, rfl, hc, hskipped, hescape⟩ := exists_of_firstOf_eq_some hfirst
      have hposition : done.length + skipped.length + 2 < 2 ^ 31 := by
        have := hfits skipped c tail rfl (hnext after c hc).1
        rwa [hskipped] at this
      have hturn : escapeTurn findNext (done ++ (skipped ++ c :: tail), done.length) =
          .again ((done ++ skipped ++ [reverseSolidus, c]) ++ tail, (done ++ skipped ++ [reverseSolidus, c]).length) := by
        have hindex : findNext (done ++ (skipped ++ c :: tail)) done.length = ((done ++ skipped).length : ℤ) := by
          rw [hfind, hfirst, List.length_append, Option.map_some, Nat.add_comm]
          exact toInt_some (by omega)
        unfold escapeTurn
        simp only
        rw [hindex, if_neg (by omega), if_pos (by rw [List.length_append]; omega), Int.toNat_natCast,
          ← List.append_assoc, List.take_left, List.drop_left]
        simp
        omega
      rw [run_again hturn, ih _ _ (fun a c' b htail hc' => ?_) (by simp at hn; omega), hescape, hnext.escapeWith_eq hc]
      · simp
      · -- a later position
        have := hfits (skipped ++ c :: a) c' b (by rw [htail]; simp) hc'
        rw [hescape, hnext.escapeWith_eq hc] at this
        simp only [List.length_append, List.length_cons, List.length_nil] at this ⊢
        omega

end Loops

/-! ### What is found -/

/-- A backslash. -/
def isBackSlash (_ : Bool) (c : BitVec 8) : Bool := decide (c = reverseSolidus)

/-- A quotation mark without a backslash before it. -/
def isQuote (after : Bool) (c : BitVec 8) : Bool := decide (c = quotationMark) && !after

def isNewline (_ : Bool) (c : BitVec 8) : Bool := decide (c = newline)

def isSpecial (after : Bool) (c : BitVec 8) : Bool := isNewline after c || isQuote after c

private theorem find_append (done rest pattern : Text) :
    find (done ++ rest) pattern done.length = (findIn pattern rest).map (· + done.length) := by
  unfold find
  rw [List.drop_left]

private theorem findIn_cons (d c : BitVec 8) (cs : Text) :
    findIn [d] (c :: cs) = if c = d then some 0 else (findIn [d] cs).map (· + 1) := by
  rw [findIn]
  congr 1
  simp [List.cons_prefix_cons, eq_comm]

private theorem findIn_singleton (d : BitVec 8) (after : Bool) (cs : Text) :
    findIn [d] cs = firstOf (fun _ c => decide (c = d)) after cs := by
  induction cs generalizing after with
  | nil => rfl
  | cons c cs ih =>
    rw [findIn_cons, firstOf, ih (decide (c = reverseSolidus))]
    simp

private theorem behind_map (k : ℕ) (p q : Option ℕ) : behind (p.map (· + k)) (q.map (· + k)) = behind p q := by
  cases p <;> cases q <;> simp [behind]

/-- The first of two positions. -/
def earlier (p q : Option ℕ) : Option ℕ := if behind q p then p else q

private theorem earlier_map (k : ℕ) (p q : Option ℕ) : earlier (p.map (· + k)) (q.map (· + k)) = (earlier p q).map (· + k) := by
  unfold earlier
  rw [behind_map]
  split <;> rfl

private theorem earlier_zero_left (q : Option ℕ) : earlier (some 0) q = some 0 := by
  cases q with
  | none => rfl
  | some q => cases q <;> rfl

private theorem earlier_zero_right (p : Option ℕ) : earlier p (some 0) = some 0 := by
  cases p <;> rfl

private theorem firstOf_or (next next' : Bool → BitVec 8 → Bool) (after : Bool) (cs : Text) :
    earlier (firstOf next after cs) (firstOf next' after cs) =
      firstOf (fun after c => next after c || next' after c) after cs := by
  induction cs generalizing after with
  | nil => rfl
  | cons c cs ih =>
    simp only [firstOf]
    by_cases hc : next after c = true
    · rw [if_pos hc, earlier_zero_left, if_pos (by simp [hc])]
    · by_cases hc' : next' after c = true
      · rw [if_pos hc', earlier_zero_right, if_pos (by simp [hc'])]
      · rw [if_neg hc, if_neg hc', if_neg (by simp [hc, hc']), earlier_map, ih]

private theorem firstOf_isQuote_after (h : cs.head? ≠ some quotationMark) (after : Bool) :
    firstOf isQuote after cs = firstOf isQuote false cs := by
  cases cs with
  | nil => rfl
  | cons c cs =>
    have hc : c ≠ quotationMark := fun he => h (he ▸ rfl)
    simp [firstOf, isQuote, hc]

/-- The first quotation mark, if the first one after a backslash is not next to it. -/
theorem firstOf_isQuote_of_not_behind
    (h : behind (findIn [quotationMark] cs) (findIn [reverseSolidus, quotationMark] cs) = false) :
    firstOf isQuote false cs = findIn [quotationMark] cs := by
  induction cs with
  | nil => rfl
  | cons c cs ih =>
    rw [findIn_cons] at h ⊢
    rw [firstOf]
    by_cases hc : c = quotationMark
    · simp [isQuote, hc]
    · rw [if_neg hc] at h ⊢
      rw [if_neg (by simp [isQuote, hc])]
      rw [findIn] at h
      split at h
      · -- the two are found together, and the quotation mark is the second of them
        cases hfind : findIn [quotationMark] cs <;> simp [hfind, behind] at h
      · rename_i hprefix
        rw [behind_map] at h
        by_cases hslash : c = reverseSolidus
        · rw [firstOf_isQuote_after _ (decide (c = reverseSolidus)), ih h]
          intro hhead
          cases cs with
          | nil => cases hhead
          | cons d ds =>
            cases hhead
            exact hprefix (by simp [hslash, List.cons_prefix_cons])
        · rw [decide_eq_false hslash, ih h]

private theorem firstOf_isQuote_append {a : Text} (ha : quotationMark ∉ a) (after : Bool) (b : Text) :
    firstOf isQuote after (a ++ reverseSolidus :: quotationMark :: b) =
      (firstOf isQuote false b).map (· + (a.length + 2)) := by
  induction a generalizing after with
  | nil =>
    rw [List.nil_append, firstOf, if_neg (by simp [isQuote, reverseSolidus, quotationMark]), firstOf,
      if_neg (by simp [isQuote]), Option.map_map]
    rfl
  | cons c a ih =>
    have hc : c ≠ quotationMark := fun he => ha (he ▸ List.mem_cons_self)
    rw [List.cons_append, firstOf, if_neg (by simp [isQuote, hc]), ih (fun h => ha (List.mem_cons_of_mem _ h)),
      Option.map_map]
    congr 1

private theorem exists_of_findIn_eq_some {pattern cs : Text} {k : ℕ} (h : findIn pattern cs = some k) :
    ∃ a b, cs = a ++ (pattern ++ b) ∧ a.length = k := by
  induction cs generalizing k with
  | nil => cases h
  | cons c cs ih =>
    rw [findIn] at h
    split at h
    · rename_i hprefix
      cases h
      obtain ⟨b, hb⟩ := hprefix
      exact ⟨[], b, hb.symm, rfl⟩
    · obtain ⟨k', hk', rfl⟩ := Option.map_eq_some_iff.mp h
      obtain ⟨a, b, rfl, rfl⟩ := ih hk'
      exact ⟨c :: a, b, rfl, rfl⟩

private theorem findIn_le_of_mem {d : BitVec 8} {a b : Text} (h : d ∈ a) : ∃ j < a.length, findIn [d] (a ++ b) = some j := by
  induction a with
  | nil => cases h
  | cons c a ih =>
    rw [List.cons_append, findIn_cons]
    by_cases hc : c = d
    · exact ⟨0, by simp, if_pos hc⟩
    · obtain ⟨j, hj, hfind⟩ := ih ((List.mem_cons.mp h).resolve_left (Ne.symm hc))
      exact ⟨j + 1, by simpa using hj, by rw [if_neg hc, hfind]; rfl⟩

/-- The inner loop passes over the quotation marks that have a backslash before them. -/
theorem skipEscaped_eq (n : ℕ) (done rest : Text) (hn : rest.length ≤ n) :
    skipEscaped (done ++ rest) n (find (done ++ rest) [quotationMark] done.length)
        (find (done ++ rest) [reverseSolidus, quotationMark] done.length) =
      (firstOf isQuote false rest).map (· + done.length) := by
  induction n generalizing done rest with
  | zero =>
    obtain rfl := List.length_eq_zero_iff.mp (Nat.le_zero.mp hn)
    rw [find_append, find_append]
    rfl
  | succ n ih =>
    rw [find_append, find_append]
    cases hescaped : findIn [reverseSolidus, quotationMark] rest with
    | none =>
      rw [firstOf_isQuote_of_not_behind (by rw [hescaped]; cases findIn [quotationMark] rest <;> rfl)]
      rfl
    | some k =>
      have hbehind := behind_map done.length (findIn [quotationMark] rest) (some k)
      rw [Option.map_some] at hbehind ⊢
      rw [skipEscaped, hbehind]
      split
      · rename_i hlater
        obtain ⟨a, b, rfl, rfl⟩ := exists_of_findIn_eq_some hescaped
        have ha : quotationMark ∉ a := by
          intro hmem
          obtain ⟨j, hj, hfind⟩ := findIn_le_of_mem (b := [reverseSolidus, quotationMark] ++ b) hmem
          rw [hfind] at hlater
          simp [behind] at hlater
          omega
        have hsplit : done ++ (a ++ ([reverseSolidus, quotationMark] ++ b)) =
            (done ++ a ++ [reverseSolidus, quotationMark]) ++ b := by simp
        have hlength : a.length + done.length + 2 = (done ++ a ++ [reverseSolidus, quotationMark]).length := by
          simp
          omega
        rw [hsplit, hlength, ih _ b (by simp at hn; omega)]
        rw [List.cons_append, List.cons_append, List.nil_append, firstOf_isQuote_append ha, Option.map_map, ← hlength]
        congr 1
        funext j
        simp
        omega
      · rename_i hbefore
        rw [firstOf_isQuote_of_not_behind (by rw [hescaped]; simpa using hbefore)]

private theorem findBackSlash_append (done rest : Text) :
    findBackSlash (done ++ rest) done.length = toInt ((firstOf isBackSlash false rest).map (· + done.length)) := by
  unfold findBackSlash
  rw [find_append, findIn_singleton reverseSolidus false]
  rfl

private theorem findSpecialWords_append (done rest : Text) :
    findSpecialWords (done ++ rest) done.length = toInt ((firstOf isSpecial false rest).map (· + done.length)) := by
  have hquote := skipEscaped_eq (done ++ rest).length done rest (by simp)
  have hor := firstOf_or isNewline isQuote false rest
  have hcr : find (done ++ rest) [newline] done.length = (firstOf isNewline false rest).map (· + done.length) := by
    rw [find_append, findIn_singleton newline false]
    rfl
  unfold findSpecialWords
  simp only [hquote, hcr]
  change toInt (earlier _ _) = toInt ((firstOf (fun after c => isNewline after c || isQuote after c) false rest).map _)
  rw [earlier_map, hor]

/-! ### Both loops -/

/-- The first loop. -/
def doubleBackSlashes (value : Text) : Text :=
  value.flatMap fun c => if c = reverseSolidus then [reverseSolidus, reverseSolidus] else [c]

/-- The second loop. -/
def escapeSpecials (word : Text) : Text := escapeWith isSpecial false word

/-- The positions at which characters are escaped fit an `int`. -/
def Fits (value : Text) : Prop :=
  ∀ a c b, value = a ++ c :: b →
    (c = reverseSolidus → (doubleBackSlashes a).length + 2 < 2 ^ 31) ∧
      (c = newline ∨ c = quotationMark → (escapeSpecials (doubleBackSlashes a)).length + 2 < 2 ^ 31)

theorem doubleBackSlashes_cons (c : BitVec 8) (cs : Text) :
    doubleBackSlashes (c :: cs) =
      (if c = reverseSolidus then [reverseSolidus, reverseSolidus] else [c]) ++ doubleBackSlashes cs := rfl

private theorem escapeWith_isBackSlash (after : Bool) (value : Text) :
    escapeWith isBackSlash after value = doubleBackSlashes value := by
  induction value generalizing after with
  | nil => rfl
  | cons c cs ih =>
    rw [escapeWith, ih, doubleBackSlashes_cons]
    by_cases hc : c = reverseSolidus <;> simp [isBackSlash, hc]

private theorem resets_isBackSlash : Resets isBackSlash := fun _ _ hc => ⟨hc, fun _ => rfl⟩

private theorem isSpecial_false_iff : isSpecial false c = true ↔ c = newline ∨ c = quotationMark := by
  simp [isSpecial, isNewline, isQuote]

private theorem resets_isSpecial : Resets isSpecial := by
  intro after c hc
  have hspecial : c = newline ∨ c = quotationMark := by
    simp only [isSpecial, isNewline, isQuote, Bool.or_eq_true, Bool.and_eq_true, decide_eq_true_eq] at hc
    exact hc.imp_right And.left
  refine ⟨isSpecial_false_iff.mpr hspecial, fun d => ?_⟩
  obtain rfl | rfl := hspecial <;> rfl

/-- A character that is no backslash stands where it stood before the backslashes were doubled. -/
theorem exists_of_doubleBackSlashes {value a : Text} {b : Text} (hc : c ≠ reverseSolidus)
    (h : doubleBackSlashes value = a ++ c :: b) : ∃ a' b', value = a' ++ c :: b' ∧ doubleBackSlashes a' = a := by
  induction value generalizing a with
  | nil => exact absurd h (by simp [doubleBackSlashes])
  | cons d ds ih =>
    rw [doubleBackSlashes_cons] at h
    by_cases hd : d = reverseSolidus
    · subst hd
      rw [if_pos rfl] at h
      rcases a with _ | ⟨x, _ | ⟨y, a⟩⟩
      · exact absurd (List.cons.inj h).1.symm hc
      · exact absurd (List.cons.inj (List.cons.inj h).2).1.symm hc
      · simp only [List.cons_append, List.nil_append, List.cons.injEq] at h
        obtain ⟨rfl, rfl, h⟩ := h
        obtain ⟨a', b', rfl, rfl⟩ := ih h
        exact ⟨reverseSolidus :: a', b', rfl, rfl⟩
    · rw [if_neg hd] at h
      rcases a with _ | ⟨x, a⟩
      · exact ⟨[], ds, by rw [(List.cons.inj h).1]; rfl, rfl⟩
      · simp only [List.cons_append, List.nil_append, List.cons.injEq] at h
        obtain ⟨rfl, h⟩ := h
        obtain ⟨a', b', rfl, rfl⟩ := ih h
        refine ⟨d :: a', b', rfl, ?_⟩
        rw [doubleBackSlashes_cons, if_neg hd]
        rfl

private theorem length_escapeWith_le (next : Bool → BitVec 8 → Bool) (after : Bool) (cs : Text) :
    (escapeWith next after cs).length ≤ 2 * cs.length := by
  induction cs generalizing after with
  | nil => exact le_rfl
  | cons c cs ih =>
    have := ih (decide (c = reverseSolidus))
    rw [escapeWith, List.length_append]
    split <;> simp <;> omega

variable {value : Text}

/-- The positions fit in any string of less than half a gigabyte. -/
theorem fits_of_length (h : 4 * value.length + 2 < 2 ^ 31) : Fits value := by
  intro a c b hvalue
  have hlength : a.length ≤ value.length := by
    rw [hvalue]
    simp
  have hdouble := length_escapeWith_le isBackSlash false a
  rw [escapeWith_isBackSlash] at hdouble
  have hescape := length_escapeWith_le isSpecial false (doubleBackSlashes a)
  unfold escapeSpecials
  omega

private theorem sanitizeStr_of_le (h : Fits value) {n : ℕ} (hn : value.length < n)
    (hn' : (doubleBackSlashes value).length < n) :
    sanitizeStr n value = some (escapeSpecials (doubleBackSlashes value)) := by
  have hfirst := run_escapeTurn resets_isBackSlash findBackSlash_append [] value
    (fun a c b hvalue hc => ?_) hn
  · have hsecond := run_escapeTurn resets_isSpecial findSpecialWords_append []
      (doubleBackSlashes value) (fun a c b hword hc => ?_) hn'
    · rw [escapeWith_isBackSlash] at hfirst
      unfold sanitizeStr
      simp only [List.nil_append, List.length_nil] at hfirst hsecond
      rw [hfirst]
      simp only
      rw [hsecond]
      rfl
    · have hspecial := isSpecial_false_iff.mp hc
      have hslash : c ≠ reverseSolidus := by
        rintro rfl
        exact absurd hspecial (by decide)
      obtain ⟨a', b', hvalue, rfl⟩ := exists_of_doubleBackSlashes hslash hword
      have := (h a' c b' hvalue).2 hspecial
      simpa [escapeSpecials] using this
  · have := (h a c b hvalue).1 (of_decide_eq_true hc)
    rw [escapeWith_isBackSlash]
    simpa using this

private theorem sanitizeStr_mono {n m : ℕ} (hnm : n ≤ m) {value word : Text} (h : sanitizeStr n value = some word) :
    sanitizeStr m value = some word := by
  unfold sanitizeStr at h ⊢
  split at h
  · rename_i word₁ hfirst
    rw [run_mono hnm hfirst]
    simp only
    split at h
    · rename_i word₂ hsecond
      rw [run_mono hnm hsecond]
      exact h
    · cases h
  · cases h

/-- What `sanitizeStr` returns. -/
theorem sanitizeStr_iff (h : Fits value) (word : Text) :
    (∃ n, sanitizeStr n value = some word) ↔ word = escapeSpecials (doubleBackSlashes value) := by
  have hreturns (n : ℕ) := sanitizeStr_of_le h
    (n := n + value.length + (doubleBackSlashes value).length + 1) (by omega) (by omega)
  constructor
  · rintro ⟨n, hn⟩
    have := (sanitizeStr_mono (by omega) hn).symm.trans (hreturns n)
    exact Option.some.inj this
  · rintro rfl
    exact ⟨_, hreturns 0⟩

end PropertyTree

end Bouncer
