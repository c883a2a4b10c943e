import Bouncer.Handler.FileManager
import Bouncer.Library.Fallible

/-!
# The directories of a file store

`FSFileHandler` spreads its files over directories.  `determineHierachy` takes a piece of the key for each level, and gives
the level the number of a byte as its name.

The length of the pieces comes from a division, and the start of a piece, which is computed but not used, from the rest of
another.  For the keys of files, with 36 characters, this works from level 2 on, and until there are more levels than places
at which a piece can start (`determineHierachy_total_iff`).
-/

namespace Bouncer.FSFileHandler

open Library Fallible

/-- What stops a computation. -/
inductive Fault where
  | divisionByZero
  | outOfRange
  deriving DecidableEq

def minChunkLength : BitVec 64 := 4

/-- The quotient of unsigned integers. -/
def div (a b : BitVec 64) : Except Fault (BitVec 64) := if b = 0 then .error .divisionByZero else .ok (a / b)

/-- The rest of unsigned integers. -/
def mod (a b : BitVec 64) : Except Fault (BitVec 64) := if b = 0 then .error .divisionByZero else .ok (a % b)

def substr (name : String) (pos len : ℕ) : Except Fault String :=
  if name.length < pos then .error .outOfRange else .ok (String.ofList ((name.toList.drop pos).take len))

section Hierachy

-- `std::hash`, and the texts of the random numbers in the order in which they are drawn
variable (stringHasher : String → BitVec 64) (rand : ℕ → String)

/-- An iteration of the loop, at index `i`. -/
def hashChunk (name : String) (nameChunkLen : BitVec 64) (i : ℕ) : Except Fault String := do
  let _chunkStart ← mod (BitVec.ofNat 64 i * nameChunkLen) (BitVec.ofNat 64 name.length - nameChunkLen)
  let chunk ← substr name i nameChunkLen.toNat
  let hashedValue := stringHasher (chunk ++ rand i) &&& 255
  return toString hashedValue.toNat

def determineHierachy (level : ℕ) (name : String) : Except Fault (List String) := do
  let nameChunkLen ← div (BitVec.ofNat 64 name.length) (BitVec.ofNat 64 level)
  let nameChunkLen := if nameChunkLen < minChunkLength then minChunkLength else nameChunkLen
  (List.range level).mapM (hashChunk stringHasher rand name nameChunkLen)

/-- The link to the file, or no text if three attempts to write it fail. -/
def uploadFile (level : ℕ) (attempt : ℕ → Bool) (keyName : String) : Except Fault String := do
  let hierachy ← if level > 0 then determineHierachy stringHasher rand level keyName else pure []
  return if (List.range 3).any attempt then FileManager.linkName hierachy keyName else ""

/-! ### One level -/

variable {stringHasher rand}

variable (stringHasher rand) in
private theorem hashChunk_eq_ok {name : String} {nameChunkLen : BitVec 64} {i : ℕ}
    (hmod : BitVec.ofNat 64 name.length ≠ nameChunkLen) (hi : i ≤ name.length) :
    ∃ k ≤ 255, hashChunk stringHasher rand name nameChunkLen i = .ok (toString k) := by
  have hrest : BitVec.ofNat 64 name.length - nameChunkLen ≠ 0 := fun h => hmod (by bv_omega)
  refine ⟨(stringHasher (String.ofList ((name.toList.drop i).take nameChunkLen.toNat) ++ rand i) &&& 255).toNat, ?_, ?_⟩
  · rw [BitVec.toNat_and]
    exact Nat.and_le_right
  · simp only [hashChunk, mod, substr, if_neg hrest, if_neg (not_lt.2 hi)]
    rfl

private theorem exists_hashChunk_iff {name : String} {nameChunkLen : BitVec 64} {i : ℕ} :
    (∃ s, hashChunk stringHasher rand name nameChunkLen i = .ok s) ↔
      BitVec.ofNat 64 name.length ≠ nameChunkLen ∧ i ≤ name.length := by
  constructor
  · rintro ⟨s, hs⟩
    obtain ⟨_, hmod, hs⟩ := bind_eq_ok.1 hs
    obtain ⟨_, hsubstr, -⟩ := bind_eq_ok.1 hs
    constructor
    · rintro h
      simp [h, mod] at hmod
    · by_contra hi
      rw [substr, if_pos (not_le.1 hi)] at hsubstr
      cases hsubstr
  · rintro ⟨hmod, hi⟩
    obtain ⟨k, -, hk⟩ := hashChunk_eq_ok stringHasher rand hmod hi
    exact ⟨_, hk⟩

/-! ### All levels -/

/-- The length of the pieces of a key with 36 characters. -/
def chunkLength (level : ℕ) : ℕ := max (36 / level) 4

variable {level : ℕ} {name : String}

private theorem determineHierachy_eq (hlevel : 1 ≤ level) (hint : level < 2 ^ 31) (hname : name.length = 36) :
    determineHierachy stringHasher rand level name =
      (List.range level).mapM (hashChunk stringHasher rand name (BitVec.ofNat 64 (chunkLength level))) := by
  have hpos : BitVec.ofNat 64 level ≠ 0 := by
    intro h
    have := congrArg BitVec.toNat h
    simp only [BitVec.toNat_ofNat, BitVec.ofNat_eq_ofNat] at this
    omega
  have hle : 36 / level ≤ 36 := Nat.div_le_self 36 level
  have hdiv : BitVec.ofNat 64 36 / BitVec.ofNat 64 level = BitVec.ofNat 64 (36 / level) := by
    apply BitVec.eq_of_toNat_eq
    rw [BitVec.toNat_udiv, BitVec.toNat_ofNat, BitVec.toNat_ofNat, BitVec.toNat_ofNat, Nat.mod_eq_of_lt (by omega),
      Nat.mod_eq_of_lt (by omega), Nat.mod_eq_of_lt (by omega)]
  have hlen : (if BitVec.ofNat 64 (36 / level) < minChunkLength then minChunkLength
      else BitVec.ofNat 64 (36 / level)) = BitVec.ofNat 64 (chunkLength level) := by
    have hlt : BitVec.ofNat 64 (36 / level) < minChunkLength ↔ 36 / level < 4 := by
      rw [BitVec.lt_def, BitVec.toNat_ofNat, Nat.mod_eq_of_lt (by omega)]
      rfl
    unfold chunkLength
    by_cases h : 36 / level < 4
    · rw [if_pos (hlt.2 h), max_eq_right h.le]
      rfl
    · rw [if_neg (fun h' => h (hlt.1 h')), max_eq_left (not_lt.1 h)]
  rw [determineHierachy, hname, div, if_neg hpos, hdiv]
  exact congrArg (fun len => (List.range level).mapM (hashChunk stringHasher rand name len)) hlen

variable (stringHasher rand) in
/-- The pieces are the whole key on one level, and the loop ends well if its last piece starts in the key. -/
private theorem exists_determineHierachy_iff (hlevel : 1 ≤ level) (hint : level < 2 ^ 31) (hname : name.length = 36) :
    (∃ names, determineHierachy stringHasher rand level name = .ok names) ↔ 2 ≤ level ∧ level ≤ 37 := by
  rw [determineHierachy_eq hlevel hint hname, exists_mapM_iff]
  have hchunk : BitVec.ofNat 64 36 ≠ BitVec.ofNat 64 (chunkLength level) ↔ 2 ≤ level := by
    have hle : 36 / level ≤ 36 := Nat.div_le_self 36 level
    have hlen : chunkLength level < 2 ^ 64 := by
      unfold chunkLength
      omega
    rw [Ne, ← BitVec.toNat_inj, BitVec.toNat_ofNat, BitVec.toNat_ofNat, Nat.mod_eq_of_lt hlen]
    unfold chunkLength
    constructor
    · intro h
      by_contra hone
      obtain rfl : level = 1 := by omega
      exact h (by decide)
    · intro h
      have : 36 / level ≤ 36 / 2 := Nat.div_le_div_left h (by decide)
      omega
  simp only [exists_hashChunk_iff, List.mem_range, hname, hchunk]
  constructor
  · intro h
    have h0 := h 0 hlevel
    have hlast := h (level - 1) (by omega)
    omega
  · intro h i hi
    omega

/-- The directories of a file are found exactly from level 2 to level 37. -/
theorem determineHierachy_total_iff (stringHasher : String → BitVec 64) (rand : ℕ → String) (hlevel : 1 ≤ level)
    (hint : level < 2 ^ 31) (hname : name.length = 36) :
    (∃ names, determineHierachy stringHasher rand level name = .ok names ∧ names.length = level ∧
      ∀ levelName ∈ names, ∃ k ≤ 255, levelName = toString k) ↔ 2 ≤ level ∧ level ≤ 37 := by
  rw [← exists_determineHierachy_iff stringHasher rand hlevel hint hname]
  refine ⟨fun ⟨names, h, _⟩ => ⟨names, h⟩, fun ⟨names, h⟩ => ⟨names, h, ?_⟩⟩
  rw [determineHierachy_eq hlevel hint hname] at h
  refine ⟨by simpa using (forall₂_of_mapM h).length_eq.symm, ?_⟩
  intro levelName hmem
  obtain ⟨i, -, hname'⟩ := exists_of_mem_mapM h hmem
  obtain ⟨hmod, hle⟩ := exists_hashChunk_iff.1 ⟨levelName, hname'⟩
  obtain ⟨k, hk, hk'⟩ := hashChunk_eq_ok stringHasher rand hmod hle
  exact ⟨k, hk, Except.ok.inj (hname'.symm.trans hk')⟩

end Hierachy

/-- A store with two levels. -/
theorem determineHierachy_total_two :
    (∃ names, determineHierachy (fun _ => 300) (fun _ => "0.5") 2 "6ba7b810-9dad-11d1-80b4-00c04fd430c8" = .ok names ∧
      names.length = 2 ∧ ∀ levelName ∈ names, ∃ k ≤ 255, levelName = toString k) ↔ 2 ≤ 2 ∧ 2 ≤ 37 :=
  determineHierachy_total_iff (fun _ => 300) (fun _ => "0.5") (by decide) (by decide) (by decide)

/-- On one level the rest is taken by zero, and on 38 levels the last piece would start after the key. -/
theorem not_total_one :
    (¬ ∃ names, determineHierachy (fun _ => 300) (fun _ => "0.5") 1 "6ba7b810-9dad-11d1-80b4-00c04fd430c8" =
      .ok names ∧ names.length = 1 ∧ ∀ levelName ∈ names, ∃ k ≤ 255, levelName = toString k) ∧
    ¬ ∃ names, determineHierachy (fun _ => 300) (fun _ => "0.5") 38 "6ba7b810-9dad-11d1-80b4-00c04fd430c8" =
      .ok names ∧ names.length = 38 ∧ ∀ levelName ∈ names, ∃ k ≤ 255, levelName = toString k := by
  constructor
  · rintro ⟨names, h, -⟩
    have hfault : determineHierachy (fun _ => 300) (fun _ => "0.5") 1 "6ba7b810-9dad-11d1-80b4-00c04fd430c8" =
        .error .divisionByZero := by decide +kernel
    rw [hfault] at h
    cases h
  · rintro ⟨names, h, -⟩
    have hfault : determineHierachy (fun _ => 300) (fun _ => "0.5") 38 "6ba7b810-9dad-11d1-80b4-00c04fd430c8" =
        .error .outOfRange := by decide +kernel
    rw [hfault] at h
    cases h

end Bouncer.FSFileHandler
