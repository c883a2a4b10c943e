import Bouncer.Library.Loop
import Mathlib.Algebra.Order.Ring.Int
import Mathlib.Data.List.GetD

/-!
# Decoding faces

A mesh stores its faces as words: the size of a face, then its indices, then the size of the next face.
`MeshNode::deserialise` and `SupermeshingData::deserialise` read them back with the same loop, in which sizes and
positions are `int`, but are compared with a length that is `size_t`.

The loop never reads outside the buffer (`run_ne_readOutside`).  But if the size of a face reaches beyond the end of
the buffer, it logs an error and tries the same face again, and it stores the indices of a face without looking at
the size.  So it is left, with all indices in the three slots of a face, exactly if the buffer is a sequence of faces
with at most three indices (`deserialise_safe_iff`).
-/

namespace Bouncer.FaceDecoding

open Library

/-- `repo_face_t`. -/
structure Face where
  indices : Fin 3 → BitVec 32
  sides : BitVec 8

/-- What makes the behaviour undefined. -/
inductive Fault where
  | readOutside
  | writeOutside
  | overflow
  deriving DecidableEq

/-- `std::vector<uint32_t>`, which has no more than `max_size()` elements. -/
structure Words where
  toList : List (BitVec 32)
  length_lt : toList.length < 2 ^ 61

def Words.size (words : Words) : ℕ := words.toList.length

structure State where
  mNumIndicesIndex : ℤ
  faces : List Face

/-- An `int` converted to `size_t`. -/
def toSize (i : ℤ) : ℕ := (i % 2 ^ 64).toNat

/-- The `int` is in range. -/
def InRange (i : ℤ) : Prop := -2 ^ 31 ≤ i ∧ i < 2 ^ 31

instance (i : ℤ) : Decidable (InRange i) := inferInstanceAs (Decidable (_ ∧ _))

/-- `serializedFaces[i]`. -/
def read (words : Words) (i : ℤ) : Except Fault (BitVec 32) :=
  if 0 ≤ i ∧ i < words.size then .ok (words.toList.getD i.toNat 0) else .error .readOutside

/-- `face[i] = ..`. -/
def write (face : Face) (i : ℕ) (word : BitVec 32) : Except Fault Face :=
  if h : i < 3 then .ok { face with indices := fun j => if j = ⟨i, h⟩ then word else face.indices j }
  else .error .writeOutside

/-- The inner loop, from index `i` on: `n` indices are left. -/
def fill (words : Words) (position : ℤ) : ℕ → ℕ → Face → Except Fault Face
  | _, 0, face => .ok face
  | i, n + 1, face => do
    let word ← read words (position + 1 + i)
    let face ← write face i word
    fill words position (i + 1) n face

/-- `repo_face_t()` and `resize`. -/
def Face.ofSize (sides : ℤ) : Face := ⟨fun i => BitVec.ofNat 32 i, BitVec.ofInt 8 sides⟩

/-- One turn of the outer loop. -/
def body (words : Words) (s : State) : Loop.Turn State (List Face) Fault :=
  if words.size > toSize s.mNumIndicesIndex then
    match read words s.mNumIndicesIndex with
    | .error e => .fail e
    | .ok word =>
      let mNumIndices := word.toInt
      if ¬ InRange (s.mNumIndicesIndex + mNumIndices) then .fail .overflow
      else if words.size > toSize (s.mNumIndicesIndex + mNumIndices) then
        match fill words s.mNumIndicesIndex 0 mNumIndices.toNat (.ofSize mNumIndices) with
        | .error e => .fail e
        | .ok face =>
          if InRange (mNumIndices + 1) ∧ InRange (s.mNumIndicesIndex + (mNumIndices + 1)) then
            .again ⟨s.mNumIndicesIndex + (mNumIndices + 1), s.faces ++ [face]⟩
          else .fail .overflow
      -- "Cannot copy all faces. Buffer size is smaller than expected!"
      else .again s
  else .leave s.faces

inductive Exception where
  | length_error

/-- The decoding, with at most `n` turns.  A negative number of faces is a size that cannot be reserved. -/
def deserialise (facesCount : ℤ) (words : Words) (n : ℕ) :
    Except Exception (Option (List Face ⊕ Fault)) :=
  if facesCount < 0 then .error .length_error else .ok (Loop.run (body words) n ⟨0, []⟩)

/-- `MeshNode::deserialise`, for the faces. -/
def MeshNode.deserialise := FaceDecoding.deserialise

/-- `SupermeshingData::deserialise`, for the faces. -/
def SupermeshingData.deserialise := FaceDecoding.deserialise

/-- The decoding ends, without reading outside of the buffer or writing outside of a face. -/
def Safe (decode : ℕ → Except Exception (Option (List Face ⊕ Fault))) : Prop :=
  (∃ e, ∀ n, decode n = .error e) ∨ ∃ n faces, decode n = .ok (some (.inl faces))

/-- From position `i` on, the buffer is a sequence of faces with at most three indices.  A negative size leads back,
but not to before the buffer. -/
inductive Framed (words : Words) : ℕ → Prop
  | done : Framed words words.size
  | face {i next : ℕ} {word : BitVec 32} : words.toList[i]? = some word → word.toInt ≤ 3 →
      (next : ℤ) = i + (word.toInt + 1) → 0 < next → next ≤ words.size → next < 2 ^ 31 →
      Framed words next → Framed words i

/-! ### The indices of a face -/

section Fill

variable {words : Words}

theorem toSize_of_nonneg {i : ℤ} (h : 0 ≤ i) (hlt : i < 2 ^ 64) : toSize i = i.toNat := by
  unfold toSize
  rw [Int.emod_eq_of_lt h hlt]

private theorem le_toSize_of_neg {i : ℤ} (h : i < 0) (hrange : InRange i) : words.size ≤ toSize i := by
  have hlt : words.size < 2 ^ 61 := words.length_lt
  unfold toSize
  unfold InRange at hrange
  omega

theorem read_eq {i : ℕ} {word : BitVec 32} (h : words.toList[i]? = some word) : read words i = .ok word := by
  have hlt := (List.getElem?_eq_some_iff.1 h).1
  have hrange : 0 ≤ (i : ℤ) ∧ (i : ℤ) < words.size := ⟨Int.natCast_nonneg i, by exact_mod_cast hlt⟩
  rw [read, if_pos hrange, Int.toNat_natCast, List.getD_eq_getElem?_getD, h]
  rfl

theorem exists_read {i : ℤ} (h : 0 ≤ i) (hlt : i < words.size) :
    ∃ word, words.toList[i.toNat]? = some word ∧ read words i = .ok word := by
  have hnat : i.toNat < words.toList.length := by
    have : (i.toNat : ℤ) < words.size := by omega
    exact_mod_cast this
  refine ⟨words.toList[i.toNat], List.getElem?_eq_getElem hnat, ?_⟩
  have hread := read_eq (List.getElem?_eq_getElem hnat)
  rwa [Int.toNat_of_nonneg h] at hread

private theorem fill_cases {position : ℤ} {i n : ℕ} (h : 0 ≤ position) (hlt : position + (i + n : ℕ) < words.size)
    (hi : i ≤ 3) (face : Face) :
    (i + n ≤ 3 ∧ ∃ face', fill words position i n face = .ok face') ∨
      (3 < i + n ∧ fill words position i n face = .error .writeOutside) := by
  induction n generalizing i face with
  | zero => exact Or.inl ⟨hi, face, by rw [fill]⟩
  | succ n ih =>
    obtain ⟨word, -, hread⟩ : ∃ word, words.toList[(position + 1 + i).toNat]? = some word ∧
        read words (position + 1 + i) = .ok word := exists_read (by omega) (by omega)
    by_cases hslot : i < 3
    · let face' : Face := { face with indices := fun j => if j = ⟨i, hslot⟩ then word else face.indices j }
      have hfill : fill words position i (n + 1) face = fill words position (i + 1) n face' := by
        rw [fill, hread]
        simp only [bind, Except.bind, write, dif_pos hslot, face']
      rw [hfill]
      have hlt' : position + (i + 1 + n : ℕ) < words.size := by omega
      rcases ih hlt' (by omega) face' with ⟨hle, h⟩ | ⟨hle, h⟩
      · exact Or.inl ⟨by omega, h⟩
      · exact Or.inr ⟨by omega, h⟩
    · refine Or.inr ⟨by omega, ?_⟩
      rw [fill, hread]
      simp only [bind, Except.bind, write, dif_neg hslot]

end Fill

/-! ### The outer loop -/

section Body

variable {words : Words} {s : State}

/-- A face of the given size, at position `i`, has at most three indices and is followed by a position of the buffer
or its end. -/
def Fits (words : Words) (i : ℤ) (word : BitVec 32) : Prop :=
  word.toInt ≤ 3 ∧ 0 < i + (word.toInt + 1) ∧ i + (word.toInt + 1) ≤ words.size ∧ i + (word.toInt + 1) < 2 ^ 31

/-- What a turn does: it leaves the loop at the end of the buffer, goes to the next face if the face fits, and stays
where it is or fails if it does not. -/
theorem body_cases (words : Words) {s : State} (h : 0 ≤ s.mNumIndicesIndex) (hlt : s.mNumIndicesIndex < 2 ^ 31) :
    (words.size ≤ s.mNumIndicesIndex ∧ body words s = .leave s.faces) ∨
    ∃ word, words.toList[s.mNumIndicesIndex.toNat]? = some word ∧
      ((Fits words s.mNumIndicesIndex word ∧
          ∃ face, body words s = .again ⟨s.mNumIndicesIndex + (word.toInt + 1), s.faces ++ [face]⟩) ∨
        (¬ Fits words s.mNumIndicesIndex word ∧
          (body words s = .again s ∨ body words s = .fail .writeOutside ∨ body words s = .fail .overflow))) := by
  have hsize := toSize_of_nonneg h (by omega)
  by_cases hend : words.size > toSize s.mNumIndicesIndex
  · right
    obtain ⟨word, hword, hread⟩ : ∃ word, words.toList[s.mNumIndicesIndex.toNat]? = some word ∧
        read words s.mNumIndicesIndex = .ok word := exists_read h (by omega)
    refine ⟨word, hword, ?_⟩
    have hbounds := word.isLt
    have hlow := BitVec.le_toInt word
    have hhigh := BitVec.toInt_lt (x := word)
    unfold body Fits
    rw [if_pos hend, hread]
    dsimp only
    by_cases hsum : InRange (s.mNumIndicesIndex + word.toInt)
    · rw [if_neg (not_not_intro hsum)]
      by_cases hroom : words.size > toSize (s.mNumIndicesIndex + word.toInt)
      · rw [if_pos hroom]
        have hpos : 0 ≤ s.mNumIndicesIndex + word.toInt := by
          by_contra hneg
          exact absurd hroom (not_lt.2 (le_toSize_of_neg (not_le.1 hneg) hsum))
        have hroom : s.mNumIndicesIndex + word.toInt < words.size := by
          rw [toSize_of_nonneg hpos (by unfold InRange at hsum; omega)] at hroom
          omega
        have hfill : s.mNumIndicesIndex + (0 + word.toInt.toNat : ℕ) < words.size := by omega
        rcases fill_cases h hfill (by omega) (Face.ofSize word.toInt) with ⟨hle, face, hface⟩ | ⟨hgt, hfault⟩
        · rw [hface]
          dsimp only
          by_cases hnext : InRange (word.toInt + 1) ∧ InRange (s.mNumIndicesIndex + (word.toInt + 1))
          · rw [if_pos hnext]
            unfold InRange at hnext
            exact Or.inl ⟨⟨by omega, by omega, by omega, by omega⟩, face, rfl⟩
          · rw [if_neg hnext]
            unfold InRange at hnext
            exact Or.inr ⟨by omega, Or.inr (Or.inr rfl)⟩
        · rw [hfault]
          exact Or.inr ⟨by omega, Or.inr (Or.inl rfl)⟩
      · rw [if_neg hroom]
        refine Or.inr ⟨?_, Or.inl rfl⟩
        rintro ⟨-, hpos, hle, -⟩
        rw [toSize_of_nonneg (by omega) (by omega)] at hroom
        omega
    · rw [if_pos hsum]
      refine Or.inr ⟨?_, Or.inr (Or.inr rfl)⟩
      unfold InRange at hsum
      omega
  · left
    refine ⟨by omega, ?_⟩
    unfold body
    rw [if_neg hend]

/-- The positions of the loop. -/
def Inside (words : Words) (s : State) : Prop :=
  0 ≤ s.mNumIndicesIndex ∧ s.mNumIndicesIndex < 2 ^ 31 ∧ s.mNumIndicesIndex ≤ words.size

theorem Inside.again {s' : State} (h : Inside words s) (hs : body words s = .again s') : Inside words s' := by
  rcases body_cases words h.1 h.2.1 with ⟨-, hleave⟩ | ⟨word, -, ⟨hfits, face, hagain⟩ | ⟨-, hstay | hfail | hfail⟩⟩
  · exact nomatch hleave.symm.trans hs
  · rw [hagain] at hs
    cases hs
    exact ⟨hfits.2.1.le, hfits.2.2.2, hfits.2.2.1⟩
  · rw [hstay] at hs
    cases hs
    exact h
  · exact nomatch hfail.symm.trans hs
  · exact nomatch hfail.symm.trans hs

theorem inside_start (words : Words) : Inside words ⟨0, []⟩ := ⟨le_rfl, by decide, Int.natCast_nonneg _⟩

/-- The loop never reads outside the buffer. -/
theorem run_ne_readOutside (words : Words) (n : ℕ) :
    Loop.run (body words) n ⟨0, []⟩ ≠ some (.inr .readOutside) := by
  refine Loop.run_ne_fail (I := Inside words) (fun s s' h hs => h.again hs) ?_ (inside_start words) n
  intro s h hs
  rcases body_cases words h.1 h.2.1 with ⟨-, hleave⟩ | ⟨word, -, ⟨-, face, hagain⟩ | ⟨-, hstay | hfail | hfail⟩⟩
  · exact nomatch hleave.symm.trans hs
  · exact nomatch hagain.symm.trans hs
  · exact nomatch hstay.symm.trans hs
  · exact nomatch hfail.symm.trans hs
  · exact nomatch hfail.symm.trans hs

/-- The turns lead to the end exactly if the rest of the buffer is a sequence of faces. -/
theorem leaves_iff (h : Inside words s) : Loop.Leaves (body words) s ↔ Framed words s.mNumIndicesIndex.toNat := by
  constructor
  · intro hleaves
    induction hleaves with
    | @leave s r hs =>
      rcases body_cases words h.1 h.2.1 with ⟨hle, -⟩ | ⟨word, -, ⟨-, face, hagain⟩ | ⟨-, hstay | hfail | hfail⟩⟩
      · have hlast : s.mNumIndicesIndex.toNat = words.size := by
          have := h.2.2
          omega
        rw [hlast]
        exact .done
      · exact nomatch hagain.symm.trans hs
      · exact nomatch hstay.symm.trans hs
      · exact nomatch hfail.symm.trans hs
      · exact nomatch hfail.symm.trans hs
    | @again s s' hs _ ih =>
      have ih := ih (h.again hs)
      rcases body_cases words h.1 h.2.1 with ⟨-, hleave⟩ | ⟨word, hword, ⟨hfits, face, hagain⟩ | ⟨-, hstay | hfail | hfail⟩⟩
      · exact nomatch hleave.symm.trans hs
      · rw [hagain] at hs
        cases hs
        obtain ⟨hthree, hpos, hle, hlt⟩ := hfits
        have h0 := h.1
        exact .face hword hthree (by dsimp only; omega) (by dsimp only; omega) (by dsimp only; omega)
          (by dsimp only; omega) ih
      · rw [hstay] at hs
        cases hs
        exact ih
      · exact nomatch hfail.symm.trans hs
      · exact nomatch hfail.symm.trans hs
  · intro hframed
    generalize hi : s.mNumIndicesIndex.toNat = i at hframed
    induction hframed generalizing s with
    | done =>
      rcases body_cases words h.1 h.2.1 with ⟨-, hleave⟩ | ⟨word, hword, -⟩
      · exact .leave hleave
      · have hlt := (List.getElem?_eq_some_iff.1 hword).1
        rw [hi] at hlt
        exact absurd hlt (lt_irrefl _)
    | @face i next word hword hthree hnext hpos hle hlt _ ih =>
      have h0 := h.1
      have hfits : Fits words s.mNumIndicesIndex word := ⟨hthree, by omega, by omega, by omega⟩
      rcases body_cases words h.1 h.2.1 with ⟨hend, -⟩ | ⟨word', hword', ⟨-, face, hagain⟩ | ⟨hnot, -⟩⟩
      · have hi' := (List.getElem?_eq_some_iff.1 hword).1
        have hsize : words.size = words.toList.length := rfl
        omega
      · rw [hi, hword] at hword'
        cases hword'
        exact .again hagain (ih (h.again hagain) (by dsimp only; omega))
      · rw [hi, hword] at hword'
        cases hword'
        exact absurd hfits hnot

end Body

/-- The decoding of a buffer is safe exactly if it is a sequence of faces with at most three indices, or there is
nothing to decode because the number of faces is negative. -/
theorem deserialise_safe_iff (facesCount : ℤ) (words : Words) :
    (Safe (MeshNode.deserialise facesCount words) ↔ facesCount < 0 ∨ Framed words 0) ∧
    (Safe (SupermeshingData.deserialise facesCount words) ↔ facesCount < 0 ∨ Framed words 0) := by
  have hiff : Safe (deserialise facesCount words) ↔ facesCount < 0 ∨ Framed words 0 := by
    by_cases hcount : facesCount < 0
    · have hthrow : ∀ n, deserialise facesCount words n = .error .length_error := fun n => if_pos hcount
      exact iff_of_true (Or.inl ⟨_, hthrow⟩) (Or.inl hcount)
    · have hrun : ∀ n, deserialise facesCount words n = .ok (Loop.run (body words) n ⟨0, []⟩) := fun n => if_neg hcount
      have hleaves : Loop.Leaves (body words) ⟨0, []⟩ ↔ Framed words 0 := leaves_iff (inside_start words)
      rw [← hleaves, ← Loop.exists_run_iff, or_iff_right hcount]
      constructor
      · rintro (⟨e, he⟩ | ⟨n, faces, h⟩)
        · exact nomatch (hrun 0).symm.trans (he 0)
        · exact ⟨n, faces, Except.ok.inj ((hrun n).symm.trans h)⟩
      · rintro ⟨n, faces, h⟩
        exact Or.inr ⟨n, faces, (hrun n).trans (congrArg _ h)⟩
  exact ⟨hiff, hiff⟩

/-- A buffer that ends after the size of its first face. -/
def truncated : Words := ⟨[3], by decide⟩

/-- The loop never ends on it. -/
theorem not_safe_truncated :
    ¬ Safe (MeshNode.deserialise 1 truncated) ∧ ¬ Safe (SupermeshingData.deserialise 1 truncated) := by
  have hnot : ¬ Framed truncated 0 := by
    intro h
    cases h with
    | face hword _ hnext _ hle =>
      cases hword
      have hsize : truncated.size = 1 := rfl
      have hthree : (3 : BitVec 32).toInt = 3 := by decide
      omega
  have hsafe : ¬ Safe (deserialise 1 truncated) := by
    rintro (⟨e, he⟩ | ⟨n, faces, h⟩)
    · exact nomatch he 0
    · have hleaves := Loop.exists_run_iff.1 ⟨n, faces, Except.ok.inj h⟩
      exact hnot ((leaves_iff (inside_start truncated)).1 hleaves)
  exact ⟨hsafe, hsafe⟩

end Bouncer.FaceDecoding
