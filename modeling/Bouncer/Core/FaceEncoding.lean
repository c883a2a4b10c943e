import Bouncer.Core.FaceDecoding
import Bouncer.Core.MeshNode
import Mathlib.Tactic.IntervalCases

/-!
# Decoding encoded faces

`MeshNode::serialise` stores a face as the number of its indices, followed by the indices.  These words are decoded to the
same faces, exactly if all positions in the buffer are `int`s (`deserialise_faceWords_iff`).
-/

namespace Bouncer

open Library (Loop.run)

namespace FaceDecoding

/-- The face that a decoded one is: its first `sides` indices. -/
def Face.toRepoFace (face : Face) : RepoFace :=
  ⟨((List.finRange 3).map fun i => (face.indices i).toNat).take face.sides.toNat, by
    rw [List.length_take, List.length_map, List.length_finRange]
    exact min_le_right _ _⟩

/-- The words of a face. -/
def faceWords (face : RepoFace) : List (BitVec 32) :=
  BitVec.ofNat 32 face.sides :: face.indices.map (BitVec.ofNat 32)

variable {words : Words}

/-- The indices that are stored are those in the buffer; the others stay as they are. -/
theorem fill_eq (words : Words) (position : ℤ) (i n : ℕ) (h : 0 ≤ position)
    (hlt : position + (i + n : ℕ) < words.size) (hi : i + n ≤ 3) (face : Face) : ∃ face', fill words position i n face = .ok face' ∧ face'.sides = face.sides ∧
      (∀ j : Fin 3, (j : ℕ) < i → face'.indices j = face.indices j) ∧
      ∀ j : Fin 3, i ≤ (j : ℕ) → (j : ℕ) < i + n → words.toList[position.toNat + 1 + j]? = some (face'.indices j) := by
  induction n generalizing i face with
  | zero => exact ⟨face, by rw [fill], rfl, fun _ _ => rfl, fun j hle hj => absurd hj (by omega)⟩
  | succ n ih =>
    obtain ⟨word, hword, hread⟩ : ∃ word, words.toList[(position + 1 + i).toNat]? = some word ∧
        read words (position + 1 + i) = .ok word := exists_read (by omega) (by omega)
    have hslot : i < 3 := by omega
    let face₁ : Face := { face with indices := fun j => if j = ⟨i, hslot⟩ then word else face.indices j }
    have hfill : fill words position i (n + 1) face = fill words position (i + 1) n face₁ := by
      rw [fill, hread]
      simp only [bind, Except.bind, write, dif_pos hslot, face₁]
    obtain ⟨face', hface', hsides, hbelow, habove⟩ := ih (i := i + 1) (by omega) (by omega) face₁
    refine ⟨face', hfill.trans hface', hsides, ?_, ?_⟩
    · intro j hj
      rw [hbelow j (by omega)]
      have hne : j ≠ ⟨i, hslot⟩ := fun he => by simp [he] at hj
      exact if_neg hne
    · intro j hle hj
      by_cases heq : (j : ℕ) = i
      · have hj' : j = ⟨i, hslot⟩ := Fin.ext heq
        have hsame : face'.indices j = word := (hbelow j (by omega)).trans (if_pos hj')
        have hposition : position.toNat + 1 + j = (position + 1 + i).toNat := by omega
        rw [hsame, hposition]
        exact hword
      · exact habove j (by omega) (by omega)

private theorem toNat_ofInt_sides {n : ℕ} (h : n ≤ 3) : (BitVec.ofInt 8 n).toNat = n := by
  interval_cases n <;> rfl

private theorem toInt_ofNat_sides {n : ℕ} (h : n ≤ 3) : (BitVec.ofNat 32 n).toInt = n := by
  interval_cases n <;> rfl

/-- At the words of a face, the face is decoded. -/
theorem body_face {before after : List (BitVec 32)} {face : RepoFace} (done : List Face)
    (hindices : ∀ i ∈ face.indices, i < 2 ^ 32) (hwords : words.toList = before ++ (faceWords face ++ after))
    (hlt : before.length + (face.sides + 1) < 2 ^ 31) :
    ∃ face', face'.toRepoFace = face ∧
      body words ⟨before.length, done⟩ = .again ⟨(before ++ faceWords face).length, done ++ [face']⟩ := by
  have hsides : face.sides ≤ 3 := face.sides_le
  have hlength : (faceWords face).length = face.sides + 1 := by
    rw [faceWords, List.length_cons, List.length_map, RepoFace.sides]
  have hsize : words.size = before.length + (face.sides + 1) + after.length := by
    rw [Words.size, hwords, List.length_append, List.length_append, hlength]
    omega
  have hword : words.toList[before.length]? = some (BitVec.ofNat 32 face.sides) := by
    rw [hwords, List.getElem?_append_right le_rfl, Nat.sub_self]
    rfl
  have hread : read words before.length = .ok (BitVec.ofNat 32 face.sides) := read_eq hword
  have hfirst : words.size > toSize before.length := by
    rw [toSize_of_nonneg (by omega) (by omega)]
    omega
  have hroom : words.size > toSize (before.length + (face.sides : ℤ)) := by
    rw [toSize_of_nonneg (by omega) (by omega)]
    omega
  obtain ⟨face', hfill, hsides', -, hindices'⟩ := fill_eq words before.length 0
    face.sides (by omega) (by omega) (by omega) (.ofSize face.sides)
  refine ⟨face', ?_, ?_⟩
  · have hcount : face'.sides.toNat = face.sides := by
      rw [hsides']
      exact toNat_ofInt_sides hsides
    have hget : ∀ j : Fin 3, (hj : (j : ℕ) < face.sides) → (face'.indices j).toNat = face.indices.get ⟨j, hj⟩ := by
      intro j hj
      have hat := hindices' j (Nat.zero_le _) (by omega)
      have hskip : before.length ≤ (before.length : ℤ).toNat + 1 + j := by omega
      have hpos : (before.length : ℤ).toNat + 1 + j - before.length = j + 1 := by omega
      rw [hwords, List.getElem?_append_right hskip, hpos, List.getElem?_append_left (by omega), faceWords,
        List.getElem?_cons_succ, List.getElem?_map, List.getElem?_eq_getElem hj] at hat
      rw [← Option.some.inj hat, BitVec.toNat_ofNat]
      exact Nat.mod_eq_of_lt (hindices _ (List.getElem_mem hj))
    have hlist : face'.toRepoFace.indices = face.indices := by
      apply List.ext_getElem
      · rw [Face.toRepoFace, List.length_take, List.length_map, List.length_finRange, hcount]
        exact min_eq_left hsides
      · intro j hj hj'
        simp only [Face.toRepoFace, List.getElem_take, List.getElem_map, List.getElem_finRange]
        exact hget _ hj'
    cases face
    cases hlist
    rfl
  · have hint : (BitVec.ofNat 32 face.sides).toInt = face.sides := toInt_ofNat_sides hsides
    have hnext : InRange ((face.sides : ℤ) + 1) ∧ InRange (before.length + ((face.sides : ℤ) + 1)) := by
      unfold InRange
      omega
    have hsum : InRange (before.length + (face.sides : ℤ)) := by
      unfold InRange
      omega
    unfold body
    rw [if_pos hfirst, hread]
    dsimp only
    rw [hint, if_neg (not_not_intro hsum), if_pos hroom, Int.toNat_natCast, hfill]
    dsimp only
    rw [if_pos hnext, List.length_append, hlength]
    norm_cast

/-- The words of faces are decoded to these faces. -/
theorem run_faceWords (before : List (BitVec 32)) {faces : List RepoFace} (done : List Face)
    (hindices : ∀ face ∈ faces, ∀ i ∈ face.indices, i < 2 ^ 32)
    (hwords : words.toList = before ++ faces.flatMap faceWords) (hlt : words.size < 2 ^ 31) :
    ∃ faces', faces'.map Face.toRepoFace = faces ∧
      Loop.run (body words) (faces.length + 1) ⟨before.length, done⟩ = some (.inl (done ++ faces')) := by
  have hsize : words.size = (before ++ faces.flatMap faceWords).length := congrArg List.length hwords
  induction faces generalizing before done with
  | nil =>
    refine ⟨[], rfl, ?_⟩
    have hend : ¬ words.size > toSize before.length := by
      rw [List.flatMap_nil, List.append_nil] at hsize
      rw [toSize_of_nonneg (by omega) (by omega)]
      omega
    have hleave : body words ⟨before.length, done⟩ = .leave done := if_neg hend
    rw [List.length_nil, Library.Loop.run_leave hleave, List.append_nil]
  | cons face faces ih =>
    rw [List.flatMap_cons] at hwords hsize
    have hface : before.length + (face.sides + 1) < 2 ^ 31 := by
      have hlength : (faceWords face).length = face.sides + 1 := by
        rw [faceWords, List.length_cons, List.length_map, RepoFace.sides]
      rw [List.length_append, List.length_append, hlength] at hsize
      omega
    obtain ⟨face', hface', hbody⟩ := body_face done (hindices face List.mem_cons_self) hwords hface
    rw [← List.append_assoc] at hwords hsize
    obtain ⟨faces', hfaces', hrun⟩ :=
      ih _ (done ++ [face']) (fun f hf => hindices f (List.mem_cons_of_mem _ hf)) hwords hsize
    refine ⟨face' :: faces', by rw [List.map_cons, hface', hfaces'], ?_⟩
    rw [List.length_cons, Library.Loop.run_again hbody, hrun, List.append_assoc]
    rfl

/-- The last position of a buffer that is decoded is an `int`. -/
theorem Framed.size_lt {i : ℕ} (h : Framed words i) : words.size < 2 ^ 31 ∨ i = words.size := by
  induction h with
  | done => exact .inr rfl
  | face _ _ _ _ _ hlt _ ih =>
    rcases ih with hsize | hend
    · exact .inl hsize
    · exact .inl (hend ▸ hlt)

/-- The words of faces are decoded to these faces, exactly if all positions are `int`s. -/
theorem deserialise_faceWords_iff {faces : List RepoFace} (hne : faces ≠ [])
    (hindices : ∀ face ∈ faces, ∀ i ∈ face.indices, i < 2 ^ 32) (hwords : words.toList = faces.flatMap faceWords) :
    (∃ n faces', FaceDecoding.deserialise (MeshNode.int32 faces.length) words n = .ok (some (.inl faces')) ∧
      faces'.map Face.toRepoFace = faces) ↔ words.size < 2 ^ 31 := by
  have hcount : faces.length ≤ words.size := by
    have hle : ∀ l : List RepoFace, l.length ≤ (l.flatMap faceWords).length := by
      intro l
      induction l with
      | nil => exact Nat.le_refl 0
      | cons face l ih =>
        rw [List.flatMap_cons, List.length_append, List.length_cons, faceWords, List.length_cons]
        omega
    rw [Words.size, hwords]
    exact hle faces
  have hpos : 0 < faces.length := List.length_pos_iff.2 hne
  constructor
  · rintro ⟨n, faces', h, -⟩
    unfold FaceDecoding.deserialise at h
    split at h
    · exact nomatch h
    · have hleaves := Library.Loop.exists_run_iff.1 ⟨n, faces', Except.ok.inj h⟩
      have hframed : Framed words 0 := (leaves_iff (inside_start words)).1 hleaves
      rcases hframed.size_lt with hsize | hend
      · exact hsize
      · omega
  · intro hlt
    have hint : MeshNode.int32 faces.length = faces.length := by
      unfold MeshNode.int32
      apply Int.bmod_eq_of_le <;> omega
    obtain ⟨faces', hfaces', hrun⟩ := run_faceWords [] [] hindices hwords hlt
    refine ⟨faces.length + 1, faces', ?_, hfaces'⟩
    unfold FaceDecoding.deserialise
    rw [if_neg (by omega)]
    exact congrArg _ hrun

end FaceDecoding

end Bouncer
