import Mathlib.Data.List.Flatten
import Mathlib.Data.List.GetD
import Mathlib.Algebra.Order.Ring.Nat

/-!
# Packed values

Values that are stored in a fixed number of bytes each.  A list of them is stored by putting the bytes one after the
other (`pack`), and read back by cutting the bytes into pieces of that size (`unpack`); what is left at the end is not
read.

Reading back what was stored gives the same values (`unpack_pack`).
-/

namespace Bouncer.Library

universe u v w

/-- How a value is stored in `width` bytes. -/
structure Packing (α : Type u) (β : Type v) where
  width : ℕ
  width_pos : 0 < width
  bytes : α → List β
  read : List β → α
  length_bytes : ∀ x, (bytes x).length = width
  read_bytes : ∀ x, read (bytes x) = x

namespace Packing

variable {α : Type u} {β : Type v} (P : Packing α β)

def pack (xs : List α) : List β := xs.flatMap P.bytes

/-- Read `n` values. -/
def unpackN : ℕ → List β → List α
  | 0, _ => []
  | n + 1, bytes => P.read (bytes.take P.width) :: unpackN n (bytes.drop P.width)

def unpack (bytes : List β) : List α := P.unpackN (bytes.length / P.width) bytes

@[simp] theorem length_pack (xs : List α) : (P.pack xs).length = P.width * xs.length := by
  induction xs with
  | nil => simp [pack]
  | cons x xs ih =>
    have hcons : P.pack (x :: xs) = P.bytes x ++ P.pack xs := List.flatMap_cons
    rw [hcons, List.length_append, P.length_bytes, ih, List.length_cons, Nat.mul_succ]
    omega

theorem unpackN_pack (xs : List α) : P.unpackN xs.length (P.pack xs) = xs := by
  induction xs with
  | nil => rfl
  | cons x xs ih =>
    have hcons : P.pack (x :: xs) = P.bytes x ++ P.pack xs := List.flatMap_cons
    rw [List.length_cons, unpackN, hcons, List.take_left' (P.length_bytes x), List.drop_left' (P.length_bytes x),
      P.read_bytes, ih]

/-- What was stored is read back. -/
@[simp] theorem unpack_pack (xs : List α) : P.unpack (P.pack xs) = xs := by
  unfold unpack
  rw [P.length_pack, Nat.mul_div_cancel_left _ P.width_pos]
  exact P.unpackN_pack xs

/-- Two values, one after the other. -/
def prod {γ : Type w} (Q : Packing γ β) : Packing (α × γ) β where
  width := P.width + Q.width
  width_pos := Nat.add_pos_left P.width_pos _
  bytes := fun p => P.bytes p.1 ++ Q.bytes p.2
  read := fun bytes => (P.read (bytes.take P.width), Q.read (bytes.drop P.width))
  length_bytes := by
    intro p
    rw [List.length_append, P.length_bytes, Q.length_bytes]
  read_bytes := by
    intro p
    rw [List.take_left' (P.length_bytes p.1), List.drop_left' (P.length_bytes p.1), P.read_bytes, Q.read_bytes]

/-- The same bytes, for a type with the same values. -/
def congr {γ : Type w} (e : γ ≃ α) : Packing γ β where
  width := P.width
  width_pos := P.width_pos
  bytes := fun x => P.bytes (e x)
  read := fun bytes => e.symm (P.read bytes)
  length_bytes := fun x => P.length_bytes (e x)
  read_bytes := fun x => by rw [P.read_bytes, Equiv.symm_apply_apply]

end Packing

/-- A word of 32 bits, the least significant byte first. -/
def Packing.word : Packing (BitVec 32) (BitVec 8) where
  width := 4
  width_pos := by decide
  bytes := fun x => [x.extractLsb' 0 8, x.extractLsb' 8 8, x.extractLsb' 16 8, x.extractLsb' 24 8]
  read := fun bytes => bytes.getD 3 0 ++ bytes.getD 2 0 ++ bytes.getD 1 0 ++ bytes.getD 0 0
  length_bytes := fun _ => rfl
  read_bytes := by
    intro x
    apply BitVec.eq_of_getLsbD_eq
    intro i hi
    simp only [List.getD_cons_zero, List.getD_cons_succ, BitVec.getLsbD_append, BitVec.getLsbD_extractLsb']
    -- a bit is in the first byte, or in that of its position eight, sixteen or twenty-four bits further down
    by_cases h1 : i < 8
    · simp [h1]
    · by_cases h2 : i - 8 < 8
      · have hi2 : 8 + (i - 8) = i := by omega
        simp [h1, h2, hi2]
      · by_cases h3 : i - 8 - 8 < 8
        · have hi3 : 16 + (i - 8 - 8) = i := by omega
          simp [h1, h2, h3, hi3]
        · have hi4 : 24 + (i - 8 - 8 - 8) = i := by omega
          have h4 : i - 8 - 8 - 8 < 8 := by omega
          simp [h1, h2, h3, h4, hi4]

@[simp] theorem Packing.width_word : Packing.word.width = 4 := rfl

end Bouncer.Library
