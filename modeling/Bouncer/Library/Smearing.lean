import Mathlib

/-!
# Rounding up to a power of two

The bits of a number are spread to all places below them by or-ing it with its shifts, each time twice as far.  After the last
shift all places below the highest bit are set, so that one more is the least power of two above the number
(`Smeared.add_one_eq`).
-/

namespace Bouncer.Library

/-- A bit of `y` is set if one of `x` is, from its place up to `n` places higher. -/
def Smeared (n x y : ℕ) : Prop := ∀ i, y.testBit i = true ↔ ∃ j < n, x.testBit (i + j) = true

namespace Smeared

variable {n x y : ℕ}

theorem refl (x : ℕ) : Smeared 1 x x := by
  intro i
  constructor
  · intro hi
    exact ⟨0, Nat.one_pos, hi⟩
  · rintro ⟨j, hj, hi⟩
    obtain rfl : j = 0 := by omega
    exact hi

/-- One shift by as many places as the bits have been spread. -/
theorem or_shiftRight (h : Smeared n x y) : Smeared (n + n) x (y ||| y >>> n) := by
  intro i
  rw [Nat.testBit_or, Nat.testBit_shiftRight, Bool.or_eq_true, h i, h (n + i)]
  constructor
  · rintro (⟨j, hj, hi⟩ | ⟨j, hj, hi⟩)
    · exact ⟨j, Nat.lt_of_lt_of_le hj (Nat.le_add_left _ _), hi⟩
    · exact ⟨n + j, Nat.add_lt_add_left hj n, by rwa [← Nat.add_assoc, Nat.add_comm i n]⟩
  · rintro ⟨j, hj, hi⟩
    rcases Nat.lt_or_ge j n with hlt | hge
    · exact .inl ⟨j, hlt, hi⟩
    · refine .inr ⟨j - n, by omega, ?_⟩
      rwa [Nat.add_assoc, Nat.add_left_comm, Nat.add_sub_cancel' hge]

/-- If the bits have been spread over all places, then the next number is the least power of two above `x`. -/
theorem add_one_eq (h : Smeared n x y) (hx : x < 2 ^ n) : y + 1 = 2 ^ x.size := by
  have heq : y = 2 ^ x.size - 1 := by
    refine Nat.eq_of_testBit_eq fun i => ?_
    rw [Nat.testBit_two_pow_sub_one, Bool.eq_iff_iff, h i, decide_eq_true_iff, Nat.lt_size]
    constructor
    · rintro ⟨j, -, hi⟩
      exact Nat.le_trans (Nat.pow_le_pow_right Nat.two_pos (Nat.le_add_right i j)) (Nat.ge_two_pow_of_testBit hi)
    · intro hle
      obtain ⟨j, hij, hj⟩ := Nat.exists_ge_and_testBit_of_ge_two_pow hle
      have hjn : j < n :=
        (Nat.pow_lt_pow_iff_right (by decide)).1 (Nat.lt_of_le_of_lt (Nat.ge_two_pow_of_testBit hj) hx)
      exact ⟨j - i, by omega, by rwa [Nat.add_sub_cancel' hij]⟩
  rw [heq, Nat.sub_add_cancel (Nat.two_pow_pos _)]

end Smeared

end Bouncer.Library
