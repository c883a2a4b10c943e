import Bouncer.Datastructure.Geometry

/-!
# The keys of the radix sort

`make_key` turns the bits of a floating point number into an unsigned number.  Numbers that are not negative are counted
up from the middle of the range, the others down (`makeKey_spec`), so that keys compare as the numbers do
(`makeKey_le_iff`).  For the negative zero it negates the least `int64_t`, which is undefined (`makeKey_eq_none_iff`).
-/

namespace Bouncer.RadixSort

/-- The negation of an `int64_t`, where it is defined. -/
def negated (y : BitVec 64) : Option (BitVec 64) := if y = BitVec.intMin 64 then none else some (-y)

/-- `make_key` for a `double`, given by its bits. -/
def makeKey (y : BitVec 64) : Option (BitVec 64) := do
  let mask : BitVec 64 := 1 <<< 63
  let key ← if y &&& mask ≠ 0 then (negated y).map (· ^^^ mask) else some y
  return key ^^^ mask

/-- The bits of the negative zero. -/
def negativeZero : BitVec 64 := 1 <<< 63

/-- The significand of a `double` in units of the least one, from its bits without the sign. -/
def magnitude (m : ℕ) : ℕ := if m / 2 ^ 52 = 0 then m else (2 ^ 52 + m % 2 ^ 52) * 2 ^ (m / 2 ^ 52 - 1)

/-- The number that the bits of a `double` stand for, an infinity as the power of two after the largest number. -/
def valueOf (y : BitVec 64) : ℚ :=
  if y.toNat < 2 ^ 63 then (magnitude y.toNat : ℚ) / 2 ^ 1074 else -((magnitude (y.toNat - 2 ^ 63) : ℚ) / 2 ^ 1074)

private theorem xor_two_pow {x n : ℕ} (h : x < 2 ^ n) : x ^^^ 2 ^ n = 2 ^ n + x := by
  refine Nat.eq_of_testBit_eq fun i => ?_
  rw [Nat.testBit_xor, Nat.testBit_two_pow]
  rcases Nat.lt_trichotomy i n with hi | rfl | hi
  · rw [Nat.testBit_two_pow_add_gt hi, decide_eq_false (by omega), Bool.xor_false]
  · rw [Nat.testBit_two_pow_add_eq, decide_eq_true rfl, Bool.xor_true]
  · have hle : 2 ^ n + x < 2 ^ i := by
      have hpow : 2 ^ (n + 1) ≤ 2 ^ i := Nat.pow_le_pow_right (Nat.succ_pos 1) hi
      rw [Nat.pow_succ] at hpow
      omega
    rw [Nat.testBit_lt_two_pow hle, Nat.testBit_lt_two_pow (by omega), decide_eq_false (by omega), Bool.xor_false]

private theorem toNat_mask : (1 <<< 63 : BitVec 64).toNat = 2 ^ 63 := by decide

/-- The sign bit. -/
private theorem and_mask_eq_zero_iff (y : BitVec 64) : y &&& (1 <<< 63) = 0 ↔ y.toNat < 2 ^ 63 := by
  have hbit : y.toNat.testBit 63 = true ↔ ¬ y.toNat < 2 ^ 63 := by
    constructor
    · intro h hlt
      rw [Nat.testBit_lt_two_pow hlt] at h
      exact Bool.false_ne_true h
    · exact fun hle => Nat.testBit_of_two_pow_le_and_two_pow_add_one_gt (not_lt.1 hle) y.isLt
  have hzero : (0 : BitVec 64).toNat = 0 := rfl
  rw [← BitVec.toNat_inj, BitVec.toNat_and, toNat_mask, hzero]
  constructor
  · intro h
    by_contra hle
    have h63 : (y.toNat &&& 2 ^ 63).testBit 63 = true := by
      rw [Nat.testBit_and, hbit.2 hle, Nat.testBit_two_pow_self, Bool.and_true]
    rw [h, Nat.zero_testBit] at h63
    exact Bool.false_ne_true h63
  · intro hlt
    refine Nat.eq_of_testBit_eq fun i => ?_
    rw [Nat.testBit_and, Nat.testBit_two_pow, Nat.zero_testBit]
    by_cases hi : 63 = i
    · rw [← hi, Nat.testBit_lt_two_pow hlt, Bool.false_and]
    · rw [decide_eq_false hi, Bool.and_false]

private theorem makeKey_spec {y : BitVec 64} (hy : y ≠ negativeZero) : ∃ key, makeKey y = some key ∧
    key.toNat = if y.toNat < 2 ^ 63 then 2 ^ 63 + y.toNat else 2 ^ 63 - (y.toNat - 2 ^ 63) := by
  have hlast := y.isLt
  by_cases hlt : y.toNat < 2 ^ 63
  · have hpositive : makeKey y = some (y ^^^ 1 <<< 63) := by
      unfold makeKey
      rw [if_neg (not_not.2 ((and_mask_eq_zero_iff y).2 hlt))]
      rfl
    refine ⟨_, hpositive, ?_⟩
    rw [if_pos hlt, BitVec.toNat_xor, toNat_mask, xor_two_pow hlt]
  · have hleast : ¬ y = BitVec.intMin 64 := hy
    have hnegative : makeKey y = some ((-y ^^^ 1 <<< 63) ^^^ 1 <<< 63) := by
      unfold makeKey negated
      rw [if_pos (mt (and_mask_eq_zero_iff y).1 hlt), if_neg hleast]
      rfl
    refine ⟨_, hnegative, ?_⟩
    rw [if_neg hlt, BitVec.xor_assoc, BitVec.xor_self, BitVec.xor_zero, BitVec.toNat_neg]
    omega

theorem makeKey_eq_none_iff {y : BitVec 64} : makeKey y = none ↔ y = negativeZero := by
  constructor
  · intro h
    by_contra hy
    obtain ⟨key, hkey, -⟩ := makeKey_spec hy
    rw [hkey] at h
    exact Option.some_ne_none key h
  · rintro rfl
    decide

/-- More bits stand for a larger number. -/
private theorem magnitude_strictMono : StrictMono magnitude := by
  refine strictMono_nat_of_lt_succ fun m => ?_
  unfold magnitude
  have hm := Nat.div_add_mod m (2 ^ 52)
  have hlt := Nat.mod_lt m (Nat.two_pow_pos 52)
  by_cases hcarry : m % 2 ^ 52 + 1 < 2 ^ 52
  · have hdiv : (m + 1) / 2 ^ 52 = m / 2 ^ 52 := by omega
    have hmod : (m + 1) % 2 ^ 52 = m % 2 ^ 52 + 1 := by omega
    rw [hdiv, hmod]
    split_ifs with hzero
    · exact Nat.lt_succ_self m
    · exact Nat.mul_lt_mul_of_pos_right (by omega) (Nat.two_pow_pos _)
  · -- the next significand starts again, with a larger exponent
    have hdiv : (m + 1) / 2 ^ 52 = m / 2 ^ 52 + 1 := by omega
    have hmod : (m + 1) % 2 ^ 52 = 0 := by omega
    rw [hdiv, hmod, if_neg (Nat.succ_ne_zero _), Nat.add_sub_cancel, Nat.add_zero]
    split_ifs with hzero
    · rw [hzero, Nat.pow_zero, Nat.mul_one]
      omega
    · obtain ⟨e, he⟩ := Nat.exists_eq_succ_of_ne_zero hzero
      have hpow : 2 ^ (e + 1) = 2 ^ e * 2 := Nat.pow_succ 2 e
      rw [he, Nat.succ_sub_one, Nat.succ_eq_add_one, hpow]
      calc (2 ^ 52 + m % 2 ^ 52) * 2 ^ e < (2 ^ 52 + 2 ^ 52) * 2 ^ e :=
          Nat.mul_lt_mul_of_pos_right (by omega) (Nat.two_pow_pos _)
        _ = 2 ^ 52 * (2 ^ e * 2) := by ring

/-- The keys order as the numbers do. -/
theorem makeKey_le_iff {x y : BitVec 64} (hx : x ≠ negativeZero) (hy : y ≠ negativeZero) :
    ∃ kx ky, makeKey x = some kx ∧ makeKey y = some ky ∧ (kx.toNat ≤ ky.toNat ↔ valueOf x ≤ valueOf y) := by
  obtain ⟨kx, hkx, hkxNat⟩ := makeKey_spec hx
  obtain ⟨ky, hky, hkyNat⟩ := makeKey_spec hy
  refine ⟨kx, ky, hkx, hky, ?_⟩
  rw [hkxNat, hkyNat]
  have hunit : (0 : ℚ) < 2 ^ 1074 := by positivity
  have hylast : y.toNat ≠ 2 ^ 63 := fun h => hy (BitVec.eq_of_toNat_eq h)
  have hxlt := x.isLt
  have hylt := y.isLt
  unfold valueOf
  generalize (2 : ℚ) ^ 1074 = unit at hunit ⊢
  have hnonneg : ∀ m, (0 : ℚ) ≤ (magnitude m : ℚ) / unit := fun m => div_nonneg (Nat.cast_nonneg _) hunit.le
  split_ifs with hxs hys hys
  · rw [div_le_div_iff_of_pos_right hunit, Nat.cast_le, magnitude_strictMono.le_iff_le]
    omega
  · have hpos : 0 < y.toNat - 2 ^ 63 := by omega
    have hmagnitude : (0 : ℚ) < (magnitude (y.toNat - 2 ^ 63) : ℚ) / unit :=
      div_pos (Nat.cast_pos.2 (magnitude_strictMono hpos)) hunit
    have hle := hnonneg x.toNat
    exact iff_of_false (by omega) (not_le.2 (by linarith))
  · refine iff_of_true (by omega) ?_
    have hle := hnonneg (x.toNat - 2 ^ 63)
    have hle' := hnonneg y.toNat
    linarith
  · rw [neg_le_neg_iff, div_le_div_iff_of_pos_right hunit, Nat.cast_le, magnitude_strictMono.le_iff_le]
    omega

/-- Minus one is before one. -/
theorem makeKey_le_iff_one : ∃ kx ky, makeKey 0xBFF0000000000000#64 = some kx ∧ makeKey 0x3FF0000000000000#64 = some ky ∧
    (kx.toNat ≤ ky.toNat ↔ valueOf 0xBFF0000000000000#64 ≤ valueOf 0x3FF0000000000000#64) :=
  makeKey_le_iff (by decide) (by decide)

end Bouncer.RadixSort
