import Bouncer.Library.Smearing
import Bouncer.SpscQueue.Invariant

/-!
# A new queue

The constructor makes a circle of empty blocks.  The size of a block is a power of two: it is the least one above the number of
elements (`ceilToPow2_isLeast`), or that of the largest block, of which there are so many that the others hold these elements.
-/

namespace Bouncer

namespace ReaderWriterQueue

open Library (Circle Smeared)

variable {T : Type*} {maxBlockSize size n capacity : ℕ}

/-! ### Powers of two -/

private theorem ceilToPow2_eq {x : ℕ} (hpos : 0 < x) (hle : x ≤ 2 ^ 63) : ceilToPow2 x = 2 ^ (x - 1).size := by
  have hx : (x + (2 ^ 64 - 1)) % 2 ^ 64 = x - 1 := by omega
  have hlt : x - 1 < 2 ^ 63 := by omega
  have hsmeared : Smeared 64 (x - 1) ([1, 2, 4].foldl (fun x i => smear x (i <<< 3)) (smear (smear (smear (x - 1) 1) 2) 4)) :=
    (Smeared.refl (x - 1)).or_shiftRight.or_shiftRight.or_shiftRight.or_shiftRight.or_shiftRight.or_shiftRight
  have hpow : 2 ^ (x - 1).size < 2 ^ 64 :=
    Nat.pow_lt_pow_right (by decide) (Nat.lt_succ_of_le (Nat.size_le.2 hlt))
  unfold ceilToPow2
  simp only [hx]
  rw [hsmeared.add_one_eq (hlt.trans (by decide)), Nat.mod_eq_of_lt hpow]

private theorem ceilToPow2_isLeast {x : ℕ} (hpos : 0 < x) (hle : x ≤ 2 ^ 63) :
    (∃ k, ceilToPow2 x = 2 ^ k) ∧ x ≤ ceilToPow2 x ∧ ∀ k, x ≤ 2 ^ k → ceilToPow2 x ≤ 2 ^ k := by
  rw [ceilToPow2_eq hpos hle]
  refine ⟨⟨_, rfl⟩, ?_, fun k hk => ?_⟩
  · have hlt := Nat.lt_size_self (x - 1)
    omega
  · refine Nat.pow_le_pow_right Nat.two_pos (Nat.size_le.2 ?_)
    omega

theorem ceilToPow2_isLeast_five : (∃ k, ceilToPow2 5 = 2 ^ k) ∧ 5 ≤ ceilToPow2 5 ∧ ∀ k, 5 ≤ 2 ^ k → ceilToPow2 5 ≤ 2 ^ k :=
  ceilToPow2_isLeast (by decide) (by decide)

example : ceilToPow2 16 = 16 := by decide

/-! ### The circle -/

/-- The blocks after `n` passes of the loop. -/
def madeBlocks (capacity n : ℕ) : ℕ → Block T := (List.range n).foldl (addBlock capacity) fun _ => makeBlock 0 0

private theorem madeBlocks_succ : (madeBlocks capacity (n + 1) : ℕ → Block T) = addBlock capacity (madeBlocks capacity n) n := by
  rw [madeBlocks, List.range_succ, List.foldl_append]
  rfl

private theorem madeBlocks_last : (madeBlocks capacity (n + 1) : ℕ → Block T) n = makeBlock capacity 0 := by
  rw [madeBlocks_succ, addBlock, Function.update_self]

private theorem madeBlocks_of_lt {b : ℕ} (hb : b < n) :
    (madeBlocks capacity (n + 1) : ℕ → Block T) b =
      { (madeBlocks capacity n : ℕ → Block T) b with
        next := if b = n - 1 then n else ((madeBlocks capacity n : ℕ → Block T) b).next } := by
  rw [madeBlocks_succ, addBlock, Function.update_of_ne hb.ne, if_neg (Nat.ne_zero_of_lt hb)]
  by_cases heq : b = n - 1
  · rw [heq, Function.update_self, if_pos rfl]
  · rw [Function.update_of_ne heq, if_neg heq]

private theorem circle_madeBlocks (n : ℕ) :
    Circle (fun b => ((madeBlocks capacity (n + 1) : ℕ → Block T) b).next) (List.range (n + 1)) := by
  induction n with
  | zero => exact Circle.singleton (congrArg Block.next madeBlocks_last)
  | succ n ih =>
    have hnodup := List.nodup_range (n := n + 1)
    rw [List.range_succ] at ih hnodup
    rw [List.range_succ, List.range_succ, List.append_assoc]
    refine ih.insert hnodup ?_ ?_ fun b hb hne => ?_
    · rw [madeBlocks_of_lt (Nat.lt_succ_self n)]
      exact if_pos rfl
    · rw [madeBlocks_last, madeBlocks_last]
    · rw [← List.range_succ, List.mem_range] at hb
      rw [madeBlocks_of_lt hb]
      exact if_neg hne

theorem intact_madeBlocks (h : ∃ k, capacity = 2 ^ (k + 1)) {b : ℕ} (hb : b < n) :
    Intact ((madeBlocks capacity n : ℕ → Block T) b) ⟨0, 0, 0, []⟩ [] ∧
      ((madeBlocks capacity n : ℕ → Block T) b).size = capacity := by
  induction n with
  | zero => exact absurd hb (Nat.not_lt_zero b)
  | succ n ih =>
    obtain hb | rfl := Nat.lt_succ_iff_lt_or_eq.1 hb
    · rw [madeBlocks_of_lt hb]
      exact ⟨(ih hb).1.link _, (ih hb).2⟩
    · rw [madeBlocks_last]
      refine ⟨intact_makeBlock h 0, ?_⟩
      obtain ⟨k, rfl⟩ := h
      exact Nat.sub_add_cancel (Nat.two_pow_pos _)

theorem invariant_startWith (h : ∃ k, capacity = 2 ^ (k + 1)) (n : ℕ) :
    Invariant (startWith (n + 1) capacity : State T) [0] ((List.range n).map Nat.succ) fun _ => [] := by
  have hring : [0] ++ (List.range n).map Nat.succ = List.range (n + 1) := List.range_succ_eq_map.symm
  exact {
    ring := {
      circle := by
        rw [hring]
        exact circle_madeBlocks n
      nodup := by
        rw [hring]
        exact List.nodup_range
      lt := by
        rw [hring]
        exact fun _ => List.mem_range.1
      front := ⟨[], rfl⟩
      tail := ⟨[], rfl⟩ }
    made := by
      rw [hring]
      exact fun b hb => List.mem_append_left _ (List.mem_range.2 hb)
    size := h
    intact := by
      rw [hring]
      exact fun b hb => (intact_madeBlocks h (List.mem_range.1 hb)).1
    filled := fun b hb => absurd hb List.not_mem_nil
    empty := fun _ _ => rfl
    middle := fun b hb => absurd hb List.not_mem_nil
    tail := fun hp => absurd hp Bool.false_ne_true
    producer := trivial
    consumer := trivial
    fifo := rfl
    count := rfl }

/-- What the constructor asserts about the largest size of a block, and that a block is to hold an element at least. -/
structure Sized (maxBlockSize size : ℕ) : Prop where
  maxBlockSize_eq : ∃ k, maxBlockSize = 2 ^ (k + 1)
  size_pos : 0 < size
  size_lt : size < 2 ^ 63

namespace Sized

variable (h : Sized maxBlockSize size)
include h

/-- The blocks of a new queue hold `size` elements, even without one of them. -/
theorem exists_start : ∃ n capacity, (start maxBlockSize size : State T) = startWith (n + 1) capacity ∧
    (∃ k, capacity = 2 ^ (k + 1)) ∧ (size < capacity ∨ capacity = maxBlockSize ∧ size ≤ n * (maxBlockSize - 1)) := by
  have hceil := ceilToPow2_eq (Nat.succ_pos size) h.size_lt
  have hsize : size < ceilToPow2 (size + 1) := (ceilToPow2_isLeast (Nat.succ_pos size) h.size_lt).2.1
  unfold start
  split
  · rename_i hlarge
    obtain ⟨k, hk⟩ := h.maxBlockSize_eq
    have hpos := Nat.two_pow_pos k
    have htwo : 2 ≤ maxBlockSize := by
      rw [hk, Nat.pow_succ]
      omega
    have hle : maxBlockSize * 2 ≤ size := by
      by_contra hlt
      have hpow : size + 1 ≤ 2 ^ (k + 2) := by
        rw [Nat.pow_succ, ← hk]
        omega
      have hceil' := (ceilToPow2_isLeast (Nat.succ_pos size) h.size_lt).2.2 _ hpow
      rw [Nat.pow_succ 2 (k + 1), ← hk] at hceil'
      exact absurd hlarge (Nat.not_lt.2 hceil')
    have hcount : (size + maxBlockSize * 2 - 3) / (maxBlockSize - 1) =
        (size + (maxBlockSize - 1) - 1) / (maxBlockSize - 1) + 1 := by
      rw [← Nat.add_div_right _ (by omega : 0 < maxBlockSize - 1)]
      congr 1
      omega
    refine ⟨_, maxBlockSize, by rw [hcount], ⟨k, hk⟩, .inr ⟨rfl, ?_⟩⟩
    have hdiv := Nat.div_add_mod (size + (maxBlockSize - 1) - 1) (maxBlockSize - 1)
    have hmod := Nat.mod_lt (size + (maxBlockSize - 1) - 1) (by omega : maxBlockSize - 1 > 0)
    rw [Nat.mul_comm]
    omega
  · refine ⟨0, _, rfl, ?_, .inl hsize⟩
    refine ⟨size.size - 1, hceil.trans ?_⟩
    have hpos : 0 < size.size := Nat.size_pos.2 h.size_pos
    rw [Nat.sub_add_cancel hpos]
    rfl

end Sized

end ReaderWriterQueue

end Bouncer
