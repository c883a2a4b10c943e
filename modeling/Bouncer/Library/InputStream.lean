import Mathlib.Data.Int.Basic
import Mathlib.Data.List.Basic
import Mathlib.Tactic.Common

/-!
# Streams that are only read forward

`read` and `ignore` take items off the front of a stream.  A stream that ran out of items gives none any more.  The stream
`after data p` is the one that gives `data` once `p` items are off.
-/

namespace Bouncer.Library

universe u

variable {α : Type u}

structure InputStream (α : Type u) where
  rest : List α
  good : Bool

namespace InputStream

/-- Take `n` items off; a number that is not positive takes off none. -/
def ignore (n : ℤ) (s : InputStream α) : InputStream α :=
  if s.good && decide (0 < n) then ⟨s.rest.drop n.toNat, decide (n.toNat ≤ s.rest.length)⟩ else s

/-- The next `n` items, or those that are left. -/
def read (n : ℕ) (s : InputStream α) : List α × InputStream α :=
  if s.good then (s.rest.take n, ⟨s.rest.drop n, decide (n ≤ s.rest.length)⟩) else ([], s)

def after (data : List α) (p : ℕ) : InputStream α := ⟨data.drop p, true⟩

theorem ignore_of_nonpos {n : ℤ} (h : n ≤ 0) (s : InputStream α) : s.ignore n = s := by
  have hn : ¬ 0 < n := by omega
  simp [ignore, hn]

theorem ignore_after {data : List α} {p n : ℕ} (h : p + n ≤ data.length) : (after data p).ignore n = after data (p + n) := by
  rcases Nat.eq_zero_or_pos n with rfl | hn
  · exact ignore_of_nonpos (Int.le_refl 0) _
  · have hle : n ≤ data.length - p := by omega
    simp [ignore, after, hn, hle]

theorem read_after {data : List α} {p n : ℕ} (h : p + n ≤ data.length) :
    (after data p).read n = ((data.drop p).take n, after data (p + n)) := by
  have hle : n ≤ data.length - p := by omega
  simp [read, after, hle]

end InputStream

end Bouncer.Library
