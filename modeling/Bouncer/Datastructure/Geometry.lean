import Mathlib.Analysis.Real.Sqrt
import Mathlib.Order.CompletePartialOrder
import Mathlib.Tactic.Positivity

/-!
# Vectors, lines, triangles and bounds

The value types of `repo/lib/datastructure` in exact arithmetic: `double` is an ordered field `R`, and where the
code takes square roots an `ExactReal`, an ordered field with a square root.  Nothing here rounds.
-/

namespace Bouncer

/-! ### Numerals

Named instances for the numerals and the index types of the definitions, which so are the same terms in every module. -/

instance atLeastTwo_two : Nat.AtLeastTwo 2 := ⟨by decide⟩
instance atLeastTwo_three : Nat.AtLeastTwo 3 := ⟨by decide⟩
instance atLeastTwo_four : Nat.AtLeastTwo 4 := ⟨by decide⟩
instance atLeastTwo_five : Nat.AtLeastTwo 5 := ⟨by decide⟩
instance atLeastTwo_eight : Nat.AtLeastTwo 8 := ⟨by decide⟩
instance atLeastTwo_ten : Nat.AtLeastTwo 10 := ⟨by decide⟩
instance atLeastTwo_eleven : Nat.AtLeastTwo 11 := ⟨by decide⟩
instance atLeastTwo_twelve : Nat.AtLeastTwo 12 := ⟨by decide⟩
instance atLeastTwo_thirteen : Nat.AtLeastTwo 13 := ⟨by decide⟩
instance atLeastTwo_sixteen : Nat.AtLeastTwo 16 := ⟨by decide⟩
instance atLeastTwo_twenty : Nat.AtLeastTwo 20 := ⟨by decide⟩

instance neZero_three : NeZero 3 := ⟨by decide⟩
instance neZero_four : NeZero 4 := ⟨by decide⟩
instance neZero_six : NeZero 6 := ⟨by decide⟩

/-! ### Vectors -/

/-- Exact arithmetic with square roots. -/
class ExactReal (R : Type*) extends Field R, LinearOrder R, IsStrictOrderedRing R where
  sqrt : R → R
  sqrt_nonneg : ∀ x, 0 ≤ sqrt x
  mul_self_sqrt : ∀ x, 0 ≤ x → sqrt x * sqrt x = x

noncomputable instance : ExactReal ℝ where
  sqrt := Real.sqrt
  sqrt_nonneg := Real.sqrt_nonneg
  mul_self_sqrt := fun _ => Real.mul_self_sqrt

@[ext] structure RepoVector3D (T : Type*) where
  x : T
  y : T
  z : T
  deriving DecidableEq

namespace RepoVector3D

variable {R : Type*}

instance [Add R] : Add (RepoVector3D R) := ⟨fun a b => ⟨a.x + b.x, a.y + b.y, a.z + b.z⟩⟩
instance [Sub R] : Sub (RepoVector3D R) := ⟨fun a b => ⟨a.x - b.x, a.y - b.y, a.z - b.z⟩⟩
instance [Neg R] : Neg (RepoVector3D R) := ⟨fun a => ⟨-a.x, -a.y, -a.z⟩⟩

section Ring

variable [Field R]

instance : HMul (RepoVector3D R) R (RepoVector3D R) := ⟨fun a t => ⟨a.x * t, a.y * t, a.z * t⟩⟩
instance : Zero (RepoVector3D R) := ⟨⟨0, 0, 0⟩⟩

@[simp] theorem add_x (a b : RepoVector3D R) : (a + b).x = a.x + b.x := rfl
@[simp] theorem add_y (a b : RepoVector3D R) : (a + b).y = a.y + b.y := rfl
@[simp] theorem add_z (a b : RepoVector3D R) : (a + b).z = a.z + b.z := rfl
@[simp] theorem sub_x (a b : RepoVector3D R) : (a - b).x = a.x - b.x := rfl
@[simp] theorem sub_y (a b : RepoVector3D R) : (a - b).y = a.y - b.y := rfl
@[simp] theorem sub_z (a b : RepoVector3D R) : (a - b).z = a.z - b.z := rfl
@[simp] theorem mul_x (a : RepoVector3D R) (t : R) : (a * t).x = a.x * t := rfl
@[simp] theorem mul_y (a : RepoVector3D R) (t : R) : (a * t).y = a.y * t := rfl
@[simp] theorem mul_z (a : RepoVector3D R) (t : R) : (a * t).z = a.z * t := rfl
@[simp] theorem zero_x : (0 : RepoVector3D R).x = 0 := rfl
@[simp] theorem zero_y : (0 : RepoVector3D R).y = 0 := rfl
@[simp] theorem zero_z : (0 : RepoVector3D R).z = 0 := rfl

@[simp] theorem add_zero (a : RepoVector3D R) : a + 0 = a := by ext <;> simp

def crossProduct (a b : RepoVector3D R) : RepoVector3D R :=
  ⟨a.y * b.z - a.z * b.y, a.z * b.x - a.x * b.z, a.x * b.y - a.y * b.x⟩

def dotProduct (a b : RepoVector3D R) : R := a.x * b.x + a.y * b.y + a.z * b.z

def norm2 (a : RepoVector3D R) : R := a.x * a.x + a.y * a.y + a.z * a.z

/-- The triple product. -/
def triple (a b c : RepoVector3D R) : R := a.dotProduct (b.crossProduct c)

instance : HDiv (RepoVector3D R) R (RepoVector3D R) := ⟨fun a t => ⟨a.x / t, a.y / t, a.z / t⟩⟩

@[simp] theorem div_x (a : RepoVector3D R) (t : R) : (a / t).x = a.x / t := rfl
@[simp] theorem div_y (a : RepoVector3D R) (t : R) : (a / t).y = a.y / t := rfl
@[simp] theorem div_z (a : RepoVector3D R) (t : R) : (a / t).z = a.z / t := rfl

end Ring

section Order

variable [LinearOrder R]

def min (a b : RepoVector3D R) : RepoVector3D R := ⟨Min.min a.x b.x, Min.min a.y b.y, Min.min a.z b.z⟩

def max (a b : RepoVector3D R) : RepoVector3D R := ⟨Max.max a.x b.x, Max.max a.y b.y, Max.max a.z b.z⟩

end Order

theorem norm2_nonneg [Field R] [LinearOrder R] [IsStrictOrderedRing R] (a : RepoVector3D R) : 0 ≤ a.norm2 := by
  unfold norm2
  nlinarith [mul_self_nonneg a.x, mul_self_nonneg a.y, mul_self_nonneg a.z]

def norm [ExactReal R] (a : RepoVector3D R) : R := ExactReal.sqrt a.norm2

section Norm

variable [ExactReal R]

def normalized (a : RepoVector3D R) : RepoVector3D R :=
  if a.norm > 0 then ⟨a.x / a.norm, a.y / a.norm, a.z / a.norm⟩ else a

theorem norm_nonneg (a : RepoVector3D R) : 0 ≤ a.norm := ExactReal.sqrt_nonneg _

theorem norm_mul_norm (a : RepoVector3D R) : a.norm * a.norm = a.norm2 :=
  ExactReal.mul_self_sqrt _ a.norm2_nonneg

/-- Lengths compare as their squares do. -/
theorem norm_lt_iff (a : RepoVector3D R) {t : R} (ht : 0 ≤ t) : a.norm < t ↔ a.norm2 < t * t := by
  rw [← norm_mul_norm]
  exact mul_self_lt_mul_self_iff a.norm_nonneg ht

theorem norm_le_norm_iff (a b : RepoVector3D R) : a.norm ≤ b.norm ↔ a.norm2 ≤ b.norm2 := by
  rw [← norm_mul_norm a, ← norm_mul_norm b]
  exact mul_self_le_mul_self_iff a.norm_nonneg b.norm_nonneg

theorem norm_eq_of_norm2_eq {a : RepoVector3D R} {t : R} (ht : 0 ≤ t) (h : a.norm2 = t * t) : a.norm = t := by
  have hmul : a.norm * a.norm = t * t := by rw [norm_mul_norm, h]
  exact (mul_self_inj a.norm_nonneg ht).1 hmul

@[simp] theorem norm_zero : (0 : RepoVector3D R).norm = 0 :=
  norm_eq_of_norm2_eq le_rfl (by simp [norm2])

theorem norm_mul (a : RepoVector3D R) (t : R) : (a * t).norm = a.norm * |t| := by
  refine norm_eq_of_norm2_eq (mul_nonneg a.norm_nonneg (abs_nonneg t)) ?_
  calc (a * t).norm2 = a.norm2 * (t * t) := by simp only [norm2, mul_x, mul_y, mul_z]; ring
    _ = a.norm * a.norm * (|t| * |t|) := by rw [norm_mul_norm, abs_mul_abs_self]
    _ = _ := by ring

/-- A normalized vector is a unit vector, or zero. -/
theorem norm_normalized (a : RepoVector3D R) : a.normalized.norm = 1 ∨ a.normalized.norm = 0 := by
  unfold normalized
  split_ifs with h
  · left
    refine norm_eq_of_norm2_eq zero_le_one ?_
    have hne : a.norm ≠ 0 := h.ne'
    calc (a.x / a.norm) * (a.x / a.norm) + (a.y / a.norm) * (a.y / a.norm) + (a.z / a.norm) * (a.z / a.norm)
        = a.norm2 / (a.norm * a.norm) := by unfold norm2; field_simp
      _ = 1 * 1 := by rw [← norm_mul_norm, div_self (mul_ne_zero hne hne), mul_one]
  · right
    exact le_antisymm (not_lt.1 h) a.norm_nonneg

end Norm

end RepoVector3D

/-- The largest finite `double`. -/
def dblMax {R : Type*} [Field R] : R := (2 ^ 53 - 1) * 2 ^ 971

@[ext] structure RepoLine (R : Type*) where
  start : RepoVector3D R
  endpoint : RepoVector3D R
  deriving DecidableEq

namespace RepoLine

variable {R : Type*} [ExactReal R]

def magnitude (l : RepoLine R) : R := (l.endpoint - l.start).norm

def max : RepoLine R := ⟨⟨-dblMax, -dblMax, -dblMax⟩, ⟨dblMax, dblMax, dblMax⟩⟩

theorem magnitude_nonneg (l : RepoLine R) : 0 ≤ l.magnitude := RepoVector3D.norm_nonneg _

theorem dblMax_pos : 0 < (dblMax : R) := by
  unfold dblMax
  have h : (1 : R) < 2 ^ 53 := one_lt_pow₀ one_lt_two (by norm_num)
  exact mul_pos (by linarith) (by positivity)

/-- No `double` exceeds the length of `RepoLine::Max`. -/
theorem dblMax_le_magnitude_max : (dblMax : R) ≤ (max : RepoLine R).magnitude := by
  have hpos := dblMax_pos (R := R)
  by_contra h
  have h := (RepoVector3D.norm_lt_iff _ hpos.le).1 (not_le.1 h)
  simp only [max, RepoVector3D.norm2, RepoVector3D.sub_x, RepoVector3D.sub_y, RepoVector3D.sub_z] at h
  nlinarith

end RepoLine

@[ext] structure RepoTriangle (R : Type*) where
  a : RepoVector3D R
  b : RepoVector3D R
  c : RepoVector3D R
  deriving DecidableEq

namespace RepoTriangle

variable {R : Type*} [Field R]

instance : HAdd (RepoTriangle R) (RepoVector3D R) (RepoTriangle R) := ⟨fun t v => ⟨t.a + v, t.b + v, t.c + v⟩⟩

theorem add_def (t : RepoTriangle R) (v : RepoVector3D R) : t + v = ⟨t.a + v, t.b + v, t.c + v⟩ := rfl

@[simp] theorem add_zero (t : RepoTriangle R) : t + (0 : RepoVector3D R) = t := by simp [add_def]

/-- The points of the triangle: the convex combinations of its corners. -/
def points [LinearOrder R] (t : RepoTriangle R) : Set (RepoVector3D R) :=
  {p | ∃ u v w : R, 0 ≤ u ∧ 0 ≤ v ∧ 0 ≤ w ∧ u + v + w = 1 ∧ p = t.a * u + t.b * v + t.c * w}

end RepoTriangle

/-! ### Bounds -/

structure RepoBounds (R : Type*) where
  bmin : RepoVector3D R
  bmax : RepoVector3D R
  deriving DecidableEq

namespace RepoBounds

def size {R : Type*} [Sub R] (b : RepoBounds R) : RepoVector3D R := b.bmax - b.bmin

variable {R : Type*} [Field R] [LinearOrder R]

/-- `RepoBounds()`: the bounds of no point at all. -/
def empty : RepoBounds R := ⟨⟨dblMax, dblMax, dblMax⟩, ⟨-dblMax, -dblMax, -dblMax⟩⟩

def encapsulate (b : RepoBounds R) (p : RepoVector3D R) : RepoBounds R := ⟨b.bmin.min p, b.bmax.max p⟩

def encapsulateBounds (b v : RepoBounds R) : RepoBounds R := ⟨b.bmin.min v.bmin, b.bmax.max v.bmax⟩

/-- `RepoBounds(points, size)` and `RepoBounds({..})`. -/
def ofPoints (points : List (RepoVector3D R)) : RepoBounds R := points.foldl encapsulate empty

/-- `RepoBounds(min, max)`, robust against swapped elements. -/
def ofMinMax (min max : RepoVector3D R) : RepoBounds R := (empty.encapsulate min).encapsulate max

/-- The point lies in the bounds. -/
def Contains (b : RepoBounds R) (p : RepoVector3D R) : Prop :=
  (b.bmin.x ≤ p.x ∧ p.x ≤ b.bmax.x) ∧ (b.bmin.y ≤ p.y ∧ p.y ≤ b.bmax.y) ∧ (b.bmin.z ≤ p.z ∧ p.z ≤ b.bmax.z)

def center (b : RepoBounds R) : RepoVector3D R := (b.bmin + b.bmax) * (1 / 2 : R)

/-- `operator>`: bounds are compared by the length of their diagonals. -/
def gt {R : Type*} [ExactReal R] (a b : RepoBounds R) : Bool := decide (b.size.norm < a.size.norm)

variable {b : RepoBounds R} {p q : RepoVector3D R}

omit [Field R] in
theorem Contains.encapsulate (h : b.Contains p) : (b.encapsulate q).Contains p :=
  ⟨⟨min_le_of_left_le h.1.1, le_max_of_le_left h.1.2⟩, ⟨min_le_of_left_le h.2.1.1, le_max_of_le_left h.2.1.2⟩,
    ⟨min_le_of_left_le h.2.2.1, le_max_of_le_left h.2.2.2⟩⟩

omit [Field R] in
theorem contains_encapsulate : (b.encapsulate p).Contains p :=
  ⟨⟨min_le_right _ _, le_max_right _ _⟩, ⟨min_le_right _ _, le_max_right _ _⟩, ⟨min_le_right _ _, le_max_right _ _⟩⟩

theorem contains_ofMinMax_left : (ofMinMax p q).Contains p := contains_encapsulate.encapsulate

theorem contains_ofMinMax_right : (ofMinMax p q).Contains q := contains_encapsulate

/-- Two corners of a cube, in order. -/
theorem ofMinMax_cube {a b : R} (ha : -dblMax ≤ a) (hab : a ≤ b) (hb : b ≤ dblMax) :
    ofMinMax ⟨a, a, a⟩ ⟨b, b, b⟩ = ⟨⟨a, a, a⟩, ⟨b, b, b⟩⟩ := by
  have hmin : Min.min (Min.min dblMax a) b = a := by rw [min_eq_right (hab.trans hb), min_eq_left hab]
  have hmax : Max.max (Max.max (-dblMax) a) b = b := by rw [max_eq_right ha, max_eq_right hab]
  simp only [ofMinMax, encapsulate, empty, RepoVector3D.min, RepoVector3D.max, hmin, hmax]

end RepoBounds

end Bouncer
