import Bouncer.Library.Worklist
import Mathlib.Data.List.Lemmas

/-!
# Stacks of a bounded size

`runWithin limit` is a loop over a stack with room for `limit` pending items.  It gives no result if more of them have to
be kept.

A stack stays small if at most two items take the place of one, and each is less high than the one it came from: below an
item of height `h` there are no more than `limit - h` others (`Descends.push`, `Descends.length_le`).
-/

namespace Bouncer.Library

variable {α σ γ : Type*}

/-- At most `n` iterations of a loop over a stack with room for `limit` items. -/
def runWithin (step : α → σ → Outcome α σ) (limit : ℕ) : ℕ → List α → σ → Option (σ × Bool)
  | _, [], s => some (s, false)
  | 0, _ :: _, _ => none
  | n + 1, x :: rest, s =>
    match step x s with
    | .stop s' => some (s', true)
    | .push items s' =>
      if (lifo items rest).length ≤ limit then runWithin step limit n (lifo items rest) s' else none

/-- The rule for a loop over a bounded stack: besides what `run_of_invariant` asks for, the invariant `I` has to say that
the pending items fit. -/
theorem runWithin_of_invariant {step : α → σ → Outcome α σ} {limit : ℕ} (I : γ → List α → σ → Prop) (μ : γ → ℕ)
    (Q : σ → Prop) (hpos : ∀ g x rest s, I g (x :: rest) s → 0 < μ g) (hfits : ∀ g items s, I g items s → items.length ≤ limit)
    (hdone : ∀ g s, I g [] s → Q s) (hstop : ∀ g x rest s s', I g (x :: rest) s → step x s = .stop s' → Q s')
    (hpush : ∀ g x rest s items s', I g (x :: rest) s → step x s = .push items s' →
      ∃ g', I g' (lifo items rest) s' ∧ μ g' < μ g)
    {n : ℕ} {g : γ} {pending : List α} {s : σ} (hI : I g pending s) (hn : μ g ≤ n) :
    ∃ s' b, runWithin step limit n pending s = some (s', b) ∧ Q s' := by
  induction n generalizing g pending s with
  | zero =>
    cases pending with
    | nil => exact ⟨s, false, rfl, hdone g s hI⟩
    | cons x rest => exact absurd (hpos g x rest s hI) (by omega)
  | succ n ih =>
    cases pending with
    | nil => exact ⟨s, false, rfl, hdone g s hI⟩
    | cons x rest =>
      cases hstep : step x s with
      | stop s' => exact ⟨s', true, by simp only [runWithin, hstep], hstop g x rest s s' hI hstep⟩
      | push items s' =>
        obtain ⟨g', hI', hlt⟩ := hpush g x rest s items s' hI hstep
        obtain ⟨s'', b, hrun, hQ⟩ := ih hI' (by omega)
        refine ⟨s'', b, ?_, hQ⟩
        simp only [runWithin, hstep, if_pos (hfits g' _ s' hI'), hrun]

/-- Each pending item is at most `limit` high, together with those below it on the stack. -/
def Descends (height : γ → ℕ) (limit : ℕ) : List γ → Prop
  | [] => True
  | x :: rest => height x + rest.length ≤ limit ∧ Descends height limit rest

namespace Descends

variable {height : γ → ℕ} {limit : ℕ} {x : γ} {rest items : List γ}

theorem singleton (h : height x ≤ limit) : Descends height limit [x] := ⟨h, trivial⟩

/-- Two items that are less high may take the place of one. -/
theorem push (h : Descends height limit (x :: rest)) (hlength : items.length ≤ 2) (hlt : ∀ y ∈ items, height y < height x) :
    Descends height limit (items ++ rest) := by
  obtain ⟨htop, hrest⟩ := h
  match items with
  | [] => exact hrest
  | [y] =>
    have hy := hlt y (by simp)
    show height y + rest.length ≤ limit ∧ Descends height limit rest
    exact ⟨by omega, hrest⟩
  | [y, z] =>
    have hy := hlt y (by simp)
    have hz := hlt z (by simp)
    show height y + (z :: rest).length ≤ limit ∧ height z + rest.length ≤ limit ∧ Descends height limit rest
    rw [List.length_cons]
    exact ⟨by omega, by omega, hrest⟩

/-- If no item is flat, there are no more than `limit` of them. -/
theorem length_le {pending : List γ} (h : Descends height limit pending) (hpos : ∀ y ∈ pending, 0 < height y) :
    pending.length ≤ limit := by
  cases pending with
  | nil => exact Nat.zero_le limit
  | cons x rest =>
    have hx := hpos x List.mem_cons_self
    have htop := h.1
    rw [List.length_cons]
    omega

end Descends

end Bouncer.Library
