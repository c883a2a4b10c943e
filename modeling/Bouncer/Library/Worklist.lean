import Mathlib.Data.List.Basic

/-!
# Work lists

A loop that keeps a container of pending items, takes the next one, and either adds new items or leaves the loop
early.  `lifo` and `fifo` are the two disciplines of the container: a stack gives back the item pushed last, a
queue the item pushed first.  `run` counts iterations in its first argument, so that termination is a statement
(`run` gives `some` result) and not an assumption.

* `run_of_invariant`: an invariant that each iteration keeps while a measure decreases holds at the end, and as
  many iterations as the measure says suffice.
* `run_mono`: more iterations do not change a result.

`visitUntil` is the inner loop: it hands the elements of a list to a callback until the callback asks to stop.
-/

namespace Bouncer.Library

universe u v w

variable {α : Type u} {σ : Type v}

/-- What one iteration asks of the loop: go on with more pending items, or leave. -/
inductive Outcome (α : Type u) (σ : Type v) where
  | push (items : List α) (s : σ)
  | stop (s : σ)

namespace Outcome

variable {τ : Type w}

def map (φ : σ → τ) : Outcome α σ → Outcome α τ
  | push items s => push items (φ s)
  | stop s => stop (φ s)

/-- Run another part of the same iteration, unless the first part leaves the loop. -/
def andThen : Outcome α σ → (σ → Outcome α σ) → Outcome α σ
  | stop s, _ => stop s
  | push items s, f =>
    match f s with
    | stop s' => stop s'
    | push items' s' => push (items ++ items') s'

/-- An iteration that only visits: it leaves the loop if the callback asked to stop. -/
def ofVisit (r : σ × Bool) : Outcome α σ := if r.2 then stop r.1 else push [] r.1

theorem map_andThen (φ : σ → τ) (o : Outcome α σ) (f : σ → Outcome α σ) (f' : τ → Outcome α τ)
    (h : ∀ s, f' (φ s) = (f s).map φ) : (o.andThen f).map φ = (o.map φ).andThen f' := by
  cases o with
  | stop s => rfl
  | push items s =>
    simp only [andThen, map, h]
    cases f s <;> rfl

theorem map_ofVisit (φ : σ → τ) (r : σ × Bool) :
    (ofVisit r : Outcome α σ).map φ = ofVisit (φ r.1, r.2) := by
  unfold ofVisit
  cases r.2 <;> rfl

end Outcome

/-- The items are pushed one after the other, so the last one is on top. -/
def lifo (items rest : List α) : List α := items.reverse ++ rest

def fifo (items rest : List α) : List α := rest ++ items

theorem lifo_perm (items rest : List α) : (lifo items rest).Perm (items ++ rest) :=
  (List.reverse_perm items).append_right rest

theorem fifo_perm (items rest : List α) : (fifo items rest).Perm (items ++ rest) := List.perm_append_comm

/-- At most `n` iterations of the loop.  The flag says whether the loop was left early. -/
def run (put : List α → List α → List α) (step : α → σ → Outcome α σ) : ℕ → List α → σ → Option (σ × Bool)
  | _, [], s => some (s, false)
  | 0, _ :: _, _ => none
  | n + 1, x :: rest, s =>
    match step x s with
    | .stop s' => some (s', true)
    | .push items s' => run put step n (put items rest) s'

section Run

variable {put : List α → List α → List α} {step : α → σ → Outcome α σ}

@[simp] theorem run_nil (n : ℕ) (s : σ) : run put step n [] s = some (s, false) := by
  cases n <;> rfl

theorem run_cons_push {n : ℕ} {x : α} {rest items : List α} {s s' : σ} (h : step x s = .push items s') :
    run put step (n + 1) (x :: rest) s = run put step n (put items rest) s' := by
  simp only [run, h]

theorem run_cons_stop {n : ℕ} {x : α} {rest : List α} {s s' : σ} (h : step x s = .stop s') :
    run put step (n + 1) (x :: rest) s = some (s', true) := by
  simp only [run, h]

/-- More iterations do not change a result. -/
theorem run_mono {n : ℕ} {stack : List α} {s : σ} {r : σ × Bool} (h : run put step n stack s = some r) (k : ℕ) :
    run put step (n + k) stack s = some r := by
  induction n generalizing stack s with
  | zero =>
    cases stack with
    | nil => simpa using h
    | cons x rest => simp [run] at h
  | succ n ih =>
    cases stack with
    | nil => simpa using h
    | cons x rest =>
      rw [show n + 1 + k = n + k + 1 by omega]
      cases hs : step x s with
      | stop s' => rwa [run_cons_stop hs] at h ⊢
      | push items s' =>
        rw [run_cons_push hs] at h ⊢
        exact ih h

/-- Two loops whose iterations correspond under `φ` have corresponding results. -/
theorem run_map {τ : Type w} {step' : α → τ → Outcome α τ} (φ : σ → τ)
    (h : ∀ x s, step' x (φ s) = (step x s).map φ) (n : ℕ) (stack : List α) (s : σ) :
    run put step' n stack (φ s) = (run put step n stack s).map fun r => (φ r.1, r.2) := by
  induction n generalizing stack s with
  | zero => cases stack <;> rfl
  | succ n ih =>
    cases stack with
    | nil => rfl
    | cons x rest =>
      cases hs : step x s with
      | stop s' =>
        have hs' : step' x (φ s) = .stop (φ s') := by rw [h, hs]; rfl
        rw [run_cons_stop hs, run_cons_stop hs']
        rfl
      | push items s' =>
        have hs' : step' x (φ s) = .push items (φ s') := by rw [h, hs]; rfl
        rw [run_cons_push hs, run_cons_push hs']
        exact ih _ _

/-- The rule for every such loop.  `I g` relates the pending items and the state to ghost data `g`: each iteration
keeps it for some new `g` while `μ g`, positive as long as items are pending, decreases.  Then `μ g` iterations
suffice, and what `I` gives at the exits holds of the result. -/
theorem run_of_invariant {γ : Type w} (I : γ → List α → σ → Prop) (μ : γ → ℕ) (Q : σ → Bool → Prop)
    (hpos : ∀ g x rest s, I g (x :: rest) s → 0 < μ g)
    (hdone : ∀ g s, I g [] s → Q s false)
    (hstop : ∀ g x rest s s', I g (x :: rest) s → step x s = .stop s' → Q s' true)
    (hpush : ∀ g x rest s items s', I g (x :: rest) s → step x s = .push items s' →
      ∃ g', I g' (put items rest) s' ∧ μ g' < μ g)
    {n : ℕ} {g : γ} {stack : List α} {s : σ} (hI : I g stack s) (hn : μ g ≤ n) :
    ∃ s' b, run put step n stack s = some (s', b) ∧ Q s' b := by
  induction n generalizing g stack s with
  | zero =>
    cases stack with
    | nil => exact ⟨s, false, run_nil _ s, hdone g s hI⟩
    | cons x rest =>
      have := hpos g x rest s hI
      omega
  | succ n ih =>
    cases stack with
    | nil => exact ⟨s, false, run_nil _ s, hdone g s hI⟩
    | cons x rest =>
      cases hs : step x s with
      | stop s' => exact ⟨s', true, run_cons_stop hs, hstop g x rest s s' hI hs⟩
      | push items s' =>
        obtain ⟨g', hI', hμ⟩ := hpush g x rest s items s' hI hs
        rw [run_cons_push hs]
        exact ih hI' (by omega)

end Run

/-! ### Callbacks that may ask to stop -/

/-- Hand the elements of a list to a callback until it asks to stop. -/
def visitUntil (visit : α → σ → σ × Bool) : List α → σ → σ × Bool
  | [], s => (s, false)
  | x :: xs, s => if (visit x s).2 then ((visit x s).1, true) else visitUntil visit xs (visit x s).1

theorem visitUntil_append (visit : α → σ → σ × Bool) (l₁ l₂ : List α) (s : σ) :
    visitUntil visit (l₁ ++ l₂) s =
      if (visitUntil visit l₁ s).2 then ((visitUntil visit l₁ s).1, true)
      else visitUntil visit l₂ (visitUntil visit l₁ s).1 := by
  induction l₁ generalizing s with
  | nil => simp [visitUntil]
  | cons x l₁ ih =>
    simp only [List.cons_append, visitUntil]
    split
    · simp
    · exact ih _

theorem visitUntil_map {τ : Type w} {visit : α → σ → σ × Bool} {visit' : α → τ → τ × Bool} (φ : σ → τ)
    (h : ∀ x s, visit' x (φ s) = (φ (visit x s).1, (visit x s).2)) (l : List α) (s : σ) :
    visitUntil visit' l (φ s) = (φ (visitUntil visit l s).1, (visitUntil visit l s).2) := by
  induction l generalizing s with
  | nil => rfl
  | cons x l ih =>
    simp only [visitUntil, h]
    split
    · rfl
    · exact ih _

/-- A callback that never asks to stop sees every element. -/
theorem visitUntil_of_never {visit : α → σ → σ × Bool} (h : ∀ x s, (visit x s).2 = false) (l : List α) (s : σ) :
    visitUntil visit l s = (l.foldl (fun s x => (visit x s).1) s, false) := by
  induction l generalizing s with
  | nil => rfl
  | cons x l ih => simp [visitUntil, h, ih]

/-- The callback that writes down what it sees. -/
def record (x : α) (calls : List α) : List α × Bool := (calls ++ [x], false)

theorem foldl_record (l calls : List α) : l.foldl (fun s x => (record x s).1) calls = calls ++ l := by
  induction l generalizing calls with
  | nil => simp
  | cons x l ih =>
    rw [List.foldl_cons, ih]
    simp [record]

theorem visitUntil_record (l calls : List α) : visitUntil record l calls = (calls ++ l, false) := by
  rw [visitUntil_of_never (fun _ _ => rfl), foldl_record]

/-- A callback without a state of its own stops at the first element it accepts. -/
theorem visitUntil_flag (p : α → Bool) (l : List α) :
    visitUntil (fun x found => (found || p x, p x)) l false = (l.any p, l.any p) := by
  induction l with
  | nil => rfl
  | cons x l ih =>
    cases hx : p x
    · simpa [visitUntil, hx] using ih
    · simp [visitUntil, hx]

end Bouncer.Library
