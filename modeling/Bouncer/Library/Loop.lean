import Mathlib.Data.List.Basic

/-!
# Loops that may fail or go on forever

The body of a loop takes a state and goes on with another one, leaves the loop with a result, or fails.  `run` counts
the turns in its first argument.  A loop leaves with a result exactly if the turns from its state lead to one
(`exists_run_iff`), and it fails in one way only if some state that it reaches does (`run_ne_fail`).
-/

namespace Bouncer.Library.Loop

universe u v w

variable {σ : Type u} {ρ : Type v} {ε : Type w}

/-- What one turn does. -/
inductive Turn (σ : Type u) (ρ : Type v) (ε : Type w) where
  | again (s : σ)
  | leave (r : ρ)
  | fail (e : ε)

/-- At most `n` turns. -/
def run (body : σ → Turn σ ρ ε) : ℕ → σ → Option (ρ ⊕ ε)
  | 0, _ => none
  | n + 1, s =>
    match body s with
    | .again s' => run body n s'
    | .leave r => some (.inl r)
    | .fail e => some (.inr e)

/-- The turns from a state lead to a result. -/
inductive Leaves (body : σ → Turn σ ρ ε) : σ → Prop
  | leave {s : σ} {r : ρ} : body s = .leave r → Leaves body s
  | again {s s' : σ} : body s = .again s' → Leaves body s' → Leaves body s

variable {body : σ → Turn σ ρ ε}

theorem run_again {s s' : σ} (h : body s = .again s') (n : ℕ) : run body (n + 1) s = run body n s' := by
  rw [run, h]

theorem run_leave {s : σ} {r : ρ} (h : body s = .leave r) (n : ℕ) : run body (n + 1) s = some (.inl r) := by
  rw [run, h]

theorem run_fail {s : σ} {e : ε} (h : body s = .fail e) (n : ℕ) : run body (n + 1) s = some (.inr e) := by
  rw [run, h]

theorem run_mono {n m : ℕ} (hnm : n ≤ m) {s : σ} {r : ρ ⊕ ε} (h : run body n s = some r) : run body m s = some r := by
  induction n generalizing m s with
  | zero => cases h
  | succ n ih =>
    obtain ⟨m, rfl⟩ : ∃ m', m = m' + 1 := ⟨m - 1, by omega⟩
    cases hs : body s with
    | again s' =>
      rw [run_again hs] at h ⊢
      exact ih (by omega) h
    | leave r' => rwa [run_leave hs] at h ⊢
    | fail e => rwa [run_fail hs] at h ⊢

/-- Enough turns give a result, exactly if the turns lead to one. -/
theorem exists_run_iff {s : σ} : (∃ n r, run body n s = some (.inl r)) ↔ Leaves body s := by
  constructor
  · rintro ⟨n, r, h⟩
    induction n generalizing s with
    | zero => cases h
    | succ n ih =>
      cases hs : body s with
      | again s' =>
        rw [run_again hs] at h
        exact .again hs (ih h)
      | leave r' => exact .leave hs
      | fail e =>
        rw [run_fail hs] at h
        cases h
  · intro h
    induction h with
    | leave hs => exact ⟨1, _, run_leave hs 0⟩
    | again hs _ ih =>
      obtain ⟨n, r, hrun⟩ := ih
      exact ⟨n + 1, r, (run_again hs n).trans hrun⟩

/-- A loop does not fail in a way that none of its states fails in. -/
theorem run_ne_fail {I : σ → Prop} {e : ε} (hagain : ∀ s s', I s → body s = .again s' → I s')
    (hfail : ∀ s, I s → body s ≠ .fail e) {s : σ} (hs : I s) (n : ℕ) : run body n s ≠ some (.inr e) := by
  induction n generalizing s with
  | zero => exact nofun
  | succ n ih =>
    cases hb : body s with
    | again s' =>
      rw [run_again hb]
      exact ih (hagain s s' hs hb)
    | leave r =>
      rw [run_leave hb]
      exact nofun
    | fail e' =>
      rw [run_fail hb]
      intro he
      cases he
      exact hfail s hs hb

/-- The rule for a loop over a list: what holds of the elements that are done and the state. -/
theorem foldl_done {α β : Type*} {f : β → α → β} {l : List α} {s : β} (I : List α → β → Prop) (hs : I [] s)
    (hstep : ∀ done x rest s, l = done ++ x :: rest → I done s → I (done ++ [x]) (f s x)) :
    I l (l.foldl f s) := by
  have hloop : ∀ done rest s, l = done ++ rest → I done s → I l (rest.foldl f s) := by
    intro done rest
    induction rest generalizing done with
    | nil =>
      intro s hl hI
      rwa [hl, List.append_nil]
    | cons x rest ih =>
      intro s hl hI
      exact ih (done ++ [x]) (f s x) (by rw [hl, List.append_assoc]; rfl) (hstep done x rest s hl hI)
  exact hloop [] l s rfl hs

end Bouncer.Library.Loop
