import Mathlib.Data.List.Basic
import Mathlib.Tactic.Common

/-!
# Computations that follow a schedule

A schedule is the list of steps that a computation takes if none of them throws.  How the step at a position ends is
given, and so is which ends are throws.  Then what is performed is known in advance: the steps up to the first that
throws (`thrown`), with their results (`performed`).

`Runs` says this of a computation that may throw, from a state with the results so far, and what holds of the state
afterwards.  Its rules follow the computation: `Runs.bind` for one part after another, `Runs.mapM` for a loop.
-/

namespace Bouncer.Library.Schedules

variable {κ ρ σ ε α β ι τ : Type}

section Steps

variable (result : ℕ → κ → ρ) (throws : ρ → Bool)

/-- The first step that throws, and its position. -/
def thrown : ℕ → List κ → Option (ℕ × κ)
  | _, [] => none
  | n, k :: steps => if throws (result n k) then some (n, k) else thrown (n + 1) steps

/-- The results of the steps, up to the first that throws. -/
def performed : ℕ → List κ → List ρ
  | _, [] => []
  | n, k :: steps => result n k :: if throws (result n k) then [] else performed (n + 1) steps

variable {result throws} {n : ℕ} {steps : List κ}

theorem thrown_append (n : ℕ) (steps steps' : List κ) : thrown result throws n (steps ++ steps') =
    (thrown result throws n steps).or (thrown result throws (n + steps.length) steps') := by
  induction steps generalizing n with
  | nil => rfl
  | cons k steps ih =>
    have hlength : n + (k :: steps).length = n + 1 + steps.length := by
      rw [List.length_cons]
      omega
    rw [List.cons_append, thrown, thrown, hlength]
    by_cases hk : throws (result n k) = true
    · rw [if_pos hk, if_pos hk, Option.some_or]
    · rw [if_neg hk, if_neg hk, ih]

theorem performed_append_of_none (h : thrown result throws n steps = none) (steps' : List κ) :
    performed result throws n (steps ++ steps') =
      performed result throws n steps ++ performed result throws (n + steps.length) steps' := by
  induction steps generalizing n with
  | nil => rfl
  | cons k steps ih =>
    rw [thrown] at h
    by_cases hk : throws (result n k) = true
    · rw [if_pos hk] at h
      exact absurd h nofun
    · rw [if_neg hk] at h
      have hlength : n + (k :: steps).length = n + 1 + steps.length := by
        rw [List.length_cons]
        omega
      rw [List.cons_append, performed, performed, if_neg hk, if_neg hk, ih h, hlength, List.cons_append]

theorem performed_append_of_some {p : ℕ × κ} (h : thrown result throws n steps = some p) (steps' : List κ) :
    performed result throws n (steps ++ steps') = performed result throws n steps := by
  induction steps generalizing n with
  | nil => exact absurd h nofun
  | cons k steps ih =>
    rw [thrown] at h
    rw [List.cons_append, performed, performed]
    by_cases hk : throws (result n k) = true
    · rw [if_pos hk, if_pos hk]
    · rw [if_neg hk] at h
      rw [if_neg hk, if_neg hk, ih h]

theorem length_performed_of_none (h : thrown result throws n steps = none) :
    (performed result throws n steps).length = steps.length := by
  induction steps generalizing n with
  | nil => rfl
  | cons k steps ih =>
    rw [thrown] at h
    by_cases hk : throws (result n k) = true
    · rw [if_pos hk] at h
      exact absurd h nofun
    · rw [if_neg hk] at h
      rw [performed, if_neg hk, List.length_cons, ih h, List.length_cons]

/-- The step that throws is the last one performed. -/
theorem performed_of_some {m : ℕ} {k : κ} (h : thrown result throws n steps = some (m, k)) :
    n + (performed result throws n steps).length = m + 1 ∧ throws (result m k) = true ∧
      result m k ∈ performed result throws n steps := by
  induction steps generalizing n with
  | nil => exact absurd h nofun
  | cons k' steps ih =>
    rw [thrown] at h
    rw [performed]
    by_cases hk : throws (result n k') = true
    · rw [if_pos hk] at h ⊢
      cases h
      exact ⟨rfl, hk, List.mem_singleton_self _⟩
    · rw [if_neg hk] at h ⊢
      obtain ⟨hlength, hthrows, hmem⟩ := ih h
      refine ⟨?_, hthrows, List.mem_cons_of_mem _ hmem⟩
      rw [List.length_cons]
      omega

/-- If no step throws, all of them are performed. -/
theorem forall_performed_iff (P : ρ → Prop) (h : thrown result throws n steps = none) :
    (∀ r ∈ performed result throws n steps, P r) ↔ ∀ i k, steps[i]? = some k → P (result (n + i) k) := by
  induction steps generalizing n with
  | nil => exact ⟨fun _ _ _ hk => absurd hk nofun, fun _ _ hr => absurd hr List.not_mem_nil⟩
  | cons k steps ih =>
    rw [thrown] at h
    by_cases hk : throws (result n k) = true
    · rw [if_pos hk] at h
      exact absurd h nofun
    · rw [if_neg hk] at h
      rw [performed, if_neg hk, List.forall_mem_cons, ih h]
      constructor
      · rintro ⟨hfirst, hrest⟩ i k' hk'
        cases i with
        | zero =>
          cases hk'
          exact hfirst
        | succ i =>
          have hposition : n + (i + 1) = n + 1 + i := by omega
          rw [hposition]
          exact hrest i k' hk'
      · intro hall
        refine ⟨hall 0 k rfl, ?_⟩
        intro i k' hk'
        have hposition : n + 1 + i = n + (i + 1) := by omega
        rw [hposition]
        exact hall (i + 1) k' hk'

/-- If one throws, not all steps are without throw. -/
theorem exists_of_thrown {m : ℕ} {k : κ} (h : thrown result throws n steps = some (m, k)) :
    ∃ i, steps[i]? = some k ∧ m = n + i := by
  induction steps generalizing n with
  | nil => exact absurd h nofun
  | cons k' steps ih =>
    rw [thrown] at h
    by_cases hk : throws (result n k') = true
    · rw [if_pos hk] at h
      cases h
      exact ⟨0, rfl, rfl⟩
    · rw [if_neg hk] at h
      obtain ⟨i, hi, rfl⟩ := ih h
      exact ⟨i + 1, hi, by omega⟩

end Steps

/-! ### Computations -/

section Runs

variable (result : ℕ → κ → ρ) (throws : ρ → Bool) (trace : σ → List ρ)

/-- The computation takes the steps.  If none throws it ends with `done`, otherwise the first that does ends it, with
`failed`. -/
def Runs (c : EStateM ε σ α) (s : σ) (steps : List κ) (done : α → σ → Prop) (failed : κ → σ → Prop) : Prop :=
  match thrown result throws (trace s).length steps with
  | none => ∃ a s', c s = .ok a s' ∧ trace s' = trace s ++ performed result throws (trace s).length steps ∧ done a s'
  | some (_, k) =>
    ∃ e s', c s = .error e s' ∧ trace s' = trace s ++ performed result throws (trace s).length steps ∧ failed k s'

variable {result throws trace} {c : EStateM ε σ α} {s : σ} {steps steps' : List κ} {done done' : α → σ → Prop}
  {failed : κ → σ → Prop}

theorem runs_of_none (h : thrown result throws (trace s).length steps = none) :
    Runs result throws trace c s steps done failed ↔ ∃ a s', c s = .ok a s' ∧
      trace s' = trace s ++ performed result throws (trace s).length steps ∧ done a s' := by
  rw [Runs, h]

theorem runs_of_some {m : ℕ} {k : κ} (h : thrown result throws (trace s).length steps = some (m, k)) :
    Runs result throws trace c s steps done failed ↔ ∃ e s', c s = .error e s' ∧
      trace s' = trace s ++ performed result throws (trace s).length steps ∧ failed k s' := by
  rw [Runs, h]

/-- Only what a computation does from the state matters. -/
theorem Runs.congr {c' : EStateM ε σ α} (hc : c s = c' s) (h : Runs result throws trace c' s steps done failed) :
    Runs result throws trace c s steps done failed := by
  rw [Runs] at h ⊢
  rwa [hc]

/-- A computation without steps. -/
theorem Runs.of_ok {a : α} {s' : σ} (hc : c s = .ok a s') (htrace : trace s' = trace s) (hdone : done a s') :
    Runs result throws trace c s [] done failed :=
  (runs_of_none rfl).2 ⟨a, s', hc, htrace.trans (List.append_nil _).symm, hdone⟩

/-- A computation with one step. -/
theorem Runs.single {k : κ}
    (hok : throws (result (trace s).length k) = false →
      ∃ a s', c s = .ok a s' ∧ trace s' = trace s ++ [result (trace s).length k] ∧ done a s')
    (herror : throws (result (trace s).length k) = true →
      ∃ e s', c s = .error e s' ∧ trace s' = trace s ++ [result (trace s).length k] ∧ failed k s') :
    Runs result throws trace c s [k] done failed := by
  have hperformed : performed result throws (trace s).length [k] = [result (trace s).length k] := by
    rw [performed]
    split <;> rfl
  cases hk : throws (result (trace s).length k) with
  | false =>
    have hthrown : thrown result throws (trace s).length [k] = none := by rw [thrown, hk]; rfl
    rw [runs_of_none hthrown, hperformed]
    exact hok hk
  | true =>
    have hthrown : thrown result throws (trace s).length [k] = some ((trace s).length, k) := by rw [thrown, hk]; rfl
    rw [runs_of_some hthrown, hperformed]
    exact herror hk

theorem Runs.mono (h : Runs result throws trace c s steps done failed) (hdone : ∀ a s', done a s' → done' a s') :
    Runs result throws trace c s steps done' failed := by
  cases hthrown : thrown result throws (trace s).length steps with
  | none =>
    obtain ⟨a, s', hc, htrace, ha⟩ := (runs_of_none hthrown).1 h
    exact (runs_of_none hthrown).2 ⟨a, s', hc, htrace, hdone a s' ha⟩
  | some p => exact (runs_of_some hthrown).2 ((runs_of_some hthrown).1 h)

/-- One computation after another: their steps follow each other, and the second is not begun if the first throws. -/
theorem Runs.bind {f : α → EStateM ε σ β} {finished : β → σ → Prop}
    (h : Runs result throws trace c s steps done failed)
    (hf : ∀ a s', done a s' → Runs result throws trace (f a) s' steps' finished failed) :
    Runs result throws trace (c >>= f) s (steps ++ steps') finished failed := by
  cases hthrown : thrown result throws (trace s).length steps with
  | none =>
    obtain ⟨a, s', hc, htrace, ha⟩ := (runs_of_none hthrown).1 h
    have hbind : (c >>= f) s = f a s' := by
      show EStateM.bind c f s = f a s'
      rw [EStateM.bind, hc]
    have hlength : (trace s').length = (trace s).length + steps.length := by
      rw [htrace, List.length_append, length_performed_of_none hthrown]
    have hrest : thrown result throws (trace s).length (steps ++ steps') =
        thrown result throws (trace s').length steps' := by
      rw [thrown_append, hthrown, Option.none_or, hlength]
    have hboth : trace s ++ performed result throws (trace s).length (steps ++ steps') =
        trace s' ++ performed result throws (trace s').length steps' := by
      rw [performed_append_of_none hthrown, hlength, htrace, List.append_assoc]
    have hsecond := hf a s' ha
    rw [Runs] at hsecond ⊢
    rw [hrest, hboth, hbind]
    exact hsecond
  | some p =>
    obtain ⟨e, s', hc, htrace, hk⟩ := (runs_of_some hthrown).1 h
    have hbind : (c >>= f) s = .error e s' := by
      show EStateM.bind c f s = .error e s'
      rw [EStateM.bind, hc]
    have hboth : thrown result throws (trace s).length (steps ++ steps') = some p := by
      rw [thrown_append, hthrown, Option.some_or]
    rw [runs_of_some hboth, performed_append_of_some hthrown]
    exact ⟨e, s', hbind, htrace, hk⟩

/-- The steps of a loop, if one turn takes steps that depend on what the turns before it left. -/
def planAll (plan : τ → ι → List κ × τ) : τ → List ι → List κ × τ
  | t, [] => ([], t)
  | t, x :: xs => ((plan t x).1 ++ (planAll plan (plan t x).2 xs).1, (planAll plan (plan t x).2 xs).2)

/-- A loop: its turns keep an invariant, over what was given to them and what they returned. -/
theorem Runs.mapM {plan : τ → ι → List κ × τ} {f : ι → EStateM ε σ β} {inv : τ → List (ι × β) → σ → Prop}
    (hturn : ∀ t pairs s x, inv t pairs s → Runs result throws trace (f x) s (plan t x).1
      (fun y s' => inv (plan t x).2 (pairs ++ [(x, y)]) s') failed)
    {t : τ} {pairs : List (ι × β)} (xs : List ι) (h : inv t pairs s) :
    Runs result throws trace (xs.mapM f) s (planAll plan t xs).1
      (fun ys s' => ys.length = xs.length ∧ inv (planAll plan t xs).2 (pairs ++ xs.zip ys) s') failed := by
  induction xs generalizing t pairs s with
  | nil =>
    rw [List.mapM_nil]
    have hpure : (pure [] : EStateM ε σ (List β)) s = .ok [] s := rfl
    refine Runs.of_ok hpure rfl ⟨rfl, ?_⟩
    rw [List.zip_nil_left, List.append_nil]
    exact h
  | cons x xs ih =>
    rw [List.mapM_cons]
    refine (hturn t pairs s x h).bind fun y s' hy => ?_
    have hrest : Runs result throws trace (xs.mapM f >>= fun ys => pure (y :: ys)) s'
        ((planAll plan (plan t x).2 xs).1 ++ [])
        (fun ys s'' => ys.length = (x :: xs).length ∧
          inv (planAll plan t (x :: xs)).2 (pairs ++ (x :: xs).zip ys) s'') failed := by
      refine (ih hy).bind fun ys s'' hys => ?_
      have hpure : (pure (y :: ys) : EStateM ε σ (List β)) s'' = .ok (y :: ys) s'' := rfl
      refine Runs.of_ok hpure rfl ⟨congrArg (· + 1) hys.1, ?_⟩
      rw [List.zip_cons_cons, List.append_cons]
      exact hys.2
    rwa [List.append_nil] at hrest

end Runs

end Bouncer.Library.Schedules
