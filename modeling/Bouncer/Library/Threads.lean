import Mathlib.Logic.Relation
import Mathlib.Data.List.Basic

/-!
# Threads

Several threads work on a shared state, in atomic steps.  A thread has a state of its own, and what it does next is
given by a relation on its own and the shared state.  A run takes steps of the threads in any order.

A property of all states of a run is an invariant of the steps (`Threads.Run.invariant`), and what a run will still do
is found backwards from its end (`Threads.Run.backward`).  Where each thread has an assertion of its own, it is enough
that a step keeps that of its thread, and does nothing that those of the others do not bear
(`Threads.Run.rely_guarantee`).
-/

namespace Bouncer.Library.Threads

open Relation (ReflTransGen)

variable {L σ : Type*} {step : L × σ → L × σ → Prop}

/-- One thread takes a step. -/
inductive Step (step : L × σ → L × σ → Prop) : List L × σ → List L × σ → Prop
  | thread (ls₁ ls₂ : List L) {l l' : L} {s s' : σ} :
    step (l, s) (l', s') → Step step (ls₁ ++ l :: ls₂, s) (ls₁ ++ l' :: ls₂, s')

/-- The threads take any number of steps. -/
def Run (step : L × σ → L × σ → Prop) : List L × σ → List L × σ → Prop := ReflTransGen (Step step)

/-- What holds of all threads still does after a step of one, if it holds of this one. -/
theorem forall_step {P : L → Prop} {ls₁ ls₂ : List L} {l l' : L} (h : ∀ x ∈ ls₁ ++ l :: ls₂, P x) (hl : P l') :
    ∀ x ∈ ls₁ ++ l' :: ls₂, P x := by
  intro x hx
  rw [List.mem_append, List.mem_cons] at hx
  obtain hx | rfl | hx := hx
  · exact h x (List.mem_append_left _ hx)
  · exact hl
  · exact h x (List.mem_append_right _ (List.mem_cons_of_mem _ hx))

namespace Run

variable {c c' c'' : List L × σ}

theorem refl (c : List L × σ) : Run step c c := ReflTransGen.refl

theorem trans (h : Run step c c') (h' : Run step c' c'') : Run step c c'' := ReflTransGen.trans h h'

theorem single (h : Step step c c') : Run step c c' := ReflTransGen.single h

/-- Without threads nothing happens. -/
theorem nil {s : σ} (h : Run step ([], s) c) : c = ([], s) := by
  obtain rfl | ⟨c', hstep, -⟩ := ReflTransGen.cases_head h
  · rfl
  · generalize hc : (([] : List L), s) = c₀ at hstep
    obtain ⟨ls₁, ls₂, -⟩ := hstep
    exact absurd (Prod.mk.inj hc).1.symm (List.append_ne_nil_of_right_ne_nil _ (List.cons_ne_nil _ _))

/-- What each step keeps holds after a run. -/
theorem invariant (Inv : List L × σ → Prop)
    (hstep : ∀ ls₁ ls₂ l l' s s', step (l, s) (l', s') → Inv (ls₁ ++ l :: ls₂, s) → Inv (ls₁ ++ l' :: ls₂, s'))
    (h : Run step c c') (hc : Inv c) : Inv c' := by
  induction h with
  | refl => exact hc
  | tail _ h ih =>
    obtain ⟨ls₁, ls₂, h⟩ := h
    exact hstep ls₁ ls₂ _ _ _ _ h ih

/-- What holds at the end of a run, and before each step if it holds after it, holds at its start. -/
theorem backward (Inv : List L × σ → Prop)
    (hstep : ∀ ls₁ ls₂ l l' s s', step (l, s) (l', s') → Inv (ls₁ ++ l' :: ls₂, s') → Inv (ls₁ ++ l :: ls₂, s))
    (h : Run step c c') (hc : Inv c') : Inv c := by
  induction h using ReflTransGen.head_induction_on with
  | refl => exact hc
  | head h _ ih =>
    obtain ⟨ls₁, ls₂, h⟩ := h
    exact hstep ls₁ ls₂ _ _ _ _ h ih

/-- The assertion `P` of a thread and the one `J` about what is shared hold after a run, if a step keeps both, and what
it does to the shared state, as the thread `name l`, keeps the assertions of the threads with other names. -/
theorem rely_guarantee {I : Type*} (name : L → I) (P : L → σ → Prop) (J : σ → Prop) (G : I → σ → σ → Prop)
    (hstep : ∀ l l' s s', step (l, s) (l', s') → J s → P l s → name l' = name l ∧ J s' ∧ P l' s' ∧ G (name l) s s')
    (hstable : ∀ i l s s', name l ≠ i → G i s s' → P l s → P l s') (h : Run step c c') (hname : (c.1.map name).Nodup)
    (hJ : J c.2) (hP : ∀ l ∈ c.1, P l c.2) : J c'.2 ∧ ∀ l ∈ c'.1, P l c'.2 := by
  let Inv : List L × σ → Prop := fun c => (c.1.map name).Nodup ∧ J c.2 ∧ ∀ l ∈ c.1, P l c.2
  refine (invariant Inv ?_ h ⟨hname, hJ, hP⟩).2
  rintro ls₁ ls₂ l l' s s' hl ⟨hname, hJ, hP⟩
  obtain ⟨hl', hJ', hP', hG⟩ := hstep l l' s s' hl hJ (hP l (List.mem_append_right _ List.mem_cons_self))
  refine ⟨?_, hJ', ?_⟩
  · rwa [List.map_append, List.map_cons, hl', ← List.map_cons, ← List.map_append]
  · intro x hx
    rw [List.mem_append, List.mem_cons] at hx
    simp only [List.map_append, List.map_cons] at hname
    obtain ⟨-, hcons, hdisjoint⟩ := List.nodup_append.1 hname
    obtain hx | rfl | hx := hx
    · refine hstable (name l) x s s' ?_ hG (hP x (List.mem_append_left _ hx))
      exact hdisjoint (name x) (List.mem_map_of_mem hx) (name l) List.mem_cons_self
    · exact hP'
    · refine hstable (name l) x s s' ?_ hG (hP x (List.mem_append_right _ (List.mem_cons_of_mem _ hx)))
      intro heq
      exact (List.nodup_cons.1 hcons).1 (heq ▸ List.mem_map_of_mem hx)

/-- One thread runs while the others wait. -/
theorem of_thread (ls₁ ls₂ : List L) {l l' : L} {s s' : σ} (h : ReflTransGen step (l, s) (l', s')) :
    Run step (ls₁ ++ l :: ls₂, s) (ls₁ ++ l' :: ls₂, s') := by
  have hmap : ∀ x y : L × σ, step x y → Step step (ls₁ ++ x.1 :: ls₂, x.2) (ls₁ ++ y.1 :: ls₂, y.2) := by
    intro x y hxy
    exact .thread ls₁ ls₂ hxy
  exact ReflTransGen.lift (fun x : L × σ => (ls₁ ++ x.1 :: ls₂, x.2)) hmap _ _ h

end Run

end Bouncer.Library.Threads
