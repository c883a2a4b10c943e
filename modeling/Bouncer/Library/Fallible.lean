import Mathlib.Tactic.Common

/-!
# Computations that may fail

When a computation in `Except` ends well, so did its parts (`bind_eq_ok`, `foldlM_cons_eq_ok`,
`forall₂_of_mapM`).  A loop in `Option` ends well exactly if none of its turns fails (`exists_foldlM_iff`), and then what a
turn brings about stays if the others keep it (`forall_of_foldlM`).
-/

namespace Bouncer.Library.Fallible

universe u v w

variable {ε : Type u} {α β : Type v} {γ : Type w}

theorem bind_eq_ok {x : Except ε α} {f : α → Except ε β} {b : β} :
    (x >>= f) = .ok b ↔ ∃ a, x = .ok a ∧ f a = .ok b := by
  cases x with
  | error e =>
    constructor
    · exact nofun
    · rintro ⟨_, ⟨⟩, -⟩
  | ok a =>
    constructor
    · exact fun h => ⟨a, rfl, h⟩
    · rintro ⟨_, ⟨⟩, h⟩
      exact h

theorem map_eq_ok {x : Except ε α} {f : α → β} {b : β} : x.map f = .ok b ↔ ∃ a, x = .ok a ∧ f a = b := by
  cases x with
  | error e =>
    constructor
    · exact nofun
    · rintro ⟨_, ⟨⟩, -⟩
  | ok a =>
    constructor
    · intro h
      cases h
      exact ⟨a, rfl, rfl⟩
    · rintro ⟨_, ⟨⟩, rfl⟩
      rfl

variable {cs : List γ}

theorem foldlM_cons_eq_ok {f : α → γ → Except ε α} {c : γ} {a b : α} :
    (c :: cs).foldlM f a = .ok b ↔ ∃ a', f a c = .ok a' ∧ cs.foldlM f a' = .ok b := by
  rw [List.foldlM_cons, bind_eq_ok]

theorem foldlM_concat_eq_ok {f : α → γ → Except ε α} {c : γ} {a a' b : α} (h : cs.foldlM f a = .ok a')
    (hc : f a' c = .ok b) : (cs ++ [c]).foldlM f a = .ok b := by
  rw [List.foldlM_append, h]
  exact foldlM_cons_eq_ok.2 ⟨b, hc, rfl⟩

variable {f : γ → Except ε β}

/-- A loop ends well exactly if each of its turns does. -/
theorem exists_mapM_iff :
    (∃ bs, cs.mapM f = .ok bs) ↔ ∀ c ∈ cs, ∃ b, f c = .ok b := by
  induction cs with
  | nil => exact ⟨fun _ c hc => absurd hc List.not_mem_nil, fun _ => ⟨[], rfl⟩⟩
  | cons c cs ih =>
    rw [List.forall_mem_cons, ← ih]
    constructor
    · rintro ⟨bs, h⟩
      rw [List.mapM_cons, bind_eq_ok] at h
      obtain ⟨b, hb, h⟩ := h
      obtain ⟨bs', hbs', -⟩ := bind_eq_ok.1 h
      exact ⟨⟨b, hb⟩, bs', hbs'⟩
    · rintro ⟨⟨b, hb⟩, bs, hbs⟩
      refine ⟨b :: bs, ?_⟩
      rw [List.mapM_cons, hb, hbs]
      rfl

/-- What holds of each turn of a loop that ended well. -/
theorem forall₂_of_mapM {bs : List β} (h : cs.mapM f = .ok bs) :
    List.Forall₂ (fun c b => f c = .ok b) cs bs := by
  induction cs generalizing bs with
  | nil =>
    cases h
    exact .nil
  | cons c cs ih =>
    rw [List.mapM_cons, bind_eq_ok] at h
    obtain ⟨b, hb, h⟩ := h
    obtain ⟨bs', hbs', h⟩ := bind_eq_ok.1 h
    cases h
    exact .cons hb (ih hbs')

/-- Each result of a loop that ended well comes from one of its turns. -/
theorem exists_of_mem_mapM {bs : List β} (h : cs.mapM f = .ok bs) {b : β}
    (hb : b ∈ bs) : ∃ c ∈ cs, f c = .ok b := by
  replace h := forall₂_of_mapM h
  induction h with
  | nil => cases hb
  | cons hc hrest ih =>
    rcases List.mem_cons.1 hb with rfl | hb
    · exact ⟨_, List.mem_cons_self, hc⟩
    · obtain ⟨c, hc, hcb⟩ := ih hb
      exact ⟨c, List.mem_cons_of_mem _ hc, hcb⟩

/-! ### Loops that fail without a message -/

section Options

variable {σ : Type u} {f : σ → γ → Option σ} {cs : List γ} {s s' : σ}

/-- Whether a turn fails does not depend on the state. -/
theorem exists_foldlM_iff {P : γ → Prop} (hf : ∀ s c, (∃ s', f s c = some s') ↔ P c) (cs : List γ) (s : σ) :
    (∃ s', cs.foldlM f s = some s') ↔ ∀ c ∈ cs, P c := by
  induction cs generalizing s with
  | nil => exact ⟨fun _ c hc => absurd hc List.not_mem_nil, fun _ => ⟨s, rfl⟩⟩
  | cons c cs ih =>
    rw [List.forall_mem_cons]
    constructor
    · rintro ⟨s', h⟩
      rw [List.foldlM_cons] at h
      obtain ⟨s₁, hc, hcs⟩ := Option.bind_eq_some_iff.1 h
      exact ⟨(hf s c).1 ⟨s₁, hc⟩, (ih s₁).1 ⟨s', hcs⟩⟩
    · rintro ⟨hc, hcs⟩
      obtain ⟨s₁, hs₁⟩ := (hf s c).2 hc
      obtain ⟨s', hs'⟩ := (ih s₁).2 hcs
      exact ⟨s', by rw [List.foldlM_cons, hs₁]; exact hs'⟩

theorem foldlM_keeps {Q : σ → Prop} (hkeep : ∀ s c s', f s c = some s' → Q s → Q s')
    (h : cs.foldlM f s = some s') (hs : Q s) : Q s' := by
  induction cs generalizing s with
  | nil =>
    cases h
    exact hs
  | cons c cs ih =>
    rw [List.foldlM_cons] at h
    obtain ⟨s₁, hc, hcs⟩ := Option.bind_eq_some_iff.1 h
    exact ih hcs (hkeep s c s₁ hc hs)

theorem forall_of_foldlM {Q : γ → σ → Prop} (hkeep : ∀ a s c s', f s c = some s' → Q a s → Q a s')
    (hadd : ∀ s c s', f s c = some s' → Q c s') (h : cs.foldlM f s = some s') : ∀ c ∈ cs, Q c s' := by
  induction cs generalizing s with
  | nil => exact fun c hc => absurd hc List.not_mem_nil
  | cons c cs ih =>
    rw [List.foldlM_cons] at h
    obtain ⟨s₁, hc, hcs⟩ := Option.bind_eq_some_iff.1 h
    exact List.forall_mem_cons.2 ⟨foldlM_keeps (hkeep c) hcs (hadd s c s₁ hc), ih hcs⟩

end Options

end Bouncer.Library.Fallible
