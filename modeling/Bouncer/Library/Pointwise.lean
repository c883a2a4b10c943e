import Mathlib.Data.List.Forall2
import Mathlib.Tactic.Common

/-!
# Lists that are related entry by entry

What an entry of one list says about the other one (`exists_left_of_forall₂`, `exists_right_of_forall₂`), and two relations
one after the other (`forall₂_comp`).
-/

namespace Bouncer.Library

variable {α β γ : Type*}

variable {R : α → β → Prop} {as : List α} {bs : List β}

theorem exists_left_of_forall₂ (h : List.Forall₂ R as bs)
    {b : β} (hb : b ∈ bs) : ∃ a ∈ as, R a b := by
  induction h with
  | nil => exact absurd hb List.not_mem_nil
  | @cons a _ as _ hR _ ih =>
    rcases List.mem_cons.1 hb with rfl | hb
    · exact ⟨a, by simp, hR⟩
    · obtain ⟨a', ha', hab⟩ := ih hb
      exact ⟨a', by simp [ha'], hab⟩

theorem exists_right_of_forall₂ (h : List.Forall₂ R as bs)
    {a : α} (ha : a ∈ as) : ∃ b ∈ bs, R a b := exists_left_of_forall₂ h.flip ha

/-- Entries at the same position are related. -/
theorem rel_of_getElem? (h : List.Forall₂ R as bs) {i : ℕ} {a : α} {b : β}
    (ha : as[i]? = some a) (hb : bs[i]? = some b) : R a b := by
  obtain ⟨hi, rfl⟩ := List.getElem?_eq_some_iff.1 ha
  obtain ⟨hi', rfl⟩ := List.getElem?_eq_some_iff.1 hb
  exact h.get hi hi'

theorem forall₂_comp {P : α → β → Prop} {Q : β → γ → Prop} {S : α → γ → Prop} (hS : ∀ a b c, P a b → Q b c → S a c)
    {cs : List γ} (h : List.Forall₂ P as bs) (h' : List.Forall₂ Q bs cs) :
    List.Forall₂ S as cs := by
  induction h generalizing cs with
  | nil =>
    cases h'
    exact .nil
  | cons hab _ ih =>
    cases h' with
    | cons hbc h' => exact .cons (hS _ _ _ hab hbc) (ih h')

theorem map_eq_of_forall₂ {f : α → γ} {g : β → γ}
    (h : List.Forall₂ (fun a b => g b = f a) as bs) : bs.map g = as.map f := by
  induction h with
  | nil => rfl
  | cons hab _ ih => rw [List.map_cons, List.map_cons, hab, ih]

end Bouncer.Library
