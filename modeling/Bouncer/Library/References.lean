import Mathlib.Logic.Function.Basic

/-!
# References into another store

Two stores that know nothing of each other: one of files, by their links, and one of references, which have the link of
a file.  The references resolve if the files are there (`Resolves`).  A file can be dropped if no reference that is
left has its link, so it matters that no two references share one (`Separate`).
-/

namespace Bouncer.Library

/-- Files by their links, and references by their keys. -/
structure Stores (K R L F : Type*) where
  files : L → Option F
  refs : K → Option R

namespace Stores

variable {K R L F : Type*}

def empty : Stores K R L F := ⟨fun _ => none, fun _ => none⟩

section Operations

variable [DecidableEq K] [DecidableEq L] (s : Stores K R L F)

def putFile (l : L) (f : F) : Stores K R L F := { s with files := Function.update s.files l (some f) }

def dropFile (l : L) : Stores K R L F := { s with files := Function.update s.files l none }

def putRef (k : K) (r : R) : Stores K R L F := { s with refs := Function.update s.refs k (some r) }

def dropRef (k : K) : Stores K R L F := { s with refs := Function.update s.refs k none }

end Operations

variable (link : R → L) (s : Stores K R L F)

/-- The file of each reference is there. -/
def Resolves : Prop := ∀ k r, s.refs k = some r → (s.files (link r)).isSome = true

/-- No two references have one link. -/
def Separate : Prop := ∀ k k' r r', s.refs k = some r → s.refs k' = some r' → link r = link r' → k = k'

variable {link s} {k : K} {l : L} {r : R} {f : F}

theorem resolves_empty : (empty : Stores K R L F).Resolves link := nofun

theorem separate_empty : (empty : Stores K R L F).Separate link := nofun

section Refs

variable [DecidableEq K]

theorem refs_putRef {k' : K} : (s.putRef k r).refs k' = if k' = k then some r else s.refs k' :=
  Function.update_apply _ _ _ _

theorem refs_dropRef {k' : K} : (s.dropRef k).refs k' = if k' = k then none else s.refs k' :=
  Function.update_apply _ _ _ _

theorem refs_of_dropRef {k' : K} {r' : R} (h : (s.dropRef k).refs k' = some r') : k' ≠ k ∧ s.refs k' = some r' := by
  rw [refs_dropRef] at h
  by_cases hk : k' = k
  · rw [if_pos hk] at h
    exact absurd h nofun
  · rw [if_neg hk] at h
    exact ⟨hk, h⟩

theorem Resolves.putRef (h : s.Resolves link) (hfile : (s.files (link r)).isSome = true) :
    (s.putRef k r).Resolves link := by
  intro k' r' hr'
  rw [refs_putRef] at hr'
  by_cases hk : k' = k
  · rw [if_pos hk] at hr'
    exact Option.some.inj hr' ▸ hfile
  · rw [if_neg hk] at hr'
    exact h k' r' hr'

theorem Separate.putRef (h : s.Separate link) (hnew : ∀ k' r', s.refs k' = some r' → link r' ≠ link r) :
    (s.putRef k r).Separate link := by
  intro k₁ k₂ r₁ r₂ h₁ h₂ heq
  rw [refs_putRef] at h₁ h₂
  by_cases hk₁ : k₁ = k <;> by_cases hk₂ : k₂ = k
  · rw [hk₁, hk₂]
  · rw [if_pos hk₁] at h₁
    rw [if_neg hk₂] at h₂
    rw [← Option.some.inj h₁] at heq
    exact absurd heq.symm (hnew k₂ r₂ h₂)
  · rw [if_neg hk₁] at h₁
    rw [if_pos hk₂] at h₂
    rw [← Option.some.inj h₂] at heq
    exact absurd heq (hnew k₁ r₁ h₁)
  · rw [if_neg hk₁] at h₁
    rw [if_neg hk₂] at h₂
    exact h k₁ k₂ r₁ r₂ h₁ h₂ heq

theorem Separate.dropRef (h : s.Separate link) : (s.dropRef k).Separate link :=
  fun k₁ k₂ r₁ r₂ h₁ h₂ => h k₁ k₂ r₁ r₂ (refs_of_dropRef h₁).2 (refs_of_dropRef h₂).2

end Refs

section Files

variable [DecidableEq L]

theorem files_putFile {l' : L} : (s.putFile l f).files l' = if l' = l then some f else s.files l' :=
  Function.update_apply _ _ _ _

theorem files_dropFile {l' : L} : (s.dropFile l).files l' = if l' = l then none else s.files l' :=
  Function.update_apply _ _ _ _

theorem Resolves.putFile (h : s.Resolves link) : (s.putFile l f).Resolves link := by
  intro k r hr
  rw [files_putFile]
  by_cases hl : link r = l
  · rw [if_pos hl]
    rfl
  · rw [if_neg hl]
    exact h k r hr

theorem not_resolves_dropFile (hr : s.refs k = some r) : ¬ (s.dropFile (link r)).Resolves link := by
  intro h
  have hfile := h k r hr
  rw [files_dropFile, if_pos rfl] at hfile
  exact absurd hfile nofun

end Files

theorem Resolves.drop [DecidableEq K] [DecidableEq L] (h : s.Resolves link) (hseparate : s.Separate link)
    (hr : s.refs k = some r) : ((s.dropFile (link r)).dropRef k).Resolves link := by
  intro k' r' hr'
  obtain ⟨hne, hr'⟩ := refs_of_dropRef hr'
  have hlink : link r' ≠ link r := fun he => hne (hseparate k' k r' r hr' hr he)
  show ((s.dropFile (link r)).files (link r')).isSome = true
  rw [files_dropFile, if_neg hlink]
  exact h k' r' hr'

end Stores

end Bouncer.Library
