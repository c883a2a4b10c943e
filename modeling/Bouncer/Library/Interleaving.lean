import Bouncer.Library.KeyedFold
import Mathlib.Data.List.Perm.Basic

/-!
# Interleavings

Several sequences are merged into one, each in its own order.  The result has the elements of all of them, and its
first least element is the first least element of one of the sequences (`Interleaves.exists_isFirstLeast`).  It is the
same for every interleaving if those sequences agree on it that have a least element of all
(`Interleaves.foldl_keepLess_eq`).
-/

namespace Bouncer.Library

variable {α κ R : Type*}

/-- `out` takes the elements of the sequences, each time the next element of one of them. -/
inductive Interleaves : List (List α) → List α → Prop
  | nil {ls : List (List α)} : (∀ l ∈ ls, l = []) → Interleaves ls []
  | cons (x : α) {ls₁ ls₂ : List (List α)} {l out : List α} :
    Interleaves (ls₁ ++ l :: ls₂) out → Interleaves (ls₁ ++ (x :: l) :: ls₂) (x :: out)

variable {ls : List (List α)} {out : List α}

theorem Interleaves.perm (h : Interleaves ls out) : out.Perm ls.flatten := by
  induction h with
  | nil h =>
    rw [List.flatten_eq_nil_iff.2 h]
  | @cons x ls₁ ls₂ l out _ ih =>
    rw [List.flatten_append, List.flatten_cons] at ih ⊢
    exact (ih.cons x).trans List.perm_middle.symm

/-- An empty sequence makes no difference. -/
theorem Interleaves.cons_nil (h : Interleaves ls out) : Interleaves ([] :: ls) out := by
  induction h with
  | nil h => exact .nil (List.forall_mem_cons.2 ⟨rfl, h⟩)
  | @cons x ls₁ ls₂ l out _ ih =>
    rw [← List.cons_append] at ih ⊢
    exact ih.cons x

theorem Interleaves.of_cons_nil (h : Interleaves ([] :: ls) out) : Interleaves ls out := by
  generalize hls : [] :: ls = ls' at h
  induction h generalizing ls with
  | nil h =>
    subst hls
    exact .nil fun l hl => h l (List.mem_cons_of_mem _ hl)
  | @cons x ls₁ ls₂ l out _ ih =>
    cases ls₁ with
    | nil => cases hls
    | cons l₁ ls₁ =>
      obtain ⟨rfl, rfl⟩ := List.cons.inj hls
      exact (ih rfl).cons x

variable {ls' : List (List α)}

theorem Interleaves.of_append (h : Interleaves (ls' ++ ls) out) (hnil : ∀ l ∈ ls', l = []) :
    Interleaves ls out := by
  induction ls' with
  | nil => exact h
  | cons l ls' ih =>
    obtain ⟨rfl, hnil'⟩ := List.forall_mem_cons.1 hnil
    exact ih h.of_cons_nil hnil'

/-- The order of the sequences does not matter. -/
theorem Interleaves.of_perm (h : Interleaves ls out) (hperm : ls.Perm ls') :
    Interleaves ls' out := by
  induction h generalizing ls' with
  | nil h => exact .nil fun l hl => h l (hperm.mem_iff.2 hl)
  | @cons x ls₁ ls₂ l out _ ih =>
    have hmem : x :: l ∈ ls' := hperm.mem_iff.1 (List.mem_append_right _ List.mem_cons_self)
    obtain ⟨ls₁', ls₂', rfl⟩ := List.append_of_mem hmem
    have hrest : (ls₁ ++ ls₂).Perm (ls₁' ++ ls₂') :=
      ((List.perm_middle.symm.trans hperm).trans List.perm_middle).cons_inv
    have hl : (ls₁ ++ l :: ls₂).Perm (ls₁' ++ l :: ls₂') :=
      (List.perm_middle.trans (hrest.cons l)).trans List.perm_middle.symm
    exact (ih hl).cons x

/-- The values of one key are interleaved, too. -/
theorem Interleaves.valuesAt [DecidableEq κ] {ls : List (List (κ × α))} {out : List (κ × α)} (h : Interleaves ls out)
    (k : κ) : Interleaves (ls.map (valuesAt k)) (Library.valuesAt k out) := by
  induction h with
  | nil h =>
    refine .nil ?_
    intro l hl
    obtain ⟨l', hl', rfl⟩ := List.mem_map.1 hl
    rw [h l' hl']
    rfl
  | @cons x ls₁ ls₂ l out _ ih =>
    rw [List.map_append, List.map_cons] at ih ⊢
    by_cases hx : x.1 = k
    · have hcons : ∀ l : List (κ × α), Library.valuesAt k (x :: l) = x.2 :: Library.valuesAt k l := by
        intro l
        simp [Library.valuesAt, hx]
      rw [hcons, hcons]
      exact ih.cons x.2
    · have hcons : ∀ l : List (κ × α), Library.valuesAt k (x :: l) = Library.valuesAt k l := by
        intro l
        simp [Library.valuesAt, hx]
      rw [hcons, hcons]
      exact ih

/-- The first least element of the result is that of one of the sequences. -/
theorem Interleaves.exists_isFirstLeast [LinearOrder R] {measure : α → R} (h : Interleaves ls out) {x : α}
    (hx : IsFirstLeast measure out x) : ∃ l ∈ ls, IsFirstLeast measure l x := by
  induction h with
  | nil => exact hx.elim
  | @cons y ls₁ ls₂ l out h ih =>
    obtain ⟨rfl, hle⟩ | ⟨hlt, hx⟩ := hx
    · refine ⟨x :: l, List.mem_append_right _ List.mem_cons_self, .inl ⟨rfl, ?_⟩⟩
      intro z hz
      have hmem : z ∈ (ls₁ ++ l :: ls₂).flatten :=
        List.mem_flatten.2 ⟨l, List.mem_append_right _ List.mem_cons_self, hz⟩
      exact hle z (h.perm.mem_iff.2 hmem)
    · obtain ⟨l', hl', hx⟩ := ih hx
      obtain hl' | hl' := List.mem_append.1 hl'
      · exact ⟨l', List.mem_append_left _ hl', hx⟩
      · obtain rfl | hl' := List.mem_cons.1 hl'
        · exact ⟨y :: l', List.mem_append_right _ List.mem_cons_self, .inr ⟨hlt, hx⟩⟩
        · exact ⟨l', List.mem_append_right _ (List.mem_cons_of_mem _ hl'), hx⟩

/-! ### Keeping the least value of all sequences -/

section Least

variable [LinearOrder R] {measure : α → R} {m : α}

/-- The sequences whose least value is least of all, and less than that of `m`, have the same first least element. -/
def TiesAgree (measure : α → R) (m : α) (ls : List (List α)) : Prop :=
  ∀ l ∈ ls, ∀ l' ∈ ls, ∀ x y, IsFirstLeast measure l x → IsFirstLeast measure l' y → measure x < measure m →
    (∀ z ∈ ls.flatten, measure x ≤ measure z ∧ measure y ≤ measure z) → x = y

theorem TiesAgree.of_perm (h : TiesAgree measure m ls) (hperm : ls.Perm ls') :
    TiesAgree measure m ls' := by
  intro l hl l' hl' x y hx hy hlt hle
  refine h l (hperm.mem_iff.2 hl) l' (hperm.mem_iff.2 hl') x y hx hy hlt ?_
  intro z hz
  exact hle z (hperm.flatten.mem_iff.1 hz)

/-- If the ties agree, what is kept does not depend on how the sequences are interleaved. -/
theorem Interleaves.foldl_keepLess_eq {out' : List α} (h : Interleaves ls out)
    (h' : Interleaves ls' out') (hperm : ls.Perm ls') (hties : TiesAgree measure m ls) :
    out.foldl (keepLess measure) m = out'.foldl (keepLess measure) m := by
  have hmem : ∀ z, z ∈ out ↔ z ∈ out' := by
    intro z
    rw [h.perm.mem_iff, h'.perm.mem_iff, hperm.flatten.mem_iff]
  have hx := isFirstLeast_foldl_keepLess measure m out
  have hy := isFirstLeast_foldl_keepLess measure m out'
  obtain ⟨he, hle⟩ | ⟨hlt, hx⟩ := hx
  · rw [he]
    -- nothing is less than the start value, in either order
    have hm : IsFirstLeast measure (m :: out') m := .inl ⟨rfl, fun z hz => hle z ((hmem z).2 hz)⟩
    exact hm.unique hy
  · obtain ⟨-, hle⟩ | ⟨-, hy⟩ := hy
    · exact absurd (hle _ ((hmem _).1 hx.mem)) (not_le.2 hlt)
    · obtain ⟨l, hl, hxl⟩ := h.exists_isFirstLeast hx
      obtain ⟨l', hl', hyl⟩ := h'.exists_isFirstLeast hy
      refine hties l hl l' (hperm.mem_iff.2 hl') _ _ hxl hyl hlt ?_
      intro z hz
      have hz : z ∈ out := h.perm.mem_iff.2 hz
      exact ⟨hx.le hz, hy.le ((hmem z).1 hz)⟩

/-- If a sequence with a least element of all comes first, its first least element is kept. -/
theorem foldl_keepLess_append {l rest : List α} {x : α} (hx : IsFirstLeast measure l x)
    (hlt : measure x < measure m) (hle : ∀ z ∈ rest, measure x ≤ measure z) :
    (l ++ rest).foldl (keepLess measure) m = x := by
  have happend : IsFirstLeast measure (l ++ rest) x := hx.append hle
  exact (isFirstLeast_foldl_keepLess measure m (l ++ rest)).unique (.inr ⟨hlt, happend⟩)

end Least

end Bouncer.Library
