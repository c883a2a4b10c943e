import Mathlib.Algebra.Group.Defs
import Mathlib.Data.List.Basic

/-!
# Products along the paths to the root

Each node has a key, a label, and the keys of its parents.  `Product` is the product of the labels from a root to the
node with a key.  If no two nodes share a key there is at most one such product (`Product.unique`), and it stays when
a node is put between a node and its parent (`Product.insert`).
-/

namespace Bouncer.Library.ParentPaths

variable {N K M : Type*} [Mul M] (key : N → K) (parents : N → List K) (label : N → M)

inductive Product (nodes : List N) : K → M → Prop
  | root {n : N} : n ∈ nodes → parents n = [] → Product nodes (key n) (label n)
  | child {n : N} {k : K} {m : M} : n ∈ nodes → parents n = [k] → Product nodes k m →
      Product nodes (key n) (m * label n)

variable {key parents label} {nodes nodes' : List N} {k : K} {m m' : M}

theorem Product.unique (hkey : ∀ n ∈ nodes, ∀ n' ∈ nodes, key n = key n' → n = n')
    (h : Product key parents label nodes k m) (h' : Product key parents label nodes k m') : m = m' := by
  induction h generalizing m' with
  | @root n hn hparents =>
    generalize hk : key n = k at h'
    cases h' with
    | @root n' hn' hparents' => rw [hkey n hn n' hn' hk]
    | @child n' k' m' hn' hparents' _ =>
      rw [← hkey n hn n' hn' hk, hparents] at hparents'
      exact absurd hparents' nofun
  | @child n k m hn hparents _ ih =>
    generalize hk : key n = k' at h'
    cases h' with
    | @root n' hn' hparents' =>
      rw [← hkey n hn n' hn' hk, hparents] at hparents'
      exact absurd hparents' nofun
    | @child n' k' m' hn' hparents' h' =>
      obtain rfl := hkey n hn n' hn' hk
      rw [hparents] at hparents'
      injection hparents' with hparent
      rw [ih (hparent ▸ h')]

/-- Every node is kept, or is put below a new one whose label is one. -/
theorem Product.insert {M : Type*} [Monoid M] {label : N → M} {k : K} {m : M}
    (hkept : ∀ n ∈ nodes, ∃ n' ∈ nodes', key n' = key n ∧ label n' = label n ∧ (parents n' = parents n ∨
      ∃ between ∈ nodes', ∃ q, parents n = [q] ∧ parents between = [q] ∧ label between = 1 ∧
        parents n' = [key between]))
    (h : Product key parents label nodes k m) : Product key parents label nodes' k m := by
  induction h with
  | @root n hn hparents =>
    obtain ⟨n', hn', hkey, hlabel, hsame | ⟨between, -, q, hq, -⟩⟩ := hkept n hn
    · rw [← hkey, ← hlabel]
      exact .root hn' (hsame.trans hparents)
    · rw [hparents] at hq
      exact absurd hq nofun
  | @child n k m hn hparents _ ih =>
    obtain ⟨n', hn', hkey, hlabel, hsame | ⟨between, hbetween, q, hq, hbelow, hone, hparent⟩⟩ := hkept n hn
    · rw [← hkey, ← hlabel]
      exact .child hn' (hsame.trans hparents) ih
    · obtain rfl : k = q := List.singleton_inj.1 (hparents.symm.trans hq)
      have hproduct := ih.child hbetween hbelow
      rw [hone, mul_one] at hproduct
      rw [← hkey, ← hlabel]
      exact .child hn' hparent hproduct

end Bouncer.Library.ParentPaths
