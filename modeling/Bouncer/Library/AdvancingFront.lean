import Bouncer.Library.FullTree

/-!
# Advancing fronts

A bottom-up pass over a full binary tree that keeps what it knows only at a *front*: a table from the labels to
values, filled at the leaves.  A visit of a branch takes the values of its children out of the front, puts a value for
the branch in or none, and cuts other values off.  `combine` says which.

`settle` is the value that reaches the root of a tree and `cutAt` what is cut off at its root, both by recursion over
the tree.  `Settled` says what is in a front after some of the branches were visited, children before parents;
`Settled.visit` is the step.  What `combine` conserves is conserved by the whole pass (`settled_items_perm`), and what
it promises of its values holds of them all (`settle_cutAt_forall`).
-/

namespace Bouncer.Library.FullTree

universe u v

variable {α : Type u} {σ : Type v}

def children : FullTree α → List (FullTree α)
  | leaf _ => []
  | branch _ l r => [l, r]

theorem mem_tail_subtrees_of_mem_children {x y t : FullTree α} (hx : x ∈ t.subtrees) (hy : y ∈ x.children) :
    y ∈ t.subtrees.tail := by
  cases x with
  | leaf a => simp [children] at hy
  | branch a l r =>
    simp only [children, List.mem_cons, List.not_mem_nil, or_false] at hy
    rcases hy with rfl | rfl
    · exact left_mem_tail_subtrees hx
    · exact right_mem_tail_subtrees hx

/-- A subtree has one parent. -/
theorem eq_of_mem_children {t x y c : FullTree α} (ht : t.labels.Nodup) (hx : x ∈ t.subtrees) (hy : y ∈ t.subtrees)
    (hcx : c ∈ x.children) (hcy : c ∈ y.children) : x = y := by
  -- a child of the root of `branch a l r` is not a proper subtree of `l` or of `r`
  have hroot : ∀ {a : α} {l r z : FullTree α}, (branch a l r).labels.Nodup → c ∈ (branch a l r).children →
      z ∈ l.subtrees ∨ z ∈ r.subtrees → c ∉ z.children := by
    intro a l r z hnodup hc hz hcz
    rw [labels_branch, List.nodup_cons, List.nodup_append'] at hnodup
    have hdisjoint : ∀ s ∈ l.subtrees, s ∉ r.subtrees := fun s hsl hsr =>
      hnodup.2.2.2 (labels_subset_of_mem_subtrees hsl s.label_mem_labels)
        (labels_subset_of_mem_subtrees hsr s.label_mem_labels)
    simp only [children, List.mem_cons, List.not_mem_nil, or_false] at hc
    rcases hz with hz | hz
    · have hproper := mem_tail_subtrees.1 (mem_tail_subtrees_of_mem_children hz hcz)
      rcases hc with rfl | rfl
      · omega
      · exact hdisjoint c hproper.1 c.self_mem_subtrees
    · have hproper := mem_tail_subtrees.1 (mem_tail_subtrees_of_mem_children hz hcz)
      rcases hc with rfl | rfl
      · exact hdisjoint c c.self_mem_subtrees hproper.1
      · omega
  induction t with
  | leaf a =>
    simp only [subtrees_leaf, List.mem_singleton] at hx hy
    rw [hx, hy]
  | branch a l r ihl ihr =>
    have hnodup := ht
    rw [labels_branch, List.nodup_cons, List.nodup_append'] at hnodup
    simp only [subtrees_branch, List.mem_cons, List.mem_append] at hx hy
    rcases hx with rfl | hx <;> rcases hy with rfl | hy
    · rfl
    · exact absurd hcy (hroot ht hcx hy)
    · exact absurd hcx (hroot ht hcy hx)
    · rcases hx with hx | hx <;> rcases hy with hy | hy
      · exact ihl hnodup.2.1 hx hy
      · -- `c` would be below both children
        have hl := (mem_tail_subtrees.1 (mem_tail_subtrees_of_mem_children hx hcx)).1
        have hr := (mem_tail_subtrees.1 (mem_tail_subtrees_of_mem_children hy hcy)).1
        exact absurd (labels_subset_of_mem_subtrees hr c.label_mem_labels)
          (fun h => hnodup.2.2.2 (labels_subset_of_mem_subtrees hl c.label_mem_labels) h)
      · have hr := (mem_tail_subtrees.1 (mem_tail_subtrees_of_mem_children hx hcx)).1
        have hl := (mem_tail_subtrees.1 (mem_tail_subtrees_of_mem_children hy hcy)).1
        exact absurd (labels_subset_of_mem_subtrees hr c.label_mem_labels)
          (fun h => hnodup.2.2.2 (labels_subset_of_mem_subtrees hl c.label_mem_labels) h)
      · exact ihr hnodup.2.2.1 hx hy

/-! ### The pass by recursion -/

section Pass

variable (value : α → σ) (combine : Option σ → Option σ → Option σ × List σ)

/-- What reaches the root. -/
def settle : FullTree α → Option σ
  | leaf a => some (value a)
  | branch _ l r => (combine (settle l) (settle r)).1

/-- What is cut off at the root. -/
def cutAt : FullTree α → List σ
  | leaf _ => []
  | branch _ l r => (combine (settle value combine l) (settle value combine r)).2

/-- If `combine` conserves items then so does the pass. -/
theorem settled_items_perm {γ : Type*} (items : σ → List γ)
    (h : ∀ left right, ((combine left right).2.flatMap items ++ (combine left right).1.toList.flatMap items).Perm
      (left.toList.flatMap items ++ right.toList.flatMap items)) (t : FullTree α) :
    ((t.subtrees.flatMap (cutAt value combine)).flatMap items ++ (settle value combine t).toList.flatMap items).Perm
      (t.items fun a => items (value a)) := by
  induction t with
  | leaf a => simp [cutAt, settle]
  | branch a l r ihl ihr =>
    have hnode := h (settle value combine l) (settle value combine r)
    rw [items_branch]
    refine List.Perm.trans ?_ (ihl.append ihr)
    simp only [subtrees_branch, List.flatMap_cons, List.flatMap_append, cutAt, settle]
    classical
    refine List.perm_iff_count.2 fun x => ?_
    have hcount := List.perm_iff_count.1 hnode x
    simp only [List.count_append] at hcount ⊢
    omega

/-- What `combine` keeps up holds of all values of the pass. -/
theorem settle_cutAt_forall {P : σ → Prop}
    (hcombine : ∀ left right, (∀ s ∈ left, P s) → (∀ s ∈ right, P s) →
      (∀ s ∈ (combine left right).1, P s) ∧ ∀ s ∈ (combine left right).2, P s)
    {t : FullTree α} (hvalue : ∀ a ∈ t.leaves, P (value a)) :
    (∀ s ∈ settle value combine t, P s) ∧ ∀ s ∈ cutAt value combine t, P s := by
  induction t with
  | leaf a =>
    refine ⟨?_, by simp [cutAt]⟩
    intro s hs
    rw [settle, Option.mem_some_iff] at hs
    exact hs ▸ hvalue a (by simp)
  | branch a l r ihl ihr =>
    exact hcombine _ _ (ihl fun b hb => hvalue b (by simp [hb])).1 (ihr fun b hb => hvalue b (by simp [hb])).1

/-! ### The pass over a table -/

/-- The front after the branches of `done` were visited: a node that was reached and not taken out has its value, and
a branch that was not visited has none. -/
structure Settled (t : FullTree α) (done : List (FullTree α)) (front : α → Option σ) : Prop where
  reached : ∀ x ∈ t.subtrees, (∃ a, x = leaf a) ∨ x ∈ done → (∀ y ∈ done, x ∉ y.children) →
    front x.label = settle value combine x
  ahead : ∀ x ∈ t.subtrees, (∃ a l r, x = branch a l r) → x ∉ done → front x.label = none

variable {value combine} {t : FullTree α} {done : List (FullTree α)} {front : α → Option σ} {a : α} {l r : FullTree α}

/-- The children of the next branch have their values. -/
theorem Settled.children (h : Settled value combine t done front) (ht : t.labels.Nodup) (hdone : ∀ x ∈ done, x ∈ t.subtrees)
    (hx : branch a l r ∈ t.subtrees) (hnew : branch a l r ∉ done)
    (hl : (∃ a, l = leaf a) ∨ l ∈ done) (hr : (∃ a, r = leaf a) ∨ r ∈ done) :
    front l.label = settle value combine l ∧ front r.label = settle value combine r := by
  have hparent : ∀ c ∈ (branch a l r).children, ∀ y ∈ done, c ∉ y.children := by
    intro c hc y hy hcy
    exact hnew (eq_of_mem_children ht hx (hdone y hy) hc hcy ▸ hy)
  exact ⟨h.reached l (left_mem_subtrees hx) hl (hparent l (by simp [FullTree.children])),
    h.reached r (right_mem_subtrees hx) hr (hparent r (by simp [FullTree.children]))⟩

/-- The visit of a branch. -/
theorem Settled.visit [DecidableEq α] (h : Settled value combine t done front) (ht : t.labels.Nodup)
    (hx : branch a l r ∈ t.subtrees) :
    Settled value combine t (branch a l r :: done)
      (Function.update (Function.update (Function.update front l.label none) r.label none) a
        (settle value combine (branch a l r))) := by
  have hlabel : ∀ {y z : FullTree α}, y ∈ t.subtrees → z ∈ t.subtrees → y ≠ z → y.label ≠ z.label :=
    fun hy hz hne hlab => hne (eq_of_label_eq ht hy hz hlab)
  have hroot : ∀ {y : FullTree α}, y ∈ t.subtrees → y ≠ branch a l r → y.label ≠ a := fun hy hne => hlabel hy hx hne
  constructor
  · intro x hxt hreached hout
    by_cases hxb : x = branch a l r
    · rw [hxb, label_branch, Function.update_self]
    · have hchild : x ∉ (branch a l r).children := hout _ List.mem_cons_self
      simp only [FullTree.children, List.mem_cons, List.not_mem_nil, or_false, not_or] at hchild
      rw [Function.update_of_ne (hroot hxt hxb), Function.update_of_ne (hlabel hxt (right_mem_subtrees hx) hchild.2),
        Function.update_of_ne (hlabel hxt (left_mem_subtrees hx) hchild.1)]
      refine h.reached x hxt ?_ fun y hy => hout y (List.mem_cons_of_mem _ hy)
      rcases hreached with hleaf | hmem
      · exact Or.inl hleaf
      · rcases List.mem_cons.1 hmem with hmem | hmem
        · exact absurd hmem hxb
        · exact Or.inr hmem
  · intro x hxt hbranch hahead
    rw [List.mem_cons, not_or] at hahead
    rw [Function.update_of_ne (hroot hxt hahead.1)]
    by_cases hxr : x.label = r.label
    · rw [hxr, Function.update_self]
    rw [Function.update_of_ne hxr]
    by_cases hxl : x.label = l.label
    · rw [hxl, Function.update_self]
    rw [Function.update_of_ne hxl]
    exact h.ahead x hxt hbranch hahead.2

/-- Nothing takes the value of the root out. -/
theorem Settled.root (h : Settled value combine t done front) (hdone : ∀ x ∈ done, x ∈ t.subtrees)
    (ht : (∃ a, t = leaf a) ∨ t ∈ done) : front t.label = settle value combine t := by
  refine h.reached t t.self_mem_subtrees ht fun y hy hc => ?_
  have := mem_tail_subtrees.1 (mem_tail_subtrees_of_mem_children (hdone y hy) hc)
  omega

end Pass

end Bouncer.Library.FullTree
