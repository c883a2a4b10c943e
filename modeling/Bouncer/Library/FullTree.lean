import Mathlib.Data.Sym.Sym2
import Mathlib.Tactic.Linarith

/-!
# Full binary trees

Binary trees in which every node carries a label and has either no child or two.  `labels` lists the labels in
preorder, `leaves` those of the leaves, `subtrees` the subtrees, the tree itself first.

`crossList keep f g x y` is what a simultaneous descent of two trees finds: the pairs of items below a pair of
leaves, where a pair of nodes is followed only if `keep` holds of it.  A pair of leaves is reached exactly when
`keep` holds all the way down to it (`mem_crossList_of_keptDownTo`, `exists_keep_of_mem_crossList`), and no pair of
items is found twice when no tree has an item twice (`nodup_crossList`).
-/

namespace Bouncer.Library

universe u v

inductive FullTree (α : Type u) where
  | leaf (a : α)
  | branch (a : α) (l r : FullTree α)
  deriving DecidableEq

namespace FullTree

variable {α β γ δ : Type*}

def label : FullTree α → α
  | leaf a => a
  | branch a _ _ => a

def labels : FullTree α → List α
  | leaf a => [a]
  | branch a l r => a :: (l.labels ++ r.labels)

def leaves : FullTree α → List α
  | leaf a => [a]
  | branch _ l r => l.leaves ++ r.leaves

def subtrees : FullTree α → List (FullTree α)
  | leaf a => [leaf a]
  | branch a l r => branch a l r :: (l.subtrees ++ r.subtrees)

def size : FullTree α → ℕ
  | leaf _ => 1
  | branch _ l r => 1 + l.size + r.size

@[simp] theorem label_leaf (a : α) : (leaf a).label = a := rfl
@[simp] theorem label_branch (a : α) (l r : FullTree α) : (branch a l r).label = a := rfl
@[simp] theorem labels_leaf (a : α) : (leaf a).labels = [a] := rfl
@[simp] theorem labels_branch (a : α) (l r : FullTree α) :
    (branch a l r).labels = a :: (l.labels ++ r.labels) := rfl
@[simp] theorem leaves_leaf (a : α) : (leaf a).leaves = [a] := rfl
@[simp] theorem leaves_branch (a : α) (l r : FullTree α) : (branch a l r).leaves = l.leaves ++ r.leaves := rfl
@[simp] theorem subtrees_leaf (a : α) : (leaf a).subtrees = [leaf a] := rfl
@[simp] theorem subtrees_branch (a : α) (l r : FullTree α) :
    (branch a l r).subtrees = branch a l r :: (l.subtrees ++ r.subtrees) := rfl
@[simp] theorem size_leaf (a : α) : (leaf a).size = 1 := rfl
@[simp] theorem size_branch (a : α) (l r : FullTree α) : (branch a l r).size = 1 + l.size + r.size := rfl

theorem size_pos (t : FullTree α) : 0 < t.size := by
  cases t with
  | leaf a => exact Nat.one_pos
  | branch a l r => simp only [size_branch]; omega

theorem length_labels (t : FullTree α) : t.labels.length = t.size := by
  induction t with
  | leaf a => rfl
  | branch a l r ihl ihr => simp [ihl, ihr]; omega

theorem map_label_subtrees (t : FullTree α) : t.subtrees.map label = t.labels := by
  induction t with
  | leaf a => rfl
  | branch a l r ihl ihr => simp [ihl, ihr]

theorem self_mem_subtrees (t : FullTree α) : t ∈ t.subtrees := by
  cases t <;> simp

theorem label_mem_labels (t : FullTree α) : t.label ∈ t.labels := by
  cases t <;> simp

theorem leaves_ne_nil (t : FullTree α) : t.leaves ≠ [] := by
  induction t with
  | leaf a => exact List.cons_ne_nil _ _
  | branch a l r ihl _ => exact List.append_ne_nil_of_left_ne_nil ihl _

theorem leaves_subset_labels (t : FullTree α) : t.leaves ⊆ t.labels := by
  induction t with
  | leaf a => simp
  | branch a l r ihl ihr =>
    intro x hx
    rcases List.mem_append.1 hx with hx | hx
    · exact List.mem_cons_of_mem _ (List.mem_append_left _ (ihl hx))
    · exact List.mem_cons_of_mem _ (List.mem_append_right _ (ihr hx))

theorem subtrees_trans {s t u : FullTree α} (hst : s ∈ t.subtrees) (htu : t ∈ u.subtrees) : s ∈ u.subtrees := by
  induction u with
  | leaf a => simp only [subtrees_leaf, List.mem_singleton] at htu; subst htu; exact hst
  | branch a l r ihl ihr =>
    simp only [subtrees_branch, List.mem_cons, List.mem_append] at htu
    rcases htu with rfl | h | h
    · exact hst
    · exact List.mem_cons_of_mem _ (List.mem_append_left _ (ihl h))
    · exact List.mem_cons_of_mem _ (List.mem_append_right _ (ihr h))

variable {a : α} {l r t : FullTree α}

theorem left_mem_subtrees (h : branch a l r ∈ t.subtrees) : l ∈ t.subtrees :=
  subtrees_trans (by simp [self_mem_subtrees]) h

theorem right_mem_subtrees (h : branch a l r ∈ t.subtrees) : r ∈ t.subtrees :=
  subtrees_trans (by simp [self_mem_subtrees]) h

variable {s t : FullTree α}

theorem size_le_of_mem_subtrees (h : s ∈ t.subtrees) : s.size ≤ t.size := by
  induction t with
  | leaf a => simp only [subtrees_leaf, List.mem_singleton] at h; rw [h]
  | branch a l r ihl ihr =>
    simp only [subtrees_branch, List.mem_cons, List.mem_append] at h
    rw [size_branch]
    rcases h with rfl | h | h
    · exact le_rfl
    · have := ihl h; omega
    · have := ihr h; omega

/-- The proper subtrees follow the tree itself, and they are the smaller ones. -/
theorem mem_tail_subtrees : s ∈ t.subtrees.tail ↔ s ∈ t.subtrees ∧ s.size < t.size := by
  cases t with
  | leaf a =>
    simp only [subtrees_leaf, List.tail_cons, List.not_mem_nil, List.mem_singleton, false_iff]
    rintro ⟨rfl, h⟩
    omega
  | branch a l r =>
    simp only [subtrees_branch, List.tail_cons, List.mem_cons]
    constructor
    · intro h
      refine ⟨Or.inr h, ?_⟩
      rcases List.mem_append.1 h with h | h
      · have := size_le_of_mem_subtrees h; rw [size_branch]; omega
      · have := size_le_of_mem_subtrees h; rw [size_branch]; omega
    · rintro ⟨rfl | h, hlt⟩
      · omega
      · exact h

theorem mem_tail_subtrees_trans {s t u : FullTree α} (hst : s ∈ t.subtrees) (htu : t ∈ u.subtrees.tail) :
    s ∈ u.subtrees.tail := by
  rw [mem_tail_subtrees] at htu ⊢
  exact ⟨subtrees_trans hst htu.1, (size_le_of_mem_subtrees hst).trans_lt htu.2⟩

theorem left_mem_tail_subtrees (h : branch a l r ∈ t.subtrees) :
    l ∈ t.subtrees.tail := by
  have := size_le_of_mem_subtrees h
  rw [size_branch] at this
  exact mem_tail_subtrees.2 ⟨left_mem_subtrees h, by omega⟩

theorem right_mem_tail_subtrees (h : branch a l r ∈ t.subtrees) :
    r ∈ t.subtrees.tail := by
  have := size_le_of_mem_subtrees h
  rw [size_branch] at this
  exact mem_tail_subtrees.2 ⟨right_mem_subtrees h, by omega⟩

theorem labels_subset_of_mem_subtrees (h : s ∈ t.subtrees) : s.labels ⊆ t.labels := by
  induction t with
  | leaf a => simp only [subtrees_leaf, List.mem_singleton] at h; subst h; exact List.Subset.refl _
  | branch a l r ihl ihr =>
    simp only [subtrees_branch, List.mem_cons, List.mem_append] at h
    intro x hx
    rcases h with rfl | h | h
    · exact hx
    · exact List.mem_cons_of_mem _ (List.mem_append_left _ (ihl h hx))
    · exact List.mem_cons_of_mem _ (List.mem_append_right _ (ihr h hx))

theorem leaf_mem_subtrees_iff {t : FullTree α} : leaf a ∈ t.subtrees ↔ a ∈ t.leaves := by
  induction t with
  | leaf b => simp
  | branch b l r ihl ihr => simp [ihl, ihr]

/-- In a tree without repeated labels a subtree is determined by its label. -/
theorem eq_of_label_eq {t s s' : FullTree α} (ht : t.labels.Nodup) (hs : s ∈ t.subtrees) (hs' : s' ∈ t.subtrees)
    (h : s.label = s'.label) : s = s' :=
  List.inj_on_of_nodup_map (by rwa [map_label_subtrees]) hs hs' h

theorem nodup_subtrees {t : FullTree α} (ht : t.labels.Nodup) : t.subtrees.Nodup :=
  List.Nodup.of_map label (by rwa [map_label_subtrees])

/-- `x` is one of the two children of the subtree `parent`. -/
def IsParent (t parent x : FullTree α) : Prop :=
  ∃ a l r, parent = branch a l r ∧ parent ∈ t.subtrees ∧ (x = l ∨ x = r)

theorem IsParent.mem_labels {t parent x : FullTree α} (h : t.IsParent parent x) : x.label ∈ t.labels := by
  obtain ⟨a, l, r, rfl, hparent, rfl | rfl⟩ := h
  · exact labels_subset_of_mem_subtrees (left_mem_subtrees hparent) (label_mem_labels _)
  · exact labels_subset_of_mem_subtrees (right_mem_subtrees hparent) (label_mem_labels _)

/-- A parent in a tree is its root, or it is a parent in one of the two trees below the root. -/
theorem isParent_branch {l r parent x : FullTree α} (h : (branch a l r).IsParent parent x) :
    (parent = branch a l r ∧ (x = l ∨ x = r)) ∨ l.IsParent parent x ∨ r.IsParent parent x := by
  obtain ⟨b, l', r', rfl, hparent, hx⟩ := h
  simp only [subtrees_branch, List.mem_cons, List.mem_append] at hparent
  rcases hparent with h | h | h
  · left
    obtain ⟨rfl, rfl, rfl⟩ := branch.inj h
    exact ⟨rfl, hx⟩
  · exact Or.inr (Or.inl ⟨b, l', r', rfl, h, hx⟩)
  · exact Or.inr (Or.inr ⟨b, l', r', rfl, h, hx⟩)

/-- The root of a tree without repeated labels has no parent in it. -/
theorem IsParent.label_ne {t parent x : FullTree α} (ht : t.labels.Nodup) (h : t.IsParent parent x) :
    x.label ≠ t.label := by
  cases t with
  | leaf a =>
    obtain ⟨b, l, r, rfl, hparent, -⟩ := h
    simp at hparent
  | branch a l r =>
    rw [labels_branch, List.nodup_cons, List.mem_append, not_or] at ht
    intro hlabel
    rw [label_branch] at hlabel
    rcases isParent_branch h with ⟨-, rfl | rfl⟩ | h | h
    · exact ht.1.1 (hlabel ▸ label_mem_labels _)
    · exact ht.1.2 (hlabel ▸ label_mem_labels _)
    · exact ht.1.1 (hlabel ▸ h.mem_labels)
    · exact ht.1.2 (hlabel ▸ h.mem_labels)

/-- In a tree without repeated labels no subtree has two parents. -/
theorem IsParent.unique {t parent parent' x : FullTree α} (ht : t.labels.Nodup) (h : t.IsParent parent x)
    (h' : t.IsParent parent' x) : parent = parent' := by
  induction t with
  | leaf a =>
    obtain ⟨b, l, r, rfl, hparent, -⟩ := h
    simp at hparent
  | branch a l r ihl ihr =>
    rw [labels_branch, List.nodup_cons, List.nodup_append] at ht
    obtain ⟨-, hl, hr, hlr⟩ := ht
    have hroot : ∀ {p}, (x = l ∨ x = r) → ¬ (l.IsParent p x ∨ r.IsParent p x) := by
      rintro p (rfl | rfl) (hp | hp)
      · exact hp.label_ne hl rfl
      · exact hlr _ (label_mem_labels _) _ hp.mem_labels rfl
      · exact hlr _ hp.mem_labels _ (label_mem_labels _) rfl
      · exact hp.label_ne hr rfl
    rcases isParent_branch h with ⟨rfl, hx⟩ | h | h <;> rcases isParent_branch h' with ⟨rfl, hx'⟩ | h' | h'
    · rfl
    · exact absurd (Or.inl h') (hroot hx)
    · exact absurd (Or.inr h') (hroot hx)
    · exact absurd (Or.inl h) (hroot hx')
    · exact ihl hl h h'
    · exact absurd rfl (hlr _ h.mem_labels _ h'.mem_labels)
    · exact absurd (Or.inr h) (hroot hx')
    · exact absurd rfl (hlr _ h'.mem_labels _ h.mem_labels)
    · exact ihr hr h h'

/-! ### Simultaneous descent of two trees -/

/-- The pairs of items below the pairs of leaves that a descent of `x` and `y` reaches, in the order in which a
stack delivers them. -/
def crossList (keep : α → β → Bool) (f : α → List γ) (g : β → List δ) (x : FullTree α) (y : FullTree β) :
    List (γ × δ) :=
  if keep x.label y.label then
    match x, y with
    | leaf a, leaf b => (f a).product (g b)
    | leaf a, branch _ l r => crossList keep f g (leaf a) r ++ crossList keep f g (leaf a) l
    | branch _ l r, leaf b => crossList keep f g r (leaf b) ++ crossList keep f g l (leaf b)
    | branch _ l r, branch _ l' r' =>
      crossList keep f g r r' ++ crossList keep f g r l' ++ crossList keep f g l r' ++ crossList keep f g l l'
  else []
termination_by x.size + y.size
decreasing_by all_goals simp only [size_leaf, size_branch]; omega

section Cross

variable {keep : α → β → Bool} {f : α → List γ} {g : β → List δ}

variable {x : FullTree α} {y : FullTree β}

theorem crossList_of_not_keep (h : keep x.label y.label = false) :
    crossList keep f g x y = [] := by
  rw [crossList.eq_def]; simp [h]

variable {b : β}

theorem crossList_leaf_leaf (h : keep a b = true) :
    crossList keep f g (leaf a) (leaf b) = (f a).product (g b) := by
  rw [crossList.eq_def]; simp [h]

theorem crossList_leaf_branch {l r : FullTree β} (h : keep a b = true) :
    crossList keep f g (leaf a) (branch b l r) =
      crossList keep f g (leaf a) r ++ crossList keep f g (leaf a) l := by
  rw [crossList.eq_def]; simp [h]

theorem crossList_branch_leaf {l r : FullTree α} (h : keep a b = true) :
    crossList keep f g (branch a l r) (leaf b) =
      crossList keep f g r (leaf b) ++ crossList keep f g l (leaf b) := by
  rw [crossList.eq_def]; simp [h]

theorem crossList_branch_branch {l r : FullTree α} {l' r' : FullTree β} (h : keep a b = true) :
    crossList keep f g (branch a l r) (branch b l' r') =
      crossList keep f g r r' ++ crossList keep f g r l' ++ crossList keep f g l r' ++ crossList keep f g l l' := by
  rw [crossList.eq_def]; simp [h]

/-- The items below a tree, leaf by leaf. -/
def items (f : α → List γ) (x : FullTree α) : List γ := x.leaves.flatMap f

@[simp] theorem items_leaf (f : α → List γ) (a : α) : items f (leaf a) = f a := by simp [items]

@[simp] theorem items_branch (f : α → List γ) (a : α) (l r : FullTree α) :
    items f (branch a l r) = items f l ++ items f r := by simp [items]

/-- A pair that is found lies below a pair of leaves that is kept. -/
theorem exists_keep_of_mem_crossList {p : γ} {q : δ}
    (h : (p, q) ∈ crossList keep f g x y) :
    ∃ a ∈ x.leaves, ∃ b ∈ y.leaves, keep a b = true ∧ p ∈ f a ∧ q ∈ g b := by
  fun_induction crossList keep f g x y with
  | case1 a b hk =>
    obtain ⟨hp, hq⟩ := List.pair_mem_product.1 h
    exact ⟨a, by simp, b, by simp, hk, hp, hq⟩
  | case2 a b l r hk ihr ihl =>
    rcases List.mem_append.1 h with h | h
    · obtain ⟨a', ha, b', hb, hrest⟩ := ihr h
      exact ⟨a', ha, b', by simp [hb], hrest⟩
    · obtain ⟨a', ha, b', hb, hrest⟩ := ihl h
      exact ⟨a', ha, b', by simp [hb], hrest⟩
  | case3 a l r b hk ihr ihl =>
    rcases List.mem_append.1 h with h | h
    · obtain ⟨a', ha, b', hb, hrest⟩ := ihr h
      exact ⟨a', by simp [ha], b', hb, hrest⟩
    · obtain ⟨a', ha, b', hb, hrest⟩ := ihl h
      exact ⟨a', by simp [ha], b', hb, hrest⟩
  | case4 a l r b l' r' hk ihrr ihrl ihlr ihll =>
    simp only [List.mem_append] at h
    rcases h with ((h | h) | h) | h
    · obtain ⟨a', ha, b', hb, hrest⟩ := ihrr h
      exact ⟨a', by simp [ha], b', by simp [hb], hrest⟩
    · obtain ⟨a', ha, b', hb, hrest⟩ := ihrl h
      exact ⟨a', by simp [ha], b', by simp [hb], hrest⟩
    · obtain ⟨a', ha, b', hb, hrest⟩ := ihlr h
      exact ⟨a', by simp [ha], b', by simp [hb], hrest⟩
    · obtain ⟨a', ha, b', hb, hrest⟩ := ihll h
      exact ⟨a', by simp [ha], b', by simp [hb], hrest⟩
  | case5 x y hk => simp at h

/-- `keep` holds of all pairs of subtrees that contain the leaves `a` and `b`. -/
def KeptDownTo (keep : α → β → Bool) (x : FullTree α) (y : FullTree β) (a : α) (b : β) : Prop :=
  ∀ s ∈ x.subtrees, a ∈ s.leaves → ∀ t ∈ y.subtrees, b ∈ t.leaves → keep s.label t.label = true

theorem KeptDownTo.root (h : KeptDownTo keep x y a b)
    (ha : a ∈ x.leaves) (hb : b ∈ y.leaves) : keep x.label y.label = true :=
  h x x.self_mem_subtrees ha y y.self_mem_subtrees hb

variable {x x' : FullTree α} {y y' : FullTree β}

theorem KeptDownTo.mono (h : KeptDownTo keep x y a b)
    (hx : x' ∈ x.subtrees) (hy : y' ∈ y.subtrees) : KeptDownTo keep x' y' a b :=
  fun s hs has t ht hbt => h s (subtrees_trans hs hx) has t (subtrees_trans ht hy) hbt

/-- A pair of leaves is reached if `keep` holds all the way down to it. -/
theorem mem_crossList_of_keptDownTo (ha : a ∈ x.leaves)
    (hb : b ∈ y.leaves) (hk : KeptDownTo keep x y a b) {p : γ} {q : δ} (hp : p ∈ f a) (hq : q ∈ g b) :
    (p, q) ∈ crossList keep f g x y := by
  fun_induction crossList keep f g x y with
  | case1 a' b' _ =>
    simp only [leaves_leaf, List.mem_singleton] at ha hb
    subst ha hb
    exact List.pair_mem_product.2 ⟨hp, hq⟩
  | case2 a' b' l r _ ihr ihl =>
    rcases List.mem_append.1 hb with hb | hb
    · exact List.mem_append_right _ (ihl ha hb (hk.mono (self_mem_subtrees _) (by simp [self_mem_subtrees])))
    · exact List.mem_append_left _ (ihr ha hb (hk.mono (self_mem_subtrees _) (by simp [self_mem_subtrees])))
  | case3 a' l r b' _ ihr ihl =>
    rcases List.mem_append.1 ha with ha | ha
    · exact List.mem_append_right _ (ihl ha hb (hk.mono (by simp [self_mem_subtrees]) (self_mem_subtrees _)))
    · exact List.mem_append_left _ (ihr ha hb (hk.mono (by simp [self_mem_subtrees]) (self_mem_subtrees _)))
  | case4 a' l r b' l' r' _ ihrr ihrl ihlr ihll =>
    have hl : l ∈ (branch a' l r).subtrees := by simp [self_mem_subtrees]
    have hr : r ∈ (branch a' l r).subtrees := by simp [self_mem_subtrees]
    have hl' : l' ∈ (branch b' l' r').subtrees := by simp [self_mem_subtrees]
    have hr' : r' ∈ (branch b' l' r').subtrees := by simp [self_mem_subtrees]
    simp only [List.mem_append]
    rcases List.mem_append.1 ha with ha | ha <;> rcases List.mem_append.1 hb with hb | hb
    · exact Or.inr (ihll ha hb (hk.mono hl hl'))
    · exact Or.inl (Or.inr (ihlr ha hb (hk.mono hl hr')))
    · exact Or.inl (Or.inl (Or.inr (ihrl ha hb (hk.mono hr hl'))))
    · exact Or.inl (Or.inl (Or.inl (ihrr ha hb (hk.mono hr hr'))))
  | case5 x y h => exact absurd (hk.root ha hb) h

theorem mem_items_of_mem_crossList {p : γ × δ}
    (h : p ∈ crossList keep f g x y) : p.1 ∈ items f x ∧ p.2 ∈ items g y := by
  obtain ⟨a, ha, b, hb, -, hp, hq⟩ := exists_keep_of_mem_crossList h
  exact ⟨List.mem_flatMap.2 ⟨a, ha, hp⟩, List.mem_flatMap.2 ⟨b, hb, hq⟩⟩

private theorem disjoint_crossList_left
    (h : List.Disjoint (items f x) (items f x')) :
    List.Disjoint (crossList keep f g x y) (crossList keep f g x' y') :=
  fun _ hp hp' => h (mem_items_of_mem_crossList hp).1 (mem_items_of_mem_crossList hp').1

private theorem disjoint_crossList_right
    (h : List.Disjoint (items g y) (items g y')) :
    List.Disjoint (crossList keep f g x y) (crossList keep f g x' y') :=
  fun _ hp hp' => h (mem_items_of_mem_crossList hp).2 (mem_items_of_mem_crossList hp').2

/-- No pair is found twice. -/
theorem nodup_crossList (hx : (items f x).Nodup) (hy : (items g y).Nodup) :
    (crossList keep f g x y).Nodup := by
  fun_induction crossList keep f g x y with
  | case1 a b _ => exact (by simpa using hx : (f a).Nodup).product (by simpa using hy)
  | case2 a b l r _ ihr ihl =>
    rw [items_branch, List.nodup_append', List.disjoint_comm] at hy
    obtain ⟨hl, hr, hd⟩ := hy
    exact (ihr hx hr).append (ihl hx hl) (disjoint_crossList_right hd)
  | case3 a l r b _ ihr ihl =>
    rw [items_branch, List.nodup_append', List.disjoint_comm] at hx
    obtain ⟨hl, hr, hd⟩ := hx
    exact (ihr hr hy).append (ihl hl hy) (disjoint_crossList_left hd)
  | case4 a l r b l' r' _ ihrr ihrl ihlr ihll =>
    rw [items_branch, List.nodup_append', List.disjoint_comm] at hx hy
    obtain ⟨hl, hr, hd⟩ := hx
    obtain ⟨hl', hr', hd'⟩ := hy
    refine (((ihrr hr hr').append (ihrl hr hl') ?_).append (ihlr hl hr') ?_).append (ihll hl hl') ?_
    · exact disjoint_crossList_right hd'
    · rw [List.disjoint_append_left]
      exact ⟨disjoint_crossList_left hd, disjoint_crossList_left hd⟩
    · simp only [List.disjoint_append_left]
      exact ⟨⟨disjoint_crossList_left hd, disjoint_crossList_left hd⟩, disjoint_crossList_right hd'⟩
  | case5 x y _ => exact List.nodup_nil

end Cross

/-! ### Descent of a tree against itself -/

/-- The pairs of an element of a list and a later one. -/
def orderedPairs : List γ → List (γ × γ)
  | [] => []
  | c :: cs => cs.map (fun d => (c, d)) ++ orderedPairs cs

/-- The pairs below one leaf, and those that a descent of the two sides of every branch finds. -/
def selfList (keep : α → α → Bool) (f : α → List γ) : FullTree α → List (γ × γ)
  | leaf a => orderedPairs (f a)
  | branch _ l r => crossList keep f f l r ++ (selfList keep f l ++ selfList keep f r)

/-- The same pairs without their order. -/
def unordered (l : List (γ × γ)) : List (Sym2 γ) := l.map fun p => s(p.1, p.2)

@[simp] theorem unordered_append (l₁ l₂ : List (γ × γ)) : unordered (l₁ ++ l₂) = unordered l₁ ++ unordered l₂ := by
  simp [unordered]

variable {p q : γ}

theorem mem_unordered {l : List (γ × γ)} : s(p, q) ∈ unordered l ↔ (p, q) ∈ l ∨ (q, p) ∈ l := by
  simp only [unordered, List.mem_map, Prod.exists, Sym2.eq_iff]
  constructor
  · rintro ⟨c, d, h, ⟨rfl, rfl⟩ | ⟨rfl, rfl⟩⟩
    · exact Or.inl h
    · exact Or.inr h
  · rintro (h | h)
    · exact ⟨p, q, h, Or.inl ⟨rfl, rfl⟩⟩
    · exact ⟨q, p, h, Or.inr ⟨rfl, rfl⟩⟩

variable {cs : List γ}

theorem mem_orderedPairs (h : (p, q) ∈ orderedPairs cs) : p ∈ cs ∧ q ∈ cs := by
  induction cs with
  | nil => simp [orderedPairs] at h
  | cons c cs ih =>
    simp only [orderedPairs, List.mem_append, List.mem_map, Prod.mk.injEq] at h
    rcases h with ⟨d, hd, rfl, rfl⟩ | h
    · simp [hd]
    · have := ih h
      simp [this]

theorem mem_unordered_orderedPairs (h : cs.Nodup) :
    s(p, q) ∈ unordered (orderedPairs cs) ↔ p ≠ q ∧ p ∈ cs ∧ q ∈ cs := by
  induction cs with
  | nil => simp [orderedPairs, unordered]
  | cons c cs ih =>
    rw [List.nodup_cons] at h
    rw [orderedPairs, unordered_append, List.mem_append, ih h.2, mem_unordered]
    simp only [List.mem_map, Prod.mk.injEq, List.mem_cons]
    constructor
    · rintro ((⟨d, hd, rfl, rfl⟩ | ⟨d, hd, rfl, rfl⟩) | ⟨hpq, hp, hq⟩)
      · exact ⟨fun he => h.1 (he ▸ hd), Or.inl rfl, Or.inr hd⟩
      · exact ⟨fun he => h.1 (he ▸ hd), Or.inr hd, Or.inl rfl⟩
      · exact ⟨hpq, Or.inr hp, Or.inr hq⟩
    · rintro ⟨hpq, rfl | hp, rfl | hq⟩
      · exact absurd rfl hpq
      · exact Or.inl (Or.inl ⟨q, hq, rfl, rfl⟩)
      · exact Or.inl (Or.inr ⟨p, hp, rfl, rfl⟩)
      · exact Or.inr ⟨hpq, hp, hq⟩

theorem nodup_unordered_orderedPairs (h : cs.Nodup) : (unordered (orderedPairs cs)).Nodup := by
  induction cs with
  | nil => simp [orderedPairs, unordered]
  | cons c cs ih =>
    rw [List.nodup_cons] at h
    rw [orderedPairs, unordered_append]
    refine List.Nodup.append ?_ (ih h.2) ?_
    · rw [unordered, List.map_map]
      refine h.2.map_on ?_
      intro d hd d' _ he
      exact Sym2.congr_right.1 he
    · intro z hz hz'
      induction z with
      | _ p q =>
      have hin := (mem_unordered_orderedPairs h.2).1 hz'
      simp only [mem_unordered, List.mem_map, Prod.mk.injEq] at hz
      rcases hz with ⟨d, -, rfl, -⟩ | ⟨d, -, rfl, -⟩
      · exact h.1 hin.2.1
      · exact h.1 hin.2.2

section Self

variable {keep : α → α → Bool} {f : α → List γ} {t : FullTree α}

theorem mem_items_of_mem_selfList (h : (p, q) ∈ selfList keep f t) : p ∈ items f t ∧ q ∈ items f t := by
  induction t with
  | leaf a => simpa using mem_orderedPairs h
  | branch a l r ihl ihr =>
    simp only [selfList, List.mem_append] at h
    simp only [items_branch, List.mem_append]
    rcases h with h | h | h
    · have := mem_items_of_mem_crossList h
      exact ⟨Or.inl this.1, Or.inr this.2⟩
    · exact ⟨Or.inl (ihl h).1, Or.inl (ihl h).2⟩
    · exact ⟨Or.inr (ihr h).1, Or.inr (ihr h).2⟩

private theorem mem_items_of_mem_unordered (h : s(p, q) ∈ unordered (selfList keep f t)) :
    p ∈ items f t ∧ q ∈ items f t := by
  rcases mem_unordered.1 h with h | h
  · exact mem_items_of_mem_selfList h
  · exact (mem_items_of_mem_selfList h).symm

/-- No unordered pair of items is found twice. -/
theorem nodup_unordered_selfList (h : (items f t).Nodup) : (unordered (selfList keep f t)).Nodup := by
  induction t with
  | leaf a => exact nodup_unordered_orderedPairs (by simpa using h)
  | branch a l r ihl ihr =>
    rw [items_branch, List.nodup_append'] at h
    obtain ⟨hl, hr, hd⟩ := h
    have hcross : (unordered (crossList keep f f l r)).Nodup := by
      refine (nodup_crossList hl hr).map_on ?_
      rintro ⟨p, q⟩ hpq ⟨p', q'⟩ hpq' he
      rcases Sym2.eq_iff.1 he with ⟨rfl, rfl⟩ | ⟨rfl, rfl⟩
      · rfl
      · exact absurd (mem_items_of_mem_crossList hpq').2 (hd (mem_items_of_mem_crossList hpq).1)
    simp only [selfList, unordered_append]
    refine hcross.append ((ihl hl).append (ihr hr) ?_) ?_
    · intro z hz hz'
      induction z with
      | _ p q => exact hd (mem_items_of_mem_unordered hz).1 (mem_items_of_mem_unordered hz').1
    · intro z hz hz'
      induction z with
      | _ p q =>
      rcases mem_unordered.1 hz with hc | hc <;> have hc := mem_items_of_mem_crossList hc <;>
        rcases List.mem_append.1 hz' with hs | hs <;> have hs := mem_items_of_mem_unordered hs
      · exact hd hs.2 hc.2
      · exact hd hc.1 hs.1
      · exact hd hs.1 hc.2
      · exact hd hc.1 hs.2

/-- An unordered pair of items is found if they lie below one leaf, or if `keep` holds all the way down to their
leaves. -/
theorem mem_unordered_selfList_of_keptDownTo (h : (items f t).Nodup) {a b : α} (ha : a ∈ t.leaves)
    (hb : b ∈ t.leaves) (hk : a ≠ b → KeptDownTo keep t t a b ∧ KeptDownTo keep t t b a) (hpq : p ≠ q)
    (hp : p ∈ f a) (hq : q ∈ f b) : s(p, q) ∈ unordered (selfList keep f t) := by
  induction t with
  | leaf c =>
    simp only [leaves_leaf, List.mem_singleton] at ha hb
    subst ha hb
    exact (mem_unordered_orderedPairs (by simpa using h)).2 ⟨hpq, hp, hq⟩
  | branch c l r ihl ihr =>
    rw [items_branch, List.nodup_append'] at h
    obtain ⟨hl, hr, hd⟩ := h
    have hlt : l ∈ (branch c l r).subtrees := by simp [self_mem_subtrees]
    have hrt : r ∈ (branch c l r).subtrees := by simp [self_mem_subtrees]
    have hne : ∀ {a b : α} {p : γ}, a ∈ l.leaves → b ∈ r.leaves → p ∈ f a → a ≠ b := by
      rintro a b p ha hb hp rfl
      exact hd (List.mem_flatMap.2 ⟨a, ha, hp⟩) (List.mem_flatMap.2 ⟨a, hb, hp⟩)
    rw [selfList, unordered_append, unordered_append, List.mem_append, List.mem_append, mem_unordered]
    rcases List.mem_append.1 ha with ha | ha <;> rcases List.mem_append.1 hb with hb | hb
    · exact Or.inr (Or.inl (ihl hl ha hb fun hab => ⟨(hk hab).1.mono hlt hlt, (hk hab).2.mono hlt hlt⟩))
    · have hkept := (hk (hne ha hb hp)).1.mono hlt hrt
      exact Or.inl (Or.inl (mem_crossList_of_keptDownTo ha hb hkept hp hq))
    · have hkept := (hk (hne hb ha hq).symm).2.mono hlt hrt
      exact Or.inl (Or.inr (mem_crossList_of_keptDownTo hb ha hkept hq hp))
    · exact Or.inr (Or.inr (ihr hr ha hb fun hab => ⟨(hk hab).1.mono hrt hrt, (hk hab).2.mono hrt hrt⟩))

/-- What is found lies below one leaf, or below two different leaves that are kept. -/
private theorem exists_keep_of_mem_selfList (h : (items f t).Nodup) (hpq : (p, q) ∈ selfList keep f t) :
    p ≠ q ∧ ((∃ a ∈ t.leaves, p ∈ f a ∧ q ∈ f a) ∨
      ∃ a ∈ t.leaves, ∃ b ∈ t.leaves, a ≠ b ∧ keep a b = true ∧ p ∈ f a ∧ q ∈ f b) := by
  induction t with
  | leaf c =>
    have hfc : (f c).Nodup := by simpa using h
    obtain ⟨hne, hp, hq⟩ := (mem_unordered_orderedPairs hfc).1 (mem_unordered.2 (Or.inl hpq))
    exact ⟨hne, Or.inl ⟨c, by simp, hp, hq⟩⟩
  | branch c l r ihl ihr =>
    rw [items_branch, List.nodup_append'] at h
    obtain ⟨hl, hr, hd⟩ := h
    rw [selfList, List.mem_append, List.mem_append] at hpq
    rcases hpq with hpq | hpq | hpq
    · obtain ⟨a, ha, b, hb, hab, hp, hq⟩ := exists_keep_of_mem_crossList hpq
      have hpl : p ∈ items f l := List.mem_flatMap.2 ⟨a, ha, hp⟩
      have hqr : q ∈ items f r := List.mem_flatMap.2 ⟨b, hb, hq⟩
      have hne : a ≠ b := by
        rintro rfl
        exact hd hpl (List.mem_flatMap.2 ⟨a, hb, hp⟩)
      refine ⟨?_, Or.inr ⟨a, List.mem_append_left _ ha, b, List.mem_append_right _ hb, hne, hab, hp, hq⟩⟩
      rintro rfl
      exact hd hpl hqr
    · obtain ⟨hne, ⟨a, ha, hrest⟩ | ⟨a, ha, b, hb, hrest⟩⟩ := ihl hl hpq
      · exact ⟨hne, Or.inl ⟨a, List.mem_append_left _ ha, hrest⟩⟩
      · exact ⟨hne, Or.inr ⟨a, List.mem_append_left _ ha, b, List.mem_append_left _ hb, hrest⟩⟩
    · obtain ⟨hne, ⟨a, ha, hrest⟩ | ⟨a, ha, b, hb, hrest⟩⟩ := ihr hr hpq
      · exact ⟨hne, Or.inl ⟨a, List.mem_append_right _ ha, hrest⟩⟩
      · exact ⟨hne, Or.inr ⟨a, List.mem_append_right _ ha, b, List.mem_append_right _ hb, hrest⟩⟩

/-- For a symmetric `keep` that holds of two subtrees as soon as it holds of two leaves below them, an unordered
pair of items is found if the items lie below one leaf or below two different leaves that are kept. -/
theorem mem_unordered_selfList (h : (items f t).Nodup) (hsymm : ∀ a b, keep a b = keep b a)
    (hkeep : ∀ a b, keep a b = true → KeptDownTo keep t t a b) :
    s(p, q) ∈ unordered (selfList keep f t) ↔ p ≠ q ∧
      ((∃ a ∈ t.leaves, p ∈ f a ∧ q ∈ f a) ∨
        ∃ a ∈ t.leaves, ∃ b ∈ t.leaves, a ≠ b ∧ keep a b = true ∧ p ∈ f a ∧ q ∈ f b) := by
  constructor
  · intro hmem
    rcases mem_unordered.1 hmem with hmem | hmem
    · exact exists_keep_of_mem_selfList h hmem
    · obtain ⟨hne, ⟨a, ha, hq, hp⟩ | ⟨a, ha, b, hb, hab, hk, hq, hp⟩⟩ := exists_keep_of_mem_selfList h hmem
      · exact ⟨hne.symm, Or.inl ⟨a, ha, hp, hq⟩⟩
      · exact ⟨hne.symm, Or.inr ⟨b, hb, a, ha, hab.symm, by rwa [hsymm], hp, hq⟩⟩
  · rintro ⟨hpq, ⟨a, ha, hp, hq⟩ | ⟨a, ha, b, hb, -, hk, hp, hq⟩⟩
    · exact mem_unordered_selfList_of_keptDownTo h ha ha (fun hne => absurd rfl hne) hpq hp hq
    · exact mem_unordered_selfList_of_keptDownTo h ha hb (fun _ => ⟨hkeep a b hk, hkeep b a (by rwa [hsymm])⟩) hpq hp hq

end Self

end FullTree

end Bouncer.Library
