import Bouncer.Library.FullTree

/-!
# Growing trees

A full tree grows when one of its leaves becomes a branch with two new leaves.  Its leaves then are the old ones with the
new ones in the place of their parent (`leaves_grow`).

`Linked P t` says that `P` holds of every branch and its two children, which a tree keeps when it grows (`Linked.grow`).
-/

namespace Bouncer.Library.FullTree

variable {α β γ : Type*}

/-- The leaf `a` becomes a branch with the leaves `x` and `y`. -/
def grow [DecidableEq α] (a x y : α) : FullTree α → FullTree α
  | leaf b => if b = a then branch b (leaf x) (leaf y) else leaf b
  | branch b l r => branch b (grow a x y l) (grow a x y r)

def map (f : α → β) : FullTree α → FullTree β
  | leaf a => leaf (f a)
  | branch a l r => branch (f a) (map f l) (map f r)

def height : FullTree α → ℕ
  | leaf _ => 0
  | branch _ l r => max l.height r.height + 1

/-- The leaves with their depths, if the root has the depth `d`. -/
def leavesAt : ℕ → FullTree α → List (α × ℕ)
  | d, leaf a => [(a, d)]
  | d, branch _ l r => leavesAt (d + 1) l ++ leavesAt (d + 1) r

/-- The labels of the branches. -/
def branches : FullTree α → List α
  | leaf _ => []
  | branch a l r => a :: (l.branches ++ r.branches)

/-- `P` holds of every branch and its children. -/
def Linked (P : α → α → α → Prop) : FullTree α → Prop
  | leaf _ => True
  | branch a l r => P a l.label r.label ∧ Linked P l ∧ Linked P r

variable {t : FullTree α}

section Map

variable {f : α → β}

@[simp] theorem label_map (t : FullTree α) : (t.map f).label = f t.label := by
  cases t <;> rfl

@[simp] theorem labels_map (t : FullTree α) : (t.map f).labels = t.labels.map f := by
  induction t with
  | leaf a => rfl
  | branch a l r ihl ihr => simp [map, ihl, ihr]

@[simp] theorem leaves_map (t : FullTree α) : (t.map f).leaves = t.leaves.map f := by
  induction t with
  | leaf a => rfl
  | branch a l r ihl ihr => simp [map, ihl, ihr]

theorem items_map (g : β → List γ) (t : FullTree α) : (t.map f).items g = t.items (g ∘ f) := by
  simp [items, List.flatMap_map, Function.comp_def]

theorem leavesAt_map (d : ℕ) (t : FullTree α) : (t.map f).leavesAt d = (t.leavesAt d).map fun p => (f p.1, p.2) := by
  induction t generalizing d with
  | leaf a => rfl
  | branch a l r ihl ihr => simp [map, leavesAt, ihl, ihr]

@[simp] theorem height_map (t : FullTree α) : (t.map f).height = t.height := by
  induction t with
  | leaf a => rfl
  | branch a l r ihl ihr => simp [map, height, ihl, ihr]

theorem exists_of_mem_subtrees_map {v : FullTree β} (h : v ∈ (t.map f).subtrees) :
    ∃ u ∈ t.subtrees, u.map f = v := by
  induction t with
  | leaf a =>
    obtain rfl : v = leaf (f a) := by simpa [map] using h
    exact ⟨leaf a, by simp, rfl⟩
  | branch a l r ihl ihr =>
    rw [map, subtrees_branch, List.mem_cons, List.mem_append] at h
    rcases h with rfl | h | h
    · exact ⟨branch a l r, self_mem_subtrees _, rfl⟩
    · obtain ⟨u, hu, rfl⟩ := ihl h
      exact ⟨u, by simp [hu], rfl⟩
    · obtain ⟨u, hu, rfl⟩ := ihr h
      exact ⟨u, by simp [hu], rfl⟩

end Map

/-- A full tree has one leaf more than it has branches. -/
theorem size_add_one (t : FullTree α) : t.size + 1 = 2 * t.leaves.length := by
  induction t with
  | leaf a => rfl
  | branch a l r ihl ihr =>
    rw [size_branch, leaves_branch, List.length_append]
    omega

/-- Each label is that of a branch or of a leaf. -/
theorem labels_perm (t : FullTree α) : t.labels.Perm (t.branches ++ t.leaves) := by
  induction t with
  | leaf a => exact List.Perm.refl _
  | branch a l r ihl ihr =>
    rw [labels_branch, branches, leaves_branch, List.cons_append]
    refine ((ihl.append ihr).trans ?_).cons a
    have hswap : (l.leaves ++ (r.branches ++ r.leaves)).Perm (r.branches ++ (l.leaves ++ r.leaves)) := by
      rw [← List.append_assoc, ← List.append_assoc]
      exact List.perm_append_comm.append_right _
    rw [List.append_assoc, List.append_assoc]
    exact hswap.append_left _

theorem branches_subset_labels (t : FullTree α) : t.branches ⊆ t.labels :=
  fun _ h => t.labels_perm.mem_iff.2 (List.mem_append_left _ h)

theorem nodup_leaves (h : t.labels.Nodup) : t.leaves.Nodup :=
  (List.nodup_append.1 (t.labels_perm.nodup_iff.1 h)).2.1

/-- In a tree without repeated labels no branch has the label of a leaf. -/
theorem ne_of_mem_branches (h : t.labels.Nodup) {a b : α} (ha : a ∈ t.branches) (hb : b ∈ t.leaves) :
    a ≠ b :=
  (List.nodup_append.1 (t.labels_perm.nodup_iff.1 h)).2.2 a ha b hb

section Grow

variable [DecidableEq α] {a x y : α}

@[simp] theorem label_grow (t : FullTree α) : (t.grow a x y).label = t.label := by
  cases t with
  | leaf b =>
    unfold grow
    split <;> rfl
  | branch b l r => rfl

/-- The new leaves are in the place of the old one. -/
theorem leaves_grow (t : FullTree α) :
    (t.grow a x y).leaves = t.leaves.flatMap fun b => if b = a then [x, y] else [b] := by
  induction t with
  | leaf b =>
    by_cases hb : b = a
    · simp [grow, hb]
    · simp [grow, hb]
  | branch b l r ihl ihr => simp [grow, ihl, ihr]

theorem mem_leaves_grow {b : α} (h : b ∈ (t.grow a x y).leaves) :
    (b ∈ t.leaves ∧ b ≠ a) ∨ b = x ∨ b = y := by
  rw [leaves_grow, List.mem_flatMap] at h
  obtain ⟨c, hc, hb⟩ := h
  by_cases hca : c = a
  · rw [if_pos hca, List.mem_cons, List.mem_singleton] at hb
    exact Or.inr hb
  · rw [if_neg hca, List.mem_singleton] at hb
    exact Or.inl ⟨hb ▸ hc, hb ▸ hca⟩

theorem mem_leaves_grow_of_ne {b : α} (h : b ∈ t.leaves) (hne : b ≠ a) : b ∈ (t.grow a x y).leaves := by
  rw [leaves_grow, List.mem_flatMap]
  exact ⟨b, h, by rw [if_neg hne]; exact List.mem_singleton_self b⟩

theorem left_mem_leaves_grow (h : a ∈ t.leaves) : x ∈ (t.grow a x y).leaves := by
  rw [leaves_grow, List.mem_flatMap]
  exact ⟨a, h, by simp⟩

theorem right_mem_leaves_grow (h : a ∈ t.leaves) : y ∈ (t.grow a x y).leaves := by
  rw [leaves_grow, List.mem_flatMap]
  exact ⟨a, h, by simp⟩

/-- A tree without the leaf stays as it is. -/
theorem grow_of_notMem (h : a ∉ t.leaves) : t.grow a x y = t := by
  induction t with
  | leaf b => exact if_neg fun hb => h (by simp [hb])
  | branch b l r ihl ihr =>
    rw [leaves_branch, List.mem_append, not_or] at h
    rw [grow, ihl h.1, ihr h.2]

/-- If the leaf occurs once, there are two new labels. -/
theorem labels_grow_perm (h : a ∈ t.leaves) (hnodup : t.leaves.Nodup) :
    (t.grow a x y).labels.Perm (x :: y :: t.labels) := by
  induction t with
  | leaf b =>
    obtain rfl : a = b := by simpa using h
    simp only [grow, if_pos, labels_branch, labels_leaf, List.singleton_append]
    exact (List.Perm.swap x a [y]).trans ((List.Perm.swap y a []).cons x)
  | branch b l r ihl ihr =>
    rw [leaves_branch, List.nodup_append'] at hnodup
    obtain ⟨hl, hr, hdisjoint⟩ := hnodup
    have hfront : ∀ l₁ l₂ : List α, (b :: x :: y :: (l₁ ++ l₂)).Perm (x :: y :: b :: (l₁ ++ l₂)) := by
      intro l₁ l₂
      exact (List.Perm.swap x b _).trans ((List.Perm.swap y b _).cons x)
    rw [grow, labels_branch, labels_branch]
    rcases List.mem_append.1 (leaves_branch b l r ▸ h) with h | h
    · rw [grow_of_notMem fun ha => hdisjoint h ha]
      exact (((ihl h hl).append_right r.labels).cons b).trans (hfront l.labels r.labels)
    · rw [grow_of_notMem fun ha => hdisjoint ha h]
      have hmiddle : (l.labels ++ (x :: y :: r.labels)).Perm (x :: y :: (l.labels ++ r.labels)) :=
        List.perm_middle.trans (List.perm_middle.cons x)
      exact ((((ihr h hr).append_left l.labels).trans hmiddle).cons b).trans (hfront l.labels r.labels)

theorem mem_labels_grow {b : α} (h : b ∈ (t.grow a x y).labels) : b ∈ t.labels ∨ b = x ∨ b = y := by
  induction t with
  | leaf c =>
    by_cases hc : c = a
    · simp only [grow, if_pos hc, labels_branch, labels_leaf, List.singleton_append, List.mem_cons, List.not_mem_nil,
        or_false] at h
      simpa using h
    · rw [grow, if_neg hc] at h
      exact Or.inl h
  | branch c l r ihl ihr =>
    simp only [grow, labels_branch, List.mem_cons, List.mem_append] at h ⊢
    rcases h with rfl | h | h
    · exact Or.inl (Or.inl rfl)
    · rcases ihl h with h | h
      · exact Or.inl (Or.inr (Or.inl h))
      · exact Or.inr h
    · rcases ihr h with h | h
      · exact Or.inl (Or.inr (Or.inr h))
      · exact Or.inr h

end Grow

namespace Linked

variable {P Q : α → α → α → Prop} {t : FullTree α}

theorem imp (h : t.Linked P) (hPQ : ∀ a ∈ t.branches, ∀ b c, P a b c → Q a b c) : t.Linked Q := by
  induction t with
  | leaf a => exact trivial
  | branch a l r ihl ihr =>
    obtain ⟨ha, hl, hr⟩ := h
    refine ⟨hPQ a List.mem_cons_self _ _ ha, ihl hl fun b hb => hPQ b ?_, ihr hr fun b hb => hPQ b ?_⟩
    · exact List.mem_cons_of_mem _ (List.mem_append_left _ hb)
    · exact List.mem_cons_of_mem _ (List.mem_append_right _ hb)

theorem of_mem_subtrees {s : FullTree α} (h : t.Linked P) (hs : s ∈ t.subtrees) : s.Linked P := by
  induction t with
  | leaf a =>
    obtain rfl : s = leaf a := by simpa using hs
    exact h
  | branch a l r ihl ihr =>
    rw [subtrees_branch, List.mem_cons, List.mem_append] at hs
    rcases hs with rfl | hs | hs
    · exact h
    · exact ihl h.2.1 hs
    · exact ihr h.2.2 hs

theorem grow [DecidableEq α] {a x y : α} (h : t.Linked P) (ha : P a x y) : (t.grow a x y).Linked P := by
  induction t with
  | leaf b =>
    by_cases hb : b = a
    · rw [FullTree.grow, if_pos hb, hb]
      exact ⟨ha, trivial, trivial⟩
    · rw [FullTree.grow, if_neg hb]
      exact h
  | branch b l r ihl ihr =>
    refine ⟨?_, ihl h.2.1, ihr h.2.2⟩
    rw [label_grow, label_grow]
    exact h.1

/-- If each branch is one less deep than its children, the tree is no higher than its deepest label. -/
theorem height_le {depth : α → ℕ} {n : ℕ} (h : t.Linked fun a l r => depth l = depth a + 1 ∧ depth r = depth a + 1)
    (hn : ∀ a ∈ t.labels, depth a ≤ n) : depth t.label + t.height ≤ n := by
  induction t with
  | leaf a => exact hn a (by simp)
  | branch a l r ihl ihr =>
    obtain ⟨⟨hdl, hdr⟩, hl, hr⟩ := h
    have hl := ihl hl fun b hb => hn b (by simp [hb])
    have hr := ihr hr fun b hb => hn b (by simp [hb])
    rw [label_branch, height]
    omega

/-- If each branch is one less deep than its children, the leaves are as deep as their labels say. -/
theorem mem_leavesAt {depth : α → ℕ} {a : α} {d : ℕ}
    (h : t.Linked fun a l r => depth l = depth a + 1 ∧ depth r = depth a + 1) (ha : (a, d) ∈ t.leavesAt (depth t.label)) :
    a ∈ t.leaves ∧ d = depth a := by
  induction t with
  | leaf b =>
    obtain ⟨rfl, rfl⟩ : a = b ∧ d = depth b := by simpa [leavesAt] using ha
    exact ⟨List.mem_singleton_self a, rfl⟩
  | branch b l r ihl ihr =>
    obtain ⟨⟨hdl, hdr⟩, hl, hr⟩ := h
    rw [label_branch, leavesAt, List.mem_append, ← hdl] at ha
    rw [leaves_branch, List.mem_append]
    rcases ha with ha | ha
    · exact (ihl hl ha).imp_left Or.inl
    · rw [hdl, ← hdr] at ha
      exact (ihr hr ha).imp_left Or.inr

end Linked

end Bouncer.Library.FullTree
