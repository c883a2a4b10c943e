import Bouncer.Library.Growth
import Mathlib.Data.List.Perm.Subperm

/-!
# Lines of descent

Where each element has at most one parent, there is at most one line from a root, which has no parent, down to an element
(`Lineage.unique`), and no element occurs twice on it (`Lineage.nodup`).  So the tree that grows from the root is finite if
there are finitely many elements (`exists_grow_of_lineage`), no element occurs twice in it (`nodup_values_of_lineage`), and
its paths are the lines of descent (`exists_path_of_lineage`).  Nothing is assumed of elements without such a line.
-/

namespace Bouncer.Library

open RoseTree

variable {α β : Type*}

/-- The elements from the root down to some element. -/
inductive Lineage (parent : α → Option α) (root : α) : List α → α → Prop
  | root : Lineage parent root [root] root
  | child {path : List α} {a c : α} : Lineage parent root path a → parent c = some a →
      Lineage parent root (path ++ [c]) c

variable {parent : α → Option α} {root a x : α} {path path' : List α}

namespace Lineage

theorem unique (hroot : parent root = none) (h : Lineage parent root path a) (h' : Lineage parent root path' a) :
    path = path' := by
  induction h generalizing path' with
  | root =>
    cases h' with
    | root => rfl
    | child _ hparent =>
      rw [hroot] at hparent
      cases hparent
  | child _ hparent ih =>
    cases h' with
    | root =>
      rw [hroot] at hparent
      cases hparent
    | child h' hparent' =>
      obtain rfl := Option.some.inj (hparent.symm.trans hparent')
      rw [ih h']

theorem mem (h : Lineage parent root path a) : a ∈ path := by
  cases h with
  | root => exact List.mem_singleton_self _
  | child => simp

/-- Every element on a line ends a line of its own. -/
theorem exists_prefix (h : Lineage parent root path a) (hx : x ∈ path) :
    ∃ path', path' <+: path ∧ Lineage parent root path' x := by
  induction h with
  | root =>
    obtain rfl := List.mem_singleton.1 hx
    exact ⟨_, List.prefix_rfl, .root⟩
  | @child path a c h hparent ih =>
    rcases List.mem_append.1 hx with hx | hx
    · obtain ⟨path', hprefix, h'⟩ := ih hx
      exact ⟨path', hprefix.trans (List.prefix_append path [c]), h'⟩
    · obtain rfl := List.mem_singleton.1 hx
      exact ⟨_, List.prefix_rfl, h.child hparent⟩

theorem nodup (hroot : parent root = none) (h : Lineage parent root path a) : path.Nodup := by
  induction h with
  | root => exact List.nodup_singleton _
  | @child path a c h hparent ih =>
    have hnew : c ∉ path := by
      intro hc
      obtain ⟨path', hprefix, h'⟩ := h.exists_prefix hc
      have hle := hprefix.length_le
      rw [unique hroot h' (h.child hparent), List.length_append, List.length_singleton] at hle
      omega
    rw [List.nodup_append]
    refine ⟨ih, List.nodup_singleton c, ?_⟩
    rintro x hx y hy rfl
    exact hnew (List.mem_singleton.1 hy ▸ hx)

theorem subset {elements : List α} (hmem : root ∈ elements) (hchild : ∀ c a, parent c = some a → c ∈ elements)
    (h : Lineage parent root path a) : path ⊆ elements := by
  induction h with
  | root => simpa using hmem
  | child _ hparent ih => exact List.append_subset.2 ⟨ih, by simpa using hchild _ _ hparent⟩

theorem length_le {elements : List α} (hmem : root ∈ elements) (hchild : ∀ c a, parent c = some a → c ∈ elements)
    (hroot : parent root = none) (h : Lineage parent root path a) : path.length ≤ elements.length :=
  ((h.nodup hroot).subperm (h.subset hmem hchild)).length_le

end Lineage

/-! ### The tree of the children -/

section Tree

variable {next : α → List α} (hnext : ∀ a c, c ∈ next a ↔ parent c = some a)

include hnext in
theorem Lineage.extend (h : Lineage parent root path a) (hreach : Reach next a x) :
    ∃ rest, Lineage parent root (path ++ rest) x := by
  induction hreach with
  | refl => exact ⟨[], by rwa [List.append_nil]⟩
  | @tail b c _ hc ih =>
    obtain ⟨rest, hrest⟩ := ih
    refine ⟨rest ++ [c], ?_⟩
    rw [← List.append_assoc]
    exact hrest.child ((hnext b c).1 hc)

include hnext in
theorem exists_grow_of_lineage {elements : List α} (hmem : root ∈ elements)
    (hchild : ∀ c a, parent c = some a → c ∈ elements) (hroot : parent root = none) {n : ℕ}
    (h : Lineage parent root path a) (hn : elements.length < n + path.length) : ∃ t, grow next n a = some t := by
  induction n generalizing path a with
  | zero =>
    have hle := h.length_le hmem hchild hroot
    omega
  | succ n ih =>
    have hall : ∀ c ∈ next a, ∃ t, grow next n c = some t := by
      intro c hc
      refine ih (h.child ((hnext a c).1 hc)) ?_
      rw [List.length_append, List.length_singleton]
      omega
    obtain ⟨ts, hts⟩ := exists_forall₂ hall
    exact ⟨node a ts, grow_succ.2 ⟨rfl, hts⟩⟩

include hnext in
theorem nodup_values_of_lineage (hroot : parent root = none) (hnodup : ∀ a, (next a).Nodup) {n : ℕ} {t : RoseTree α}
    (h : Lineage parent root path a) (hgrow : grow next n a = some t) : t.values.Nodup := by
  induction n generalizing path a t with
  | zero => exact nomatch hgrow
  | succ n ih =>
    obtain ⟨rfl, hall⟩ := grow_succ.1 hgrow
    cases t with
    | node a ts =>
      rw [value_node] at h
      rw [value_node, children_node] at hall
      -- below different children there are different elements, since each has one line only
      have hline : ∀ c ∈ next a, ∀ x, Reach next c x → ∃ rest, Lineage parent root (path ++ c :: rest) x := by
        intro c hc x hreach
        obtain ⟨rest, hrest⟩ := (h.child ((hnext a c).1 hc)).extend hnext hreach
        exact ⟨rest, by rwa [List.append_assoc] at hrest⟩
      rw [values_node, List.nodup_cons]
      constructor
      · intro ha
        obtain ⟨s, hs, ha⟩ := List.mem_flatMap.1 ha
        obtain ⟨c, hc, hgrow⟩ := exists_left_of_forall₂ hall hs
        obtain ⟨rest, hrest⟩ := hline c hc a ((mem_values_grow hgrow).1 ha)
        have heq := congrArg List.length (h.unique hroot hrest)
        rw [List.length_append, List.length_cons] at heq
        omega
      · refine nodup_flatMap_values hall (hnodup a) ?_ ?_
        · intro s hs
          obtain ⟨c, hc, hgrow⟩ := exists_left_of_forall₂ hall hs
          exact ih (h.child ((hnext a c).1 hc)) hgrow
        · intro c hc c' hc' x hx hx'
          obtain ⟨rest, hrest⟩ := hline c hc x hx
          obtain ⟨rest', hrest'⟩ := hline c' hc' x hx'
          exact (List.cons.inj (List.append_cancel_left (hrest.unique hroot hrest'))).1

include hnext in
theorem exists_path_of_lineage {n : ℕ} {t : RoseTree α} (hgrow : grow next n root = some t)
    (h : Lineage parent root path a) : ∃ s, Path t path s ∧ s.value = a := by
  induction h with
  | root =>
    obtain rfl := value_of_grow hgrow
    exact ⟨t, .root, rfl⟩
  | @child path a c _ hparent ih =>
    obtain ⟨s, hs, rfl⟩ := ih
    have hmem : c ∈ s.children.map value := by
      rw [children_of_mem_nodes hgrow hs.mem_nodes]
      exact (hnext _ c).2 hparent
    obtain ⟨s', hs', rfl⟩ := List.mem_map.1 hmem
    exact ⟨s', hs.child hs', rfl⟩

end Tree

/-- A path of a tree is one of the tree with other values. -/
theorem RoseTree.Path.map (f : α → β) {t s : RoseTree α} (h : Path t path s) : Path (t.map f) (path.map f) (s.map f) := by
  induction h with
  | root =>
    have hroot : Path (t.map f) [(t.map f).value] (t.map f) := .root
    rwa [value_map] at hroot
  | @child path s c _ hc ih =>
    have hmem : c.map f ∈ (s.map f).children := by
      rw [children_map]
      exact List.mem_map_of_mem hc
    have hchild := ih.child hmem
    rwa [value_map, ← List.map_singleton, ← List.map_append] at hchild

end Bouncer.Library
