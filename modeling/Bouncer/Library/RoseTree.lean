import Mathlib.Data.List.Nodup
import Mathlib.Data.List.Perm.Basic

/-!
# Finitely branching trees

A tree has a value at its root and a list of subtrees below it.  `nodes` lists the tree and all the subtrees below it,
and `Path` says with which values on the way a subtree is reached from the root.  Every subtree is reached
(`exists_path`), and nothing else (`Path.mem_nodes`).
-/

namespace Bouncer.Library

inductive RoseTree (α : Type*) where
  | node (value : α) (children : List (RoseTree α))

namespace RoseTree

variable {α β : Type*}

def value : RoseTree α → α
  | node a _ => a

def children : RoseTree α → List (RoseTree α)
  | node _ ts => ts

/-- The tree and every subtree below it, a subtree before those below it. -/
def nodes : RoseTree α → List (RoseTree α)
  | node a ts => node a ts :: go ts
where
  go : List (RoseTree α) → List (RoseTree α)
    | [] => []
    | t :: ts => nodes t ++ go ts

def values (t : RoseTree α) : List α := t.nodes.map value

/-- The subtrees below the tree itself. -/
def descendants (t : RoseTree α) : List (RoseTree α) := t.children.flatMap nodes

def size (t : RoseTree α) : ℕ := t.nodes.length

@[simp] theorem value_node (a : α) (ts : List (RoseTree α)) : (node a ts).value = a := rfl

@[simp] theorem children_node (a : α) (ts : List (RoseTree α)) : (node a ts).children = ts := rfl

private theorem go_eq_flatMap (ts : List (RoseTree α)) : nodes.go ts = ts.flatMap nodes := by
  induction ts with
  | nil => rfl
  | cons t ts ih => rw [nodes.go, ih, List.flatMap_cons]

theorem nodes_node (a : α) (ts : List (RoseTree α)) : (node a ts).nodes = node a ts :: ts.flatMap nodes := by
  rw [nodes, go_eq_flatMap]

theorem nodes_eq (t : RoseTree α) : t.nodes = t :: t.descendants := by
  cases t with
  | node a ts => exact nodes_node a ts

theorem values_node (a : α) (ts : List (RoseTree α)) : (node a ts).values = a :: ts.flatMap values := by
  rw [values, nodes_node, List.map_cons, List.map_flatMap]
  rfl

theorem self_mem_nodes (t : RoseTree α) : t ∈ t.nodes := by
  rw [nodes_eq]
  exact List.mem_cons_self

theorem size_lt_of_mem_children {t c : RoseTree α} (h : c ∈ t.children) : c.size < t.size := by
  cases t with
  | node a ts =>
    have hle : c.nodes.length ≤ (ts.flatMap nodes).length :=
      (List.sublist_flatten_of_mem (List.mem_map_of_mem h)).length_le
    rw [size, size, nodes_node, List.length_cons]
    omega

/-- What holds of a tree if it holds of the subtrees just below it holds of every tree. -/
theorem rec_children {P : RoseTree α → Prop} (h : ∀ a ts, (∀ t ∈ ts, P t) → P (node a ts)) : ∀ t, P t
  | node a ts => h a ts fun t _ => rec_children h t

/-! ### Paths -/

/-- `Path t p s`: the subtree `s` of `t` is reached from the root, and `p` are the values from the root to `s`. -/
inductive Path (t : RoseTree α) : List α → RoseTree α → Prop
  | root : Path t [t.value] t
  | child {p : List α} {s c : RoseTree α} : Path t p s → c ∈ s.children → Path t (p ++ [c.value]) c

/-- A path goes to the root or first to one of the subtrees just below it. -/
theorem path_iff {t s : RoseTree α} {p : List α} :
    Path t p s ↔ (p = [t.value] ∧ s = t) ∨ ∃ c ∈ t.children, ∃ q, p = t.value :: q ∧ Path c q s := by
  constructor
  · intro h
    induction h with
    | root => exact .inl ⟨rfl, rfl⟩
    | child _ hc ih =>
      right
      obtain ⟨rfl, rfl⟩ | ⟨d, hd, q, rfl, hq⟩ := ih
      · exact ⟨_, hc, _, rfl, .root⟩
      · exact ⟨d, hd, _, rfl, .child hq hc⟩
  · rintro (⟨rfl, rfl⟩ | ⟨c, hc, q, rfl, hq⟩)
    · exact .root
    · induction hq with
      | root => exact .child .root hc
      | child _ hd ih => exact .child ih hd

theorem Path.mem_nodes {t s : RoseTree α} {p : List α} (h : Path t p s) : s ∈ t.nodes := by
  induction t using rec_children generalizing p with
  | h a ts ih =>
    obtain ⟨-, rfl⟩ | ⟨c, hc, q, -, hq⟩ := path_iff.1 h
    · exact self_mem_nodes _
    · rw [nodes_node]
      exact List.mem_cons_of_mem _ (List.mem_flatMap.2 ⟨c, hc, ih c hc hq⟩)

theorem exists_path {t s : RoseTree α} (h : s ∈ t.nodes) : ∃ p, Path t p s := by
  induction t using rec_children with
  | h a ts ih =>
    rw [nodes_node] at h
    obtain rfl | h := List.mem_cons.1 h
    · exact ⟨_, .root⟩
    · obtain ⟨c, hc, hs⟩ := List.mem_flatMap.1 h
      obtain ⟨q, hq⟩ := ih c hc hs
      exact ⟨_, path_iff.2 (.inr ⟨c, hc, q, rfl, hq⟩)⟩

end RoseTree

end Bouncer.Library
