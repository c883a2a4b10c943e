import Bouncer.Library.Worklist
import Mathlib.Data.List.Perm.Subperm
import Mathlib.Data.List.Nodup

/-!
# Trees that are given by the parents of their nodes

Each node has a key, and the key of its parent unless it is the root.  Every node is reached from the root on exactly one
path (`exists_path`, `Path.unique`).

A loop that takes a node from its container and adds the children of the node, each with a copy of what the node hands
down, takes every node exactly once, in whatever order the container gives them back (`run_descend`).
-/

namespace Bouncer.Library

universe u v w

variable {N : Type u} {K : Type v}

structure ParentTree (key : N → K) (parent : N → Option K) where
  nodes : List N
  root : N
  nodup : (nodes.map key).Nodup
  root_mem : root ∈ nodes
  parent_eq_none : ∀ n ∈ nodes, parent n = none ↔ n = root
  parent_mem : ∀ n ∈ nodes, ∀ k, parent n = some k → ∃ p ∈ nodes, key p = k
  acyclic : ∃ rank : K → ℕ, ∀ n ∈ nodes, ∀ k, parent n = some k → rank k < rank (key n)

namespace ParentTree

variable {key : N → K} {parent : N → Option K} {t : ParentTree key parent}

/-! ### Paths -/

/-- The nodes from the root to a node. -/
inductive Path (t : ParentTree key parent) : List N → N → Prop
  | root : Path t [t.root] t.root
  | child {path : List N} {p n : N} : Path t path p → n ∈ t.nodes → parent n = some (key p) →
      Path t (path ++ [n]) n

theorem eq_of_key {n n' : N} (hn : n ∈ t.nodes) (hn' : n' ∈ t.nodes) (h : key n = key n') : n = n' :=
  List.inj_on_of_nodup_map t.nodup hn hn' h

theorem parent_root (t : ParentTree key parent) : parent t.root = none := (t.parent_eq_none t.root t.root_mem).2 rfl

theorem Path.mem {path : List N} {n : N} (h : t.Path path n) : n ∈ t.nodes := by
  cases h with
  | root => exact t.root_mem
  | child _ hn _ => exact hn

theorem exists_path {n : N} (hn : n ∈ t.nodes) : ∃ path, t.Path path n := by
  obtain ⟨rank, hrank⟩ := t.acyclic
  induction hr : rank (key n) using Nat.strongRecOn generalizing n with
  | ind r ih =>
    subst hr
    cases hparent : parent n with
    | none =>
      obtain rfl := (t.parent_eq_none n hn).1 hparent
      exact ⟨[t.root], .root⟩
    | some k =>
      obtain ⟨p, hp, rfl⟩ := t.parent_mem n hn k hparent
      obtain ⟨path, hpath⟩ := ih _ (hrank n hn _ hparent) hp rfl
      exact ⟨path ++ [n], .child hpath hn hparent⟩

theorem Path.unique {path path' : List N} {n : N} (h : t.Path path n) (h' : t.Path path' n) : path = path' := by
  induction h generalizing path' with
  | root =>
    cases h' with
    | root => rfl
    | child _ _ hparent =>
      rw [t.parent_root] at hparent
      cases hparent
  | child hpath hn hparent ih =>
    cases h' with
    | root =>
      rw [t.parent_root] at hparent
      cases hparent
    | child hpath' _ hparent' =>
      rw [hparent, Option.some.injEq] at hparent'
      obtain rfl := eq_of_key hpath.mem hpath'.mem hparent'
      rw [ih hpath']

/-! ### Walks from the root -/

/-- What a walk hands down to a node: `start` to the root, and what it has at the parent to any other node. -/
def Inherits {β : Type w} (t : ParentTree key parent) (value : N → β) (start : β) (n : N) (b : β) : Prop :=
  (n = t.root ∧ b = start) ∨ ∃ p ∈ t.nodes, parent n = some (key p) ∧ b = value p

/-- The nodes that a walk has taken and those that are pending. -/
structure Frontier (t : ParentTree key parent) (visited pending : List N) : Prop where
  nodup : (visited ++ pending).Nodup
  subset : ∀ n ∈ visited ++ pending, n ∈ t.nodes
  root : t.root ∈ visited ++ pending
  parents : ∀ n ∈ visited ++ pending, n ≠ t.root → ∃ p ∈ visited, parent n = some (key p)
  children : ∀ p ∈ visited, ∀ n ∈ t.nodes, parent n = some (key p) → n ∈ visited ++ pending

def children [DecidableEq K] (t : ParentTree key parent) (k : K) : List N :=
  t.nodes.filter fun n => decide (parent n = some k)

theorem mem_children [DecidableEq K] {k : K} {n : N} : n ∈ t.children k ↔ n ∈ t.nodes ∧ parent n = some k := by
  rw [children, List.mem_filter, decide_eq_true_iff]

namespace Frontier

variable {visited pending : List N}

theorem start : t.Frontier [] [t.root] where
  nodup := List.nodup_singleton t.root
  subset _ hn := List.mem_singleton.1 hn ▸ t.root_mem
  root := List.mem_singleton_self t.root
  parents _ hn hne := absurd (List.mem_singleton.1 hn) hne
  children _ hp := absurd hp List.not_mem_nil

theorem length_lt {n : N} (h : t.Frontier visited (n :: pending)) : visited.length < t.nodes.length := by
  have hle := (h.nodup.subperm h.subset).length_le
  rw [List.length_append, List.length_cons] at hle
  omega

/-- Once nothing is pending, every node is taken. -/
theorem perm (h : t.Frontier visited []) : visited.Perm t.nodes := by
  have hnodup := h.nodup
  have hsubset := h.subset
  have hroot := h.root
  have hchildren := h.children
  simp only [List.append_nil] at hnodup hsubset hroot hchildren
  refine (List.perm_ext_iff_of_nodup hnodup (List.Nodup.of_map key t.nodup)).2 fun n => ⟨hsubset n, fun hn => ?_⟩
  obtain ⟨path, hpath⟩ := exists_path hn
  induction hpath with
  | root => exact hroot
  | child hpath hn hparent ih => exact hchildren _ (ih hpath.mem) _ hn hparent

/-- A pending node is taken and its children are added. -/
theorem step [DecidableEq K] {n : N} (h : t.Frontier visited (n :: pending)) {pending' : List N}
    (hpending : pending'.Perm (t.children (key n) ++ pending)) : t.Frontier (n :: visited) pending' := by
  have hperm : (visited ++ n :: pending).Perm (n :: visited ++ pending) := List.perm_middle
  have hperm' : (n :: visited ++ pending').Perm (t.children (key n) ++ (n :: visited ++ pending)) := by
    refine (hpending.append_left _).trans ?_
    rw [← List.append_assoc, ← List.append_assoc]
    exact List.perm_append_comm.append_right pending
  have hn : n ∈ t.nodes := h.subset n (by simp)
  have hnot : n ∉ visited := fun hmem => List.nodup_append.1 h.nodup |>.2.2 n hmem n List.mem_cons_self rfl
  have hmem : ∀ c, c ∈ n :: visited ++ pending' ↔ c ∈ t.children (key n) ∨ c ∈ visited ++ n :: pending := by
    intro c
    rw [hperm'.mem_iff, List.mem_append, hperm.mem_iff]
  -- a child that is taken or pending already would have its parent among the nodes taken before
  have hnew : ∀ c ∈ t.children (key n), c ∉ visited ++ n :: pending := by
    intro c hc hold
    obtain ⟨-, hparent⟩ := mem_children.1 hc
    have hne : c ≠ t.root := by
      rintro rfl
      rw [t.parent_root] at hparent
      cases hparent
    obtain ⟨p, hp, hparent'⟩ := h.parents c hold hne
    rw [hparent, Option.some.injEq] at hparent'
    obtain rfl := eq_of_key hn (h.subset p (List.mem_append_left _ hp)) hparent'
    exact hnot hp
  refine ⟨?_, ?_, ?_, ?_, ?_⟩
  · rw [hperm'.nodup_iff, List.nodup_append]
    refine ⟨(List.Nodup.of_map key t.nodup).filter _, hperm.nodup_iff.1 h.nodup, ?_⟩
    rintro c hc c' hc' rfl
    exact hnew c hc (hperm.mem_iff.2 hc')
  · intro c hc
    rcases (hmem c).1 hc with hc | hc
    · exact (mem_children.1 hc).1
    · exact h.subset c hc
  · exact (hmem t.root).2 (.inr h.root)
  · intro c hc hne
    rcases (hmem c).1 hc with hc | hc
    · exact ⟨n, List.mem_cons_self, (mem_children.1 hc).2⟩
    · obtain ⟨p, hp, hparent⟩ := h.parents c hc hne
      exact ⟨p, List.mem_cons_of_mem n hp, hparent⟩
  · intro p hp c hc hparent
    refine (hmem c).2 ?_
    rcases List.mem_cons.1 hp with rfl | hp
    · exact .inl (mem_children.2 ⟨hc, hparent⟩)
    · exact .inr (h.children p hp c hc hparent)

end Frontier

/-- A walk takes every node exactly once, with what the node inherits, and takes as many turns as there are nodes. -/
theorem run_descend [DecidableEq K] {β : Type*} {σ : Type*} {put : List (N × β) → List (N × β) → List (N × β)}
    {step : N × β → σ → Outcome (N × β) σ} (hput : ∀ items rest, (put items rest).Perm (items ++ rest))
    (value : N → β) (start : β) (I : List N → σ → Prop)
    (hstep : ∀ n ∈ t.nodes, ∀ visited, n ∉ visited → ∀ s, I visited s → ∀ b, t.Inherits value start n b →
      ∃ s', step (n, b) s = .push ((t.children (key n)).map fun c => (c, value n)) s' ∧ I (n :: visited) s')
    {s : σ} (hs : I [] s) {turns : ℕ} (hturns : t.nodes.length ≤ turns) :
    ∃ visited s', run put step turns [(t.root, start)] s = some (s', false) ∧ visited.Perm t.nodes ∧ I visited s' := by
  let J := fun (visited : List N) (stack : List (N × β)) (s : σ) => t.Frontier visited (stack.map Prod.fst) ∧
    (∀ q ∈ stack, t.Inherits value start q.1 q.2) ∧ I visited s
  let Q := fun (s' : σ) (stopped : Bool) => stopped = false ∧ ∃ visited, visited.Perm t.nodes ∧ I visited s'
  have hpos : ∀ visited x rest s, J visited (x :: rest) s → 0 < t.nodes.length - visited.length := by
    rintro visited x rest s ⟨hfrontier, -, -⟩
    have := hfrontier.length_lt
    omega
  have hdone : ∀ visited s, J visited [] s → Q s false :=
    fun visited s h => ⟨rfl, visited, h.1.perm, h.2.2⟩
  have hiter : ∀ visited x rest s, J visited (x :: rest) s → ∃ items s', step x s = .push items s' ∧
      J (x.1 :: visited) (put items rest) s' := by
    rintro visited ⟨n, b⟩ rest s ⟨hfrontier, hinherits, hI⟩
    have hn : n ∈ t.nodes := hfrontier.subset n (by simp)
    have hnot : n ∉ visited :=
      fun hmem => List.nodup_append.1 hfrontier.nodup |>.2.2 n hmem n List.mem_cons_self rfl
    obtain ⟨s', hs', hI'⟩ := hstep n hn visited hnot s hI b (hinherits _ List.mem_cons_self)
    refine ⟨_, s', hs', hfrontier.step ?_, ?_, hI'⟩
    · have hperm := (hput ((t.children (key n)).map fun c => (c, value n)) rest).map Prod.fst
      simpa [Function.comp_def] using hperm
    · intro q hq
      rcases List.mem_append.1 ((hput _ rest).mem_iff.1 hq) with hq | hq
      · obtain ⟨c, hc, rfl⟩ := List.mem_map.1 hq
        exact .inr ⟨n, hn, (mem_children.1 hc).2, rfl⟩
      · exact hinherits q (List.mem_cons_of_mem _ hq)
  have hstop : ∀ visited x rest s s', J visited (x :: rest) s → step x s = .stop s' → Q s' true := by
    intro visited x rest s s' hJ hs
    obtain ⟨items, s'', hs', -⟩ := hiter visited x rest s hJ
    rw [hs] at hs'
    cases hs'
  have hpush : ∀ visited x rest s items s', J visited (x :: rest) s → step x s = .push items s' →
      ∃ visited', J visited' (put items rest) s' ∧ t.nodes.length - visited'.length < t.nodes.length - visited.length := by
    intro visited x rest s items s' hJ hs
    obtain ⟨items', s'', hs', hJ'⟩ := hiter visited x rest s hJ
    rw [hs] at hs'
    cases hs'
    have := hpos visited x rest s hJ
    refine ⟨x.1 :: visited, hJ', ?_⟩
    rw [List.length_cons]
    omega
  have hstart : J [] [(t.root, start)] s := by
    refine ⟨Frontier.start, fun q hq => ?_, hs⟩
    obtain rfl := List.mem_singleton.1 hq
    exact .inl ⟨rfl, rfl⟩
  obtain ⟨s', stopped, hrun, rfl, visited, hperm, hI⟩ :=
    run_of_invariant J (fun visited => t.nodes.length - visited.length) Q hpos hdone hstop hpush hstart
      (Nat.sub_le_of_le_add (by simpa using hturns))
  exact ⟨visited, s', hrun, hperm, hI⟩

end ParentTree

end Bouncer.Library
