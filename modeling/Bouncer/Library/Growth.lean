import Bouncer.Library.Pointwise
import Bouncer.Library.RoseTree

/-!
# Trees that grow from a function

`grow next` makes the tree of a value from the trees of the values that come `next`, with a bound on its height.  If a
rank goes up from each value to the next ones and is bounded, then a large enough bound gives the tree (`exists_grow`).  If
in addition no value comes next twice, then no value occurs twice in the tree (`nodup_values_grow`).
-/

namespace Bouncer.Library

variable {α β : Type*}

namespace RoseTree

def map (f : α → β) : RoseTree α → RoseTree β
  | node a ts => node (f a) (go ts)
where
  go : List (RoseTree α) → List (RoseTree β)
    | [] => []
    | t :: ts => map f t :: go ts

theorem map_node (f : α → β) (a : α) (ts : List (RoseTree α)) : (node a ts).map f = node (f a) (ts.map (map f)) := by
  have hgo : ∀ us : List (RoseTree α), map.go f us = us.map (map f) := by
    intro us
    induction us with
    | nil => rfl
    | cons u us ih => rw [map.go, ih, List.map_cons]
  rw [map, hgo]

@[simp] theorem value_map (f : α → β) (t : RoseTree α) : (t.map f).value = f t.value := by
  cases t
  rfl

@[simp] theorem children_map (f : α → β) (t : RoseTree α) : (t.map f).children = t.children.map (map f) := by
  cases t with
  | node a ts => rw [map_node, children_node, children_node]

theorem nodes_map (f : α → β) (t : RoseTree α) : (t.map f).nodes = t.nodes.map (map f) := by
  induction t using rec_children with
  | h a ts ih =>
    rw [map_node, nodes_node, nodes_node, List.map_cons, map_node, List.flatMap_map, List.map_flatMap]
    congr 1
    exact List.flatMap_congr ih

theorem values_map (f : α → β) (t : RoseTree α) : (t.map f).values = t.values.map f := by
  simp [values, nodes_map, Function.comp_def]

end RoseTree

open RoseTree

/-- The tree of a value, if it is no higher than the bound. -/
def grow (next : α → List α) : ℕ → α → Option (RoseTree α)
  | 0, _ => none
  | n + 1, a => ((next a).mapM (grow next n)).map (RoseTree.node a)

/-- What comes next after some steps. -/
def Reach (next : α → List α) : α → α → Prop := Relation.ReflTransGen fun x y => y ∈ next x

variable {next : α → List α}

variable {as : List α}

theorem mapM_some_iff {γ : Type*} {f : α → Option γ} {cs : List γ} :
    as.mapM f = some cs ↔ List.Forall₂ (fun a c => f a = some c) as cs := by
  induction as generalizing cs with
  | nil =>
    rw [List.mapM_nil, List.forall₂_nil_left_iff]
    exact ⟨fun h => (Option.some.inj h).symm, fun h => h ▸ rfl⟩
  | cons a as ih =>
    rw [List.mapM_cons, List.forall₂_cons_left_iff]
    constructor
    · intro h
      obtain ⟨c, hc, hrest⟩ := Option.bind_eq_some_iff.1 h
      obtain ⟨cs', hcs', heq⟩ := Option.bind_eq_some_iff.1 hrest
      cases heq
      exact ⟨c, cs', hc, ih.1 hcs', rfl⟩
    · rintro ⟨c, cs', hc, hcs', rfl⟩
      rw [hc, ih.2 hcs']
      rfl

theorem exists_forall₂ {γ : Type*} {R : α → γ → Prop} (h : ∀ a ∈ as, ∃ c, R a c) :
    ∃ cs, List.Forall₂ R as cs := by
  induction as with
  | nil => exact ⟨[], .nil⟩
  | cons a as ih =>
    obtain ⟨c, hc⟩ := h a (by simp)
    obtain ⟨cs, hcs⟩ := ih fun b hb => h b (by simp [hb])
    exact ⟨c :: cs, .cons hc hcs⟩

variable {n : ℕ} {a : α} {t : RoseTree α}

theorem grow_succ : grow next (n + 1) a = some t ↔
    t.value = a ∧ List.Forall₂ (fun b c => grow next n b = some c) (next a) t.children := by
  rw [grow, Option.map_eq_some_iff]
  constructor
  · rintro ⟨ts, hts, rfl⟩
    exact ⟨rfl, mapM_some_iff.1 hts⟩
  · rintro ⟨rfl, hall⟩
    exact ⟨t.children, mapM_some_iff.2 hall, by cases t; rfl⟩

theorem value_of_grow (h : grow next n a = some t) : t.value = a := by
  cases n with
  | zero => exact nomatch h
  | succ n => exact (grow_succ.1 h).1

theorem map_value_of_grow {ts : List (RoseTree α)}
    (h : List.Forall₂ (fun a t => grow next n a = some t) as ts) : ts.map value = as := by
  induction h with
  | nil => rfl
  | cons hgrow _ ih => rw [List.map_cons, ih, value_of_grow hgrow]

/-- A larger bound gives the same tree. -/
theorem grow_mono {n m : ℕ} (hle : n ≤ m) (h : grow next n a = some t) :
    grow next m a = some t := by
  induction n generalizing m a t with
  | zero => exact nomatch h
  | succ n ih =>
    obtain ⟨m, rfl⟩ : ∃ m', m = m' + 1 := ⟨m - 1, by omega⟩
    obtain ⟨hvalue, hall⟩ := grow_succ.1 h
    exact grow_succ.2 ⟨hvalue, hall.imp fun b c hc => ih (by omega) hc⟩

/-- A tree of other data, which come next in the same way. -/
theorem grow_map {next' : β → List β} {f : α → β} (n : ℕ) (a : α)
    (hnext : ∀ b, Reach next a b → next' (f b) = (next b).map f) :
    grow next' n (f a) = (grow next n a).map (RoseTree.map f) := by
  induction n generalizing a with
  | zero => rfl
  | succ n ih =>
    have hchildren : ((next a).map f).mapM (grow next' n) =
        ((next a).mapM (grow next n)).map (List.map (RoseTree.map f)) := by
      have hstep : ∀ b ∈ next a, grow next' n (f b) = (grow next n b).map (RoseTree.map f) := by
        intro b hb
        exact ih b fun c hc => hnext c (.head hb hc)
      generalize next a = bs at hstep
      induction bs with
      | nil => rfl
      | cons b bs ihbs =>
        rw [List.map_cons, List.mapM_cons, List.mapM_cons, hstep b (by simp), ihbs fun c hc => hstep c (by simp [hc])]
        cases grow next n b with
        | none => rfl
        | some t => cases bs.mapM (grow next n) <;> rfl
    rw [grow, grow, hnext a .refl, hchildren]
    cases (next a).mapM (grow next n) with
    | none => rfl
    | some ts => simp [map_node]

/-- The values of a tree are those that can be reached. -/
theorem mem_values_grow {a x : α} (h : grow next n a = some t) :
    x ∈ t.values ↔ Reach next a x := by
  induction n generalizing a t with
  | zero => exact nomatch h
  | succ n ih =>
    obtain ⟨rfl, hall⟩ := grow_succ.1 h
    cases t with
    | node a ts =>
      rw [value_node, children_node] at hall
      rw [values_node, value_node, List.mem_cons, List.mem_flatMap]
      constructor
      · rintro (rfl | ⟨s, hs, hx⟩)
        · exact .refl
        · obtain ⟨b, hb, hgrow⟩ := exists_left_of_forall₂ hall hs
          exact .head hb ((ih hgrow).1 hx)
      · intro hreach
        rcases hreach.cases_head with rfl | ⟨b, hb, hreach⟩
        · exact .inl rfl
        · obtain ⟨s, hs, hgrow⟩ := exists_right_of_forall₂ hall hb
          exact .inr ⟨s, hs, (ih hgrow).2 hreach⟩

/-- Below every subtree is what comes next. -/
theorem children_of_mem_nodes {s t : RoseTree α} (h : grow next n a = some t) (hs : s ∈ t.nodes) :
    s.children.map value = next s.value := by
  induction n generalizing a t with
  | zero => exact nomatch h
  | succ n ih =>
    obtain ⟨rfl, hall⟩ := grow_succ.1 h
    rw [nodes_eq] at hs
    rcases List.mem_cons.1 hs with rfl | hs
    · refine (map_value_of_grow hall)
    · obtain ⟨c, hc, hs⟩ := List.mem_flatMap.1 hs
      obtain ⟨b, -, hgrow⟩ := exists_left_of_forall₂ hall hc
      exact ih hgrow hs

section Rank

variable {rank : α → ℕ}

theorem Reach.rank_le (hrank : ∀ a, ∀ b ∈ next a, rank a < rank b) {a x : α} (h : Reach next a x) :
    rank a ≤ rank x := by
  induction h with
  | refl => exact Nat.le_refl _
  | tail _ hx ih =>
    have hlt := hrank _ _ hx
    omega

/-- A rank that goes up to some bound at most leaves room for the tree. -/
theorem exists_grow (rank : α → ℕ) (bound : ℕ) (hrank : ∀ a, ∀ b ∈ next a, rank a < rank b ∧ rank b ≤ bound)
    (ha : rank a ≤ bound) (hn : bound < rank a + n) : ∃ t, grow next n a = some t := by
  induction n generalizing a with
  | zero => omega
  | succ n ih =>
    have hall : ∀ b ∈ next a, ∃ s, grow next n b = some s := by
      intro b hb
      have hlt := hrank a b hb
      exact ih (by omega) (by omega)
    obtain ⟨ts, hts⟩ := exists_forall₂ hall
    exact ⟨node a ts, grow_succ.2 ⟨rfl, hts⟩⟩

/-- A value is reached from one of several values on one level only. -/
theorem eq_of_reach (hrank : ∀ a, ∀ b ∈ next a, rank a < rank b)
    (hunique : ∀ b b' x, x ∈ next b → x ∈ next b' → b = b') {a a' x : α} (hlevel : ∀ b, a ∈ next b → rank b < rank a')
    (hlevel' : ∀ b, a' ∈ next b → rank b < rank a) (h : Reach next a x) (h' : Reach next a' x) : a = a' := by
  induction h with
  | refl =>
    rcases h'.cases_tail with heq | ⟨b, hb, ha⟩
    · exact heq
    · have hle := Reach.rank_le hrank hb
      have hlt := hlevel b ha
      omega
  | @tail b x hb hx ih =>
    rcases h'.cases_tail with heq | ⟨b', hb', hx'⟩
    · have hle := Reach.rank_le hrank hb
      have hlt := hlevel' b (heq ▸ hx)
      omega
    · exact ih (hunique b b' x hx hx' ▸ hb')

/-- No value occurs twice below values on one level. -/
theorem nodup_flatMap_values {ts : List (RoseTree α)}
    (h : List.Forall₂ (fun a t => grow next n a = some t) as ts) (hnodup : as.Nodup)
    (hvalues : ∀ t ∈ ts, t.values.Nodup)
    (hdisjoint : ∀ a ∈ as, ∀ a' ∈ as, ∀ x, Reach next a x → Reach next a' x → a = a') :
    (ts.flatMap values).Nodup := by
  induction h with
  | nil => exact List.nodup_nil
  | @cons a t as ts hgrow hrest ih =>
    obtain ⟨hnew, hnodup⟩ := List.nodup_cons.1 hnodup
    rw [List.flatMap_cons, List.nodup_append']
    refine ⟨hvalues t (by simp), ih hnodup (fun s hs => hvalues s (by simp [hs]))
      (fun b hb b' hb' => hdisjoint b (by simp [hb]) b' (by simp [hb'])), ?_⟩
    intro x hx hx'
    obtain ⟨s, hs, hxs⟩ := List.mem_flatMap.1 hx'
    obtain ⟨b, hb, hgrow'⟩ := exists_left_of_forall₂ hrest hs
    have heq := hdisjoint a (by simp) b (by simp [hb]) x ((mem_values_grow hgrow).1 hx) ((mem_values_grow hgrow').1 hxs)
    exact hnew (heq ▸ hb)

theorem nodup_values_grow (hrank : ∀ a, ∀ b ∈ next a, rank a < rank b)
    (hunique : ∀ b b' x, x ∈ next b → x ∈ next b' → b = b') (hnext : ∀ a, (next a).Nodup)
    (h : grow next n a = some t) : t.values.Nodup := by
  induction n generalizing a t with
  | zero => exact nomatch h
  | succ n ih =>
    obtain ⟨rfl, hall⟩ := grow_succ.1 h
    cases t with
    | node a ts =>
      rw [value_node, children_node] at hall
      have hlevel {b b' : α} (hb : b ∈ next a) (hb' : b' ∈ next a) (y : α) (hy : b ∈ next y) : rank y < rank b' := by
        rw [hunique y a b hy hb]
        exact hrank a b' hb'
      rw [values_node, List.nodup_cons]
      constructor
      · intro ha
        obtain ⟨s, hs, ha⟩ := List.mem_flatMap.1 ha
        obtain ⟨b, hb, hgrow⟩ := exists_left_of_forall₂ hall hs
        have hle := ((mem_values_grow hgrow).1 ha).rank_le hrank
        have hlt := hrank a b hb
        omega
      · refine nodup_flatMap_values hall (hnext a) ?_ ?_
        · intro s hs
          obtain ⟨b, -, hgrow⟩ := exists_left_of_forall₂ hall hs
          exact ih hgrow
        · intro b hb b' hb' x hx hx'
          exact eq_of_reach hrank hunique (hlevel hb hb') (hlevel hb' hb) hx hx'

end Rank

end Bouncer.Library
