import Bouncer.Library.Growth
import Bouncer.Library.Worklist
import Bouncer.Scene.SelectionTree
import Mathlib.Data.List.Range

/-!
# The order of the narrowphase tests

`ClashScheduler` takes the pairs of the broadphase as the edges of a graph and walks over it, from the nodes with the fewest
edges.  A node that is taken from the queue writes all of its edges to the results and removes them from the graph, and the
nodes at their other ends are put into the queue.

An edge is removed with all its duplicates, but what a node writes was listed before.  So the results are the pairs, each as
often as before (`schedule_perm`).  `Tracks` says how the graph follows the list of the edges that are left.
-/

namespace Bouncer.Clash.ClashScheduler

open Library (Outcome fifo run mapM_some_iff)
open SelectionTree (Sorter)

/-- Two pointers to nodes, which are positions in `nodes`. -/
abbrev Edge := ℕ × ℕ

def Incident (node : ℕ) (edge : Edge) : Prop := node = edge.1 ∨ node = edge.2

instance (node : ℕ) : DecidablePred (Incident node) := fun _ => inferInstanceAs (Decidable (_ ∨ _))

variable {Id : Type}

/-- `ClashSchedulerImpl`, with the ids of the nodes and their edges apart. -/
structure Impl (Id : Type) where
  nodes : List Id
  edges : ℕ → List Edge
  allNodes : List ℕ
  results : List (Id × Id)

/-! ### The graph -/

section Graph

variable [DecidableEq Id]

def addNode (id : Id) (s : List Id × (Id → Option ℕ)) : List Id × (Id → Option ℕ) :=
  match s.2 id with
  | none => (s.1 ++ [id], Function.update s.2 id (some s.1.length))
  | some _ => s

def addNodes (edges : List (Id × Id)) : List Id × (Id → Option ℕ) :=
  edges.foldl (fun s e => addNode e.2 (addNode e.1 s)) ([], fun _ => none)

/-- The operator of the map, which inserts zero for a key that is not there. -/
def toEdge (map : Id → Option ℕ) (e : Id × Id) : Edge := ((map e.1).getD 0, (map e.2).getD 0)

def addEdge (edges : ℕ → List Edge) (edge : Edge) : ℕ → List Edge :=
  let edges' := Function.update edges edge.1 (edges edge.1 ++ [edge])
  if edge.1 = edge.2 then edges' else Function.update edges' edge.2 (edges' edge.2 ++ [edge])

def createGraph (edges : List (Id × Id)) : Impl Id :=
  let s := addNodes edges
  ⟨s.1, (edges.map (toEdge s.2)).foldl addEdge fun _ => [], List.range s.1.length, []⟩

end Graph

/-! ### The walk -/

section Walk

structure Other where
  node : ℕ
  direction : Bool

def other (node : ℕ) (edge : Edge) : Other :=
  let direction := decide (node = edge.1)
  ⟨if direction then edge.2 else edge.1, direction⟩

def Other.edge (node : ℕ) (other : Other) : Edge := if other.direction then (node, other.node) else (other.node, node)

/-- `Node::remove`, and that of the node if it has no edges any more. -/
def removeAt (s : Impl Id) (edge : Edge) (node : ℕ) : Impl Id :=
  let edges := (s.edges node).filter fun e => e ≠ edge
  { s with
    edges := Function.update s.edges node edges
    allNodes := if edges.length = 0 then s.allNodes.filter fun n => n ≠ node else s.allNodes }

def remove (s : Impl Id) (edge : Edge) : Impl Id := removeAt (removeAt s edge edge.1) edge edge.2

variable [Inhabited Id]

def Impl.id (s : Impl Id) (node : ℕ) : Id := s.nodes.getD node default

/-- One turn of the loop over `others`, but for the queue. -/
def take (node : ℕ) (s : Impl Id) (other : Other) : Impl Id :=
  let edge := other.edge node
  remove { s with results := s.results ++ [(s.id edge.1, s.id edge.2)] } edge

variable (sort : Sorter)

/-- What is done with a node from the queue, and the nodes that are put there. -/
def visit (node : ℕ) (s : Impl Id) : Outcome ℕ (Impl Id) :=
  if (s.edges node).length = 0 then .push [] s
  else
    let others := sort.sort (fun a b => decide ((s.edges a.node).length < (s.edges b.node).length))
      ((s.edges node).map (other node))
    .push (others.map Other.node) (others.foldl (take node) s)

/-- The loop over `allNodes`.  The queue is empty whenever a turn starts. -/
def walk (n : ℕ) : ℕ → Impl Id → Option (Impl Id)
  | 0, _ => none
  | turns + 1, s =>
    match s.allNodes with
    | [] => some s
    | front :: _ =>
      match run fifo (visit sort) n [front] s with
      | none => none
      | some (s', _) => walk n turns s'

def sortByEdges (s : Impl Id) : Impl Id :=
  { s with
    allNodes := sort.sort (fun a b => decide ((s.edges a).length < (s.edges b).length)) s.allNodes }

variable [DecidableEq Id]

/-- `_schedule`, with at most `n` turns of each of the loops. -/
def _schedule (n : ℕ) (broadphaseResults : List (Id × Id)) : Option (List (Id × Id)) :=
  (walk sort n n (sortByEdges sort (createGraph broadphaseResults))).map Impl.results

/-- As many results are read as there were pairs. -/
def schedule (n : ℕ) (broadphaseResults : List (Id × Id)) : Option (List (Id × Id)) :=
  (_schedule sort n broadphaseResults).bind fun r => (List.range broadphaseResults.length).mapM fun i => r[i]?

end Walk

/-! ### The edges that are left -/

/-- The nodes have those of the edges that are left to which they belong, and the live nodes are those that have some. -/
structure Tracks (s : Impl Id) (rest : List Edge) : Prop where
  edges : ∀ node, s.edges node = rest.filter fun e => Incident node e
  live : ∀ node, node ∈ s.allNodes ↔ s.edges node ≠ []

variable {s : Impl Id} {rest : List Edge}

private theorem edges_removeAt (s : Impl Id) (edge : Edge) (node n : ℕ) :
    (removeAt s edge node).edges n = if n = node then (s.edges n).filter fun e => e ≠ edge else s.edges n := by
  split
  · rename_i heq
    subst heq
    exact Function.update_self ..
  · rename_i hne
    exact Function.update_of_ne hne ..

private theorem live_removeAt (hlive : ∀ n, n ∈ s.allNodes ↔ s.edges n ≠ []) (edge : Edge) (node n : ℕ) :
    n ∈ (removeAt s edge node).allNodes ↔ (removeAt s edge node).edges n ≠ [] := by
  rw [edges_removeAt]
  by_cases hempty : ((s.edges node).filter fun e => e ≠ edge).length = 0
  · have hall : (removeAt s edge node).allNodes = s.allNodes.filter fun n => n ≠ node := if_pos hempty
    rw [hall, List.mem_filter, decide_eq_true_eq, hlive]
    by_cases heq : n = node
    · subst heq
      rw [if_pos rfl, List.eq_nil_of_length_eq_zero hempty]
      exact ⟨fun h => absurd rfl h.2, fun h => absurd rfl h⟩
    · rw [if_neg heq]
      exact ⟨And.left, fun h => ⟨h, heq⟩⟩
  · have hall : (removeAt s edge node).allNodes = s.allNodes := if_neg hempty
    rw [hall, hlive]
    by_cases heq : n = node
    · subst heq
      rw [if_pos rfl]
      have hfilter : ((s.edges n).filter fun e => e ≠ edge) ≠ [] := fun hnil => hempty (by rw [hnil]; rfl)
      refine ⟨fun _ => hfilter, fun _ hnil => hfilter ?_⟩
      rw [hnil]
      rfl
    · rw [if_neg heq]

private theorem Tracks.remove (h : Tracks s rest) (edge : Edge) : Tracks (remove s edge) (rest.filter fun e => e ≠ edge) where
  edges n := by
    have hcomm := List.filter_comm (fun e => decide (Incident n e)) (fun e => decide (e ≠ edge)) rest
    rw [ClashScheduler.remove, edges_removeAt, edges_removeAt, h.edges, hcomm]
    by_cases hincident : Incident n edge
    · rcases hincident with rfl | rfl
      · simp
      · rw [if_pos rfl]
        split
        · simp
        · rfl
    · have hall : (rest.filter fun e => Incident n e).filter (fun e => e ≠ edge) = rest.filter fun e => Incident n e := by
        apply List.filter_eq_self.mpr
        intro e he
        have hmem := (List.mem_filter.mp he).2
        rw [decide_eq_true_eq] at hmem ⊢
        rintro rfl
        exact hincident hmem
      obtain ⟨hfirst, hsecond⟩ := not_or.mp hincident
      rw [if_neg hsecond, if_neg hfirst, hall]
  live := live_removeAt (live_removeAt h.live edge edge.1) edge edge.2

/-! ### One node -/

private theorem edge_other {node : ℕ} {edge : Edge} (h : Incident node edge) : (other node edge).edge node = edge := by
  unfold other Other.edge
  by_cases hfirst : node = edge.1
  · simp [hfirst]
  · simp only [hfirst, decide_false, Bool.false_eq_true, if_false]
    exact Prod.ext rfl (h.resolve_left hfirst)

variable [Inhabited Id]

def Impl.ids (s : Impl Id) (edge : Edge) : Id × Id := (s.id edge.1, s.id edge.2)

private theorem foldl_take (node : ℕ) (others : List Other) (htracks : Tracks s rest) :
    Tracks (others.foldl (take node) s) (rest.filter fun e => e ∉ others.map (Other.edge node)) ∧
    (others.foldl (take node) s).nodes = s.nodes ∧
    (others.foldl (take node) s).results = s.results ++ (others.map (Other.edge node)).map s.ids := by
  induction others generalizing s rest with
  | nil =>
    refine ⟨?_, rfl, (List.append_nil _).symm⟩
    simpa using htracks
  | cons o others ih =>
    have hwritten : Tracks { s with results := s.results ++ [s.ids (o.edge node)] } rest := ⟨htracks.edges, htracks.live⟩
    obtain ⟨htracks', hnodes, hresults⟩ := ih (hwritten.remove (o.edge node))
    refine ⟨?_, hnodes, ?_⟩
    · have hfilter : (rest.filter fun e => e ∉ (o :: others).map (Other.edge node)) =
          (rest.filter fun e => e ≠ o.edge node).filter fun e => e ∉ others.map (Other.edge node) := by
        rw [List.filter_filter]
        apply List.filter_congr
        intro e _
        simp [Bool.and_comm]
      rw [hfilter]
      exact htracks'
    · rw [List.foldl_cons]
      refine hresults.trans ?_
      exact List.append_assoc _ _ _

/-- The pairs are those that have been written and those of the edges that are left. -/
structure Holds (pairs : List (Id × Id)) (s : Impl Id) (rest : List Edge) : Prop extends Tracks s rest where
  results : (s.results ++ rest.map s.ids).Perm pairs

variable {sort : Sorter} {pairs : List (Id × Id)}

variable (sort) in
/-- A visit writes and removes the edges of the node. -/
theorem Holds.visit (h : Holds pairs s rest) (node : ℕ) :
    ∃ items s' rest', ClashScheduler.visit sort node s = .push items s' ∧ Holds pairs s' rest' ∧
      rest'.length + items.length = rest.length ∧ (s.edges node ≠ [] → items ≠ []) := by
  by_cases hempty : (s.edges node).length = 0
  · refine ⟨[], s, rest, if_pos hempty, h, rfl, ?_⟩
    intro hne
    exact absurd (List.eq_nil_of_length_eq_zero hempty) hne
  · have hperm := sort.perm (fun a b : Other => decide ((s.edges a.node).length < (s.edges b.node).length))
      ((s.edges node).map (other node))
    set others := sort.sort (fun a b : Other => decide ((s.edges a.node).length < (s.edges b.node).length))
      ((s.edges node).map (other node))
    obtain ⟨htracks, hnodes, hresults⟩ := foldl_take node others h.toTracks
    have hedges : (others.map (Other.edge node)).Perm (rest.filter fun e => Incident node e) := by
      have hmap : ((s.edges node).map (other node)).map (Other.edge node) = s.edges node := by
        rw [List.map_map, h.edges]
        refine (List.map_congr_left fun e he => ?_).trans (List.map_id _)
        exact edge_other (by simpa using (List.mem_filter.mp he).2)
      rw [← h.edges, ← hmap]
      exact hperm.map _
    have hrest : (rest.filter fun e => e ∉ others.map (Other.edge node)) = rest.filter fun e => ¬ Incident node e := by
      apply List.filter_congr
      intro e he
      rw [decide_eq_decide, hedges.mem_iff, List.mem_filter, decide_eq_true_eq]
      simp [he]
    rw [hrest] at htracks
    have hsplit := List.filter_append_perm (fun e => decide (Incident node e)) rest
    refine ⟨others.map Other.node, others.foldl (take node) s, _, if_neg hempty, ⟨htracks, ?_⟩, ?_, ?_⟩
    · have hids : (others.foldl (take node) s).ids = s.ids := by
        funext e
        rw [Impl.ids, Impl.ids, Impl.id, Impl.id, hnodes]
        rfl
      rw [hids, hresults, List.append_assoc, ← List.map_append]
      refine List.Perm.trans (List.Perm.append_left _ (List.Perm.map _ ?_)) h.results
      refine (hedges.append_right _).trans (List.Perm.trans (List.Perm.of_eq ?_) hsplit)
      simp
    · have hlength := hsplit.length_eq
      have hothers' := hedges.length_eq
      rw [List.length_append] at hlength
      rw [List.length_map] at hothers' ⊢
      simp only [decide_not] at hlength ⊢
      omega
    · intro _ hnil
      have hlength := hperm.length_eq
      rw [List.map_eq_nil_iff.mp hnil, List.length_map] at hlength
      exact hempty hlength.symm

/-! ### The loops -/

variable (sort) in
/-- The queue gets empty, and some edges have been removed until then. -/
theorem Holds.drain (h : Holds pairs s rest) {front : ℕ} (hlive : front ∈ s.allNodes) {n : ℕ}
    (hn : 2 * rest.length ≤ n) :
    ∃ s' stopped rest', run fifo (ClashScheduler.visit sort) n [front] s = some (s', stopped) ∧ Holds pairs s' rest' ∧
      rest'.length < rest.length := by
  obtain ⟨items, s₁, rest₁, hvisit, h₁, hlength, hitems⟩ := h.visit sort front
  have hpos : 0 < items.length := List.length_pos_of_ne_nil (hitems ((h.live front).mp hlive))
  obtain ⟨n, rfl⟩ : ∃ m, n = m + 1 := ⟨n - 1, by omega⟩
  let I (g : List Edge × ℕ) (stack : List ℕ) (t : Impl Id) : Prop :=
    Holds pairs t g.1 ∧ g.1.length < rest.length ∧ g.2 = stack.length
  let μ (g : List Edge × ℕ) : ℕ := 2 * g.1.length + g.2
  have hpositive : ∀ g node stack t, I g (node :: stack) t → 0 < μ g := by
    rintro g node stack t ⟨-, -, hg⟩
    rw [List.length_cons] at hg
    simp only [μ]
    omega
  have hdone : ∀ g t, I g [] t → ∃ rest', Holds pairs t rest' ∧ rest'.length < rest.length := by
    rintro g t ⟨ht, hlt, -⟩
    exact ⟨g.1, ht, hlt⟩
  have hstop : ∀ g node stack t t', I g (node :: stack) t → ClashScheduler.visit sort node t = .stop t' →
      ∃ rest', Holds pairs t' rest' ∧ rest'.length < rest.length := by
    rintro g node stack t t' ⟨ht, -, -⟩ hstop
    obtain ⟨_, _, _, hpush, -⟩ := ht.visit sort node
    rw [hpush] at hstop
    cases hstop
  have hpush : ∀ g node stack t items' t', I g (node :: stack) t → ClashScheduler.visit sort node t = .push items' t' →
      ∃ g', I g' (fifo items' stack) t' ∧ μ g' < μ g := by
    rintro g node stack t items' t' ⟨ht, hlt, hg⟩ hstep
    obtain ⟨items'', t'', rest', hpush, ht', hlength', -⟩ := ht.visit sort node
    rw [hpush] at hstep
    cases hstep
    refine ⟨(rest', (fifo items' stack).length), ⟨ht', by simp only; omega, rfl⟩, ?_⟩
    rw [List.length_cons] at hg
    simp only [μ, fifo, List.length_append]
    omega
  have hstart : I (rest₁, items.length) (fifo items []) s₁ := ⟨h₁, by simp only; omega, by simp [fifo]⟩
  obtain ⟨s', stopped, hrun, rest', hend⟩ := Library.run_of_invariant I μ
    (fun t _ => ∃ rest', Holds pairs t rest' ∧ rest'.length < rest.length) hpositive hdone hstop hpush hstart
    (n := n) (by simp only [μ]; omega)
  refine ⟨s', stopped, rest', ?_, hend⟩
  rw [Library.run_cons_push hvisit]
  exact hrun

variable (sort) in
/-- The walk ends when no edge is left. -/
theorem Holds.walk (h : Holds pairs s rest) {n turns : ℕ} (hn : 2 * rest.length ≤ n) (hturns : rest.length < turns) :
    ∃ s', ClashScheduler.walk sort n turns s = some s' ∧ Holds pairs s' [] := by
  induction turns generalizing s rest with
  | zero => cases hturns
  | succ turns ih =>
    cases hall : s.allNodes with
    | nil =>
      have hnil : rest = [] := by
        apply List.eq_nil_iff_forall_not_mem.mpr
        intro e he
        have hmem : e ∈ s.edges e.1 := by
          rw [h.edges]
          exact List.mem_filter.mpr ⟨he, decide_eq_true (.inl rfl)⟩
        have hlive := (h.live e.1).mpr (List.ne_nil_of_mem hmem)
        rw [hall] at hlive
        cases hlive
      subst hnil
      refine ⟨s, ?_, h⟩
      rw [ClashScheduler.walk, hall]
    | cons front tail =>
      obtain ⟨s₁, stopped, rest₁, hrun, h₁, hlt⟩ :=
        h.drain sort (by rw [hall]; exact List.mem_cons_self) hn
      obtain ⟨s', hwalk, hend⟩ := ih h₁ (by omega) (by omega)
      refine ⟨s', ?_, hend⟩
      rw [ClashScheduler.walk, hall]
      simp only [hrun]
      exact hwalk

/-! ### The graph of the pairs -/

section Graph

variable [DecidableEq Id]

/-- The map has the positions of the nodes, which are those of `ids`. -/
structure Named (s : List Id × (Id → Option ℕ)) (ids : List Id) : Prop where
  map : ∀ id i, s.2 id = some i ↔ s.1[i]? = some id
  mem : ∀ id, id ∈ s.1 ↔ id ∈ ids

omit [Inhabited Id] in
theorem Named.addNode {s : List Id × (Id → Option ℕ)} {ids : List Id} (h : Named s ids) (id : Id) :
    Named (addNode id s) (ids ++ [id]) := by
  cases hid : s.2 id with
  | some i =>
    rw [ClashScheduler.addNode, hid]
    refine ⟨h.map, fun id' => (h.mem id').trans ?_⟩
    have hmem : id ∈ ids := (h.mem id).mp (List.mem_of_getElem? ((h.map id i).mp hid))
    rw [List.mem_append, List.mem_singleton]
    exact ⟨.inl, fun h => h.elim (fun h => h) fun h => h ▸ hmem⟩
  | none =>
    rw [ClashScheduler.addNode, hid]
    have hnew : id ∉ s.1 := by
      intro hmem
      obtain ⟨i, hi⟩ := List.getElem?_of_mem hmem
      rw [(h.map id i).mpr hi] at hid
      cases hid
    constructor
    · intro id' i
      simp only
      by_cases heq : id' = id
      · subst heq
        rw [Function.update_self]
        constructor
        · intro hi
          obtain rfl := Option.some.inj hi
          simp
        · intro hi
          rcases Nat.lt_or_ge i s.1.length with hlt | hge
          · rw [List.getElem?_append_left hlt] at hi
            exact absurd (List.mem_of_getElem? hi) hnew
          · have hle := (List.getElem?_eq_some_iff.mp hi).1
            rw [List.length_append, List.length_singleton] at hle
            congr 1
            omega
      · rw [Function.update_of_ne heq, h.map]
        rcases Nat.lt_or_ge i s.1.length with hlt | hge
        · rw [List.getElem?_append_left hlt]
        · rw [List.getElem?_append_right hge, List.getElem?_eq_none hge]
          constructor
          · intro hi
            cases hi
          · intro hi
            exact absurd (List.mem_singleton.mp (List.mem_of_getElem? hi)) heq
    · intro id'
      simp only [List.mem_append, h.mem]

omit [Inhabited Id] in
private theorem named_addNodes (edges : List (Id × Id)) : Named (addNodes edges) (edges.flatMap fun e => [e.1, e.2]) := by
  induction edges using List.reverseRecOn with
  | nil => exact ⟨fun _ _ => ⟨nofun, nofun⟩, fun _ => ⟨nofun, nofun⟩⟩
  | append_singleton edges e ih =>
    rw [addNodes, List.foldl_append, List.flatMap_append]
    have hboth := (ih.addNode e.1).addNode e.2
    rw [List.append_assoc] at hboth
    exact hboth

private theorem edges_addEdge (edges : ℕ → List Edge) (edge : Edge) (node : ℕ) :
    addEdge edges edge node = edges node ++ if Incident node edge then [edge] else [] := by
  unfold addEdge Incident
  by_cases hloop : edge.1 = edge.2
  · simp only [hloop, or_self, if_true]
    by_cases hnode : node = edge.2
    · subst hnode
      simp
    · simp [hnode]
  · simp only [hloop, if_false]
    by_cases hsecond : node = edge.2
    · subst hsecond
      simp [Ne.symm hloop]
    · by_cases hfirst : node = edge.1
      · subst hfirst
        simp [hsecond]
      · simp [hsecond, hfirst]

private theorem edges_foldl_addEdge (edges : List Edge) (node : ℕ) :
    edges.foldl addEdge (fun _ => []) node = edges.filter fun e => Incident node e := by
  induction edges using List.reverseRecOn with
  | nil => rfl
  | append_singleton edges e ih =>
    rw [List.foldl_append, List.foldl_cons, List.foldl_nil, edges_addEdge, ih, List.filter_append]
    by_cases h : Incident node e <;> simp [h]

variable (sort) in
private theorem holds_createGraph (pairs : List (Id × Id)) :
    ∃ rest, rest.length = pairs.length ∧ Holds pairs (sortByEdges sort (createGraph pairs)) rest := by
  have hnamed := named_addNodes pairs
  -- both ids of a pair have a position, from which the id is found again
  have hpos : ∀ e ∈ pairs, ∀ id ∈ [e.1, e.2], ∃ i, (addNodes pairs).2 id = some i ∧ (addNodes pairs).1[i]? = some id := by
    intro e he id hid
    have hmem : id ∈ (addNodes pairs).1 := (hnamed.mem id).mpr (List.mem_flatMap.mpr ⟨e, he, hid⟩)
    obtain ⟨i, hi⟩ := List.getElem?_of_mem hmem
    exact ⟨i, (hnamed.map id i).mpr hi, hi⟩
  have hedges : ∀ node, (sortByEdges sort (createGraph pairs)).edges node =
      (pairs.map (toEdge (addNodes pairs).2)).filter fun e => Incident node e :=
    fun node => edges_foldl_addEdge _ node
  refine ⟨pairs.map (toEdge (addNodes pairs).2), List.length_map _, ⟨hedges, ?_⟩, ?_⟩
  · intro node
    have hall : node ∈ (sortByEdges sort (createGraph pairs)).allNodes ↔ node < (addNodes pairs).1.length := by
      rw [sortByEdges, (sort.perm _ _).mem_iff]
      exact List.mem_range
    rw [hall, hedges]
    constructor
    · intro hlt
      obtain ⟨e, he, hid⟩ := List.mem_flatMap.mp ((hnamed.mem _).mp (List.getElem_mem hlt))
      have hnode := (hnamed.map _ node).mpr (List.getElem?_eq_getElem hlt)
      refine List.ne_nil_of_mem (List.mem_filter.mpr ⟨List.mem_map_of_mem he, decide_eq_true ?_⟩)
      simp only [List.mem_cons, List.not_mem_nil, or_false] at hid
      rcases hid with hid | hid <;> rw [hid] at hnode
      · left
        rw [toEdge, hnode, Option.getD_some]
      · right
        rw [toEdge, hnode, Option.getD_some]
    · intro hne
      obtain ⟨edge, hedge⟩ := List.exists_mem_of_ne_nil _ hne
      obtain ⟨hmem, hincident⟩ := List.mem_filter.mp hedge
      obtain ⟨e, he, rfl⟩ := List.mem_map.mp hmem
      obtain ⟨i, hi, hat⟩ := hpos e he e.1 (by simp)
      obtain ⟨j, hj, hat'⟩ := hpos e he e.2 (by simp)
      rw [decide_eq_true_eq, toEdge, hi, hj] at hincident
      rcases hincident with rfl | rfl
      · exact (List.getElem?_eq_some_iff.mp hat).1
      · exact (List.getElem?_eq_some_iff.mp hat').1
  · refine List.Perm.of_eq ?_
    change [] ++ _ = pairs
    rw [List.nil_append, List.map_map]
    refine (List.map_congr_left fun e he => ?_).trans (List.map_id _)
    obtain ⟨i, hi, hat⟩ := hpos e he e.1 (by simp)
    obtain ⟨j, hj, hat'⟩ := hpos e he e.2 (by simp)
    have hfirst : (addNodes pairs).1.getD i default = e.1 := by
      rw [List.getD_eq_getElem?_getD, hat, Option.getD_some]
    have hsecond : (addNodes pairs).1.getD j default = e.2 := by
      rw [List.getD_eq_getElem?_getD, hat', Option.getD_some]
    rw [Function.comp_apply, toEdge, hi, hj]
    exact Prod.ext hfirst hsecond

/-- The loops end, and the results are the pairs in another order. -/
theorem schedule_perm (sort : Sorter) (broadphaseResults : List (Id × Id)) :
    ∃ n, ∀ m, n ≤ m →
      ∃ results, schedule sort m broadphaseResults = some results ∧ results.Perm broadphaseResults := by
  obtain ⟨rest, hlength, hholds⟩ := holds_createGraph sort broadphaseResults
  refine ⟨2 * rest.length + 1, fun m hm => ?_⟩
  obtain ⟨s', hwalk, hend⟩ := hholds.walk sort (n := m) (by omega) (Nat.lt_of_lt_of_le (by omega) hm)
  have hperm : s'.results.Perm broadphaseResults := by
    have hresults := hend.results
    rwa [List.map_nil, List.append_nil] at hresults
  refine ⟨s'.results, ?_, hperm⟩
  have hresults : _schedule sort m broadphaseResults = some s'.results := by
    rw [_schedule, hwalk]
    rfl
  rw [schedule, hresults, ← hperm.length_eq, Option.bind_some, mapM_some_iff, List.forall₂_iff_get]
  refine ⟨by simp, fun i hi hi' => ?_⟩
  simp

end Graph

end Bouncer.Clash.ClashScheduler
