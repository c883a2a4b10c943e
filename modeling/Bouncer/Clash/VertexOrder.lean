import Bouncer.Clash.Mesh
import Bouncer.Library.RoundRobin
import Bouncer.Scene.SelectionTree

/-!
# The order of the vertices in a containment test

`geometry::orderVertices` puts the vertices that stand out most first: it divides the indices among six directions,
sorts each group by the extent of its vertices, and takes from the groups in turn.  A list of indices is only
rearranged by that.

For an empty list it means to take the indices of all vertices.  But it makes room for them with `resize` and then
pushes them behind that room, so the list begins with a zero for every vertex.  So the result is an order of the
vertices exactly if the list was not empty, or there are no vertices (`orderVertices_orders_iff`).
-/

namespace Bouncer.Clash

open Library (RoundRobin.interleave RoundRobin.Classes RoundRobin.perm_interleave RoundRobin.filter_interleave)
open SelectionTree (Sorter)

variable {R : Type*} [Field R] [LinearOrder R]

/-- The extent of a vertex. -/
def score (v : RepoVector3D R) : R := max (max |v.x| |v.y|) |v.z|

/-- The direction in which a vertex is the furthest out: `+X`, `-X`, `+Y`, `-Y`, `+Z`, `-Z`. -/
def group (v : RepoVector3D R) : Fin 6 :=
  let ax := |v.x|
  let ay := |v.y|
  let az := |v.z|
  if ax ≥ ay ∧ ax ≥ az then if v.x ≥ 0 then 0 else 1
  else if ay ≥ ax ∧ ay ≥ az then if v.y ≥ 0 then 2 else 3
  else if v.z ≥ 0 then 4 else 5

section OrderVertices

variable (sort : Sorter) (vertices : List (RepoVector3D R)) (indices : List ℕ)

/-- The group of an index. -/
def groupAt (i : ℕ) : Fin 6 := group (vertices.getD i 0)

/-- The comparison of two indices of a group. -/
def scoreGreater (a b : ℕ) : Bool := decide (score (vertices.getD a 0) > score (vertices.getD b 0))

/-- An empty list gets the indices of all vertices, behind the zeros of `resize`. -/
def fillIndices : List ℕ :=
  if indices.length = 0 then List.replicate vertices.length 0 ++ List.range vertices.length else indices

/-- The loop that divides the indices. -/
def divide : Fin 6 → List ℕ :=
  indices.foldl (fun groups i => Function.update groups (groupAt vertices i) (groups (groupAt vertices i) ++ [i]))
    fun _ => []

def orderVertices : List ℕ :=
  let indices := fillIndices vertices indices
  let groups := fun g => sort.sort (scoreGreater vertices) (divide vertices indices g)
  RoundRobin.interleave groups (List.finRange 6) indices

def orderVerticesForContainsTests (indicesForContainsTests : List ℕ) : List ℕ :=
  if indicesForContainsTests.length = 0 then orderVertices sort vertices indicesForContainsTests
  else indicesForContainsTests

end OrderVertices

/-- A list of indices orders the vertices: it has the indices that were given, or one for each vertex if none were
given, and those of a group come by their extents. -/
structure Orders (vertices : List (RepoVector3D R)) (indices result : List ℕ) : Prop where
  perm : result.Perm (if indices = [] then List.range vertices.length else indices)
  sorted : ∀ g, (result.filter fun i => decide (groupAt vertices i = g)).Pairwise fun i j =>
    score (vertices.getD j 0) ≤ score (vertices.getD i 0)

variable {sort : Sorter} {vertices : List (RepoVector3D R)} {indices : List ℕ}

omit [Field R] [LinearOrder R] in
private theorem fillIndices_of_ne_nil (h : indices ≠ []) : fillIndices vertices indices = indices :=
  if_neg (mt List.length_eq_zero_iff.1 h)

omit [Field R] [LinearOrder R] in
private theorem fillIndices_nil : fillIndices vertices [] = List.replicate vertices.length 0 ++ List.range vertices.length := rfl

private theorem divide_eq_filter (indices : List ℕ) (g : Fin 6) :
    divide vertices indices g = indices.filter fun i => decide (groupAt vertices i = g) := by
  induction indices using List.reverseRecOn with
  | nil => rfl
  | append_singleton indices i ih =>
    have hstep : divide vertices (indices ++ [i]) = Function.update (divide vertices indices) (groupAt vertices i)
        (divide vertices indices (groupAt vertices i) ++ [i]) := by
      unfold divide
      rw [List.foldl_append]
      rfl
    rw [hstep, List.filter_append, ← ih, List.filter_singleton]
    by_cases hg : g = groupAt vertices i
    · subst hg
      simp
    · rw [Function.update_of_ne hg]
      simp [Ne.symm hg]

private theorem classes_sort (indices : List ℕ) : RoundRobin.Classes
    (fun g => sort.sort (scoreGreater vertices) (divide vertices indices g)) (groupAt vertices) indices where
  perm g := by
    rw [← divide_eq_filter]
    exact sort.perm _ _

private theorem orderVertices_perm : (orderVertices sort vertices indices).Perm (fillIndices vertices indices) :=
  RoundRobin.perm_interleave (classes_sort _) List.mem_finRange rfl

private theorem filter_orderVertices (g : Fin 6) :
    ((orderVertices sort vertices indices).filter fun i => decide (groupAt vertices i = g)) =
      sort.sort (scoreGreater vertices) (divide vertices (fillIndices vertices indices) g) :=
  RoundRobin.filter_interleave (classes_sort _) List.mem_finRange rfl g

instance isStrictWeakOrder_scoreGreater (vertices : List (RepoVector3D R)) :
    IsStrictWeakOrder ℕ fun a b => scoreGreater vertices a b = true where
  irrefl a := by simp [scoreGreater]
  trans a b c hab hbc := by
    simp only [scoreGreater, decide_eq_true_eq] at hab hbc ⊢
    exact hbc.trans hab
  incomp_trans a b c hab hbc := by
    simp only [scoreGreater, decide_eq_true_eq, gt_iff_lt, not_lt] at hab hbc ⊢
    exact ⟨hab.1.trans hbc.1, hbc.2.trans hab.2⟩

private theorem sorted_orderVertices (g : Fin 6) :
    ((orderVertices sort vertices indices).filter fun i => decide (groupAt vertices i = g)).Pairwise fun i j =>
      score (vertices.getD j 0) ≤ score (vertices.getD i 0) := by
  rw [filter_orderVertices]
  refine (sort.sorted (scoreGreater vertices) _).imp ?_
  intro i j h
  simpa [scoreGreater] using h

/-- Even so, an empty list leads to every vertex, and to nothing else. -/
theorem mem_orderVertices_nil {i : ℕ} : i ∈ orderVertices sort vertices [] ↔ i < vertices.length := by
  rw [orderVertices_perm.mem_iff, fillIndices_nil, List.mem_append, List.mem_range, List.mem_replicate]
  omega

private theorem length_orderVertices_nil : (orderVertices sort vertices []).length = 2 * vertices.length := by
  rw [orderVertices_perm.length_eq, fillIndices_nil, List.length_append, List.length_replicate, List.length_range]
  omega

/-- The first vertex comes once more for each vertex. -/
theorem count_orderVertices_nil : (orderVertices sort vertices []).count 0 =
    vertices.length + (List.range vertices.length).count 0 := by
  rw [orderVertices_perm.count_eq, fillIndices_nil, List.count_append, List.count_replicate_self]

/-- Once the vertices of a mesh are ordered, they stay so. -/
theorem orderVerticesForContainsTests_again : orderVerticesForContainsTests sort vertices
    (orderVerticesForContainsTests sort vertices []) = orderVerticesForContainsTests sort vertices [] := by
  have hfirst : orderVerticesForContainsTests sort vertices [] = orderVertices sort vertices [] := rfl
  rw [hfirst]
  by_cases h : (orderVertices sort vertices []).length = 0
  · rw [List.length_eq_zero_iff.1 h, hfirst, List.length_eq_zero_iff.1 h]
  · exact if_neg h

/-- The result is an order of the vertices exactly if there were indices, or there are no vertices. -/
theorem orderVertices_orders_iff (sort : Sorter) (vertices : List (RepoVector3D R)) (indices : List ℕ) :
    Orders vertices indices (orderVertices sort vertices indices) ↔ indices ≠ [] ∨ vertices = [] := by
  constructor
  · intro h
    by_cases hindices : indices = []
    · subst hindices
      have hlength := h.perm.length_eq
      rw [length_orderVertices_nil, if_pos rfl, List.length_range] at hlength
      exact Or.inr (List.length_eq_zero_iff.1 (by omega))
    · exact Or.inl hindices
  · intro h
    refine ⟨?_, sorted_orderVertices⟩
    refine orderVertices_perm.trans ?_
    by_cases hindices : indices = []
    · have hvertices := h.resolve_left (not_not_intro hindices)
      subst hindices hvertices
      exact List.Perm.refl _
    · rw [fillIndices_of_ne_nil hindices, if_neg hindices]

/-- The corners of a triangle come as six indices. -/
theorem not_orders_triangle :
    let vertices : List (RepoVector3D ℚ) := [⟨1, 0, 0⟩, ⟨0, 2, 0⟩, ⟨0, 0, 3⟩]
    ¬ Orders vertices [] (orderVertices Sorter.stable vertices []) := by
  intro vertices h
  have hlength := h.perm.length_eq
  rw [length_orderVertices_nil] at hlength
  exact absurd hlength (by decide)

end Bouncer.Clash
