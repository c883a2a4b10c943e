import Bouncer.Bvh.RayTraverser

/-!
# What a ray finds in a hierarchy

A traversal that ends at its first hit does not shrink the range of its ray.  It hands the primitives to the intersector
in one order, `visits`, until a hit (`intersect_eq`); these are primitives of the hierarchy, none twice
(`visits_subperm`), and all that are in boxes met by the ray (`mem_visits`).

A traversal that looks for the closest hit leaves out what is farther than the last one.  It still finds the closest of
all primitives (`intersect_closest`).
-/

namespace Bouncer.SingleRayTraverser

open Library (FullTree visitUntil visitUntil_append)

variable {R ρ σ ι : Type*}

section Order

variable {E : Type*} [LinearOrder E] (nodeIntersector : BvhNode R → Ray R → E × E) (bvh : Bvh R) (ray : Ray R)

/-- The primitives that are visited below the root of a tree. -/
def order : FullTree ℕ → List ℕ
  | .leaf _ => []
  | .branch _ l r =>
    let left := if met nodeIntersector bvh ray l then order l else []
    let right := if met nodeIntersector bvh ray r then order r else []
    visitedNow nodeIntersector bvh ray l r ++
      if (nodeIntersector (bvh.nodes l.label) ray).1 > (nodeIntersector (bvh.nodes r.label) ray).1 then right ++ left
      else left ++ right

/-- The positions in `primitive_indices` that a ray visits, one after the other. -/
def visits : FullTree ℕ → List ℕ
  | .leaf j => positions bvh j
  | .branch i l r => order nodeIntersector bvh ray (.branch i l r)

variable {nodeIntersector bvh ray}

private theorem order_branch (i : ℕ) (l r : FullTree ℕ) :
    order nodeIntersector bvh ray (.branch i l r) =
      visitedNow nodeIntersector bvh ray l r ++ (pendingNext nodeIntersector bvh ray l r).flatMap (order nodeIntersector bvh ray) := by
  have hof : ∀ x, (if met nodeIntersector bvh ray x then order nodeIntersector bvh ray x else []) =
      (pendingOf (met nodeIntersector bvh ray x) x).flatMap (order nodeIntersector bvh ray) := by
    intro x
    cases x with
    | leaf j => exact ite_self _
    | branch j u v => cases met nodeIntersector bvh ray (.branch j u v) <;> simp [pendingOf]
  rw [order, hof, hof, pendingNext]
  split_ifs <;> rw [List.flatMap_append]

variable (nodeIntersector bvh ray) in
/-- What is visited below a child, at once if it is a leaf and later otherwise. -/
def orderChild (x : FullTree ℕ) : List ℕ :=
  visitedOf bvh (met nodeIntersector bvh ray x) x ++
    if met nodeIntersector bvh ray x then order nodeIntersector bvh ray x else []

private theorem orderChild_leaf (j : ℕ) : orderChild nodeIntersector bvh ray (.leaf j) =
    if met nodeIntersector bvh ray (.leaf j) then positions bvh j else [] := by
  have hnil : (if met nodeIntersector bvh ray (.leaf j) then order nodeIntersector bvh ray (.leaf j) else []) = [] :=
    ite_self _
  rw [orderChild, hnil, List.append_nil]
  rfl

private theorem orderChild_branch (j : ℕ) (u v : FullTree ℕ) : orderChild nodeIntersector bvh ray (.branch j u v) =
    if met nodeIntersector bvh ray (.branch j u v) then order nodeIntersector bvh ray (.branch j u v) else [] := rfl

private theorem order_branch_perm (i : ℕ) (l r : FullTree ℕ) : (order nodeIntersector bvh ray (.branch i l r)).Perm
    (orderChild nodeIntersector bvh ray l ++ orderChild nodeIntersector bvh ray r) := by
  rw [order, visitedNow, orderChild, orderChild]
  generalize (if met nodeIntersector bvh ray l then order nodeIntersector bvh ray l else []) = left
  generalize (if met nodeIntersector bvh ray r then order nodeIntersector bvh ray r else []) = right
  rw [List.append_assoc, List.append_assoc]
  refine List.Perm.append_left _ (List.Perm.trans (List.Perm.append_left _ ?_) (List.perm_append_comm_assoc _ _ _))
  split_ifs
  exacts [List.perm_append_comm, .refl _]

private theorem order_subperm (t : FullTree ℕ) : (order nodeIntersector bvh ray t).Subperm (t.items (positions bvh)) := by
  induction t with
  | leaf j => exact List.nil_subperm
  | branch i l r ihl ihr =>
    have hchild : ∀ x, (order nodeIntersector bvh ray x).Subperm (x.items (positions bvh)) →
        (orderChild nodeIntersector bvh ray x).Subperm (x.items (positions bvh)) := by
      intro x hx
      cases x with
      | leaf j =>
        rw [orderChild_leaf, FullTree.items_leaf]
        split_ifs
        exacts [.refl _, List.nil_subperm]
      | branch j u v =>
        rw [orderChild_branch]
        split_ifs
        exacts [hx, List.nil_subperm]
    rw [FullTree.items_branch]
    exact (order_branch_perm i l r).subperm.trans ((hchild l ihl).append (hchild r ihr))

theorem visits_subperm (t : FullTree ℕ) : (visits nodeIntersector bvh ray t).Subperm (t.items (positions bvh)) := by
  cases t with
  | leaf j => rw [FullTree.items_leaf]; exact .refl _
  | branch i l r => exact order_subperm _

private theorem mem_order {t : FullTree ℕ} {j k : ℕ} (hj : j ∈ t.leaves) (hk : k ∈ positions bvh j) (hbranch : 0 < t.height)
    (hmet : ∀ u ∈ t.subtrees, j ∈ u.leaves → met nodeIntersector bvh ray u = true) :
    k ∈ order nodeIntersector bvh ray t := by
  induction t with
  | leaf i => exact absurd hbranch (lt_irrefl 0)
  | branch i l r ihl ihr =>
    have hchild : ∀ x, x ∈ (FullTree.branch i l r).subtrees → j ∈ x.leaves →
        (0 < x.height → k ∈ order nodeIntersector bvh ray x) → k ∈ orderChild nodeIntersector bvh ray x := by
      intro x hx hjx ih
      cases x with
      | leaf i =>
        obtain rfl := List.mem_singleton.1 hjx
        rw [orderChild_leaf, if_pos (hmet _ hx hjx)]
        exact hk
      | branch i u v =>
        rw [orderChild_branch, if_pos (hmet _ hx hjx)]
        exact ih (Nat.succ_pos _)
    have hleft : l ∈ (FullTree.branch i l r).subtrees := FullTree.left_mem_subtrees (FullTree.self_mem_subtrees _)
    have hright : r ∈ (FullTree.branch i l r).subtrees := FullTree.right_mem_subtrees (FullTree.self_mem_subtrees _)
    rw [(order_branch_perm i l r).mem_iff, List.mem_append]
    rcases List.mem_append.1 hj with hj | hj
    · exact .inl (hchild l hleft hj fun hheight => ihl hj hheight fun u hu => hmet u (FullTree.subtrees_trans hu hleft))
    · exact .inr (hchild r hright hj fun hheight => ihr hj hheight fun u hu => hmet u (FullTree.subtrees_trans hu hright))

theorem mem_visits {t : FullTree ℕ} {j k : ℕ} (hj : j ∈ t.leaves) (hk : k ∈ positions bvh j)
    (hmet : ∀ u ∈ t.subtrees, j ∈ u.leaves → met nodeIntersector bvh ray u = true) :
    k ∈ visits nodeIntersector bvh ray t := by
  cases t with
  | leaf i =>
    obtain rfl := List.mem_singleton.1 hj
    exact hk
  | branch i l r => exact mem_order hj hk (Nat.succ_pos _) hmet

/-- A traversal that ends at its first hit hands the primitives over in the order of `visits`. -/
theorem intersect_eq {intersector : PrimitiveIntersector R ρ σ} (hany : intersector.anyHit = true) {n fuel : ℕ}
    {t : FullTree ℕ} (ht : bvh.IsTree n t) (hheight : t.height ≤ stackSize + 1) (hfuel : bvh.nodeCount ≤ fuel) (state : σ) :
    intersect nodeIntersector bvh intersector fuel ray state =
      some (visitUntil (intersectPrimitive intersector) (visits nodeIntersector bvh ray t) ⟨ray, none, state⟩).1 := by
  let goal := visitUntil (intersectPrimitive intersector) (visits nodeIntersector bvh ray t) ⟨ray, none, state⟩
  -- the invariant: visiting what is pending, from the current state, gives the goal
  let I := fun (ps : List (FullTree ℕ)) (w : Walk R ρ σ) => w.ray = ray ∧
    visitUntil (intersectPrimitive intersector) (ps.flatMap (order nodeIntersector bvh ray)) w = goal
  have hray : ∀ i (w : Walk R ρ σ), (intersectPrimitive intersector i w).1.ray = w.ray := by
    intro i w
    unfold intersectPrimitive
    rcases intersector.intersect i w.ray w.state with ⟨state, _ | hit⟩ <;> simp [hany]
  have hrays : ∀ l (w : Walk R ρ σ), (visitUntil (intersectPrimitive intersector) l w).1.ray = w.ray := by
    intro l
    induction l with
    | nil => exact fun _ => rfl
    | cons i l ih =>
      intro w
      unfold visitUntil
      split_ifs
      · exact hray i w
      · rw [ih, hray]
  obtain ⟨w, hrun, hgoal⟩ : ∃ w, intersect nodeIntersector bvh intersector fuel ray state = some w ∧ w = goal.1 := by
    refine intersect_of_invariant ht hheight hfuel I _ ?_ ?_ ?_ ?_
    · rintro j rfl
      rfl
    · rintro i l r rfl
      refine ⟨rfl, ?_⟩
      rw [List.flatMap_singleton]
      rfl
    · rintro w ⟨-, hgoal⟩
      rw [← hgoal]
      rfl
    · rintro i l r rest w ⟨rfl, hgoal⟩ - -
      rw [List.flatMap_cons, order_branch, List.append_assoc, visitUntil_append] at hgoal
      intro visit
      split_ifs at hgoal ⊢ with hstop
      · rw [← hgoal]
      · refine ⟨hrays _ _, ?_⟩
        rw [List.flatMap_append]
        exact hgoal
  rw [hrun, hgoal]

end Order

/-! ### The closest hit -/

/-- `ClosestPrimitiveIntersector`, for primitives that are met by `hitAt`. -/
def closestPrimitiveIntersector (bvh : Bvh R) (hitAt : ℕ → Ray R → Option ι) (distance : ι → R) :
    PrimitiveIntersector R (ℕ × ι) Unit where
  intersect := fun i ray state =>
    (state, (hitAt (bvh.primitiveIndices i) ray).map fun hit => (bvh.primitiveIndices i, hit))
  anyHit := false
  distance := fun hit => distance hit.2

/-- Primitives that are met at `distances`, if these are in the range of the ray. -/
structure HitsAt [LinearOrder R] (ray : Ray R) (hitAt : ℕ → Ray R → Option ι) (distance : ι → R)
    (distances : ℕ → Option R) : Prop where
  sound : ∀ k tmax hit, hitAt k { ray with tmax } = some hit →
    distances k = some (distance hit) ∧ ray.tmin ≤ distance hit ∧ distance hit ≤ tmax
  complete : ∀ k tmax d, distances k = some d → ray.tmin ≤ d → d ≤ tmax → (hitAt k { ray with tmax }).isSome

/-- A primitive is in the range of the ray. -/
def InRange [LE R] (ray : Ray R) (distances : ℕ → Option R) (k : ℕ) (d : R) : Prop :=
  distances k = some d ∧ ray.tmin ≤ d ∧ d ≤ ray.tmax

/-- The best hit is a closest one among the first `n` primitives, or there is none. -/
def IsClosest [LE R] (ray : Ray R) (distance : ι → R) (distances : ℕ → Option R) (n : ℕ) : Option (ℕ × ι) → Prop
  | none => ∀ k < n, ∀ d, ¬ InRange ray distances k d
  | some (k, hit) => k < n ∧ InRange ray distances k (distance hit) ∧ ∀ k' < n, ∀ d, InRange ray distances k' d → distance hit ≤ d

/-- A walk after some primitives: its range ends at the best hit, which is one of them, and those that are not in `left`
are no closer. -/
structure Searched [LinearOrder R] (ray : Ray R) (distance : ι → R) (distances : ℕ → Option R) (n : ℕ) (left : Set ℕ)
    (w : Walk R (ℕ × ι) Unit) : Prop where
  ray_eq : w.ray = { ray with tmax := w.ray.tmax }
  tmax_of_none : w.bestHit = none → w.ray.tmax = ray.tmax
  best : ∀ k hit, w.bestHit = some (k, hit) → k < n ∧ InRange ray distances k (distance hit) ∧ w.ray.tmax = distance hit
  rest : ∀ k < n, ∀ d, InRange ray distances k d → k ∈ left ∨ w.bestHit.isSome ∧ w.ray.tmax ≤ d

section Closest

variable [LinearOrder R] {bvh : Bvh R} {ray : Ray R} {hitAt : ℕ → Ray R → Option ι} {distance : ι → R}
  {distances : ℕ → Option R} {n : ℕ} {left left' : Set ℕ} {w : Walk R (ℕ × ι) Unit}

omit [LinearOrder R] in
private theorem intersectPrimitive_closest (i : ℕ) (w : Walk R (ℕ × ι) Unit) :
    intersectPrimitive (closestPrimitiveIntersector bvh hitAt distance) i w =
      (match hitAt (bvh.primitiveIndices i) w.ray with
        | none => w
        | some hit => ⟨{ w.ray with tmax := distance hit }, some (bvh.primitiveIndices i, hit), w.state⟩, false) := by
  unfold intersectPrimitive closestPrimitiveIntersector
  cases h : hitAt (bvh.primitiveIndices i) w.ray <;> simp [h]

namespace Searched

private theorem mono (h : Searched ray distance distances n left w) (hleft : ∀ k ∈ left, k ∈ left' ∨ ∀ d, InRange ray distances k d →
    w.ray.tmax < d) : Searched ray distance distances n left' w where
  ray_eq := h.ray_eq
  tmax_of_none := h.tmax_of_none
  best := h.best
  rest := fun k hk d hd => by
    rcases h.rest k hk d hd with hmem | hbest
    · rcases hleft k hmem with hmem' | hfar
      · exact .inl hmem'
      · have hlt := hfar d hd
        refine .inr ⟨?_, hlt.le⟩
        by_contra hnone
        rw [h.tmax_of_none (by simpa using hnone)] at hlt
        exact absurd hd.2.2 (not_le.2 hlt)
    · exact .inr hbest

private theorem tmax_le (h : Searched ray distance distances n left w) : w.ray.tmax ≤ ray.tmax := by
  rcases hbest : w.bestHit with _ | ⟨k, hit⟩
  · exact (h.tmax_of_none hbest).le
  · obtain ⟨-, hrange, heq⟩ := h.best k hit hbest
    rw [heq]
    exact hrange.2.2

private theorem isClosest (h : Searched ray distance distances n ∅ w) : IsClosest ray distance distances n w.bestHit := by
  rcases hbest : w.bestHit with _ | ⟨k, hit⟩
  · intro k hk d hd
    rcases h.rest k hk d hd with hmem | ⟨hsome, -⟩
    · exact hmem
    · rw [hbest] at hsome
      exact absurd hsome (by simp)
  · obtain ⟨hk, hrange, htmax⟩ := h.best k hit hbest
    refine ⟨hk, hrange, fun k' hk' d hd => ?_⟩
    rcases h.rest k' hk' d hd with hmem | ⟨-, hle⟩
    · exact absurd hmem (Set.notMem_empty k')
    · rwa [← htmax]

/-- One more primitive. -/
theorem intersectPrimitive (h : Searched ray distance distances n left w) (hhits : HitsAt ray hitAt distance distances)
    {i : ℕ} (hi : bvh.primitiveIndices i < n) :
    Searched ray distance distances n (left \ {bvh.primitiveIndices i})
      (SingleRayTraverser.intersectPrimitive (closestPrimitiveIntersector bvh hitAt distance) i w).1 := by
  set k := bvh.primitiveIndices i with hk
  have hray := h.ray_eq
  rw [intersectPrimitive_closest, ← hk]
  cases hhit : hitAt k w.ray with
  | none =>
    refine h.mono (w := w) fun k' hk' => ?_
    by_cases heq : k' = k
    · refine .inr fun d hd => ?_
      by_contra hnear
      have hsome := hhits.complete k w.ray.tmax d (heq ▸ hd.1) hd.2.1 (not_lt.1 hnear)
      rw [← hray, hhit] at hsome
      exact absurd hsome (by simp)
    · exact .inl ⟨hk', heq⟩
  | some hit =>
    obtain ⟨hdistance, hmin, hmax⟩ := hhits.sound k w.ray.tmax hit (hray ▸ hhit)
    refine ⟨?_, fun hnone => absurd hnone (Option.some_ne_none _), ?_, ?_⟩
    · dsimp only
      rw [hray]
    · rintro k' hit' heq
      obtain ⟨rfl, rfl⟩ := Prod.mk.inj (Option.some.inj heq)
      exact ⟨hi, ⟨hdistance, hmin, hmax.trans h.tmax_le⟩, rfl⟩
    · intro k' hk' d hd
      by_cases heq : k' = k
      · have hd' : distance hit = d := Option.some.inj (hdistance.symm.trans (heq ▸ hd.1))
        exact .inr ⟨rfl, hd'.le⟩
      · rcases h.rest k' hk' d hd with hmem | ⟨-, hle⟩
        · exact .inl ⟨hmem, heq⟩
        · exact .inr ⟨rfl, hmax.trans hle⟩

private theorem visitUntil (h : Searched ray distance distances n left w) (hhits : HitsAt ray hitAt distance distances)
    {l : List ℕ} (hl : ∀ i ∈ l, bvh.primitiveIndices i < n) :
    let visit := Library.visitUntil (SingleRayTraverser.intersectPrimitive (closestPrimitiveIntersector bvh hitAt distance)) l w
    visit.2 = false ∧ Searched ray distance distances n (left \ {k | k ∈ l.map bvh.primitiveIndices}) visit.1 := by
  induction l generalizing left w with
  | nil => exact ⟨rfl, h.mono fun k hk => .inl ⟨hk, List.not_mem_nil⟩⟩
  | cons i l ih =>
    have hgoes : (SingleRayTraverser.intersectPrimitive (closestPrimitiveIntersector bvh hitAt distance) i w).2 = false := by
      rw [intersectPrimitive_closest]
    obtain ⟨hends, hsearched⟩ := ih (h.intersectPrimitive hhits (hl i List.mem_cons_self)) fun j hj =>
      hl j (List.mem_cons_of_mem _ hj)
    rw [Library.visitUntil, hgoes, if_neg Bool.false_ne_true]
    refine ⟨hends, hsearched.mono fun k hk => .inl ⟨hk.1.1, fun hmem => ?_⟩⟩
    rcases List.mem_cons.1 hmem with heq | hmem
    · exact hk.1.2 heq
    · exact hk.2 hmem

end Searched

omit [LinearOrder R] in
theorem map_positions (bvh : Bvh R) (i : ℕ) : (positions bvh i).map bvh.primitiveIndices = bvh.leafPrimitives i := by
  rw [positions, List.range'_eq_map_range, List.map_map]
  rfl

omit [LinearOrder R] in
private theorem mem_visitedOf_or_pendingOf {x : FullTree ℕ} {k : ℕ} (hk : k ∈ x.items bvh.leafPrimitives) :
    k ∈ (visitedOf bvh true x).map bvh.primitiveIndices ∨
      k ∈ (pendingOf true x).flatMap fun y => y.items bvh.leafPrimitives := by
  cases x with
  | leaf j =>
    rw [FullTree.items_leaf, ← map_positions] at hk
    exact .inl hk
  | branch j u v => exact .inr (by rwa [pendingOf, if_pos rfl, List.flatMap_singleton])

omit [LinearOrder R] in
private theorem mem_items_of_mem_visitedOf {m : Bool} {x : FullTree ℕ} {i : ℕ} (hi : i ∈ visitedOf bvh m x) :
    bvh.primitiveIndices i ∈ x.items bvh.leafPrimitives := by
  cases x with
  | leaf j =>
    cases m with
    | false => exact absurd hi List.not_mem_nil
    | true =>
      rw [FullTree.items_leaf, ← map_positions]
      exact List.mem_map_of_mem hi
  | branch j u v => exact absurd hi List.not_mem_nil

omit [LinearOrder R] in
private theorem mem_flatMap_pendingNext {E : Type*} [LinearOrder E] {nodeIntersector : BvhNode R → Ray R → E × E} {l r : FullTree ℕ} {f : FullTree ℕ → List ℕ}
    {k : ℕ} : k ∈ (pendingNext nodeIntersector bvh ray l r).flatMap f ↔
      k ∈ (pendingOf (met nodeIntersector bvh ray l) l).flatMap f ∨
        k ∈ (pendingOf (met nodeIntersector bvh ray r) r).flatMap f := by
  unfold pendingNext
  split_ifs <;> rw [List.flatMap_append, List.mem_append]
  exact or_comm

end Closest

open RobustNodeIntersector (Pads)

/-- A traversal for the closest hit finds one, if any primitive is met: shrinking the range of the ray on the way leaves out
no closer one. -/
theorem intersect_closest [Field R] [LinearOrder R] [IsStrictOrderedRing R] {bvh : Bvh R} {n fuel : ℕ} {t : FullTree ℕ}
    {ray : Ray R} {addUlpMagnitude : R → R} {hitAt : ℕ → Ray R → Option ι} {distance : ι → R} {distances : ℕ → Option R}
    (ht : bvh.IsTree n t) (hheight : t.height ≤ stackSize + 1) (hfuel : bvh.nodeCount ≤ fuel)
    (hpads : Pads addUlpMagnitude) (hmin : 0 ≤ ray.tmin)
    (hhits : HitsAt ray hitAt distance distances)
    (hencloses : bvh.Encloses fun k => {p | ∃ d, distances k = some d ∧ p = ray.origin + ray.direction * d}) :
    ∃ w, intersect (RobustNodeIntersector.intersect addUlpMagnitude) bvh (closestPrimitiveIntersector bvh hitAt distance)
      fuel ray () = some w ∧ IsClosest ray distance distances n w.bestHit := by
  set nodeIntersector := RobustNodeIntersector.intersect addUlpMagnitude
  have hlt : ∀ u ∈ t.subtrees, ∀ k ∈ u.items bvh.leafPrimitives, k < n := by
    intro u hu k hk
    obtain ⟨j, hj, hprimitive⟩ := List.mem_flatMap.1 hk
    exact ht.lt_iff.2 ⟨j, FullTree.leaf_mem_subtrees_iff.1 (FullTree.subtrees_trans (FullTree.leaf_mem_subtrees_iff.2 hj) hu),
      hprimitive⟩
  -- a box is met at what is in the primitives below
  have hmet : ∀ u ∈ t.subtrees, ∀ k ∈ u.items bvh.leafPrimitives, ∀ d, InRange ray distances k d → ∀ w : Walk R (ℕ × ι) Unit,
      w.ray = { ray with tmax := w.ray.tmax } → d ≤ w.ray.tmax →
      met nodeIntersector bvh w.ray u = true := by
    intro u hu k hk d hrange w hray hmax
    obtain ⟨j, hj, hprimitive⟩ := List.mem_flatMap.1 hk
    have hspells := ht.spells.of_mem_subtrees hu
    obtain ⟨hlabel, hleaf⟩ := hspells.mem_leaves_iff.1 hj
    have hpoint := hencloses u.label j (ht.ancestorOrSelf_label hu) (hspells.mem_labels_iff.1 hlabel) hleaf k hprimitive _
      ⟨d, hrange.1, rfl⟩
    refine decide_eq_true (RobustNodeIntersector.intersect_le hpads (hmin.trans hrange.2.1) ?_ hmax ?_)
    all_goals rw [hray]
    exacts [hrange.2.1, hpoint]
  have hinitial : Searched ray distance distances n {k | k ∈ t.items bvh.leafPrimitives}
      (⟨ray, none, ()⟩ : Walk R (ℕ × ι) Unit) := by
    refine ⟨rfl, fun _ => rfl, by simp, fun k hk d hd => .inl ?_⟩
    exact ht.primitives.mem_iff.2 (List.mem_range.2 hk)
  refine intersect_of_invariant ht hheight hfuel
    (fun ps w => Searched ray distance distances n {k | k ∈ ps.flatMap fun y => y.items bvh.leafPrimitives} w) _ ?_ ?_ ?_ ?_
  · rintro j rfl
    have hpositions : ∀ i ∈ positions bvh j, bvh.primitiveIndices i < n := fun i hi =>
      hlt (.leaf j) (FullTree.self_mem_subtrees _) _ (by rw [FullTree.items_leaf, ← map_positions]; exact List.mem_map_of_mem hi)
    have hsearched := (hinitial.visitUntil hhits hpositions).2
    rw [FullTree.items_leaf, map_positions, Set.sdiff_self] at hsearched
    exact hsearched.isClosest
  · rintro i l r rfl
    simpa using hinitial
  · intro w hw
    exact (hw.mono fun k hk => absurd hk (by simp)).isClosest
  · intro i l r rest w hw hmem _ visit
    have hleft := FullTree.left_mem_subtrees hmem
    have hright := FullTree.right_mem_subtrees hmem
    have hchild : ∀ x ∈ t.subtrees, ∀ k ∈ x.items bvh.leafPrimitives,
        (k ∈ (visitedOf bvh (met nodeIntersector bvh w.ray x) x).map bvh.primitiveIndices ∨
          k ∈ (pendingOf (met nodeIntersector bvh w.ray x) x).flatMap fun y => y.items bvh.leafPrimitives) ∨
        ∀ d, InRange ray distances k d → w.ray.tmax < d := by
      intro x hx k hk
      by_cases hmetx : met nodeIntersector bvh w.ray x = true
      · rw [hmetx]
        exact .inl (mem_visitedOf_or_pendingOf hk)
      · exact .inr fun d hrange => not_le.1 fun hmax => hmetx (hmet x hx k hk d hrange w hw.ray_eq hmax)
    have hvisited : ∀ i ∈ visitedNow nodeIntersector bvh w.ray l r, bvh.primitiveIndices i < n := by
      intro i hi
      rcases List.mem_append.1 hi with hi | hi
      · exact hlt l hleft _ (mem_items_of_mem_visitedOf hi)
      · exact hlt r hright _ (mem_items_of_mem_visitedOf hi)
    have hnarrow : Searched ray distance distances n
        {k | k ∈ (visitedNow nodeIntersector bvh w.ray l r).map bvh.primitiveIndices ∨
          k ∈ (pendingNext nodeIntersector bvh w.ray l r ++ rest).flatMap fun y => y.items bvh.leafPrimitives} w := by
      refine hw.mono fun k hk => ?_
      simp only [List.flatMap_cons, FullTree.items_branch, List.mem_append, Set.mem_ofPred_eq] at hk
      simp only [Set.mem_ofPred_eq, visitedNow, List.map_append, List.mem_append, List.flatMap_append, mem_flatMap_pendingNext]
      rcases hk with (hk | hk) | hk
      · exact (hchild l hleft k hk).imp_left fun h => by tauto
      · exact (hchild r hright k hk).imp_left fun h => by tauto
      · exact .inl (.inr (.inr hk))
    obtain ⟨hends, hsearched⟩ := hnarrow.visitUntil hhits hvisited
    rw [if_neg (by simpa [visit] using hends)]
    exact hsearched.mono fun k hk => .inl (hk.1.resolve_left hk.2)

/-- Two primitives in one box, the second one closer. -/
def twoDistances (k : ℕ) : ℚ := if k = 0 then 3 else 2

def twoHitAt (k : ℕ) (ray : Ray ℚ) : Option ℚ :=
  if ray.tmin ≤ twoDistances k ∧ twoDistances k ≤ ray.tmax then some (twoDistances k) else none

def diagonalRay : Ray ℚ := ⟨0, ⟨1, 1, 1⟩, 0, 10⟩

private theorem hitsAt_two : HitsAt diagonalRay twoHitAt id fun k => some (twoDistances k) where
  sound := by
    intro k tmax hit h
    unfold twoHitAt at h
    split_ifs at h with hrange
    cases h
    exact ⟨rfl, hrange⟩
  complete := by
    rintro k tmax d hd hmin hmax
    cases hd
    unfold twoHitAt
    rw [if_pos ⟨hmin, hmax⟩]
    rfl

theorem intersect_closest_two :
    let box : BoundingBox ℚ := ⟨⟨0, 0, 0⟩, ⟨4, 4, 4⟩⟩
    let bvh : Bvh ℚ := .chain (fun _ => box.bounds) box.bounds 2
    ∃ w, intersect (RobustNodeIntersector.intersect id) bvh (closestPrimitiveIntersector bvh twoHitAt id) 3 diagonalRay () =
      some w ∧ IsClosest diagonalRay id (fun k => some (twoDistances k)) 2 w.bestHit := by
  intro box bvh
  have hpads : RobustNodeIntersector.Pads (id : ℚ → ℚ) := fun _ => ⟨fun _ => le_rfl, fun _ => le_rfl⟩
  have hdistances : ∀ k, 0 ≤ twoDistances k ∧ twoDistances k ≤ 4 := by
    intro k
    unfold twoDistances
    split_ifs <;> norm_num
  have hencloses : bvh.Encloses fun k => {p | ∃ d, some (twoDistances k) = some d ∧
      p = diagonalRay.origin + diagonalRay.direction * d} := by
    refine Bvh.chain_encloses fun k p hp => ?_
    obtain ⟨d, hd, rfl⟩ := hp
    cases hd
    have hin : box.Contains (diagonalRay.origin + diagonalRay.direction * twoDistances k) := by
      simpa [BoundingBox.Contains, box, diagonalRay] using hdistances k
    exact ⟨hin, hin⟩
  exact intersect_closest (Bvh.chain_isTree _ _ 1) (by decide) le_rfl hpads le_rfl hitsAt_two hencloses

end Bouncer.SingleRayTraverser
