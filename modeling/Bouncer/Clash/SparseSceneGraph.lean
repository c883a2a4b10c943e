import Bouncer.Datastructure.Matrix
import Bouncer.Library.Loop

/-!
# The sparse scene graph

`SceneGraph::populate` starts with mesh nodes and climbs to the roots of the scene level by level.  A map from the
shared ids of transformations to the meshes that wait for them says where each mesh is, and when the cursor returns a
transformation it is multiplied to the matrices of those.

A mesh can meet the transformations of one level in any order and may be fetched with others that have further to go.
What holds for each mesh separately is `Waits`: some of its ancestors have been applied, from below, and it waits for
the next one and for no other.
-/

namespace Bouncer

open Library.Loop (Turn run run_again run_leave)

inductive ModelUnits where
  | metres
  | millimetres
  | centimetres
  | decimetres
  | feet
  | inches
  | unknown
  deriving DecidableEq

namespace ModelUnits

variable {R : Type} [Field R]

def scaleFactorToMetres : ModelUnits → R
  | metres => 1
  | millimetres => 1 / 1000
  | centimetres => 1 / 100
  | decimetres => 1 / 10
  | feet => 3048 / 10000
  | inches => 254 / 10000
  | unknown => 1

def scaleFactorFromMetres : ModelUnits → R
  | metres => 1
  | millimetres => 1000
  | centimetres => 100
  | decimetres => 10
  | feet => 1 / (3048 / 10000)
  | inches => 1 / (254 / 10000)
  | unknown => 1

def determineScaleFactor (base target : ModelUnits) : R :=
  if base = target ∨ base = unknown ∨ target = unknown then 1
  else base.scaleFactorToMetres * target.scaleFactorFromMetres

end ModelUnits

namespace Sparse

variable {U R : Type}

/-- What is read of the documents of a scene.  A document without a matrix has the identity. -/
structure Bson (U R : Type) where
  id : U
  sharedId : U
  parents : List U
  type : String
  matrix : RepoMatrix R

structure Node (U R : Type) where
  uniqueId : U
  matrix : RepoMatrix R
  mesh : Option (Bson U R)

/-- The state of the outer loop.  An id that is not in `parentToChild` is there with no children. -/
structure State (U R : Type) where
  parentToChild : U → List U
  nodes : U → Option (Node U R)
  ids : List U
  useSharedId : Bool

section Populate

variable [DecidableEq U] [Inhabited U] [Field R]

/-- `nodes[uniqueId]`. -/
def instanceOf (nodes : U → Option (Node U R)) (uniqueId : U) : Node U R := (nodes uniqueId).getD ⟨default, 1, none⟩

/-- The loop over the children of a transformation. -/
def premultiply (matrix : RepoMatrix R) (children : List U) (nodes : U → Option (Node U R)) : U → Option (Node U R) :=
  children.foldl (fun nodes uniqueId =>
    Function.update nodes uniqueId
      (some { instanceOf nodes uniqueId with matrix := matrix * (instanceOf nodes uniqueId).matrix })) nodes

/-- The first parent gets the children: `children->push_back`. -/
def pushAll (parents : List U) (children : List U) (parentToChild : U → List U) : U → List U :=
  match parents with
  | [] => parentToChild
  | parent :: _ => Function.update parentToChild parent (parentToChild parent ++ children)

/-- What is done with a document that the cursor returns. -/
def visit (st : State U R) (bson : Bson U R) : State U R :=
  let st :=
    if bson.type = "transformation" then
      let children := st.parentToChild bson.sharedId
      { st with
        nodes := premultiply bson.matrix children st.nodes
        parentToChild := Function.update (pushAll bson.parents children st.parentToChild) bson.sharedId [] }
    else if bson.type = "mesh" then
      { st with
        nodes := Function.update st.nodes bson.id (some ⟨bson.id, 1, some bson⟩)
        parentToChild := pushAll bson.parents [bson.id] st.parentToChild }
    else st
  { st with ids := st.ids ++ bson.parents }

/-- The documents that the query asks for. -/
def query (collection : List (Bson U R)) (st : State U R) : List (Bson U R) :=
  collection.filter fun bson => decide ((if st.useSharedId then bson.sharedId else bson.id) ∈ st.ids)

/-- One level: the cursor returns the documents in the order in which `deliver` puts them. -/
def level (collection : List (Bson U R)) (deliver : List (Bson U R) → List (Bson U R)) (st : State U R) : State U R :=
  { (deliver (query collection st)).foldl visit { st with ids := [] } with useSharedId := true }

/-- The outer loop, which counts its levels. -/
def turn (collection : List (Bson U R)) (deliver : ℕ → List (Bson U R) → List (Bson U R)) (st : ℕ × State U R) :
    Turn (ℕ × State U R) (U → Option (Node U R)) Empty :=
  if st.2.ids ≠ [] then .again (st.1 + 1, level collection (deliver st.1) st.2) else .leave st.2.nodes


/-- The world offset and the units. -/
def rootTransform (unit : ModelUnits) (offset : RepoVector3D R) : RepoMatrix R :=
  RepoMatrix.scale (unit.determineScaleFactor .millimetres) * RepoMatrix.translate offset

/-- `SceneGraph::populate`, for at most `n` turns of the outer loop. -/
def populate (n : ℕ) (collection : List (Bson U R)) (deliver : ℕ → List (Bson U R) → List (Bson U R))
    (unit : ModelUnits) (offset : RepoVector3D R) (nodes : U → Option (Node U R)) (uniqueIds : List U) :
    Option (U → Option (Node U R)) :=
  match run (turn collection deliver) n (0, ⟨fun _ => [], nodes, uniqueIds, false⟩) with
  | some (.inl nodes) => some (premultiply (rootTransform unit offset) uniqueIds nodes)
  | _ => none

end Populate

/-! ### Ancestors -/

/-- The transformations from a root down to the one with the shared id in the list, which is empty or a singleton. -/
inductive Ancestors (collection : List (Bson U R)) : List U → List (Bson U R) → Prop
  | root : Ancestors collection [] []
  | child {t : Bson U R} {path : List (Bson U R)} : t ∈ collection → t.type = "transformation" →
      Ancestors collection t.parents path → Ancestors collection [t.sharedId] (path ++ [t])

namespace Ancestors

variable {collection : List (Bson U R)} {parents : List U} {path path' : List (Bson U R)} {s : U}

private theorem eq_nil (h : Ancestors collection [] path) : path = [] := by
  cases h
  rfl

private theorem length_le (h : Ancestors collection parents path) : parents.length ≤ 1 := by
  cases h <;> simp

private theorem of_mem (h : Ancestors collection parents path) (hs : s ∈ parents) :
    ∃ t above, t ∈ collection ∧ t.type = "transformation" ∧ t.sharedId = s ∧ parents = [s] ∧ path = above ++ [t] ∧
      Ancestors collection t.parents above := by
  cases h with
  | root => exact absurd hs List.not_mem_nil
  | child ht htype habove =>
    obtain rfl := List.mem_singleton.1 hs
    exact ⟨_, _, ht, htype, rfl, rfl, rfl, habove⟩

private theorem unique (hshared : (collection.map Bson.sharedId).Nodup) (h : Ancestors collection parents path)
    (h' : Ancestors collection parents path') : path = path' := by
  induction h generalizing path' with
  | root => exact h'.eq_nil.symm
  | child ht _ _ ih =>
    obtain ⟨t', above, ht', -, hid, -, rfl, habove⟩ := h'.of_mem List.mem_cons_self
    obtain rfl := List.inj_on_of_nodup_map hshared ht' ht hid
    rw [ih habove]

private theorem sharedId_notMem (hshared : (collection.map Bson.sharedId).Nodup) {t : Bson U R} (ht : t ∈ collection)
    (h : Ancestors collection t.parents path) : t.sharedId ∉ t.parents := by
  intro hmem
  obtain ⟨t', above, ht', -, hid, -, rfl, habove⟩ := h.of_mem hmem
  obtain rfl := List.inj_on_of_nodup_map hshared ht' ht hid
  have hlen := congrArg List.length (unique hshared h habove)
  rw [List.length_append, List.length_singleton] at hlen
  omega

end Ancestors

/-! ### What a visit does to one mesh -/

section Visit

variable [DecidableEq U] [Field R]

private theorem count_pushAll (parents children : List U) (parentToChild : U → List U) (u s : U) (hparents : parents.length ≤ 1) :
    (pushAll parents children parentToChild s).count u =
      (parentToChild s).count u + if s ∈ parents then children.count u else 0 := by
  match parents, hparents with
  | [], _ => simp [pushAll]
  | [parent], _ =>
    unfold pushAll
    by_cases hs : s = parent
    · subst hs
      simp
    · simp [hs]

variable [Inhabited U]

private theorem premultiply_of_notMem (matrix : RepoMatrix R) {children : List U} (nodes : U → Option (Node U R)) {u : U}
    (hu : children.count u = 0) : premultiply matrix children nodes u = nodes u := by
  unfold premultiply
  induction children generalizing nodes with
  | nil => rfl
  | cons v children ih =>
    have hne : v ≠ u := fun h => by simp [h] at hu
    rw [List.count_cons_of_ne hne] at hu
    rw [List.foldl_cons, ih _ hu, Function.update_of_ne (Ne.symm hne)]

private theorem premultiply_of_count_eq_one (matrix : RepoMatrix R) {children : List U} {nodes : U → Option (Node U R)} {u : U}
    (hu : children.count u = 1) {node : Node U R} (hnode : nodes u = some node) :
    premultiply matrix children nodes u = some { node with matrix := matrix * node.matrix } := by
  induction children generalizing nodes with
  | nil => simp at hu
  | cons v children ih =>
    change premultiply matrix children (Function.update nodes v _) u = _
    by_cases hv : v = u
    · subst hv
      rw [List.count_cons_self] at hu
      rw [premultiply_of_notMem _ _ (Nat.succ.inj hu), Function.update_self, instanceOf, hnode, Option.getD_some]
    · rw [List.count_cons_of_ne hv] at hu
      exact ih hu ((Function.update_of_ne (Ne.symm hv) _ _).trans hnode)

variable {collection : List (Bson U R)} {path rest : List (Bson U R)} {u : U} {st : State U R} {t : Bson U R}

/-- The mesh `u` with the ancestors `path`: those in `below` have been applied, and it waits for the last of the others,
which the query of the next level asks for or the cursor is still to return. -/
structure WaitsAt (collection : List (Bson U R)) (next : List U) (above below : List (Bson U R)) (u : U)
    (rest : List (Bson U R)) (st : State U R) : Prop where
  ancestors : Ancestors collection next above
  matrix : ∃ node, st.nodes u = some node ∧ node.uniqueId = u ∧ node.matrix = (below.map Bson.matrix).prod
  count : ∀ s, (st.parentToChild s).count u = if s ∈ next then 1 else 0
  pending : ∀ s ∈ next, s ∈ st.ids ∨ ∃ t ∈ rest, t.sharedId = s

def Waits (collection : List (Bson U R)) (path : List (Bson U R)) (u : U) (rest : List (Bson U R)) (st : State U R) :
    Prop :=
  ∃ next above below, path = above ++ below ∧ WaitsAt collection next above below u rest st

@[simp] theorem visit_ids (st : State U R) (bson : Bson U R) : (visit st bson).ids = st.ids ++ bson.parents := by
  unfold visit
  split
  · rfl
  · split <;> rfl

theorem visit_transformation (st : State U R) (ht : t.type = "transformation") :
    (visit st t).nodes = premultiply t.matrix (st.parentToChild t.sharedId) st.nodes ∧
      (visit st t).parentToChild =
        Function.update (pushAll t.parents (st.parentToChild t.sharedId) st.parentToChild) t.sharedId [] := by
  unfold visit
  rw [if_pos ht]
  exact ⟨rfl, rfl⟩

theorem visit_mesh (st : State U R) (ht : t.type = "mesh") :
    (visit st t).nodes = Function.update st.nodes t.id (some ⟨t.id, 1, some t⟩) ∧
      (visit st t).parentToChild = pushAll t.parents [t.id] st.parentToChild := by
  have hne : t.type ≠ "transformation" := by
    rw [ht]
    decide
  unfold visit
  rw [if_neg hne, if_pos ht]
  exact ⟨rfl, rfl⟩

/-- A transformation is applied to the meshes that wait for it, and to no others. -/
theorem Waits.visit_transformation (hshared : (collection.map Bson.sharedId).Nodup)
    (h : Waits collection path u (t :: rest) st) (ht : t ∈ collection) (htype : t.type = "transformation")
    {above' : List (Bson U R)} (habove' : Ancestors collection t.parents above') :
    Waits collection path u rest (visit st t) := by
  obtain ⟨next, above, below, hpath, hwaits⟩ := h
  obtain ⟨hnodes, hchildren⟩ := Sparse.visit_transformation st htype
  obtain ⟨node, hnode, hid, hmatrix⟩ := hwaits.matrix
  have hself := habove'.sharedId_notMem hshared ht
  have hcount := hwaits.count t.sharedId
  -- the meshes that waited for it wait for its parent now
  have hcount' : ∀ s, ((visit st t).parentToChild s).count u = if s = t.sharedId then 0 else
      (if s ∈ next then 1 else 0) + if s ∈ t.parents then (st.parentToChild t.sharedId).count u else 0 := by
    intro s
    rw [hchildren]
    by_cases hs : s = t.sharedId
    · rw [hs, Function.update_self, if_pos rfl, List.count_nil]
    · rw [Function.update_of_ne hs, count_pushAll _ _ _ _ _ habove'.length_le, hwaits.count, if_neg hs]
  by_cases hnext : t.sharedId ∈ next
  · obtain ⟨t', above'', ht', -, hid', hnext', rfl, habove''⟩ := hwaits.ancestors.of_mem hnext
    obtain rfl := List.inj_on_of_nodup_map hshared ht' ht hid'
    rw [if_pos hnext] at hcount
    refine ⟨t'.parents, above'', t' :: below, by rw [hpath, List.append_assoc, List.singleton_append], habove'',
      ⟨{ node with matrix := t'.matrix * node.matrix }, ?_, hid, ?_⟩, ?_, ?_⟩
    · rw [hnodes]
      exact premultiply_of_count_eq_one _ hcount hnode
    · rw [List.map_cons, List.prod_cons, ← hmatrix]
    · intro s
      rw [hcount', hcount, hnext']
      by_cases hs : s = t'.sharedId
      · rw [if_pos hs, hs, if_neg hself]
      · rw [if_neg hs, if_neg (by simpa using hs), Nat.zero_add]
    · intro s hs
      exact .inl (by rw [visit_ids]; exact List.mem_append_right _ hs)
  · rw [if_neg hnext] at hcount
    refine ⟨next, above, below, hpath, hwaits.ancestors, ⟨node, ?_, hid, hmatrix⟩, ?_, ?_⟩
    · rw [hnodes, premultiply_of_notMem _ _ hcount, hnode]
    · intro s
      rw [hcount', hcount]
      by_cases hs : s = t.sharedId
      · rw [if_pos hs, hs, if_neg hnext]
      · rw [if_neg hs, ite_self, Nat.add_zero]
    · intro s hs
      rw [visit_ids]
      rcases hwaits.pending s hs with hids | ⟨t', ht', hid'⟩
      · exact .inl (List.mem_append_left _ hids)
      · rcases List.mem_cons.1 ht' with rfl | ht'
        · exact absurd (hid' ▸ hs) hnext
        · exact .inr ⟨t', ht', hid'⟩

private theorem waits_visit_self (htype : t.type = "mesh") (hpath : Ancestors collection t.parents path)
    (hnew : ∀ s, (st.parentToChild s).count t.id = 0) : Waits collection path t.id [] (visit st t) := by
  obtain ⟨hnodes, hchildren⟩ := visit_mesh st htype
  refine ⟨t.parents, path, [], (List.append_nil _).symm, hpath, ⟨⟨t.id, 1, some t⟩, ?_, rfl, rfl⟩, ?_, ?_⟩
  · rw [hnodes, Function.update_self]
  · intro s
    rw [hchildren, count_pushAll _ _ _ _ _ hpath.length_le, hnew, Nat.zero_add, List.count_singleton_self]
  · intro s hs
    exact .inl (by rw [visit_ids]; exact List.mem_append_right _ hs)

private theorem Waits.visit_mesh (h : Waits collection path u [] st) (htype : t.type = "mesh") (hne : t.id ≠ u)
    (hparents : t.parents.length ≤ 1) : Waits collection path u [] (visit st t) := by
  obtain ⟨next, above, below, hpath, hwaits⟩ := h
  obtain ⟨hnodes, hchildren⟩ := Sparse.visit_mesh st htype
  refine ⟨next, above, below, hpath, hwaits.ancestors, ?_, ?_, ?_⟩
  · rw [hnodes, Function.update_of_ne (Ne.symm hne)]
    exact hwaits.matrix
  · intro s
    rw [hchildren, count_pushAll _ _ _ _ _ hparents, hwaits.count, List.count_singleton,
      if_neg (by simpa using hne : ¬ (t.id == u) = true), ite_self, Nat.add_zero]
  · intro s hs
    obtain hids | ⟨_, hnil, -⟩ := hwaits.pending s hs
    · exact .inl (by rw [visit_ids]; exact List.mem_append_left _ hids)
    · exact absurd hnil List.not_mem_nil

/-! ### Levels -/

private theorem foldl_visit_ids (docs : List (Bson U R)) (st : State U R) :
    (docs.foldl visit st).ids = st.ids ++ docs.flatMap Bson.parents := by
  induction docs generalizing st with
  | nil => exact (List.append_nil _).symm
  | cons t docs ih => rw [List.foldl_cons, ih, visit_ids, List.flatMap_cons, List.append_assoc]

/-- The ids are those of transformations with fewer than `b` ancestors. -/
def Bounded (collection : List (Bson U R)) (b : ℕ) (ids : List U) : Prop :=
  ∀ s ∈ ids, ∃ t ∈ collection, t.type = "transformation" ∧ t.sharedId = s ∧
    ∃ above, Ancestors collection t.parents above ∧ above.length < b

omit [DecidableEq U] [Field R] [Inhabited U] in
theorem Bounded.nil_of_zero {ids : List U} (h : Bounded collection 0 ids) : ids = [] := by
  cases ids with
  | nil => rfl
  | cons s ids =>
    obtain ⟨_, _, _, _, _, _, hlt⟩ := h s List.mem_cons_self
    exact absurd hlt (Nat.not_lt_zero _)

variable {deliver : List (Bson U R) → List (Bson U R)} {b : ℕ}

omit [Field R] [Inhabited U] in
private theorem mem_deliver (hdeliver : ∀ docs, (deliver docs).Perm docs) (hshared : (collection.map Bson.sharedId).Nodup)
    (huse : st.useSharedId = true) (hids : Bounded collection b st.ids) :
    t ∈ deliver (query collection st) ↔ t ∈ collection ∧ t.sharedId ∈ st.ids ∧ t.type = "transformation" ∧
      ∃ above, Ancestors collection t.parents above ∧ above.length < b := by
  rw [(hdeliver _).mem_iff]
  unfold query
  rw [List.mem_filter, huse, decide_eq_true_iff, if_pos rfl]
  constructor
  · intro ⟨ht, hmem⟩
    obtain ⟨t', ht', htype, hid, habove⟩ := hids _ hmem
    obtain rfl := List.inj_on_of_nodup_map hshared ht' ht hid
    exact ⟨ht, hmem, htype, habove⟩
  · intro ⟨ht, hmem, _⟩
    exact ⟨ht, hmem⟩

private theorem Bounded.level (hdeliver : ∀ docs, (deliver docs).Perm docs) (hshared : (collection.map Bson.sharedId).Nodup)
    (huse : st.useSharedId = true) (hids : Bounded collection (b + 1) st.ids) :
    Bounded collection b (level collection deliver st).ids := by
  intro s hs
  unfold Sparse.level at hs
  rw [foldl_visit_ids, List.nil_append] at hs
  obtain ⟨t, ht, hs⟩ := List.mem_flatMap.1 hs
  obtain ⟨-, -, -, above, habove, hlt⟩ := (mem_deliver hdeliver hshared huse hids).1 ht
  obtain ⟨t', above', ht', htype', hid', -, rfl, habove'⟩ := habove.of_mem hs
  rw [List.length_append, List.length_singleton] at hlt
  exact ⟨t', ht', htype', hid', above', habove', by omega⟩

theorem Waits.foldl_visit (hshared : (collection.map Bson.sharedId).Nodup) {docs : List (Bson U R)}
    (hdocs : ∀ t ∈ docs, t ∈ collection ∧ t.type = "transformation" ∧ ∃ above, Ancestors collection t.parents above)
    (h : Waits collection path u docs st) : Waits collection path u [] (docs.foldl visit st) := by
  induction docs generalizing st with
  | nil => exact h
  | cons t docs ih =>
    obtain ⟨ht, htype, above, habove⟩ := hdocs t List.mem_cons_self
    exact ih (fun t ht => hdocs t (List.mem_cons_of_mem _ ht)) (h.visit_transformation hshared ht htype habove)

theorem Waits.level (hdeliver : ∀ docs, (deliver docs).Perm docs) (hshared : (collection.map Bson.sharedId).Nodup)
    (huse : st.useSharedId = true) (hids : Bounded collection b st.ids) (h : Waits collection path u [] st) :
    Waits collection path u [] (level collection deliver st) := by
  obtain ⟨next, above, below, hpath, hwaits⟩ := h
  have hstart : Waits collection path u (deliver (query collection st)) { st with ids := [] } := by
    refine ⟨next, above, below, hpath, hwaits.ancestors, hwaits.matrix, hwaits.count, fun s hs => .inr ?_⟩
    obtain hmem | ⟨_, hnil, -⟩ := hwaits.pending s hs
    · obtain ⟨t, ht, htype, hid, habove⟩ := hids s hmem
      exact ⟨t, (mem_deliver hdeliver hshared huse hids).2 ⟨ht, hid ▸ hmem, htype, habove⟩, hid⟩
    · exact absurd hnil List.not_mem_nil
  have hdocs : ∀ t ∈ deliver (query collection st),
      t ∈ collection ∧ t.type = "transformation" ∧ ∃ above, Ancestors collection t.parents above := by
    intro t ht
    obtain ⟨ht, -, htype, above, habove, -⟩ := (mem_deliver hdeliver hshared huse hids).1 ht
    exact ⟨ht, htype, above, habove⟩
  obtain ⟨next, above, below, hpath, hwaits⟩ := hstart.foldl_visit hshared hdocs
  exact ⟨next, above, below, hpath, hwaits.ancestors, hwaits.matrix, hwaits.count, hwaits.pending⟩

omit [Inhabited U] in
private theorem Waits.matrix_eq (h : Waits collection path u [] st) (hids : st.ids = []) :
    ∃ node, st.nodes u = some node ∧ node.uniqueId = u ∧ node.matrix = (path.map Bson.matrix).prod := by
  obtain ⟨next, above, below, rfl, hwaits⟩ := h
  cases next with
  | nil =>
    rw [hwaits.ancestors.eq_nil]
    exact hwaits.matrix
  | cons s next =>
    obtain hmem | ⟨_, hnil, -⟩ := hwaits.pending s List.mem_cons_self
    · rw [hids] at hmem
      exact absurd hmem List.not_mem_nil
    · exact absurd hnil List.not_mem_nil

/-! ### The whole run -/

omit [DecidableEq U] [Field R] [Inhabited U] in
theorem Bounded.exists_of_forall {ids : List U} (h : ∀ s ∈ ids, ∃ b, Bounded collection b [s]) :
    ∃ b, Bounded collection b ids := by
  induction ids with
  | nil => exact ⟨0, fun _ hs => absurd hs List.not_mem_nil⟩
  | cons s ids ih =>
    obtain ⟨b, hb⟩ := h s List.mem_cons_self
    obtain ⟨b', hb'⟩ := ih fun s hs => h s (List.mem_cons_of_mem _ hs)
    refine ⟨max b b', fun s' hs' => ?_⟩
    rcases List.mem_cons.1 hs' with rfl | hs'
    · obtain ⟨t, ht, htype, hid, above, habove, hlt⟩ := hb s' List.mem_cons_self
      exact ⟨t, ht, htype, hid, above, habove, lt_of_lt_of_le hlt (le_max_left _ _)⟩
    · obtain ⟨t, ht, htype, hid, above, habove, hlt⟩ := hb' s' hs'
      exact ⟨t, ht, htype, hid, above, habove, lt_of_lt_of_le hlt (le_max_right _ _)⟩

/-- The meshes of the first level, in any order. -/
theorem waits_foldl_visit (st : State U R) {docs : List (Bson U R)} (hid : (docs.map Bson.id).Nodup)
    (hdocs : ∀ t ∈ docs, t.type = "mesh" ∧ ∃ path, Ancestors collection t.parents path)
    (hempty : ∀ s, st.parentToChild s = []) (ht : t ∈ docs) (hpath : Ancestors collection t.parents path) :
    Waits collection path t.id [] (docs.foldl visit st) := by
  obtain ⟨before, after, rfl⟩ := List.append_of_mem ht
  rw [List.map_append, List.map_cons] at hid
  have hbefore : ∀ t' ∈ before, t'.id ≠ t.id := fun t' ht' heq =>
    (List.nodup_append.1 hid).2.2 _ (List.mem_map_of_mem ht') _ List.mem_cons_self heq
  have hafter : ∀ t' ∈ after, t'.id ≠ t.id := fun t' ht' heq =>
    (List.nodup_cons.1 (List.nodup_append.1 hid).2.1).1 (heq ▸ List.mem_map_of_mem ht')
  -- up to the mesh nothing waits under its id
  have hnew : ∀ (docs : List (Bson U R)) (st : State U R), (∀ t' ∈ docs, t'.id ≠ t.id ∧ t'.type = "mesh" ∧
      ∃ path, Ancestors collection t'.parents path) → (∀ s, (st.parentToChild s).count t.id = 0) →
      ∀ s, ((docs.foldl visit st).parentToChild s).count t.id = 0 := by
    intro docs
    induction docs with
    | nil => exact fun _ _ h => h
    | cons t' docs ih =>
      intro st hdocs hcount
      obtain ⟨hne, htype, _, hpath'⟩ := hdocs t' List.mem_cons_self
      refine ih _ (fun t'' ht'' => hdocs t'' (List.mem_cons_of_mem _ ht'')) fun s => ?_
      rw [(visit_mesh st htype).2, count_pushAll _ _ _ _ _ hpath'.length_le, hcount, List.count_singleton,
        if_neg (by simpa using hne : ¬ (t'.id == t.id) = true), ite_self]
  have hkeep : ∀ (docs : List (Bson U R)) (st : State U R), (∀ t' ∈ docs, t'.id ≠ t.id ∧ t'.type = "mesh" ∧
      ∃ path, Ancestors collection t'.parents path) → Waits collection path t.id [] st →
      Waits collection path t.id [] (docs.foldl visit st) := by
    intro docs
    induction docs with
    | nil => exact fun _ _ h => h
    | cons t' docs ih =>
      intro st hdocs hwaits
      obtain ⟨hne, htype, _, hpath'⟩ := hdocs t' List.mem_cons_self
      exact ih _ (fun t'' ht'' => hdocs t'' (List.mem_cons_of_mem _ ht''))
        (hwaits.visit_mesh htype hne hpath'.length_le)
  rw [List.foldl_append, List.foldl_cons]
  refine hkeep after _ (fun t' ht' => ⟨hafter t' ht', hdocs t' (by simp [ht'])⟩) ?_
  refine waits_visit_self (hdocs t ht).1 hpath (hnew before st (fun t' ht' => ⟨hbefore t' ht', hdocs t' (by simp [ht'])⟩) ?_)
  exact fun s => by rw [hempty, List.count_nil]

variable {levels : ℕ → List (Bson U R) → List (Bson U R)}

private theorem turn_leave {st : State U R} (h : st.ids = []) (k : ℕ) : turn collection levels (k, st) = .leave st.nodes :=
  if_neg (not_not.2 h)

private theorem turn_again (st : State U R) (h : st.ids ≠ []) (k : ℕ) :
    turn collection levels (k, st) = .again (k + 1, level collection (levels k) st) := if_pos h

private theorem exists_run (hdeliver : ∀ k docs, (levels k docs).Perm docs) (hshared : (collection.map Bson.sharedId).Nodup)
    (st : State U R) (huse : st.useSharedId = true) (hids : Bounded collection b st.ids) (k : ℕ) :
    ∃ n nodes, run (turn collection levels) n (k, st) = some (.inl nodes) ∧
      ∀ u path, Waits collection path u [] st →
        ∃ node, nodes u = some node ∧ node.uniqueId = u ∧ node.matrix = (path.map Bson.matrix).prod := by
  induction b generalizing k st with
  | zero =>
    have hnil := hids.nil_of_zero
    exact ⟨1, st.nodes, run_leave (turn_leave hnil k) 0, fun u path h => h.matrix_eq hnil⟩
  | succ b ih =>
    by_cases hnil : st.ids = []
    · exact ⟨1, st.nodes, run_leave (turn_leave hnil k) 0, fun u path h => h.matrix_eq hnil⟩
    · obtain ⟨n, nodes, hrun, hmatrix⟩ := ih (level collection (levels k) st) rfl
        (hids.level (hdeliver k) hshared huse) (k + 1)
      refine ⟨n + 1, nodes, ?_, fun u path h => hmatrix u path (h.level (hdeliver k) hshared huse hids)⟩
      rw [run_again (turn_again st hnil k), hrun]

/-- In whatever order the cursor returns the nodes of each level, every ancestor of a mesh is applied to it once and in
its place. -/
theorem populate_matrix (collection : List (Bson U R)) (uniqueIds : List U)
    (levels : ℕ → List (Bson U R) → List (Bson U R)) (unit : ModelUnits) (offset : RepoVector3D R)
    (nodes : U → Option (Node U R)) (hid : (collection.map Bson.id).Nodup)
    (hshared : (collection.map Bson.sharedId).Nodup) (hnodup : uniqueIds.Nodup)
    (hforest : ∀ u ∈ uniqueIds, ∃ mesh ∈ collection, mesh.id = u ∧ mesh.type = "mesh" ∧
      ∃ path, Ancestors collection mesh.parents path)
    (hdeliver : ∀ k docs, (levels k docs).Perm docs) :
    ∃ n nodes', populate n collection levels unit offset nodes uniqueIds = some nodes' ∧
      ∀ mesh ∈ collection, mesh.id ∈ uniqueIds → ∀ path, Ancestors collection mesh.parents path →
        ∃ node, nodes' mesh.id = some node ∧ node.uniqueId = mesh.id ∧
          node.matrix = rootTransform unit offset * (path.map Bson.matrix).prod := by
  let start : State U R := ⟨fun _ => [], nodes, uniqueIds, false⟩
  have hmem : ∀ t, t ∈ levels 0 (query collection start) ↔ t ∈ collection ∧ t.id ∈ uniqueIds := by
    intro t
    rw [(hdeliver 0 _).mem_iff]
    unfold query
    rw [List.mem_filter, decide_eq_true_iff]
    exact Iff.rfl
  have hmeshes : ∀ t ∈ levels 0 (query collection start), t.type = "mesh" ∧ ∃ path, Ancestors collection t.parents path := by
    intro t ht
    obtain ⟨ht, hu⟩ := (hmem t).1 ht
    obtain ⟨mesh, hmesh, hid', htype, hpath⟩ := hforest t.id hu
    obtain rfl := List.inj_on_of_nodup_map hid hmesh ht hid'
    exact ⟨htype, hpath⟩
  have hids : ((levels 0 (query collection start)).map Bson.id).Nodup :=
    ((hdeliver 0 _).map _).nodup_iff.2 (hid.sublist (List.filter_sublist.map _))
  by_cases hnil : uniqueIds = []
  · subst hnil
    exact ⟨1, _, rfl, fun _ _ hu => absurd hu List.not_mem_nil⟩
  -- the parents of the meshes are transformations, each below finitely many others
  obtain ⟨b, hb⟩ : ∃ b, Bounded collection b (level collection (levels 0) start).ids := by
    refine Bounded.exists_of_forall fun s hs => ?_
    unfold level at hs
    rw [foldl_visit_ids, List.nil_append] at hs
    obtain ⟨t, ht, hs⟩ := List.mem_flatMap.1 hs
    obtain ⟨-, path, hpath⟩ := hmeshes t ht
    obtain ⟨t', above, ht', htype', hid', -, -, habove⟩ := hpath.of_mem hs
    refine ⟨above.length + 1, fun s' hs' => ?_⟩
    obtain rfl := List.mem_singleton.1 hs'
    exact ⟨t', ht', htype', hid', above, habove, Nat.lt_succ_self _⟩
  obtain ⟨n, nodes', hrun, hmatrix⟩ := exists_run hdeliver hshared (level collection (levels 0) start) rfl hb 1
  refine ⟨n + 1, premultiply (rootTransform unit offset) uniqueIds nodes', ?_, fun mesh hmesh hu path hpath => ?_⟩
  · unfold populate
    rw [run_again (turn_again start hnil 0), hrun]
  · have hwaits := waits_foldl_visit { start with ids := [] } hids hmeshes (fun _ => rfl)
      ((hmem mesh).2 ⟨hmesh, hu⟩) hpath
    obtain ⟨next, above, below, hsplit, hat⟩ := hwaits
    obtain ⟨node, hnode, huid, hprod⟩ := hmatrix mesh.id path
      ⟨next, above, below, hsplit, hat.ancestors, hat.matrix, hat.count, hat.pending⟩
    refine ⟨{ node with matrix := rootTransform unit offset * node.matrix }, ?_, huid, ?_⟩
    · exact premultiply_of_count_eq_one _ (List.count_eq_one_of_mem hnodup hu) hnode
    · rw [← hprod]

/-- Two meshes at different depths below one root, whose nodes are returned in the opposite order. -/
theorem populate_matrix_forest :
    let collection : List (Bson ℕ ℚ) :=
      [⟨1, 11, [], "transformation", RepoMatrix.scale 2⟩,
        ⟨2, 12, [11], "transformation", RepoMatrix.translate ⟨1, 2, 3⟩⟩,
        ⟨3, 13, [12], "mesh", 1⟩, ⟨4, 14, [11], "mesh", 1⟩]
    ∃ n nodes', populate n collection (fun _ => List.reverse) .metres ⟨5, 6, 7⟩ (fun _ => none) [3, 4] = some nodes' ∧
      ∀ mesh ∈ collection, mesh.id ∈ [3, 4] → ∀ path, Ancestors collection mesh.parents path →
        ∃ node, nodes' mesh.id = some node ∧ node.uniqueId = mesh.id ∧
          node.matrix = rootTransform .metres ⟨5, 6, 7⟩ * (path.map Bson.matrix).prod := by
  intro collection
  have hmem : ⟨1, 11, [], "transformation", RepoMatrix.scale 2⟩ ∈ collection := by simp [collection]
  have hroot : Ancestors collection [11] ([] ++ [⟨1, 11, [], "transformation", RepoMatrix.scale 2⟩]) :=
    .child hmem rfl .root
  refine populate_matrix collection [3, 4] (fun _ => List.reverse) .metres ⟨5, 6, 7⟩ (fun _ => none) (by decide)
    (by decide) (by decide) (fun u hu => ?_) (fun _ => List.reverse_perm)
  rcases List.mem_pair.1 hu with rfl | rfl
  · exact ⟨⟨3, 13, [12], "mesh", 1⟩, by simp [collection], rfl, rfl, _,
      .child (by simp [collection] : ⟨2, 12, [11], "transformation", RepoMatrix.translate ⟨1, 2, 3⟩⟩ ∈ collection) rfl hroot⟩
  · exact ⟨⟨4, 14, [11], "mesh", 1⟩, by simp [collection], rfl, rfl, _, hroot⟩

end Visit

end Sparse

end Bouncer
