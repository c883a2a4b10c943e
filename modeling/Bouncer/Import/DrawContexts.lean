import Bouncer.Import.GeometryCollector

/-!
# The stack of draw contexts

The collector sends each face to the context on top of its stack, with the material last set there.  `Drawing` is what the
callbacks have done so far, and `arrivals` are the faces that come while a context is on top.

`addFace` looks whether there is a context.  `setMaterial` does not, and reads the top of an empty stack if there is none.
So each context's extraction returns its faces exactly if every material is set inside a context, and the faces under each
material can be extracted (`routes_iff`).
-/

namespace Bouncer

open GeometryCollector (Context Failure MapOrders drawn)
open RepoMeshBuilder (Face Rounding Usable)

/-- `GeometryCollector`: the contexts that were made, the stack of those that are drawn, and the latest material. -/
structure GeometryCollector (R M : Type) where
  made : List (Context R M)
  contexts : List ContextId
  latestMaterial : M
  worldOffset : RepoVector3D R

namespace GeometryCollector

variable {R M : Type}

/-- A call to the collector, or the extraction of a context. -/
inductive Event (R M : Type) where
  | makeNewDrawContext
  | pushDrawContext (ctx : Option ContextId)
  | popDrawContext (ctx : Option ContextId)
  | setMaterial (material : M)
  | addFace (face : Face R)
  | extractMeshes (ctx : ContextId) (m : RepoMatrix R) (orders : MapOrders R M)

section Calls

variable [ExactReal R] (checksum : M → BitVec 64) (rounding : Rounding R) (s : GeometryCollector R M)

def makeNewDrawContext : GeometryCollector R M :=
  { s with made := s.made ++ [Context.make checksum s.worldOffset s.latestMaterial] }

omit [ExactReal R] in
/-- A null pointer is not pushed. -/
def pushDrawContext : Option ContextId → GeometryCollector R M
  | none => s
  | some ctx => { s with contexts := ctx :: s.contexts }

omit [ExactReal R] in
def popDrawContext : Option ContextId → Except Failure (GeometryCollector R M)
  | none => .ok s
  | some ctx =>
    match s.contexts with
    | [] => .error .emptyStack
    | top :: rest => if top ≠ ctx then .error .notOnTop else .ok { s with contexts := rest }

omit [ExactReal R] in
/-- There is no check for a context here. -/
def setMaterial (material : M) : Except Failure (GeometryCollector R M) :=
  match s.contexts with
  | [] => .error .emptyStack
  | top :: _ =>
    match s.made[top]? with
    | none => .error .noContext
    | some ctx => .ok { s with made := s.made.set top (ctx.setMaterial checksum material), latestMaterial := material }

def addFace (face : Face R) : Except Failure (GeometryCollector R M) :=
  match s.contexts with
  | [] => .ok s
  | top :: _ =>
    match s.made[top]? with
    | none => .error .noContext
    | some ctx => do
      let ctx ← ctx.addFace face
      return { s with made := s.made.set top ctx }

/-- `extractMeshes` of a context. -/
def extractMeshes (id : ContextId) (m : RepoMatrix R) (orders : MapOrders R M) :
    Except Failure (List (MeshGeometry R × M) × GeometryCollector R M) :=
  match s.made[id]? with
  | none => .error .noContext
  | some ctx => do
    let extracted ← ctx.extractMeshes rounding m orders
    return (extracted.1, { s with made := s.made.set id extracted.2 })

/-- What a call returns, and from which context. -/
abbrev Returned (R M : Type) := List (ContextId × List (MeshGeometry R × M))

def step : Event R M → Except Failure (GeometryCollector R M × Returned R M)
  | .makeNewDrawContext => .ok (s.makeNewDrawContext checksum, [])
  | .pushDrawContext ctx => .ok (s.pushDrawContext ctx, [])
  | .popDrawContext ctx => (s.popDrawContext ctx).map fun s => (s, [])
  | .setMaterial material => (s.setMaterial checksum material).map fun s => (s, [])
  | .addFace face => (s.addFace face).map fun s => (s, [])
  | .extractMeshes ctx m orders => (s.extractMeshes rounding ctx m orders).map fun p => (p.2, [(ctx, p.1)])

/-- A sequence of calls, from a state in which some were returned. -/
def run (state : GeometryCollector R M × Returned R M) (events : List (Event R M)) :
    Except Failure (GeometryCollector R M × Returned R M) :=
  events.foldlM (fun state e => do
    let next ← step checksum rounding state.1 e
    return (next.1, state.2 ++ next.2)) state

/-- The constructor, with the default material. -/
def start (worldOffset : RepoVector3D R) (material : M) : GeometryCollector R M := ⟨[], [], material, worldOffset⟩

end Calls

/-! ### What is drawn -/

/-- The stack of contexts, the material last set on each that was made, the latest material of all, and the contexts that
have been extracted. -/
structure Drawing (M : Type) where
  stack : List ContextId
  materials : List M
  latest : M
  extracted : List ContextId

namespace Drawing

variable (d : Drawing M)

def step : Event R M → Drawing M
  | .makeNewDrawContext => { d with materials := d.materials ++ [d.latest] }
  | .pushDrawContext none => d
  | .pushDrawContext (some ctx) => { d with stack := ctx :: d.stack }
  | .popDrawContext none => d
  | .popDrawContext (some _) => { d with stack := d.stack.tail }
  | .setMaterial material =>
    { d with materials := (d.stack.head?.elim d.materials fun ctx => d.materials.set ctx material), latest := material }
  | .addFace _ => d
  | .extractMeshes ctx _ _ => { d with extracted := ctx :: d.extracted }

/-- A face that comes while a context is on top, and the material last set there. -/
def arrival : Event R M → List (ContextId × Face R × M)
  | .addFace face => (d.stack.head?.bind fun ctx => d.materials[ctx]?.map fun material => (ctx, face, material)).toList
  | _ => []

/-- Contexts are pushed after they are made, and popped from the top.  Each is extracted at most once, and no face
comes for it after that. -/
def Allowed : Event R M → Prop
  | .pushDrawContext (some ctx) => ctx < d.materials.length
  | .popDrawContext (some ctx) => d.stack.head? = some ctx
  | .addFace face => ∀ ctx, d.stack.head? = some ctx → ctx ∉ d.extracted ∧ face.Valid
  | .extractMeshes ctx _ _ => ctx < d.materials.length ∧ ctx ∉ d.extracted
  | _ => True

end Drawing

section Spec

variable (initial : M)

/-- What has been done after some calls. -/
def after (events : List (Event R M)) : Drawing M := events.foldl Drawing.step ⟨[], [], initial, []⟩

def arrivals : Drawing M → List (Event R M) → List (ContextId × Face R × M)
  | _, [] => []
  | d, e :: events => d.arrival e ++ arrivals (d.step e) events

/-- The faces that come for a context, with their materials. -/
def arrivalsAt (events : List (Event R M)) (ctx : ContextId) : List (Face R × M) :=
  ((arrivals ⟨[], [], initial, []⟩ events).filter fun a => decide (a.1 = ctx)).map Prod.snd

/-- Each call is allowed after those before it. -/
inductive Nested : List (Event R M) → Prop
  | nil : Nested []
  | concat {events : List (Event R M)} {e : Event R M} : Nested events → (after initial events).Allowed e →
    Nested (events ++ [e])

/-- Every context that was made has been extracted. -/
def Completed (events : List (Event R M)) : Prop :=
  ∀ ctx < (after initial events).materials.length, ctx ∈ (after initial events).extracted

/-- The materials that there are. -/
def materialsOf (events : List (Event R M)) : Set M := {material | material = initial ∨ .setMaterial material ∈ events}

/-- Every material is set while a context is on top. -/
def SetInside (events : List (Event R M)) : Prop :=
  ∀ before material rest, events = before ++ .setMaterial material :: rest → (after initial before).stack ≠ []

/-- What an extraction with this matrix is to return. -/
def expected [ExactReal R] (rounding : Rounding R) (worldOffset : RepoVector3D R) (m : RepoMatrix R)
    (faces : List (Face R × M)) : List (RepoMeshBuilder.Appearance R × M) :=
  faces.map fun p => (p.1.appearance rounding (-worldOffset) m, p.2)

/-- All calls end well, and one extraction of each context returns the faces that came for it, once each and with their
materials. -/
def Routes [ExactReal R] (checksum : M → BitVec 64) (rounding : Rounding R) (worldOffset : RepoVector3D R)
    (events : List (Event R M)) : Prop :=
  ∃ s returned, run checksum rounding (start worldOffset initial, []) events = .ok (s, returned) ∧
    ∀ ctx < (after initial events).materials.length, ∃ m orders pairs, .extractMeshes ctx m orders ∈ events ∧
      (returned.filter fun r => decide (r.1 = ctx)) = [(ctx, pairs)] ∧
      (drawn pairs).Perm (expected rounding worldOffset m (arrivalsAt initial events ctx))

end Spec

/-! ### One more call -/

section Concat

variable {initial : M} {events : List (Event R M)} {e : Event R M} {ctx : ContextId}

private theorem after_concat : after initial (events ++ [e]) = (after initial events).step e := by
  rw [after, List.foldl_append]
  rfl

private theorem arrivals_append (d : Drawing M) (events events' : List (Event R M)) :
    arrivals d (events ++ events') = arrivals d events ++ arrivals (events.foldl Drawing.step d) events' := by
  induction events generalizing d with
  | nil => rfl
  | cons e events ih => rw [List.cons_append, arrivals, arrivals, ih, List.append_assoc, List.foldl_cons]

private theorem arrivalsAt_concat : arrivalsAt initial (events ++ [e]) ctx = arrivalsAt initial events ctx ++
    (((after initial events).arrival e).filter fun a => decide (a.1 = ctx)).map Prod.snd := by
  have hlast : arrivals (after initial events) [e] = (after initial events).arrival e := List.append_nil _
  rw [arrivalsAt, arrivals_append, List.filter_append, List.map_append]
  congr 3

private theorem arrivalsAt_concat_of_nil (h : (after initial events).arrival e = []) :
    arrivalsAt initial (events ++ [e]) ctx = arrivalsAt initial events ctx := by
  rw [arrivalsAt_concat, h]
  exact List.append_nil _

private theorem arrivalsAt_concat_addFace {face : Face R} {top : ContextId} {material : M}
    (htop : (after initial events).stack.head? = some top) (hmaterial : (after initial events).materials[top]? = some material) :
    arrivalsAt initial (events ++ [.addFace face]) ctx =
      arrivalsAt initial events ctx ++ if top = ctx then [(face, material)] else [] := by
  have harrival : (after initial events).arrival (.addFace face) = [(top, face, material)] := by
    rw [Drawing.arrival, htop, Option.bind_some, hmaterial]
    rfl
  rw [arrivalsAt_concat, harrival]
  by_cases hctx : top = ctx
  · rw [if_pos hctx, List.filter_cons_of_pos (by simpa using hctx)]
    rfl
  · rw [if_neg hctx, List.filter_cons_of_neg (by simpa using hctx)]
    rfl

variable [ExactReal R] {checksum : M → BitVec 64} {rounding : Rounding R}

private theorem run_concat {state state' : GeometryCollector R M × Returned R M} :
    run checksum rounding state (events ++ [e]) = .ok state' ↔
      ∃ state₁ next, run checksum rounding state events = .ok state₁ ∧ step checksum rounding state₁.1 e = .ok next ∧
        (next.1, state₁.2 ++ next.2) = state' := by
  rw [run, List.foldlM_append, Library.Fallible.bind_eq_ok]
  constructor
  · rintro ⟨state₁, hrun, hlast⟩
    rw [Library.Fallible.foldlM_cons_eq_ok] at hlast
    obtain ⟨state₂, hstep, ⟨⟩⟩ := hlast
    obtain ⟨next, hnext, ⟨⟩⟩ := Library.Fallible.bind_eq_ok.1 hstep
    exact ⟨state₁, next, hrun, hnext, rfl⟩
  · rintro ⟨state₁, next, hrun, hnext, rfl⟩
    refine ⟨state₁, hrun, Library.Fallible.foldlM_cons_eq_ok.2 ⟨_, ?_, rfl⟩⟩
    rw [hnext]
    rfl

end Concat

/-! ### The collector follows the drawing -/

section Follows

variable [ExactReal R] (checksum : M → BitVec 64) (rounding : Rounding R) (materials : Set M)
  (worldOffset : RepoVector3D R) (initial : M)

/-- Every context that is not extracted yet holds the faces that came for it, and those that are have returned them. -/
structure Follows (events : List (Event R M)) (s : GeometryCollector R M) (returned : Returned R M) : Prop where
  contexts : s.contexts = (after initial events).stack
  latest : s.latestMaterial = (after initial events).latest
  latest_mem : (after initial events).latest ∈ materials
  offset : s.worldOffset = worldOffset
  length : s.made.length = (after initial events).materials.length
  stack_lt : ∀ ctx ∈ (after initial events).stack, ctx < s.made.length
  extracted_lt : ∀ ctx ∈ (after initial events).extracted, ctx < s.made.length
  arrivals_lt : ∀ ctx, arrivalsAt initial events ctx ≠ [] → ctx < s.made.length
  holds : ∀ (id : ContextId) (ctx : Context R M) (material : M), s.made[id]? = some ctx →
    (after initial events).materials[id]? = some material → id ∉ (after initial events).extracted →
    ctx.Holds checksum materials (-worldOffset) (arrivalsAt initial events id) material
  returns : ∀ ctx ∈ (after initial events).extracted, ∃ m orders pairs, .extractMeshes ctx m orders ∈ events ∧
    (returned.filter fun r => decide (r.1 = ctx)) = [(ctx, pairs)] ∧
    (drawn pairs).Perm (expected rounding worldOffset m (arrivalsAt initial events ctx))
  keeps : ∀ ctx ∉ (after initial events).extracted, (returned.filter fun r => decide (r.1 = ctx)) = []

variable {checksum rounding materials worldOffset initial} {events : List (Event R M)} {e : Event R M}
  {s s' : GeometryCollector R M} {returned returned' : Returned R M}

private theorem follows_start (hmem : initial ∈ materials) :
    Follows checksum rounding materials worldOffset initial [] (start worldOffset initial) [] where
  contexts := rfl
  latest := rfl
  latest_mem := hmem
  offset := rfl
  length := rfl
  stack_lt := fun _ h => absurd h List.not_mem_nil
  extracted_lt := fun _ h => absurd h List.not_mem_nil
  arrivals_lt := fun _ h => absurd rfl h
  holds := fun _ _ _ h => nomatch h
  returns := fun _ h => absurd h List.not_mem_nil
  keeps := fun _ _ => rfl

section Steps

variable (h : Follows checksum rounding materials worldOffset initial events s returned)
include h

private theorem Follows.returns_concat
    (hsame : ∀ ctx ∈ (after initial events).extracted,
      arrivalsAt initial (events ++ [e]) ctx = arrivalsAt initial events ctx) {ctx : ContextId}
    (hctx : ctx ∈ (after initial events).extracted) : ∃ m orders pairs, .extractMeshes ctx m orders ∈ events ++ [e] ∧
      (returned.filter fun r => decide (r.1 = ctx)) = [(ctx, pairs)] ∧
      (drawn pairs).Perm (expected rounding worldOffset m (arrivalsAt initial (events ++ [e]) ctx)) := by
  obtain ⟨m, orders, pairs, hevent, hreturned, hperm⟩ := h.returns ctx hctx
  exact ⟨m, orders, pairs, List.mem_append_left _ hevent, hreturned, (hsame ctx hctx).symm ▸ hperm⟩

theorem Follows.makeNewDrawContext :
    Follows checksum rounding materials worldOffset initial (events ++ [.makeNewDrawContext])
      (s.makeNewDrawContext checksum) returned := by
  have hsame : ∀ ctx, arrivalsAt initial (events ++ [.makeNewDrawContext]) ctx = arrivalsAt initial events ctx :=
    fun ctx => arrivalsAt_concat_of_nil rfl
  have hlength : (s.makeNewDrawContext checksum).made.length = s.made.length + 1 := List.length_append
  constructor
  · exact after_concat ▸ h.contexts
  · exact after_concat ▸ h.latest
  · exact after_concat ▸ h.latest_mem
  · exact h.offset
  · rw [hlength, after_concat, h.length]
    show _ = ((after initial events).materials ++ [(after initial events).latest]).length
    rw [List.length_append, List.length_singleton]
  · rw [after_concat, hlength]
    exact fun ctx hctx => Nat.lt_succ_of_lt (h.stack_lt ctx hctx)
  · rw [after_concat, hlength]
    exact fun ctx hctx => Nat.lt_succ_of_lt (h.extracted_lt ctx hctx)
  · intro ctx hctx
    rw [hlength]
    exact Nat.lt_succ_of_lt (h.arrivals_lt ctx (hsame ctx ▸ hctx))
  · rw [after_concat]
    intro id ctx material hctx hmaterial hid
    rw [hsame]
    by_cases hlt : id < s.made.length
    · have hold : s.made[id]? = some ctx := (List.getElem?_append_left hlt).symm.trans hctx
      have hmaterial' : (after initial events).materials[id]? = some material :=
        (List.getElem?_append_left (h.length ▸ hlt)).symm.trans hmaterial
      exact h.holds id ctx material hold hmaterial' hid
    · -- nothing has come for the new context
      have hnone : arrivalsAt initial events id = [] := by
        by_contra hne
        exact hlt (h.arrivals_lt id hne)
      have hid : id = s.made.length := by
        have hlt' : id < s.made.length + 1 := hlength ▸ (List.getElem?_eq_some_iff.1 hctx).1
        exact Nat.le_antisymm (Nat.lt_succ_iff.1 hlt') (not_lt.1 hlt)
      have hctx' : Context.make checksum s.worldOffset s.latestMaterial = ctx := by
        have hget : (s.makeNewDrawContext checksum).made[s.made.length]? =
            some (Context.make checksum s.worldOffset s.latestMaterial) := List.getElem?_concat_length
        rw [hid, hget] at hctx
        exact Option.some.inj hctx
      have hlatest : (after initial events).latest = material := by
        have hget : ((after initial events).step (R := R) .makeNewDrawContext).materials[s.made.length]? =
            some (after initial events).latest := by
          rw [h.length]
          exact List.getElem?_concat_length
        rw [hid, hget] at hmaterial
        exact Option.some.inj hmaterial
      rw [hnone, ← hctx', ← hlatest, h.offset, h.latest]
      exact Context.holds_make checksum worldOffset h.latest_mem
  · rw [after_concat]
    exact fun ctx hctx => h.returns_concat (fun ctx _ => hsame ctx) hctx
  · rw [after_concat]
    exact h.keeps

/-- The contexts and what they hold are the same. -/
theorem Follows.ofStack
    (stack : List ContextId) (harrival : (after initial events).arrival e = [])
    (hafter : (after initial events).step e = { after initial events with stack := stack })
    (hstack : ∀ ctx ∈ stack, ctx < s.made.length) :
    Follows checksum rounding materials worldOffset initial (events ++ [e]) { s with contexts := stack } returned := by
  have hsame : ∀ ctx, arrivalsAt initial (events ++ [e]) ctx = arrivalsAt initial events ctx :=
    fun ctx => arrivalsAt_concat_of_nil harrival
  have hdrawing : after initial (events ++ [e]) = { after initial events with stack := stack } :=
    after_concat.trans hafter
  constructor
  · rw [hdrawing]
  · exact hdrawing ▸ h.latest
  · exact hdrawing ▸ h.latest_mem
  · exact h.offset
  · exact hdrawing ▸ h.length
  · exact hdrawing ▸ hstack
  · exact hdrawing ▸ h.extracted_lt
  · intro ctx hctx
    exact h.arrivals_lt ctx (hsame ctx ▸ hctx)
  · rw [hdrawing]
    intro id ctx material hctx hmaterial hid
    exact hsame id ▸ h.holds id ctx material hctx hmaterial hid
  · rw [hdrawing]
    exact fun ctx hctx => h.returns_concat (fun ctx _ => hsame ctx) hctx
  · exact hdrawing ▸ h.keeps

private theorem Follows.exists_top
    {top : ContextId} (htop : (after initial events).stack.head? = some top) : ∃ rest ctx material,
      s.contexts = top :: rest ∧ s.made[top]? = some ctx ∧ (after initial events).materials[top]? = some material := by
  obtain ⟨rest, hstack⟩ := List.head?_eq_some_iff.1 htop
  have hlt : top < s.made.length := h.stack_lt top (hstack ▸ List.mem_cons_self)
  have hlt' : top < (after initial events).materials.length := h.length ▸ hlt
  exact ⟨rest, s.made[top], (after initial events).materials[top], h.contexts.trans hstack,
    List.getElem?_eq_getElem hlt, List.getElem?_eq_getElem hlt'⟩

theorem Follows.setMaterial
    {top : ContextId} (htop : (after initial events).stack.head? = some top) {material : M} (hmem : material ∈ materials) :
    ∃ s', s.setMaterial checksum material = .ok s' ∧ Follows checksum rounding materials worldOffset initial
      (events ++ [.setMaterial material]) s' returned := by
  obtain ⟨rest, ctx, old, hcontexts, hctx, hold⟩ := h.exists_top htop
  have hsame : ∀ ctx, arrivalsAt initial (events ++ [.setMaterial material]) ctx = arrivalsAt initial events ctx :=
    fun ctx => arrivalsAt_concat_of_nil rfl
  have hset : s.setMaterial checksum material = .ok
      { s with made := s.made.set top (ctx.setMaterial checksum material), latestMaterial := material } := by
    unfold GeometryCollector.setMaterial
    rw [hcontexts]
    dsimp only
    rw [hctx]
  have hdrawing : after initial (events ++ [.setMaterial material]) = { after initial events with
      materials := (after initial events).materials.set top material, latest := material } := by
    rw [after_concat, Drawing.step, htop]
    rfl
  refine ⟨_, hset, ?_⟩
  have hlength : (s.made.set top (ctx.setMaterial checksum material)).length = s.made.length := List.length_set
  constructor
  · exact hdrawing ▸ h.contexts
  · rw [hdrawing]
  · exact hdrawing ▸ hmem
  · exact h.offset
  · rw [hdrawing]
    exact hlength.trans (h.length.trans List.length_set.symm)
  · rw [hdrawing, hlength]
    exact h.stack_lt
  · rw [hdrawing, hlength]
    exact h.extracted_lt
  · intro ctx hctx
    rw [hlength]
    exact h.arrivals_lt ctx (hsame ctx ▸ hctx)
  · rw [hdrawing]
    intro id ctx' material' hctx' hmaterial' hid
    rw [hsame]
    by_cases htop : top = id
    · subst htop
      have hlt := (List.getElem?_eq_some_iff.1 hctx).1
      rw [List.getElem?_set_self hlt] at hctx'
      rw [List.getElem?_set_self (h.length ▸ hlt)] at hmaterial'
      cases hctx'
      cases hmaterial'
      exact (h.holds top ctx old hctx hold hid).setMaterial hmem
    · rw [List.getElem?_set_ne htop] at hctx' hmaterial'
      exact h.holds id ctx' material' hctx' hmaterial' hid
  · rw [hdrawing]
    exact fun ctx hctx => h.returns_concat (fun ctx _ => hsame ctx) hctx
  · exact hdrawing ▸ h.keeps

theorem Follows.addFace {face : Face R}
    (hallowed : (after initial events).Allowed (.addFace face)) :
    ∃ s', s.addFace face = .ok s' ∧ Follows checksum rounding materials worldOffset initial
      (events ++ [.addFace face]) s' returned := by
  have hdrawing : after initial (events ++ [.addFace face]) = after initial events := after_concat
  cases htop : (after initial events).stack.head? with
  | none =>
    have hstack : (after initial events).stack = [] := List.head?_eq_none_iff.1 htop
    have hadd : s.addFace face = .ok s := by
      unfold GeometryCollector.addFace
      rw [h.contexts, hstack]
    have harrival : (after initial events).arrival (.addFace face) = [] := by
      rw [Drawing.arrival, htop]
      rfl
    refine ⟨s, hadd, ?_⟩
    have hfollows := h.ofStack (after initial events).stack harrival rfl h.stack_lt
    rwa [← h.contexts] at hfollows
  | some top =>
    obtain ⟨rest, ctx, material, hcontexts, hctx, hmaterial⟩ := h.exists_top htop
    obtain ⟨hextracted, hvalid⟩ := hallowed top htop
    obtain ⟨ctx', hadd, hholds⟩ := (h.holds top ctx material hctx hmaterial hextracted).addFace hvalid
    have hlt := (List.getElem?_eq_some_iff.1 hctx).1
    have hcollector : s.addFace face = .ok { s with made := s.made.set top ctx' } := by
      unfold GeometryCollector.addFace
      rw [hcontexts]
      dsimp only
      rw [hctx]
      dsimp only
      rw [hadd]
      rfl
    have hother : ∀ id, top ≠ id → arrivalsAt initial (events ++ [.addFace face]) id = arrivalsAt initial events id := by
      intro id hid
      rw [arrivalsAt_concat_addFace htop hmaterial, if_neg hid, List.append_nil]
    have hlength : (s.made.set top ctx').length = s.made.length := List.length_set
    refine ⟨_, hcollector, ?_⟩
    constructor
    · exact hdrawing ▸ h.contexts
    · exact hdrawing ▸ h.latest
    · exact hdrawing ▸ h.latest_mem
    · exact h.offset
    · rw [hdrawing]
      exact hlength.trans h.length
    · rw [hdrawing, hlength]
      exact h.stack_lt
    · rw [hdrawing, hlength]
      exact h.extracted_lt
    · intro id hid
      rw [hlength]
      by_cases hsame : top = id
      · exact hsame ▸ hlt
      · exact h.arrivals_lt id (hother id hsame ▸ hid)
    · rw [hdrawing]
      intro id ctx₁ material₁ hctx₁ hmaterial₁ hid
      by_cases hsame : top = id
      · subst hsame
        rw [List.getElem?_set_self hlt] at hctx₁
        cases hctx₁
        rw [hmaterial] at hmaterial₁
        cases hmaterial₁
        rwa [arrivalsAt_concat_addFace htop hmaterial, if_pos rfl]
      · rw [List.getElem?_set_ne hsame] at hctx₁
        exact hother id hsame ▸ h.holds id ctx₁ material₁ hctx₁ hmaterial₁ hid
    · rw [hdrawing]
      intro ctx hctx
      exact h.returns_concat (fun id hid => hother id fun hsame => hextracted (hsame ▸ hid)) hctx
    · exact hdrawing ▸ h.keeps

section Extract

variable {id : ContextId} {m : RepoMatrix R} {orders : MapOrders R M}

private theorem Follows.exists_context
    (hallowed : (after initial events).Allowed (.extractMeshes id m orders)) :
    ∃ ctx material, s.made[id]? = some ctx ∧
      ctx.Holds checksum materials (-worldOffset) (arrivalsAt initial events id) material ∧
      s.extractMeshes rounding id m orders = (ctx.extractMeshes rounding m orders).map fun extracted =>
        (extracted.1, { s with made := s.made.set id extracted.2 }) := by
  obtain ⟨hlt, hextracted⟩ := hallowed
  have hlt' : id < s.made.length := h.length.symm ▸ hlt
  refine ⟨s.made[id], (after initial events).materials[id], List.getElem?_eq_getElem hlt', ?_, ?_⟩
  · exact h.holds id _ _ (List.getElem?_eq_getElem hlt') (List.getElem?_eq_getElem hlt) hextracted
  · unfold GeometryCollector.extractMeshes
    rw [List.getElem?_eq_getElem hlt']
    dsimp only
    cases Context.extractMeshes rounding m orders s.made[id] <;> rfl

theorem Follows.exists_extractMeshes_iff [DecidableEq M]
    (hinj : Set.InjOn checksum materials) (hallowed : (after initial events).Allowed (.extractMeshes id m orders))
    (hm : Usable rounding m) :
    (∃ result, s.extractMeshes rounding id m orders = .ok result) ↔
      Context.Extractable (arrivalsAt initial events id) := by
  obtain ⟨ctx, material, -, hholds, heq⟩ := h.exists_context hallowed
  rw [heq, ← hholds.extracts_iff rounding orders hinj hm]
  constructor
  · rintro ⟨result, hresult⟩
    obtain ⟨extracted, hextracted, -⟩ := Library.Fallible.map_eq_ok.1 hresult
    exact ⟨extracted, hextracted⟩
  · rintro ⟨extracted, hextracted⟩
    exact ⟨_, Library.Fallible.map_eq_ok.2 ⟨extracted, hextracted, rfl⟩⟩

theorem Follows.extractMeshes
    (hinj : Set.InjOn checksum materials) (hallowed : (after initial events).Allowed (.extractMeshes id m orders))
    (hm : Usable rounding m) {result : List (MeshGeometry R × M) × GeometryCollector R M}
    (hresult : s.extractMeshes rounding id m orders = .ok result) :
    Follows checksum rounding materials worldOffset initial (events ++ [.extractMeshes id m orders]) result.2
      (returned ++ [(id, result.1)]) := by
  obtain ⟨ctx, material, hctx, hholds, heq⟩ := h.exists_context hallowed
  obtain ⟨hlt, hnew⟩ := hallowed
  obtain ⟨extracted, hextracted, rfl⟩ := Library.Fallible.map_eq_ok.1 (heq.symm.trans hresult)
  have hdrawing : after initial (events ++ [.extractMeshes id m orders]) =
      { after initial events with extracted := id :: (after initial events).extracted } := after_concat
  have hsame : ∀ ctx, arrivalsAt initial (events ++ [.extractMeshes id m orders]) ctx = arrivalsAt initial events ctx :=
    fun ctx => arrivalsAt_concat_of_nil rfl
  have hlength : (s.made.set id extracted.2).length = s.made.length := List.length_set
  have hfilter : ∀ other, other ≠ id → ((returned ++ [(id, extracted.1)]).filter fun r => decide (r.1 = other)) =
      returned.filter fun r => decide (r.1 = other) := by
    intro other hother
    rw [List.filter_append, List.filter_cons_of_neg (by simpa using Ne.symm hother)]
    exact List.append_nil _
  constructor
  · exact hdrawing ▸ h.contexts
  · exact hdrawing ▸ h.latest
  · exact hdrawing ▸ h.latest_mem
  · exact h.offset
  · rw [hdrawing]
    exact hlength.trans h.length
  · rw [hdrawing]
    dsimp only
    rw [hlength]
    exact h.stack_lt
  · rw [hdrawing]
    dsimp only
    rw [hlength]
    intro ctx hctx
    rcases List.mem_cons.1 hctx with rfl | hctx
    · exact h.length.symm ▸ hlt
    · exact h.extracted_lt ctx hctx
  · intro other hother
    dsimp only
    rw [hlength]
    exact h.arrivals_lt other (hsame other ▸ hother)
  · rw [hdrawing]
    intro other ctx' material' hctx' hmaterial' hother
    have hne : id ≠ other := fun heq => hother (heq ▸ List.mem_cons_self)
    dsimp only at hctx'
    rw [List.getElem?_set_ne hne] at hctx'
    rw [hsame]
    exact h.holds other ctx' material' hctx' hmaterial' fun hmem => hother (List.mem_cons_of_mem _ hmem)
  · rw [hdrawing]
    intro other hother
    rcases List.mem_cons.1 hother with rfl | hold
    · refine ⟨m, orders, extracted.1, List.mem_append_right _ List.mem_cons_self, ?_, ?_⟩
      · rw [List.filter_append, h.keeps other hnew, List.filter_cons_of_pos (by simp)]
        rfl
      · rw [hsame]
        exact hholds.extractMeshes hinj hm hextracted
    · rw [hfilter other fun heq => hnew (heq ▸ hold)]
      exact h.returns_concat (fun ctx _ => hsame ctx) hold
  · rw [hdrawing]
    intro other hother
    have hne : other ≠ id := fun heq => hother (heq ▸ List.mem_cons_self)
    rw [hfilter other hne]
    exact h.keeps other fun hmem => hother (List.mem_cons_of_mem _ hmem)

end Extract

/-! ### Runs -/

variable (initial) in
/-- The call ends well after those before it. -/
def Safe [DecidableEq M] (events : List (Event R M)) : Event R M → Prop
  | .setMaterial _ => (after initial events).stack ≠ []
  | .extractMeshes ctx _ _ => Context.Extractable (arrivalsAt initial events ctx)
  | _ => True

theorem Follows.popDrawContext
    {ctx : Option ContextId} (hallowed : (after initial events).Allowed (.popDrawContext ctx : Event R M)) :
    ∃ s', s.popDrawContext ctx = .ok s' ∧ Follows checksum rounding materials worldOffset initial
      (events ++ [.popDrawContext ctx]) s' returned := by
  cases ctx with
  | none =>
    have hsame := h.ofStack (after initial events).stack (e := .popDrawContext none) rfl rfl h.stack_lt
    rw [← h.contexts] at hsame
    exact ⟨s, rfl, hsame⟩
  | some ctx =>
    obtain ⟨rest, hstack⟩ := List.head?_eq_some_iff.1 hallowed
    have hcontexts := h.contexts.trans hstack
    refine ⟨{ s with contexts := rest }, ?_, h.ofStack rest rfl ?_ ?_⟩
    · unfold GeometryCollector.popDrawContext
      rw [hcontexts]
      exact if_neg (not_not.2 rfl)
    · rw [Drawing.step, hstack]
      rfl
    · exact fun other hother => h.stack_lt other (hstack ▸ List.mem_cons_of_mem _ hother)

theorem Follows.pushDrawContext
    {ctx : Option ContextId} (hallowed : (after initial events).Allowed (.pushDrawContext ctx : Event R M)) :
    Follows checksum rounding materials worldOffset initial (events ++ [.pushDrawContext ctx]) (s.pushDrawContext ctx)
      returned := by
  cases ctx with
  | none =>
    have hsame := h.ofStack (after initial events).stack (e := .pushDrawContext none) rfl rfl h.stack_lt
    rwa [← h.contexts] at hsame
  | some ctx =>
    have hpushed : s.pushDrawContext (some ctx) = { s with contexts := ctx :: (after initial events).stack } := by
      rw [← h.contexts]
      rfl
    rw [hpushed]
    apply h.ofStack _ rfl rfl
    intro other hother
    rcases List.mem_cons.1 hother with rfl | hother
    · exact h.length.symm ▸ hallowed
    · exact h.stack_lt other hother

theorem Follows.exists_step_iff [DecidableEq M]
    (hinj : Set.InjOn checksum materials) (hallowed : (after initial events).Allowed e)
    (hmem : ∀ material, e = .setMaterial material → material ∈ materials)
    (husable : ∀ ctx m orders, e = .extractMeshes ctx m orders → Usable rounding m) :
    (∃ next, step checksum rounding s e = .ok next) ↔ Safe initial events e := by
  cases e with
  | makeNewDrawContext => exact ⟨fun _ => trivial, fun _ => ⟨_, rfl⟩⟩
  | pushDrawContext ctx => exact ⟨fun _ => trivial, fun _ => ⟨_, rfl⟩⟩
  | popDrawContext ctx =>
    obtain ⟨s', hpop, -⟩ := h.popDrawContext hallowed
    exact ⟨fun _ => trivial, fun _ => ⟨_, Library.Fallible.map_eq_ok.2 ⟨s', hpop, rfl⟩⟩⟩
  | addFace face =>
    obtain ⟨s', hadd, -⟩ := h.addFace hallowed
    exact ⟨fun _ => trivial, fun _ => ⟨_, Library.Fallible.map_eq_ok.2 ⟨s', hadd, rfl⟩⟩⟩
  | setMaterial material =>
    constructor
    · rintro ⟨next, hnext⟩ hempty
      obtain ⟨s', hset, -⟩ := Library.Fallible.map_eq_ok.1 hnext
      unfold GeometryCollector.setMaterial at hset
      rw [h.contexts, hempty] at hset
      exact nomatch hset
    · intro hne
      obtain ⟨top, htop⟩ := Option.isSome_iff_exists.1 (List.isSome_head?.2 hne)
      obtain ⟨s', hset, -⟩ := h.setMaterial htop (hmem material rfl)
      exact ⟨_, Library.Fallible.map_eq_ok.2 ⟨s', hset, rfl⟩⟩
  | extractMeshes ctx m orders =>
    rw [Safe, ← h.exists_extractMeshes_iff hinj hallowed (husable ctx m orders rfl)]
    constructor
    · rintro ⟨next, hnext⟩
      obtain ⟨result, hresult, -⟩ := Library.Fallible.map_eq_ok.1 hnext
      exact ⟨result, hresult⟩
    · rintro ⟨result, hresult⟩
      exact ⟨_, Library.Fallible.map_eq_ok.2 ⟨result, hresult, rfl⟩⟩

theorem Follows.step
    (hinj : Set.InjOn checksum materials) (hallowed : (after initial events).Allowed e)
    (hmem : ∀ material, e = .setMaterial material → material ∈ materials)
    (husable : ∀ ctx m orders, e = .extractMeshes ctx m orders → Usable rounding m) {next : GeometryCollector R M × Returned R M}
    (hstep : step checksum rounding s e = .ok next) :
    Follows checksum rounding materials worldOffset initial (events ++ [e]) next.1 (returned ++ next.2) := by
  cases e with
  | makeNewDrawContext =>
    cases hstep
    exact (List.append_nil returned).symm ▸ h.makeNewDrawContext
  | pushDrawContext ctx =>
    cases hstep
    exact (List.append_nil returned).symm ▸ h.pushDrawContext hallowed
  | popDrawContext ctx =>
    obtain ⟨s', hpop, rfl⟩ := Library.Fallible.map_eq_ok.1 hstep
    obtain ⟨s₁, hs₁, hfollows⟩ := h.popDrawContext hallowed
    cases hs₁.symm.trans hpop
    exact (List.append_nil returned).symm ▸ hfollows
  | addFace face =>
    obtain ⟨s', hadd, rfl⟩ := Library.Fallible.map_eq_ok.1 hstep
    obtain ⟨s₁, hs₁, hfollows⟩ := h.addFace hallowed
    cases hs₁.symm.trans hadd
    exact (List.append_nil returned).symm ▸ hfollows
  | setMaterial material =>
    obtain ⟨s', hset, rfl⟩ := Library.Fallible.map_eq_ok.1 hstep
    cases htop : (after initial events).stack.head? with
    | none =>
      unfold GeometryCollector.setMaterial at hset
      rw [h.contexts, List.head?_eq_none_iff.1 htop] at hset
      exact nomatch hset
    | some top =>
      obtain ⟨s₁, hs₁, hfollows⟩ := h.setMaterial htop (hmem material rfl)
      cases hs₁.symm.trans hset
      exact (List.append_nil returned).symm ▸ hfollows
  | extractMeshes ctx m orders =>
    obtain ⟨result, hresult, rfl⟩ := Library.Fallible.map_eq_ok.1 hstep
    exact h.extractMeshes hinj hallowed (husable _ _ _ rfl) hresult

end Steps

omit [ExactReal R] in
private theorem arrivalsAt_concat_of_extracted (hallowed : (after initial events).Allowed e) {ctx : ContextId}
    (hctx : ctx ∈ (after initial events).extracted) :
    arrivalsAt initial (events ++ [e]) ctx = arrivalsAt initial events ctx := by
  cases e with
  | addFace face =>
    rw [arrivalsAt_concat]
    have hnone : (((after initial events).arrival (.addFace face)).filter fun a => decide (a.1 = ctx)) = [] := by
      rw [List.filter_eq_nil_iff]
      intro a ha hkey
      rw [Drawing.arrival, Option.mem_toList, Option.bind_eq_some_iff] at ha
      obtain ⟨top, htop, ha⟩ := ha
      obtain ⟨material, -, rfl⟩ := Option.map_eq_some_iff.1 ha
      exact (hallowed top htop).1 ((of_decide_eq_true hkey : top = ctx) ▸ hctx)
    rw [hnone]
    exact List.append_nil _
  | _ => exact arrivalsAt_concat_of_nil rfl

omit [ExactReal R] in
private theorem setInside_nil : SetInside initial ([] : List (Event R M)) := by
  intro before material rest h
  exact absurd h.symm (List.append_ne_nil_of_right_ne_nil _ (List.cons_ne_nil _ _))

omit [ExactReal R] in
private theorem setInside_concat : SetInside initial (events ++ [e]) ↔
    SetInside initial events ∧ ∀ material, e = .setMaterial material → (after initial events).stack ≠ [] := by
  constructor
  · intro h
    refine ⟨fun before material rest heq => h before material (rest ++ [e]) (by rw [heq]; simp), ?_⟩
    rintro material rfl
    exact h events material [] rfl
  · rintro ⟨hevents, hlast⟩ before material rest heq
    rcases List.eq_nil_or_concat rest with rfl | ⟨rest, e', rfl⟩
    · obtain ⟨rfl, he⟩ := List.append_inj' heq rfl
      exact hlast material (List.singleton_inj.1 he)
    · rw [List.concat_eq_append, ← List.cons_append, ← List.append_assoc] at heq
      exact hevents before material rest (List.append_inj' heq rfl).1

/-- The faces that came for the contexts that have been extracted could be. -/
def ExtractableFaces [DecidableEq M] (initial : M) (events : List (Event R M)) : Prop :=
  ∀ ctx ∈ (after initial events).extracted, Context.Extractable (arrivalsAt initial events ctx)

omit [ExactReal R] in
private theorem safe_concat_iff [DecidableEq M] (hallowed : (after initial events).Allowed e) :
    (SetInside initial (events ++ [e]) ∧ ExtractableFaces initial (events ++ [e])) ↔
      (SetInside initial events ∧ ExtractableFaces initial events) ∧ Safe initial events e := by
  have hold : ∀ ctx ∈ (after initial events).extracted,
      arrivalsAt initial (events ++ [e]) ctx = arrivalsAt initial events ctx :=
    fun ctx hctx => arrivalsAt_concat_of_extracted hallowed hctx
  have hsame : ((after initial events).step e).extracted = (after initial events).extracted →
      (ExtractableFaces initial (events ++ [e]) ↔ ExtractableFaces initial events) := by
    intro heq
    unfold ExtractableFaces
    rw [after_concat, heq]
    exact forall₂_congr fun ctx hctx => by rw [hold ctx hctx]
  have hplain : (∀ material, e ≠ .setMaterial material) →
      ((after initial events).step e).extracted = (after initial events).extracted → Safe initial events e →
      ((SetInside initial (events ++ [e]) ∧ ExtractableFaces initial (events ++ [e])) ↔
        (SetInside initial events ∧ ExtractableFaces initial events) ∧ Safe initial events e) := by
    intro hne heq hsafe
    rw [setInside_concat, hsame heq]
    constructor
    · exact fun h => ⟨⟨h.1.1, h.2⟩, hsafe⟩
    · exact fun h => ⟨⟨h.1.1, fun material he => absurd he (hne material)⟩, h.1.2⟩
  cases e with
  | setMaterial material =>
    rw [setInside_concat, hsame rfl, Safe]
    constructor
    · rintro ⟨⟨hevents, hlast⟩, hfaces⟩
      exact ⟨⟨hevents, hfaces⟩, hlast material rfl⟩
    · rintro ⟨⟨hevents, hfaces⟩, hlast⟩
      exact ⟨⟨hevents, fun _ _ => hlast⟩, hfaces⟩
  | extractMeshes id m orders =>
    have hnew : arrivalsAt initial (events ++ [.extractMeshes id m orders]) id = arrivalsAt initial events id :=
      arrivalsAt_concat_of_nil rfl
    have hfaces : ExtractableFaces initial (events ++ [.extractMeshes id m orders]) ↔
        Context.Extractable (arrivalsAt initial events id) ∧ ExtractableFaces initial events := by
      unfold ExtractableFaces
      rw [after_concat, Drawing.step, List.forall_mem_cons, hnew]
      exact and_congr_right fun _ => forall₂_congr fun ctx hctx => by rw [hold ctx hctx]
    rw [setInside_concat, hfaces, Safe]
    constructor
    · rintro ⟨⟨hevents, -⟩, hlast, hold⟩
      exact ⟨⟨hevents, hold⟩, hlast⟩
    · rintro ⟨⟨hevents, hold⟩, hlast⟩
      exact ⟨⟨hevents, nofun⟩, hlast, hold⟩
  | makeNewDrawContext => exact hplain nofun rfl trivial
  | addFace face => exact hplain nofun rfl trivial
  | pushDrawContext ctx => cases ctx <;> exact hplain nofun rfl trivial
  | popDrawContext ctx => cases ctx <;> exact hplain nofun rfl trivial

omit [ExactReal R] in
/-- What was extracted had been made. -/
theorem extracted_lt (hnested : Nested initial events) {ctx : ContextId}
    (hctx : ctx ∈ (after initial events).extracted) : ctx < (after initial events).materials.length := by
  induction hnested with
  | nil => exact absurd hctx List.not_mem_nil
  | @concat events e _ hallowed ih =>
    rw [after_concat] at hctx ⊢
    cases e with
    | makeNewDrawContext =>
      rw [Drawing.step, List.length_append]
      exact Nat.lt_add_right _ (ih hctx)
    | pushDrawContext pushed => cases pushed <;> exact ih hctx
    | popDrawContext popped => cases popped <;> exact ih hctx
    | addFace face => exact ih hctx
    | setMaterial material =>
      rw [Drawing.step]
      cases (after initial events).stack.head? with
      | none => exact ih hctx
      | some top =>
        rw [Option.elim_some, List.length_set]
        exact ih hctx
    | extractMeshes id m orders =>
      rcases List.mem_cons.1 hctx with rfl | hctx
      · exact hallowed.1
      · exact ih hctx

variable (rounding worldOffset) in
/-- The calls end well exactly if materials are set inside contexts and the faces can be extracted, and then the collector
follows the drawing. -/
theorem follows_run [DecidableEq M] (hnested : Nested initial events) (hinj : Set.InjOn checksum materials)
    (hinitial : initial ∈ materials) (hmem : ∀ material, .setMaterial material ∈ events → material ∈ materials)
    (husable : ∀ ctx m orders, .extractMeshes ctx m orders ∈ events → Usable rounding m) :
    ((∃ state, run checksum rounding (start worldOffset initial, []) events = .ok state) ↔
      SetInside initial events ∧ ExtractableFaces initial events) ∧
    ∀ state, run checksum rounding (start worldOffset initial, []) events = .ok state →
      Follows checksum rounding materials worldOffset initial events state.1 state.2 := by
  induction hnested with
  | nil =>
    refine ⟨⟨fun _ => ⟨setInside_nil, fun _ h => absurd h List.not_mem_nil⟩, fun _ => ⟨_, rfl⟩⟩, ?_⟩
    rintro state ⟨⟩
    exact follows_start hinitial
  | @concat events e hnested hallowed ih =>
    obtain ⟨hiff, hfollows⟩ := ih (fun material h => hmem material (List.mem_append_left _ h))
      fun ctx m orders h => husable ctx m orders (List.mem_append_left _ h)
    have hlast : ∀ material, e = .setMaterial material → material ∈ materials := by
      rintro material rfl
      exact hmem material (List.mem_append_right _ List.mem_cons_self)
    have hmatrix : ∀ ctx m orders, e = .extractMeshes ctx m orders → Usable rounding m := by
      rintro ctx m orders rfl
      exact husable ctx m orders (List.mem_append_right _ List.mem_cons_self)
    constructor
    · rw [safe_concat_iff hallowed, ← hiff]
      constructor
      · rintro ⟨state, hstate⟩
        obtain ⟨state₁, next, hrun, hnext, -⟩ := run_concat.1 hstate
        exact ⟨⟨state₁, hrun⟩, ((hfollows state₁ hrun).exists_step_iff hinj hallowed hlast hmatrix).1 ⟨next, hnext⟩⟩
      · rintro ⟨⟨state₁, hrun⟩, hsafe⟩
        obtain ⟨next, hnext⟩ := ((hfollows state₁ hrun).exists_step_iff hinj hallowed hlast hmatrix).2 hsafe
        exact ⟨_, run_concat.2 ⟨state₁, next, hrun, hnext, rfl⟩⟩
    · intro state hstate
      obtain ⟨state₁, next, hrun, hnext, rfl⟩ := run_concat.1 hstate
      exact (hfollows state₁ hrun).step hinj hallowed hlast hmatrix hnext

end Follows

section Routing

variable [ExactReal R] [DecidableEq M] {checksum : M → BitVec 64} {initial : M} {events : List (Event R M)}

/-- For every sequence of calls with properly nested contexts, each of which is extracted once, after its last face and
with a matrix that does not end the process, the faces are routed to the extractions of their contexts exactly if every
material is set while a context is on top, and the faces that come for one context under one material can be extracted:
there are not both triangles with UVs and triangles without, and their vertices can be counted. -/
theorem routes_iff (rounding : Rounding R) (worldOffset : RepoVector3D R) (hnested : Nested initial events)
    (hcompleted : Completed initial events) (hinj : Set.InjOn checksum (materialsOf initial events))
    (husable : ∀ ctx m orders, .extractMeshes ctx m orders ∈ events → Usable rounding m) :
    Routes initial checksum rounding worldOffset events ↔ SetInside initial events ∧
      ∀ ctx < (after initial events).materials.length, Context.Extractable (arrivalsAt initial events ctx) := by
  obtain ⟨hiff, hfollows⟩ := follows_run rounding worldOffset hnested hinj (.inl rfl) (fun material h => .inr h) husable
  have hextracted : ExtractableFaces initial events ↔
      ∀ ctx < (after initial events).materials.length, Context.Extractable (arrivalsAt initial events ctx) := by
    constructor
    · exact fun h ctx hctx => h ctx (hcompleted ctx hctx)
    · exact fun h ctx hctx => h ctx (extracted_lt hnested hctx)
  rw [← hextracted, ← hiff]
  constructor
  · rintro ⟨s, returned, hrun, -⟩
    exact ⟨_, hrun⟩
  · rintro ⟨state, hrun⟩
    refine ⟨state.1, state.2, hrun, fun ctx hctx => ?_⟩
    exact (hfollows state hrun).returns ctx (hcompleted ctx hctx)

end Routing

section Examples

/-- An extraction that goes through maps as they are, with the identity. -/
noncomputable def exampleExtraction (ctx : ContextId) : Event ℝ Bool :=
  .extractMeshes ctx (RepoMatrix.scale 1) ⟨⟨id, fun _ => List.Perm.refl _⟩, fun _ => ⟨id, fun _ => List.Perm.refl _⟩⟩

/-- Textured triangles. -/
noncomputable def exampleFace : Face ℝ := RepoMeshBuilder.triangleFace RepoMeshBuilder.unitUvs

/-- A context in which a triangle is drawn, after a face outside it. -/
noncomputable def exampleEvents : List (Event ℝ Bool) :=
  [.makeNewDrawContext, .addFace RepoMeshBuilder.lineFace, .pushDrawContext (some 0), .setMaterial true,
    .addFace exampleFace, .popDrawContext (some 0), exampleExtraction 0]

def exampleChecksum (material : Bool) : BitVec 64 := if material then 1 else 0

private theorem exampleChecksum_injective : Function.Injective exampleChecksum := by decide

private theorem nested_exampleEvents : Nested false exampleEvents := by
  have hvalid : exampleFace.Valid := .inr ⟨rfl, .inr rfl⟩
  have hmade : Nested false ([] ++ [(.makeNewDrawContext : Event ℝ Bool)]) := .concat .nil trivial
  have houtside := hmade.concat (e := .addFace RepoMeshBuilder.lineFace) nofun
  have hpushed := houtside.concat (e := .pushDrawContext (some 0)) Nat.one_pos
  have hset := hpushed.concat (e := .setMaterial true) trivial
  have hadded := hset.concat (e := .addFace exampleFace) fun _ _ => ⟨List.not_mem_nil, hvalid⟩
  have hpopped := hadded.concat (e := .popDrawContext (some 0)) rfl
  exact hpopped.concat (e := exampleExtraction 0)
    ⟨Nat.one_pos, List.not_mem_nil⟩

private theorem setInside_exampleEvents : SetInside false exampleEvents := by
  have hmade : SetInside false ([] ++ [(.makeNewDrawContext : Event ℝ Bool)]) :=
    setInside_concat.2 ⟨setInside_nil, nofun⟩
  have houtside := setInside_concat (e := .addFace RepoMeshBuilder.lineFace) |>.2 ⟨hmade, nofun⟩
  have hpushed := setInside_concat (e := .pushDrawContext (some 0)) |>.2 ⟨houtside, nofun⟩
  have hset := setInside_concat (e := .setMaterial true) |>.2 ⟨hpushed, fun _ _ => List.cons_ne_nil _ _⟩
  have hadded := setInside_concat (e := .addFace exampleFace) |>.2 ⟨hset, nofun⟩
  have hpopped := setInside_concat (e := .popDrawContext (some 0)) |>.2 ⟨hadded, nofun⟩
  exact setInside_concat (e := exampleExtraction 0) |>.2 ⟨hpopped, nofun⟩

/-- The triangle is routed to the extraction of its context, and the face outside it is dropped. -/
theorem routes_example : Routes false exampleChecksum .exact 0 exampleEvents := by
  refine (routes_iff .exact 0 nested_exampleEvents ?_ exampleChecksum_injective.injOn ?_).2 ⟨setInside_exampleEvents, ?_⟩
  · intro ctx hctx
    have hzero : ctx = 0 := Nat.lt_one_iff.1 hctx
    exact hzero ▸ List.mem_cons_self
  · intro ctx m orders hmem
    obtain ⟨-, rfl, -⟩ : ctx = 0 ∧ m = RepoMatrix.scale 1 ∧ _ := by simpa [exampleEvents, exampleExtraction] using hmem
    exact RepoMeshBuilder.usable_of_affine (RepoMeshBuilder.affine_scale 1) RepoMeshBuilder.determinant_scale_one
  · intro ctx hctx material
    obtain rfl : ctx = 0 := Nat.lt_one_iff.1 hctx
    have harrivals : arrivalsAt false exampleEvents 0 = [(exampleFace, true)] := rfl
    rw [harrivals]
    cases material with
    | false => exact ⟨fun ⟨⟨_, hbf, _⟩, _⟩ => absurd hbf List.not_mem_nil, fun _ hbf => absurd hbf List.not_mem_nil⟩
    | true =>
      have hfaces : Context.facesWith [(exampleFace, true)] true = [exampleFace] := rfl
      rw [hfaces]
      constructor
      · rintro ⟨-, bf, hbf, -, hnone⟩
        rw [List.mem_singleton.1 hbf] at hnone
        exact List.cons_ne_nil _ _ hnone
      · intro bf hbf
        rw [List.mem_singleton.1 hbf]
        have hsize : exampleFace.getSize = 3 := rfl
        simp [hsize]

/-- A material is set before there is a context. -/
theorem not_routes : Nested false [(.setMaterial true : Event ℝ Bool)] ∧
    Completed false [(.setMaterial true : Event ℝ Bool)] ∧
    Set.InjOn exampleChecksum (materialsOf false [(.setMaterial true : Event ℝ Bool)]) ∧
    run exampleChecksum .exact (start 0 false, []) [(.setMaterial true : Event ℝ Bool)] = .error .emptyStack ∧
    ¬ Routes false exampleChecksum .exact 0 [(.setMaterial true : Event ℝ Bool)] := by
  have hrun : run exampleChecksum .exact (start 0 false, []) [(.setMaterial true : Event ℝ Bool)] = .error .emptyStack := rfl
  refine ⟨Nested.concat (e := .setMaterial true) .nil trivial, fun _ h => absurd h (Nat.not_lt_zero _),
    exampleChecksum_injective.injOn, hrun, ?_⟩
  rintro ⟨s, returned, hok, -⟩
  rw [hrun] at hok
  exact nomatch hok

end Examples

end GeometryCollector

end Bouncer
