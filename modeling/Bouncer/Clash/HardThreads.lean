import Bouncer.Clash.Hard
import Bouncer.Clash.SingleTriangle
import Bouncer.Datastructure.VectorAlgebra
import Bouncer.Library.Threads

/-!
# The threads of the hard pipeline

A thread of the narrowphase takes a sample from its own queue, initialises the two entries if no other thread did it
yet, makes the one with the larger bounds the fixed one, and runs `RepoDeformDepth` while it holds the locks of both.
The test shrinks the mesh of the other entry for some time, and puts it back.

Only the comparison of the bounds holds no lock.  As long as it finds the meshes undeformed, what a test does is that of
the sample alone (`Settled`), whichever thread runs it and whenever (`independent_of_clear`).  It need not find them so:
another thread may be shrinking one of them (`not_independent_sails`).
-/

namespace Bouncer.Clash.Hard

open RepoDeformDepth (search iterateStep iterate maxIterations construct intersect offsets performLocalSearch
  crossingGeometry)

/-- A mesh as `CacheEntry::initialise` leaves it. -/
abbrev Loaded (R : Type*) [Field R] [LinearOrder R] := {mesh : Deformable R // mesh.Undeformed}

/-- What the test of a sample did. -/
structure TestResult (ι R : Type*) where
  /-- The two entries as they were in the queue. -/
  sample : ι × ι
  /-- The entry that is moved, and the fixed one. -/
  roles : ι × ι
  /-- What is written to the clash, if it is a clash. -/
  contacts : Option (List (RepoVector3D R))

/-- Where a thread is in its loop. -/
inductive Phase (ι R : Type*) where
  | next
  | first (sample : ι × ι)
  | second (sample : ι × ι)
  | compare (sample : ι × ι)
  | acquire (sample roles : ι × ι)
  | search (sample roles : ι × ι)
  /-- In `iterate`, with some turns left. -/
  | iterate (sample roles : ι × ι) (n : ℕ) (distance : R)
  | reset (sample roles : ι × ι) (distance : R)
  | record (sample roles : ι × ι) (distance : R)
  | returned

structure SampleThread (ι R : Type*) where
  id : ℕ
  queue : List (ι × ι)
  phase : Phase ι R

/-- What the threads share. -/
structure Entries (ι R : Type*) where
  /-- The meshes of the entries that have been initialised. -/
  mesh : ι → Option (Deformable R)
  /-- The thread that holds the lock of an entry. -/
  holder : ι → Option ℕ
  results : List (TestResult ι R)

section Model

variable {ι R : Type*} [DecidableEq ι] [ExactReal R]

/-- `std::swap`, if the first bounds are the larger ones. -/
def roles (a b : Deformable R) (sample : ι × ι) : ι × ι := if a.bounds.gt b.bounds then sample.swap else sample

/-- The contacts, if the penetration depth is beyond the tolerance. -/
def contacts (tolerance : R) (a b : DeformMesh R) (distance : R) : Option (List (RepoVector3D R)) :=
  if distance > tolerance then some (getContactManifold a b) else none

namespace Entries

/-- The entry is initialised, if it is not yet. -/
def initialise (load : ι → Loaded R) (s : Entries ι R) (i : ι) : Entries ι R :=
  { s with mesh := Function.update s.mesh i (some ((s.mesh i).getD (load i))) }

def setMesh (s : Entries ι R) (i : ι) (mesh : Deformable R) : Entries ι R :=
  { s with mesh := Function.update s.mesh i (some mesh) }

/-- Both locks are taken, or given back. -/
def setHolder (s : Entries ι R) (roles : ι × ι) (holder : Option ℕ) : Entries ι R :=
  { s with holder := Function.update (Function.update s.holder roles.1 holder) roles.2 holder }

private theorem initialise_mesh (load : ι → Loaded R) (s : Entries ι R) (i j : ι) :
    (s.initialise load i).mesh j = if j = i then some ((s.mesh i).getD (load i)) else s.mesh j :=
  Function.update_apply ..

omit [ExactReal R] in
private theorem setMesh_mesh (s : Entries ι R) (i : ι) (mesh : Deformable R) (j : ι) :
    (s.setMesh i mesh).mesh j = if j = i then some mesh else s.mesh j := Function.update_apply ..

omit [ExactReal R] in
private theorem setHolder_holder (s : Entries ι R) (roles : ι × ι) (holder : Option ℕ) (i : ι) :
    (s.setHolder roles holder).holder i = if i = roles.2 ∨ i = roles.1 then holder else s.holder i := by
  unfold setHolder
  dsimp only
  rw [Function.update_apply, Function.update_apply, ite_or]

end Entries

variable (geometry : Geometry R) (tolerance : R) (load : ι → Loaded R)

/-- One step of a thread.  A test that raises an exception ends the program, and has no step. -/
inductive SampleStep : SampleThread ι R × Entries ι R → SampleThread ι R × Entries ι R → Prop
  | take (id : ℕ) (sample : ι × ι) (queue : List (ι × ι)) (s : Entries ι R) :
    SampleStep (⟨id, sample :: queue, .next⟩, s) (⟨id, queue, .first sample⟩, s)
  | first (id : ℕ) (queue : List (ι × ι)) {sample : ι × ι} {s : Entries ι R} (h : s.holder sample.1 = none) :
    SampleStep (⟨id, queue, .first sample⟩, s) (⟨id, queue, .second sample⟩, s.initialise load sample.1)
  | second (id : ℕ) (queue : List (ι × ι)) {sample : ι × ι} {s : Entries ι R} (h : s.holder sample.2 = none) :
    SampleStep (⟨id, queue, .second sample⟩, s) (⟨id, queue, .compare sample⟩, s.initialise load sample.2)
  | compare (id : ℕ) (queue : List (ι × ι)) {sample : ι × ι} {s : Entries ι R} {a b : Deformable R}
      (ha : s.mesh sample.1 = some a) (hb : s.mesh sample.2 = some b) :
    SampleStep (⟨id, queue, .compare sample⟩, s) (⟨id, queue, .acquire sample (roles a b sample)⟩, s)
  | acquire (id : ℕ) (queue : List (ι × ι)) (sample : ι × ι) {roles : ι × ι} {s : Entries ι R}
      (hne : roles.1 ≠ roles.2) (ha : s.holder roles.1 = none) (hb : s.holder roles.2 = none) :
    SampleStep (⟨id, queue, .acquire sample roles⟩, s) (⟨id, queue, .search sample roles⟩, s.setHolder roles (some id))
  | finished (id : ℕ) (queue : List (ι × ι)) (sample : ι × ι) {roles : ι × ι} {s : Entries ι R} {a b : Deformable R}
      {distance : R} (ha : s.mesh roles.1 = some a) (hb : s.mesh roles.2 = some b)
      (h : search geometry tolerance a.toDeformMesh b.toDeformMesh = some (.finished distance)) :
    SampleStep (⟨id, queue, .search sample roles⟩, s) (⟨id, queue, .record sample roles distance⟩, s)
  | unresolved (id : ℕ) (queue : List (ι × ι)) (sample : ι × ι) {roles : ι × ι} {s : Entries ι R} {a b : Deformable R}
      {distance : R} (ha : s.mesh roles.1 = some a) (hb : s.mesh roles.2 = some b)
      (h : search geometry tolerance a.toDeformMesh b.toDeformMesh = some (.unresolved distance)) :
    SampleStep (⟨id, queue, .search sample roles⟩, s) (⟨id, queue, .iterate sample roles maxIterations distance⟩, s)
  | iterate (id : ℕ) (queue : List (ι × ι)) (sample : ι × ι) (n : ℕ) {roles : ι × ι} {s : Entries ι R}
      {a a' b : Deformable R} {distance distance' : R} {more : Bool} (ha : s.mesh roles.1 = some a)
      (hb : s.mesh roles.2 = some b)
      (h : iterateStep geometry tolerance a b.toDeformMesh distance = some (a', distance', more)) :
    SampleStep (⟨id, queue, .iterate sample roles (n + 1) distance⟩, s)
      (⟨id, queue, if more then .iterate sample roles n distance' else .reset sample roles distance'⟩,
        s.setMesh roles.1 a')
  | stop (id : ℕ) (queue : List (ι × ι)) (sample roles : ι × ι) (distance : R) (s : Entries ι R) :
    SampleStep (⟨id, queue, .iterate sample roles 0 distance⟩, s) (⟨id, queue, .reset sample roles distance⟩, s)
  | reset (id : ℕ) (queue : List (ι × ι)) (sample : ι × ι) {roles : ι × ι} (distance : R) {s : Entries ι R}
      {a : Deformable R} (ha : s.mesh roles.1 = some a) :
    SampleStep (⟨id, queue, .reset sample roles distance⟩, s)
      (⟨id, queue, .record sample roles distance⟩, s.setMesh roles.1 a.resetConfiguration)
  | record (id : ℕ) (queue : List (ι × ι)) (sample : ι × ι) {roles : ι × ι} (distance : R) {s : Entries ι R}
      {a b : Deformable R} (ha : s.mesh roles.1 = some a) (hb : s.mesh roles.2 = some b) :
    SampleStep (⟨id, queue, .record sample roles distance⟩, s)
      (⟨id, queue, .next⟩, { s.setHolder roles none with
        results := s.results ++ [⟨sample, roles, contacts tolerance a.toDeformMesh b.toDeformMesh distance⟩] })
  | leave (id : ℕ) (s : Entries ι R) : SampleStep (⟨id, [], .next⟩, s) (⟨id, [], .returned⟩, s)

/-- The threads with their queues, before any of them has done a step. -/
def start (queues : List (List (ι × ι))) : List (SampleThread ι R) × Entries ι R :=
  (queues.zipIdx.map fun p => ⟨p.2, p.1, .next⟩, ⟨fun _ => none, fun _ => none, []⟩)

/-! ### Independence of the schedule -/

omit [DecidableEq ι] [ExactReal R] in
/-- The sample of a phase, and its roles once they are chosen. -/
def Phase.chosen : Phase ι R → Option ((ι × ι) × (ι × ι))
  | .acquire sample roles | .search sample roles | .iterate sample roles _ _ | .reset sample roles _
  | .record sample roles _ => some (sample, roles)
  | _ => none

/-- Two states of two runs agree about the roles of each sample and about its result, and have the same results once all
threads have returned. -/
structure Agree (c c' : List (SampleThread ι R) × Entries ι R) : Prop where
  roles : ∀ l ∈ c.1, ∀ l' ∈ c'.1, ∀ sample roles roles', l.phase.chosen = some (sample, roles) →
    l'.phase.chosen = some (sample, roles') → roles = roles'
  result : ∀ r ∈ c.2.results, ∀ r' ∈ c'.2.results, r.sample = r'.sample → r = r'
  results : (∀ l ∈ c.1, l.phase = .returned) → (∀ l ∈ c'.1, l.phase = .returned) → c.2.results.Perm c'.2.results

/-- However the same samples are distributed over threads, and in whatever order these take their steps, the runs
agree. -/
def Independent (step : SampleThread ι R × Entries ι R → SampleThread ι R × Entries ι R → Prop) : Prop :=
  ∀ (queues queues' : List (List (ι × ι))) (c c' : List (SampleThread ι R) × Entries ι R),
    queues.flatten.Perm queues'.flatten → Library.Threads.Run step (start queues) c →
      Library.Threads.Run step (start queues') c' → Agree c c'

/-- If the bounds are compared next, no other thread has deformed one of the meshes. -/
def Clear (c : SampleThread ι R × Entries ι R) : Prop :=
  ∀ sample, c.1.phase = .compare sample → ∀ i ∈ [sample.1, sample.2], ∀ mesh, c.2.mesh i = some mesh →
    mesh.deformed = false

/-- A step that does not compare the bounds of a deformed mesh. -/
def ClearStep (c c' : SampleThread ι R × Entries ι R) : Prop := SampleStep geometry tolerance load c c' ∧ Clear c

end Model

/-! ### What the threads rely on -/

section Asserts

variable {ι R : Type*} [DecidableEq ι] [ExactReal R]

/-- The roles that the meshes as they were loaded have. -/
def rolesOf (load : ι → Loaded R) (sample : ι × ι) : ι × ι := roles (load sample.1).1 (load sample.2).1 sample

/-- The test of the meshes as they were loaded, with the roles that they have then. -/
def constructLoaded (geometry : Geometry R) (tolerance : R) (load : ι → Loaded R) (sample : ι × ι) :
    Option (Deformable R × R) :=
  construct geometry tolerance (load (rolesOf load sample).1).1 (load (rolesOf load sample).2).1.toDeformMesh

/-- What the test of a sample does on its own. -/
def outcome (geometry : Geometry R) (tolerance : R) (load : ι → Loaded R) (sample : ι × ι) : Option (TestResult ι R) :=
  (constructLoaded geometry tolerance load sample).map fun p => ⟨sample, rolesOf load sample,
    contacts tolerance (load (rolesOf load sample).1).1.toDeformMesh (load (rolesOf load sample).2).1.toDeformMesh p.2⟩

/-- The thread holds both locks, and the fixed mesh is as it was loaded. -/
structure Holds (load : ι → Loaded R) (id : ℕ) (roles : ι × ι) (s : Entries ι R) : Prop where
  ne : roles.1 ≠ roles.2
  moved : s.holder roles.1 = some id
  fixed : s.holder roles.2 = some id
  mesh : s.mesh roles.2 = some (load roles.2).1

/-- What a thread knows of the sample and its two meshes. -/
def Asserts (geometry : Geometry R) (tolerance : R) (load : ι → Loaded R) (l : SampleThread ι R) (s : Entries ι R) :
    Prop :=
  match l.phase with
  | .next | .first _ | .returned => True
  | .second sample => (s.mesh sample.1).isSome
  | .compare sample => (s.mesh sample.1).isSome ∧ (s.mesh sample.2).isSome
  | .acquire sample roles => roles = rolesOf load sample ∧ (s.mesh roles.1).isSome ∧ (s.mesh roles.2).isSome
  | .search sample roles => roles = rolesOf load sample ∧ Holds load l.id roles s ∧
      s.mesh roles.1 = some (load roles.1).1
  | .iterate sample roles n distance => roles = rolesOf load sample ∧ Holds load l.id roles s ∧
      ∃ a, s.mesh roles.1 = some a ∧ (load roles.1).1.Deflated a ∧
        (iterate geometry tolerance (load roles.2).1.toDeformMesh n a distance).map
          (fun p => (p.1.resetConfiguration, p.2)) = constructLoaded geometry tolerance load sample
  | .reset sample roles distance => roles = rolesOf load sample ∧ Holds load l.id roles s ∧
      ∃ a, s.mesh roles.1 = some a ∧ (load roles.1).1.Deflated a ∧
        constructLoaded geometry tolerance load sample = some (a.resetConfiguration, distance)
  | .record sample roles distance => roles = rolesOf load sample ∧ Holds load l.id roles s ∧
      s.mesh roles.1 = some (load roles.1).1 ∧
        constructLoaded geometry tolerance load sample = some ((load roles.1).1, distance)

/-- A mesh is as it was loaded unless it is deformed, which it is only while its lock is held.  The results are those of
their samples. -/
structure Settled (geometry : Geometry R) (tolerance : R) (load : ι → Loaded R) (s : Entries ι R) : Prop where
  mesh : ∀ i m, s.mesh i = some m → m = (load i).1 ∨ m.deformed = true
  free : ∀ i m, s.mesh i = some m → s.holder i = none → m = (load i).1
  results : ∀ r ∈ s.results, outcome geometry tolerance load r.sample = some r

omit [DecidableEq ι] [ExactReal R] in
/-- What a step of a thread does not do: an entry stays initialised, and one whose lock another thread holds is left
alone. -/
structure Spares (id : ℕ) (s s' : Entries ι R) : Prop where
  isSome : ∀ i, (s.mesh i).isSome → (s'.mesh i).isSome
  holder : ∀ i j, s.holder i = some j → j ≠ id → s'.holder i = some j
  mesh : ∀ i j, s.holder i = some j → j ≠ id → s'.mesh i = s.mesh i

variable {geometry : Geometry R} {tolerance : R} {load : ι → Loaded R} {s s' : Entries ι R} {id : ℕ} {roles : ι × ι}

omit [DecidableEq ι] [ExactReal R] in
theorem Spares.refl (id : ℕ) (s : Entries ι R) : Spares id s s :=
  ⟨fun _ h => h, fun _ _ h _ => h, fun _ _ _ _ => rfl⟩

omit [DecidableEq ι] in
theorem Holds.spare (h : Holds load id roles s) {other : ℕ} (hother : id ≠ other) (hs : Spares other s s') :
    Holds load id roles s' :=
  ⟨h.ne, hs.holder _ _ h.moved hother, hs.holder _ _ h.fixed hother, (hs.mesh _ _ h.fixed hother).trans h.mesh⟩

omit [DecidableEq ι] in
private theorem Asserts.spare {l : SampleThread ι R} (h : Asserts geometry tolerance load l s) {other : ℕ}
    (hother : l.id ≠ other) (hs : Spares other s s') : Asserts geometry tolerance load l s' := by
  obtain ⟨id, queue, phase⟩ := l
  cases phase with
  | next => trivial
  | first => trivial
  | returned => trivial
  | second => exact hs.isSome _ h
  | compare => exact ⟨hs.isSome _ h.1, hs.isSome _ h.2⟩
  | acquire => exact ⟨h.1, hs.isSome _ h.2.1, hs.isSome _ h.2.2⟩
  | search =>
    obtain ⟨hroles, hholds, hmesh⟩ := h
    exact ⟨hroles, hholds.spare hother hs, (hs.mesh _ _ hholds.moved hother).trans hmesh⟩
  | iterate =>
    obtain ⟨hroles, hholds, a, hmesh, h⟩ := h
    exact ⟨hroles, hholds.spare hother hs, a, (hs.mesh _ _ hholds.moved hother).trans hmesh, h⟩
  | reset =>
    obtain ⟨hroles, hholds, a, hmesh, h⟩ := h
    exact ⟨hroles, hholds.spare hother hs, a, (hs.mesh _ _ hholds.moved hother).trans hmesh, h⟩
  | record =>
    obtain ⟨hroles, hholds, hmesh, h⟩ := h
    exact ⟨hroles, hholds.spare hother hs, (hs.mesh _ _ hholds.moved hother).trans hmesh, h⟩

/-! ### What each step does -/

theorem Settled.initialise (h : Settled geometry tolerance load s) (i : ι) :
    Settled geometry tolerance load (s.initialise load i) := by
  have hmesh : ∀ j m, (s.initialise load i).mesh j = some m → s.mesh j = some m ∨ m = (load j).1 := by
    intro j m hj
    rw [Entries.initialise_mesh] at hj
    split_ifs at hj with hji
    · subst hji
      cases hm : s.mesh j with
      | none => exact Or.inr (by rw [← Option.some.inj hj, hm, Option.getD_none])
      | some m' => exact Or.inl (by rw [← hj, hm, Option.getD_some])
    · exact Or.inl hj
  refine ⟨?_, ?_, h.results⟩
  · intro j m hj
    rcases hmesh j m hj with hj | rfl
    · exact h.mesh j m hj
    · exact Or.inl rfl
  · intro j m hj hfree
    rcases hmesh j m hj with hj | rfl
    · exact h.free j m hj hfree
    · rfl

private theorem isSome_initialise_mesh (load : ι → Loaded R) (s : Entries ι R) {i j : ι} (h : (s.mesh j).isSome ∨ j = i) :
    ((s.initialise load i).mesh j).isSome := by
  rw [Entries.initialise_mesh]
  split_ifs with hji
  · rfl
  · exact h.resolve_right hji

private theorem spares_initialise {i : ι} (h : s.holder i = none) (id : ℕ) : Spares id s (s.initialise load i) where
  isSome j hj := isSome_initialise_mesh load s (Or.inl hj)
  holder _ _ hj _ := hj
  mesh j k hj _ := by
    have hji : j ≠ i := by
      rintro rfl
      rw [h] at hj
      cases hj
    rw [Entries.initialise_mesh, if_neg hji]

private theorem Holds.spares_setMesh (h : Holds load id roles s) (mesh : Deformable R) :
    Spares id s (s.setMesh roles.1 mesh) where
  isSome i hi := by
    rw [Entries.setMesh_mesh]
    split_ifs
    · rfl
    · exact hi
  holder _ _ hi _ := hi
  mesh i j hi hj := by
    have hne : i ≠ roles.1 := by
      rintro rfl
      exact hj (Option.some.inj (hi.symm.trans h.moved))
    rw [Entries.setMesh_mesh, if_neg hne]

theorem Holds.setMesh (h : Holds load id roles s) (mesh : Deformable R) :
    Holds load id roles (s.setMesh roles.1 mesh) where
  ne := h.ne
  moved := h.moved
  fixed := h.fixed
  mesh := by rw [Entries.setMesh_mesh, if_neg h.ne.symm, h.mesh]

theorem Settled.setMesh (h : Settled geometry tolerance load s) (hholds : Holds load id roles s) {mesh : Deformable R}
    (hmesh : mesh = (load roles.1).1 ∨ mesh.deformed = true) :
    Settled geometry tolerance load (s.setMesh roles.1 mesh) := by
  refine ⟨?_, ?_, h.results⟩
  · intro i m hi
    rw [Entries.setMesh_mesh] at hi
    split_ifs at hi with hne
    · rw [← Option.some.inj hi, hne]
      exact hmesh
    · exact h.mesh i m hi
  · intro i m hi hfree
    have hne : i ≠ roles.1 := by
      rintro rfl
      have hholder : s.holder roles.1 = none := hfree
      rw [hholds.moved] at hholder
      cases hholder
    rw [Entries.setMesh_mesh, if_neg hne] at hi
    exact h.free i m hi hfree

omit [ExactReal R] in
private theorem spares_setHolder {holder : Option ℕ}
    (h : ∀ i, i = roles.2 ∨ i = roles.1 → s.holder i = none ∨ s.holder i = some id) :
    Spares id s (s.setHolder roles holder) where
  isSome _ hi := hi
  holder i j hi hj := by
    have hne : ¬ (i = roles.2 ∨ i = roles.1) := by
      intro hroles
      rcases h i hroles with hfree | hown
      · rw [hfree] at hi
        cases hi
      · exact hj (Option.some.inj (hi.symm.trans hown))
    rw [Entries.setHolder_holder, if_neg hne, hi]
  mesh _ _ _ _ := rfl

omit [DecidableEq ι] in
private theorem eq_load (hs : Settled geometry tolerance load s) {i : ι} {m : Deformable R} (hi : s.mesh i = some m)
    (hclear : m.deformed = false) : m = (load i).1 := by
  refine (hs.mesh i m hi).resolve_right ?_
  rw [hclear]
  exact Bool.false_ne_true

omit [DecidableEq ι] in
private theorem rolesOf_mem (load : ι → Loaded R) (sample : ι × ι) :
    rolesOf load sample = sample ∨ rolesOf load sample = sample.swap := by
  unfold rolesOf roles
  split_ifs
  · exact Or.inr rfl
  · exact Or.inl rfl

/-- A step keeps what its thread asserts, and what holds of the entries. -/
theorem ClearStep.keeps {l l' : SampleThread ι R} (h : ClearStep geometry tolerance load (l, s) (l', s'))
    (hs : Settled geometry tolerance load s) (hl : Asserts geometry tolerance load l s) :
    l'.id = l.id ∧ Settled geometry tolerance load s' ∧ Asserts geometry tolerance load l' s' ∧ Spares l.id s s' := by
  obtain ⟨hstep, hclear⟩ := h
  cases hstep with
  | take => exact ⟨rfl, hs, trivial, .refl _ _⟩
  | first _ _ hfree =>
    exact ⟨rfl, hs.initialise _, isSome_initialise_mesh load s (Or.inr rfl), spares_initialise hfree _⟩
  | second _ _ hfree =>
    refine ⟨rfl, hs.initialise _, ⟨?_, ?_⟩, spares_initialise hfree _⟩
    · exact isSome_initialise_mesh load s (Or.inl hl)
    · exact isSome_initialise_mesh load s (Or.inr rfl)
  | @compare _ _ sample _ a b ha hb =>
    obtain rfl := eq_load hs ha (hclear sample rfl _ (by simp) a ha)
    obtain rfl := eq_load hs hb (hclear sample rfl _ (by simp) b hb)
    refine ⟨rfl, hs, ⟨rfl, ?_⟩, .refl _ _⟩
    have hmem := rolesOf_mem load sample
    unfold rolesOf at hmem
    rcases hmem with hroles | hroles <;> rw [hroles]
    · exact hl
    · exact hl.symm
  | @acquire _ _ sample roles _ hne ha hb =>
    obtain ⟨hroles, hsome⟩ := hl
    obtain ⟨a, hmesh⟩ := Option.isSome_iff_exists.1 hsome.1
    obtain ⟨b, hmesh'⟩ := Option.isSome_iff_exists.1 hsome.2
    obtain rfl := hs.free _ a hmesh ha
    obtain rfl := hs.free _ b hmesh' hb
    refine ⟨rfl, ⟨hs.mesh, ?_, hs.results⟩, ⟨hroles, ⟨hne, ?_, ?_, hmesh'⟩, hmesh⟩, ?_⟩
    · intro i m hi hfree
      rw [Entries.setHolder_holder] at hfree
      split_ifs at hfree
      exact hs.free i m hi hfree
    · rw [Entries.setHolder_holder, if_pos (Or.inr rfl)]
    · rw [Entries.setHolder_holder, if_pos (Or.inl rfl)]
    · refine spares_setHolder ?_
      rintro i (rfl | rfl)
      · exact Or.inl hb
      · exact Or.inl ha
  | finished _ _ sample ha hb hsearch =>
    obtain ⟨hroles, hholds, hmesh⟩ := hl
    obtain rfl := Option.some.inj (hmesh.symm.trans ha)
    obtain rfl := Option.some.inj (hholds.mesh.symm.trans hb)
    refine ⟨rfl, hs, ⟨hroles, hholds, hmesh, ?_⟩, .refl _ _⟩
    rw [constructLoaded, ← hroles, construct, hsearch]
    rfl
  | unresolved _ _ sample ha hb hsearch =>
    obtain ⟨hroles, hholds, hmesh⟩ := hl
    obtain rfl := Option.some.inj (hmesh.symm.trans ha)
    obtain rfl := Option.some.inj (hholds.mesh.symm.trans hb)
    refine ⟨rfl, hs, ⟨hroles, hholds, _, hmesh, .refl, ?_⟩, .refl _ _⟩
    rw [constructLoaded, ← hroles, construct, hsearch]
    rfl
  | @iterate _ _ sample n roles _ a a' b distance distance' more ha hb hstep =>
    obtain ⟨hroles, hholds, a₀, hmesh, hdeflated, hrest⟩ := hl
    obtain rfl := Option.some.inj (hmesh.symm.trans ha)
    obtain rfl := Option.some.inj (hholds.mesh.symm.trans hb)
    have hdeflated' := hdeflated.trans (RepoDeformDepth.iterateStep_deflated hstep)
    have hmesh' : (s.setMesh roles.1 a').mesh roles.1 = some a' := by rw [Entries.setMesh_mesh, if_pos rfl]
    rw [RepoDeformDepth.iterate, hstep, Option.bind_some] at hrest
    refine ⟨rfl, hs.setMesh hholds hdeflated'.eq_or_deformed, ?_, hholds.spares_setMesh a'⟩
    cases more with
    | true => exact ⟨hroles, hholds.setMesh a', a', hmesh', hdeflated', hrest⟩
    | false => exact ⟨hroles, hholds.setMesh a', a', hmesh', hdeflated', hrest.symm⟩
  | stop =>
    obtain ⟨hroles, hholds, a, hmesh, hdeflated, hrest⟩ := hl
    exact ⟨rfl, hs, ⟨hroles, hholds, a, hmesh, hdeflated, hrest.symm⟩, .refl _ _⟩
  | @reset _ _ sample roles distance _ a ha =>
    obtain ⟨hroles, hholds, a₀, hmesh, hdeflated, hrest⟩ := hl
    obtain rfl := Option.some.inj (hmesh.symm.trans ha)
    have hreset := hdeflated.resetConfiguration (load roles.1).2
    rw [hreset] at hrest ⊢
    refine ⟨rfl, hs.setMesh hholds (Or.inl rfl), ⟨hroles, hholds.setMesh _, ?_, hrest⟩, hholds.spares_setMesh _⟩
    rw [Entries.setMesh_mesh, if_pos rfl]
  | @record id _ sample roles distance _ a b ha hb =>
    obtain ⟨hroles, hholds, hmesh, hconstruct⟩ := hl
    obtain rfl := Option.some.inj (hmesh.symm.trans ha)
    obtain rfl := Option.some.inj (hholds.mesh.symm.trans hb)
    refine ⟨rfl, ⟨hs.mesh, ?_, ?_⟩, trivial, ?_⟩
    · intro i m hi hfree
      change (s.setHolder roles none).holder i = none at hfree
      rw [Entries.setHolder_holder] at hfree
      split_ifs at hfree with hi'
      · rcases hi' with rfl | rfl
        · exact Option.some.inj (hi.symm.trans hholds.mesh)
        · exact Option.some.inj (hi.symm.trans hmesh)
      · exact hs.free i m hi hfree
    · intro r hr
      rcases List.mem_append.1 hr with hr | hr
      · exact hs.results r hr
      · obtain rfl := List.mem_singleton.1 hr
        rw [outcome, hconstruct, Option.map_some, ← hroles]
    · have hspares : Spares id s (s.setHolder roles none) := by
        refine spares_setHolder ?_
        rintro i (rfl | rfl)
        · exact Or.inr hholds.fixed
        · exact Or.inr hholds.moved
      exact ⟨hspares.isSome, hspares.holder, hspares.mesh⟩
  | leave => exact ⟨rfl, hs, trivial, .refl _ _⟩

end Asserts

/-! ### Runs -/

section Runs

variable {ι R : Type*}

/-- The sample that is tested in a phase. -/
def Phase.sample : Phase ι R → List (ι × ι)
  | .next | .returned => []
  | .first sample | .second sample | .compare sample | .acquire sample _ | .search sample _ | .iterate sample _ _ _
  | .reset sample _ _ | .record sample _ _ => [sample]

/-- The samples that a thread has yet to test. -/
def SampleThread.pending (l : SampleThread ι R) : List (ι × ι) := l.phase.sample ++ l.queue

variable [DecidableEq ι] [ExactReal R] {geometry : Geometry R} {tolerance : R} {load : ι → Loaded R}
  {s s' : Entries ι R} {queues : List (List (ι × ι))} {c : List (SampleThread ι R) × Entries ι R}

private theorem SampleStep.pending {l l' : SampleThread ι R} (h : SampleStep geometry tolerance load (l, s) (l', s')) :
    s'.results.map TestResult.sample ++ l'.pending = s.results.map TestResult.sample ++ l.pending := by
  cases h with
  | @iterate _ _ _ _ _ _ _ _ _ _ _ more => cases more <;> rfl
  | @record _ queue sample =>
    change (s.results ++ [_]).map TestResult.sample ++ queue = s.results.map TestResult.sample ++ (sample :: queue)
    rw [List.map_append, List.append_assoc]
    rfl
  | _ => rfl

theorem SampleStep.queue_eq_nil {l l' : SampleThread ι R} (h : SampleStep geometry tolerance load (l, s) (l', s'))
    (hl' : l'.phase = .returned) : l'.queue = [] := by
  cases h with
  | @iterate _ _ _ _ _ _ _ _ _ _ _ more => cases more <;> cases hl'
  | leave => rfl
  | _ => cases hl'

/-- No sample is lost, and none is tested twice. -/
theorem perm_pending (h : Library.Threads.Run (ClearStep geometry tolerance load) (start queues) c) :
    (c.2.results.map TestResult.sample ++ c.1.flatMap SampleThread.pending).Perm queues.flatten := by
  refine h.invariant (fun c => (c.2.results.map TestResult.sample ++ c.1.flatMap SampleThread.pending).Perm
    queues.flatten) ?_ ?_
  · intro ls₁ ls₂ l l' s s' hstep hperm
    refine List.Perm.trans ?_ hperm
    have hsplit : ∀ (l : SampleThread ι R) (s : Entries ι R),
        (s.results.map TestResult.sample ++ (ls₁ ++ l :: ls₂).flatMap SampleThread.pending).Perm
          ((s.results.map TestResult.sample ++ l.pending) ++ (ls₁ ++ ls₂).flatMap SampleThread.pending) := by
      intro l s
      rw [List.append_assoc]
      refine List.Perm.append_left _ ?_
      rw [← List.flatMap_cons]
      exact List.perm_middle.flatMap_right _
    refine (hsplit l' s').trans ?_
    rw [hstep.1.pending]
    exact (hsplit l s).symm
  · have hqueues : (start (R := R) queues).1.flatMap SampleThread.pending = queues.flatten := by
      unfold start
      rw [List.flatMap_map]
      have hpending : ∀ p : List (ι × ι) × ℕ, (⟨p.2, p.1, .next⟩ : SampleThread ι R).pending = p.1 := fun _ => rfl
      simp only [hpending]
      rw [List.flatMap_def, List.zipIdx_map_fst]
    rw [hqueues]
    rfl

private theorem queue_eq_nil_of_returned (h : Library.Threads.Run (ClearStep geometry tolerance load) (start queues) c) :
    ∀ l ∈ c.1, l.phase = .returned → l.queue = [] := by
  refine h.invariant (fun c => ∀ l ∈ c.1, l.phase = .returned → l.queue = []) ?_ ?_
  · intro ls₁ ls₂ l l' s s' hstep hqueue
    exact Library.Threads.forall_step hqueue hstep.1.queue_eq_nil
  · intro l hl hphase
    obtain ⟨p, -, rfl⟩ := List.mem_map.1 hl
    cases hphase

/-- After any steps the results are settled, and each thread knows what it relies on. -/
theorem settled (h : Library.Threads.Run (ClearStep geometry tolerance load) (start queues) c) :
    Settled geometry tolerance load c.2 ∧ ∀ l ∈ c.1, Asserts geometry tolerance load l c.2 := by
  refine h.rely_guarantee SampleThread.id (Asserts geometry tolerance load) (Settled geometry tolerance load) Spares
    ?_ ?_ ?_ ?_ ?_
  · intro l l' s s' hstep hs hl
    exact hstep.keeps hs hl
  · intro id l s s' hid hspares hl
    exact hl.spare hid hspares
  · have hids : (start (R := R) queues).1.map SampleThread.id = List.range queues.length := by
      unfold start
      rw [List.map_map, List.range_eq_range', ← List.zipIdx_map_snd]
      rfl
    rw [hids]
    exact List.nodup_range
  · refine ⟨?_, ?_, ?_⟩
    · intro i m hm
      cases hm
    · intro i m hm
      cases hm
    · intro r hr
      cases hr
  · intro l hl
    obtain ⟨p, -, rfl⟩ := List.mem_map.1 hl
    trivial

omit [DecidableEq ι] in
theorem Asserts.roles_eq {l : SampleThread ι R} (h : Asserts geometry tolerance load l s) {sample roles : ι × ι}
    (hchosen : l.phase.chosen = some (sample, roles)) : roles = rolesOf load sample := by
  obtain ⟨id, queue, phase⟩ := l
  cases phase with
  | next => cases hchosen
  | first => cases hchosen
  | second => cases hchosen
  | compare => cases hchosen
  | returned => cases hchosen
  | acquire => cases hchosen; exact h.1
  | search => cases hchosen; exact h.1
  | iterate => cases hchosen; exact h.1
  | reset => cases hchosen; exact h.1
  | record => cases hchosen; exact h.1

omit [DecidableEq ι] in
theorem Settled.filterMap_outcome (h : Settled geometry tolerance load s) :
    (s.results.map TestResult.sample).filterMap (outcome geometry tolerance load) = s.results := by
  rw [List.filterMap_map]
  refine (List.filterMap_congr fun r hr => ?_).trans List.filterMap_some
  exact h.results r hr

/-- In every run whose threads do not compare the bounds of a deformed mesh, the roles and the result of each sample are
the same, however the samples are distributed and the threads are scheduled. -/
theorem independent_of_clear (geometry : Geometry R) (tolerance : R) (load : ι → Loaded R) :
    Independent (ClearStep geometry tolerance load) := by
  intro queues queues' c c' hperm hrun hrun'
  obtain ⟨hsettled, hasserts⟩ := settled hrun
  obtain ⟨hsettled', hasserts'⟩ := settled hrun'
  refine ⟨?_, ?_, ?_⟩
  · intro l hl l' hl' sample roles roles' hroles hroles'
    exact ((hasserts l hl).roles_eq hroles).trans ((hasserts' l' hl').roles_eq hroles').symm
  · intro r hr r' hr' hsample
    have hresult := hsettled'.results r' hr'
    rw [← hsample, hsettled.results r hr] at hresult
    exact Option.some.inj hresult
  · intro hreturned hreturned'
    have hsamples : ∀ {queues : List (List (ι × ι))} {c : List (SampleThread ι R) × Entries ι R},
        Library.Threads.Run (ClearStep geometry tolerance load) (start queues) c → (∀ l ∈ c.1, l.phase = .returned) →
          (c.2.results.map TestResult.sample).Perm queues.flatten := by
      intro queues c hrun hreturned
      have hnil : c.1.flatMap SampleThread.pending = [] := by
        refine List.flatMap_eq_nil_iff.2 fun l hl => ?_
        rw [SampleThread.pending, hreturned l hl, queue_eq_nil_of_returned hrun l hl (hreturned l hl)]
        rfl
      have hpending := perm_pending hrun
      rwa [hnil, List.append_nil] at hpending
    rw [← hsettled.filterMap_outcome, ← hsettled'.filterMap_outcome]
    refine List.Perm.filterMap _ ?_
    exact (hsamples hrun hreturned).trans (hperm.trans (hsamples hrun' hreturned').symm)

end Runs

/-! ### A race for the roles -/

/-- Three triangles: a horizontal one that the others cross. -/
inductive Sail where
  | deck
  | main
  | jib
  deriving DecidableEq

/-- The meshes of the triangles. -/
noncomputable def sails : Sail → Loaded ℝ
  | .deck => ⟨singleTriangle ⟨0, 0, 0⟩ ⟨16, 0, 0⟩ ⟨0, 12, 0⟩, undeformed_singleTriangle _ _ _⟩
  | .main => ⟨singleTriangle ⟨4, -20, -20⟩ ⟨4, 20, -20⟩ ⟨4, 3, 20⟩, undeformed_singleTriangle _ _ _⟩
  | .jib => ⟨singleTriangle ⟨2, -4, -5⟩ ⟨2, 13, -5⟩ ⟨2, -4, 11 / 2⟩, undeformed_singleTriangle _ _ _⟩

private theorem near_mk {x y z : ℝ} (hx : -20 ≤ x ∧ x ≤ 20) (hy : -20 ≤ y ∧ y ≤ 20) (hz : -20 ≤ z ∧ z ≤ 20) :
    Near ⟨x, y, z⟩ := ⟨abs_le.2 hx, abs_le.2 hy, abs_le.2 hz⟩

private theorem triangleBox_deck : triangleBox ⟨0, 0, 0⟩ ⟨16, 0, 0⟩ ⟨0, 12, 0⟩ = ⟨⟨0, 0, 0⟩, ⟨16, 12, 0⟩⟩ := by
  norm_num [triangleBox, RepoVector3D.min, RepoVector3D.max]

private theorem triangleBox_main :
    triangleBox ⟨4, -20, -20⟩ ⟨4, 20, -20⟩ ⟨4, 3, 20⟩ = ⟨⟨4, -20, -20⟩, ⟨4, 20, 20⟩⟩ := by
  norm_num [triangleBox, RepoVector3D.min, RepoVector3D.max]

private theorem triangleBox_jib :
    triangleBox ⟨2, -4, -5⟩ ⟨2, 13, -5⟩ ⟨2, -4, 11 / 2⟩ = ⟨⟨2, -4, -5⟩, ⟨2, 13, 11 / 2⟩⟩ := by
  norm_num [triangleBox, RepoVector3D.min, RepoVector3D.max]

private theorem bounds_deck : (sails .deck).1.bounds = ⟨⟨0, 0, 0⟩, ⟨16, 12, 0⟩⟩ := by
  have h := bounds_singleTriangle (near_mk (x := 0) (y := 0) (z := 0) (by norm_num) (by norm_num) (by norm_num))
    (near_mk (x := 16) (y := 0) (z := 0) (by norm_num) (by norm_num) (by norm_num))
    (near_mk (x := 0) (y := 12) (z := 0) (by norm_num) (by norm_num) (by norm_num))
  rwa [triangleBox_deck] at h

private theorem bounds_main : (sails .main).1.bounds = ⟨⟨4, -20, -20⟩, ⟨4, 20, 20⟩⟩ := by
  have h := bounds_singleTriangle (near_mk (x := 4) (y := -20) (z := -20) (by norm_num) (by norm_num) (by norm_num))
    (near_mk (x := 4) (y := 20) (z := -20) (by norm_num) (by norm_num) (by norm_num))
    (near_mk (x := 4) (y := 3) (z := 20) (by norm_num) (by norm_num) (by norm_num))
  rwa [triangleBox_main] at h

private theorem bounds_jib : (sails .jib).1.bounds = ⟨⟨2, -4, -5⟩, ⟨2, 13, 11 / 2⟩⟩ := by
  have h := bounds_singleTriangle (near_mk (x := 2) (y := -4) (z := -5) (by norm_num) (by norm_num) (by norm_num))
    (near_mk (x := 2) (y := 13) (z := -5) (by norm_num) (by norm_num) (by norm_num))
    (near_mk (x := 2) (y := -4) (z := 11 / 2) (by norm_num) (by norm_num) (by norm_num))
  rwa [triangleBox_jib] at h

private theorem intersect_deck {m : RepoVector3D ℝ} (hm : |m.x| ≤ 1 ∧ |m.y| ≤ 1 ∧ |m.z| ≤ 1) :
    intersect crossingGeometry (sails .deck).1.toDeformMesh (sails .main).1.toDeformMesh m = some true := by
  obtain ⟨hx, hy, hz⟩ := hm
  rw [abs_le] at hx hy hz
  refine intersect_singleTriangle (c := ⟨4 - m.x, 3, 0⟩) (near_mk (by norm_num) (by norm_num) (by norm_num))
    (near_mk (by norm_num) (by norm_num) (by norm_num)) ?_ ?_
  · rw [triangleBox_deck]
    refine ⟨⟨?_, ?_⟩, ⟨?_, ?_⟩, ⟨?_, ?_⟩⟩ <;> dsimp only <;> linarith
  · rw [triangleBox_main]
    refine ⟨⟨?_, ?_⟩, ⟨?_, ?_⟩, ⟨?_, ?_⟩⟩ <;> simp only [RepoVector3D.add_x, RepoVector3D.add_y, RepoVector3D.add_z] <;>
      linarith

private theorem minimumSeparatingAxis_deck :
    (minimumSeparatingAxis (sails .deck).1.bounds (sails .main).1.bounds).norm = 4 := by
  have hnorm : ∀ {v : RepoVector3D ℝ} {t : ℝ}, 0 ≤ t → v.norm2 = t * t → v.norm = t := RepoVector3D.norm_eq_of_norm2_eq
  have hx : ((⟨1, 0, 0⟩ : RepoVector3D ℝ) * (4 : ℝ)).norm = 4 := hnorm (by norm_num) (by norm_num [RepoVector3D.norm2])
  have hy : ((⟨0, 1, 0⟩ : RepoVector3D ℝ) * (20 : ℝ)).norm = 20 :=
    hnorm (by norm_num) (by norm_num [RepoVector3D.norm2])
  have hz : ((⟨0, 0, 1⟩ : RepoVector3D ℝ) * (20 : ℝ)).norm = 20 :=
    hnorm (by norm_num) (by norm_num [RepoVector3D.norm2])
  have hmax : (4 : ℝ) < dblMax := lt_of_lt_of_le (by norm_num) twenty_le_dblMax
  rw [bounds_deck, bounds_main]
  norm_num [minimumSeparatingAxis, separatingAxis, hx, hy, hz, hmax]

private theorem search_deck : ∃ distance, search crossingGeometry 1 (sails .deck).1.toDeformMesh
    (sails .main).1.toDeformMesh = some (.unresolved distance) := by
  have hzero : intersect crossingGeometry (sails .deck).1.toDeformMesh (sails .main).1.toDeformMesh 0 = some true :=
    intersect_deck (by simp)
  have hlocal := performLocalSearch_eq (offsets 1) fun m hm => intersect_deck (abs_le_of_mem_offsets hm)
  have hmax : (1 : ℝ) ≤ fltMax := by
    unfold fltMax
    norm_num
  have hfar : (1 : ℝ) ≤ (⟨fltMax, fltMax, fltMax⟩ : RepoVector3D ℝ).norm := by
    by_contra h
    have hlt := (RepoVector3D.norm_lt_iff _ zero_le_one).1 (not_le.1 h)
    unfold RepoVector3D.norm2 at hlt
    nlinarith
  unfold search
  rw [hzero, hlocal, Option.bind_some, if_pos rfl, minimumSeparatingAxis_deck, if_neg, Option.map_some, if_neg]
  · exact ⟨_, rfl⟩
  · exact not_lt.2 (le_min (le_min hmax (by norm_num)) hfar)
  · exact not_lt.2 (le_min hmax (by norm_num))

private theorem normalized_of_norm2 {v : RepoVector3D ℝ} (c : ℝ) (hc : 0 < c) (h : v.norm2 = c * c) :
    v.normalized = ⟨v.x / c, v.y / c, v.z / c⟩ := by
  have hnorm := RepoVector3D.norm_eq_of_norm2_eq hc.le h
  unfold RepoVector3D.normalized
  rw [hnorm, if_pos hc]

private theorem normalized_of_unit {v : RepoVector3D ℝ} (h : v.norm2 = 1) : v.normalized = v := by
  rw [normalized_of_norm2 1 one_pos (by rw [h, one_mul])]
  simp only [div_one]

/-- What the face of the deck adds to the normals. -/
theorem addFaceNormals_deck : addFaceNormals Real.arccos [⟨0, 0, 0⟩, ⟨16, 0, 0⟩, ⟨0, 12, 0⟩] [(0, 1), (1, 2), (2, 0)]
    ([0, 0, 0], [0, 0, 0]) (.triangle 0 1 2) =
      ([⟨0, 0, Real.arccos 0⟩, ⟨0, 0, Real.arccos (4 / 5)⟩, ⟨0, 0, Real.arccos (3 / 5)⟩],
        [⟨-1, -1, 0⟩, ⟨3 / 5, -1 / 5, 0⟩, ⟨-2 / 5, 4 / 5, 0⟩]) := by
  have h01 : ((⟨16, 0, 0⟩ : RepoVector3D ℝ) - ⟨0, 0, 0⟩).normalized = ⟨1, 0, 0⟩ := by
    rw [normalized_of_norm2 16 (by norm_num) (by norm_num [RepoVector3D.norm2])]
    norm_num
  have h12 : ((⟨0, 12, 0⟩ : RepoVector3D ℝ) - ⟨16, 0, 0⟩).normalized = ⟨-4 / 5, 3 / 5, 0⟩ := by
    rw [normalized_of_norm2 20 (by norm_num) (by norm_num [RepoVector3D.norm2])]
    norm_num
  have h20 : ((⟨0, 0, 0⟩ : RepoVector3D ℝ) - ⟨0, 12, 0⟩).normalized = ⟨0, -1, 0⟩ := by
    rw [normalized_of_norm2 12 (by norm_num) (by norm_num [RepoVector3D.norm2])]
    norm_num
  -- the normal of the face, and those of its edges
  have hn : (⟨0, 0, 1⟩ : RepoVector3D ℝ).normalized = ⟨0, 0, 1⟩ := normalized_of_unit (by norm_num [RepoVector3D.norm2])
  have he01 : (⟨0, -1, 0⟩ : RepoVector3D ℝ).normalized = ⟨0, -1, 0⟩ :=
    normalized_of_unit (by norm_num [RepoVector3D.norm2])
  have he12 : (⟨3 / 5, 4 / 5, 0⟩ : RepoVector3D ℝ).normalized = ⟨3 / 5, 4 / 5, 0⟩ :=
    normalized_of_unit (by norm_num [RepoVector3D.norm2])
  have he20 : (⟨-1, 0, 0⟩ : RepoVector3D ℝ).normalized = ⟨-1, 0, 0⟩ :=
    normalized_of_unit (by norm_num [RepoVector3D.norm2])
  have hneg : ∀ x y z : ℝ, -(⟨x, y, z⟩ : RepoVector3D ℝ) = ⟨-x, -y, -z⟩ := fun _ _ _ => rfl
  simp only [addFaceNormals, RepoFace.get, RepoFace.triangle, List.getD_cons_zero, List.getD_cons_succ, h01, h12, h20,
    hneg, RepoVector3D.crossProduct, RepoVector3D.dotProduct]
  norm_num [hn, he01, he12, he20]
  refine ⟨⟨?_, ?_, ?_⟩, ?_, ?_, ?_⟩ <;> ext <;> norm_num

private theorem pseudoNormals_deck : (sails .deck).1.pseudoNormals =
    [(⟨-1, -1, 1⟩ : RepoVector3D ℝ).normalized, (⟨3 / 5, -1 / 5, 1⟩ : RepoVector3D ℝ).normalized,
      (⟨-2 / 5, 4 / 5, 1⟩ : RepoVector3D ℝ).normalized] := by
  have hup : ∀ {c : ℝ}, c < 1 → (⟨0, 0, Real.arccos c⟩ : RepoVector3D ℝ).normalized = ⟨0, 0, 1⟩ := by
    intro c hc
    have hpos := Real.arccos_pos.2 hc
    rw [normalized_of_norm2 (Real.arccos c) hpos (by norm_num [RepoVector3D.norm2])]
    simp [hpos.ne']
  let normals := addFaceNormals Real.arccos [⟨0, 0, 0⟩, ⟨16, 0, 0⟩, ⟨0, 12, 0⟩] [(0, 1), (1, 2), (2, 0)]
    ([0, 0, 0], [0, 0, 0]) (.triangle 0 1 2)
  have hnormals : (sails .deck).1.pseudoNormals = normals.1.zipWith
      (fun pn edgeNormal : RepoVector3D ℝ => (pn.normalized + edgeNormal).normalized) normals.2 := rfl
  have hadd : ∀ x y : ℝ, (⟨0, 0, 1⟩ : RepoVector3D ℝ) + ⟨x, y, 0⟩ = ⟨x, y, 1⟩ := by
    intro x y
    ext <;> simp
  rw [hnormals, show normals = _ from addFaceNormals_deck]
  simp only [List.zipWith_cons_cons, List.zipWith_nil_left, hup zero_lt_one,
    hup (show (4 / 5 : ℝ) < 1 by norm_num), hup (show (3 / 5 : ℝ) < 1 by norm_num), hadd]

private theorem exists_normalized (v : RepoVector3D ℝ) (hv : v ≠ 0) :
    ∃ k, 0 < k ∧ k * k * v.norm2 = 1 ∧ v.normalized = v * k := by
  have hpos := RepoVector3D.norm_pos hv
  refine ⟨1 / v.norm, one_div_pos.2 hpos, ?_, RepoVector3D.normalized_eq hv⟩
  rw [← RepoVector3D.norm_mul_norm]
  field_simp

/-- The bounds of the deck, once it has been shrunk, are smaller than those of the jib. -/
theorem norm2_deflate_deck {amount : ℝ} (hamount : amount = 1 / 20) :
    ((sails .deck).1.deflate amount).bounds.size.norm2 < 1597 / 4 := by
  obtain ⟨k, hk, hk', hnormal⟩ := exists_normalized ⟨-1, -1, 1⟩ (by simp [RepoVector3D.ext_iff])
  obtain ⟨l, hl, hl', hnormal'⟩ := exists_normalized ⟨3 / 5, -1 / 5, 1⟩ (by simp [RepoVector3D.ext_iff])
  obtain ⟨m, hm, hm', hnormal''⟩ := exists_normalized ⟨-2 / 5, 4 / 5, 1⟩ (by simp [RepoVector3D.ext_iff])
  norm_num [RepoVector3D.norm2] at hk' hl' hm'
  have hk1 : k ≤ 1 := by nlinarith
  have hl1 : l ≤ 1 := by nlinarith
  have hm1 : m ≤ 1 := by nlinarith
  have hl5 : 5 / 6 ≤ l := by nlinarith
  have hvertices : ((sails .deck).1.deflate amount).faceGroups = Deformable.refitGroups
      (sails .deck).1.toDeformMesh [⟨k / 20, k / 20, -k / 20⟩, ⟨16 - 3 / 100 * l, l / 100, -l / 20⟩,
        ⟨m / 50, 12 - m / 25, -m / 20⟩] := by
    have hmap : ((sails .deck).1._vertices.mapIdx fun vi v =>
        v - ((sails .deck).1.pseudoNormals.getD vi 0 : RepoVector3D ℝ) * amount) =
        [⟨k / 20, k / 20, -k / 20⟩, ⟨16 - 3 / 100 * l, l / 100, -l / 20⟩, ⟨m / 50, 12 - m / 25, -m / 20⟩] := by
      rw [pseudoNormals_deck, hnormal, hnormal', hnormal'', hamount]
      show [_, _, _] = _
      simp only [List.cons.injEq, and_true]
      refine ⟨?_, ?_, ?_⟩ <;> ext <;> simp <;> ring
    show Deformable.refitGroups _ _ = _
    rw [hmap]
  rw [bounds_of_refitGroups (near_mk ⟨by linarith, by linarith⟩ ⟨by linarith, by linarith⟩ ⟨by linarith, by linarith⟩)
    (near_mk ⟨by linarith, by linarith⟩ ⟨by linarith, by linarith⟩ ⟨by linarith, by linarith⟩)
    (near_mk ⟨by linarith, by linarith⟩ ⟨by linarith, by linarith⟩ ⟨by linarith, by linarith⟩) hvertices]
  have hextent : ∀ x y z lo hi : ℝ, (lo ≤ x ∧ x ≤ hi) → (lo ≤ y ∧ y ≤ hi) → (lo ≤ z ∧ z ≤ hi) →
      (Max.max (Max.max x y) z - Min.min (Min.min x y) z) ^ 2 ≤ (hi - lo) ^ 2 := by
    intro x y z lo hi hx hy hz
    have hmax : Max.max (Max.max x y) z ≤ hi := max_le (max_le hx.2 hy.2) hz.2
    have hmin : lo ≤ Min.min (Min.min x y) z := le_min (le_min hx.1 hy.1) hz.1
    have hle : Min.min (Min.min x y) z ≤ Max.max (Max.max x y) z := (min_le_right _ _).trans (le_max_right _ _)
    exact pow_le_pow_left₀ (sub_nonneg.2 hle) (by linarith) 2
  have hx := hextent (k / 20) (16 - 3 / 100 * l) (m / 50) 0 (639 / 40) ⟨by linarith, by linarith⟩
    ⟨by linarith, by linarith⟩ ⟨by linarith, by linarith⟩
  have hy := hextent (k / 20) (l / 100) (12 - m / 25) 0 12 ⟨by linarith, by linarith⟩ ⟨by linarith, by linarith⟩
    ⟨by linarith, by linarith⟩
  have hz := hextent (-k / 20) (-l / 20) (-m / 20) (-1 / 20) 0 ⟨by linarith, by linarith⟩ ⟨by linarith, by linarith⟩
    ⟨by linarith, by linarith⟩
  simp only [triangleBox, RepoBounds.size, RepoVector3D.min, RepoVector3D.max, RepoVector3D.norm2, RepoVector3D.sub_x,
    RepoVector3D.sub_y, RepoVector3D.sub_z, ← sq]
  linarith

theorem roles_eq (a b : Deformable ℝ) (sample : Sail × Sail) :
    roles a b sample = if b.bounds.size.norm2 < a.bounds.size.norm2 then sample.swap else sample := by
  have hgt : a.bounds.gt b.bounds = true ↔ b.bounds.size.norm2 < a.bounds.size.norm2 := by
    unfold RepoBounds.gt
    rw [decide_eq_true_iff, ← not_le, ← not_le, RepoVector3D.norm_le_norm_iff]
  unfold roles
  simp only [hgt]

private theorem norm2_jib : (sails .jib).1.bounds.size.norm2 = 1597 / 4 := by
  rw [bounds_jib]
  norm_num [RepoBounds.size, RepoVector3D.norm2]

private theorem roles_sails : roles (sails .deck).1 (sails .main).1 (Sail.deck, Sail.main) = (.deck, .main) ∧
    roles (sails .deck).1 (sails .jib).1 (Sail.deck, Sail.jib) = (.jib, .deck) ∧
    roles ((sails .deck).1.deflate (1 * (1 / 20))) (sails .jib).1 (Sail.deck, Sail.jib) = (.deck, .jib) := by
  refine ⟨?_, ?_, ?_⟩
  · rw [roles_eq, if_neg]
    rw [bounds_deck, bounds_main]
    norm_num [RepoBounds.size, RepoVector3D.norm2]
  · rw [roles_eq, if_pos]
    · rfl
    · rw [norm2_jib, bounds_deck]
      norm_num [RepoBounds.size, RepoVector3D.norm2]
  · rw [roles_eq, if_neg]
    rw [norm2_jib]
    exact not_lt.2 (norm2_deflate_deck (one_mul _)).le

theorem SampleStep.compare_roles (id : ℕ) {sample roles' : Sail × Sail} {s : Entries Sail ℝ} {a b : Deformable ℝ}
    (ha : s.mesh sample.1 = some a) (hb : s.mesh sample.2 = some b) (h : roles a b sample = roles') :
    SampleStep crossingGeometry 1 sails (⟨id, [], .compare sample⟩, s) (⟨id, [], .acquire sample roles'⟩, s) := by
  rw [← h]
  exact .compare id [] ha hb

private theorem reaches_compare (id : ℕ) (sample : Sail × Sail) {s : Entries Sail ℝ} (hs : s.holder = fun _ => none) :
    Relation.ReflTransGen (SampleStep crossingGeometry 1 sails) (⟨id, [sample], .next⟩, s)
      (⟨id, [], .compare sample⟩, (s.initialise sails sample.1).initialise sails sample.2) :=
  .head (.take id _ [] _) (.head (.first id [] (congrFun hs _)) (.single (.second id [] (congrFun hs _))))

private theorem reaches_shrunk (id : ℕ) {s : Entries Sail ℝ} (hs : s.holder = fun _ => none)
    (hdeck : s.mesh .deck = some (sails .deck).1) (hmain : s.mesh .main = some (sails .main).1) :
    ∃ l, Relation.ReflTransGen (SampleStep crossingGeometry 1 sails) (⟨id, [], .compare (.deck, .main)⟩, s)
      (l, (s.setHolder (.deck, .main) (some id)).setMesh .deck ((sails .deck).1.deflate (1 * (1 / 20)))) := by
  obtain ⟨distance, hsearch⟩ := search_deck
  have hcompare : SampleStep crossingGeometry 1 sails (⟨id, [], .compare (.deck, .main)⟩, s)
      (⟨id, [], .acquire (.deck, .main) (.deck, .main)⟩, s) :=
    .compare_roles id hdeck hmain roles_sails.1
  have hacquire : SampleStep crossingGeometry 1 sails (⟨id, [], .acquire (.deck, .main) (.deck, .main)⟩, s)
      (⟨id, [], .search (.deck, .main) (.deck, .main)⟩, s.setHolder (.deck, .main) (some id)) :=
    .acquire id [] _ (by decide) (congrFun hs _) (congrFun hs _)
  obtain ⟨more, hiterate⟩ : ∃ more, iterateStep crossingGeometry 1 (sails .deck).1 (sails .main).1.toDeformMesh
      distance = some ((sails .deck).1.deflate (1 * (1 / 20)), distance, more) := by
    unfold iterateStep
    rw [intersect_deck (m := 0) (by simp), Option.map_some, if_pos rfl]
    exact ⟨_, rfl⟩
  exact ⟨_, .head hcompare (.head hacquire (.head (.unresolved id [] _ hdeck hmain hsearch)
    (.single (.iterate id [] _ 19 hdeck hmain hiterate))))⟩

/-- The roles of a sample depend on whether another thread is testing one of its meshes. -/
theorem not_independent_sails : ¬ Independent (SampleStep crossingGeometry 1 sails) := by
  intro h
  obtain ⟨-, hloaded, hshrunk⟩ := roles_sails
  let queues : List (List (Sail × Sail)) := [[(.deck, .main)], [(.deck, .jib)]]
  let s₁ : Entries Sail ℝ := ((start queues).2.initialise sails .deck).initialise sails .jib
  let s₂ : Entries Sail ℝ := (s₁.initialise sails .deck).initialise sails .main
  let s₃ : Entries Sail ℝ :=
    (s₂.setHolder (.deck, .main) (some 0)).setMesh .deck ((sails .deck).1.deflate (1 * (1 / 20)))
  let waiting : SampleThread Sail ℝ := ⟨1, [], .compare (.deck, .jib)⟩
  have hfirst : Library.Threads.Run (SampleStep crossingGeometry 1 sails) (start queues)
      ([⟨0, [(.deck, .main)], .next⟩, waiting], s₁) :=
    .of_thread [_] [] (reaches_compare 1 (.deck, .jib) rfl)
  -- the second thread compares the bounds before the first thread does anything
  have halone : SampleStep crossingGeometry 1 sails (waiting, s₁) (⟨1, [], .acquire (.deck, .jib) (.jib, .deck)⟩, s₁) :=
    .compare_roles 1 rfl rfl hloaded
  -- or while the first thread has shrunk the deck
  obtain ⟨l, hl⟩ := reaches_shrunk 0 (s := s₂) rfl rfl rfl
  have hrace : SampleStep crossingGeometry 1 sails (waiting, s₃) (⟨1, [], .acquire (.deck, .jib) (.deck, .jib)⟩, s₃) :=
    .compare_roles 1 rfl rfl hshrunk
  have hrun := hfirst.trans (.single (.thread [_] [] halone))
  have hrun' := ((hfirst.trans (.of_thread [] [waiting] (reaches_compare 0 (.deck, .main) rfl))).trans
    (.of_thread [] [waiting] hl)).trans (.single (.thread [l] [] hrace))
  have hagree := h queues queues _ _ (List.Perm.refl _) hrun hrun'
  have hroles := hagree.roles _ (List.mem_cons_of_mem _ List.mem_cons_self) _
    (List.mem_cons_of_mem _ List.mem_cons_self) (.deck, .jib) _ _ rfl rfl
  cases hroles


end Bouncer.Clash.Hard
