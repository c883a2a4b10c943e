import Bouncer.Datastructure.Geometry
import Bouncer.Library.KeyedFold
import Mathlib.Data.Sym.Sym2

/-!
# From narrowphase tests to a report

Both pipelines run a list of narrowphase tests on several threads.  A test swaps its two entries so that the smaller
one comes first, and hands its findings to the clash of the two objects, in this order (`createClash`).  In the end
each clash becomes one result of the report.

`Narrowphase` is what the two pipelines have in common, and `Narrowphase.Arrives` says in which order the findings
may arrive: each test once, everything else left open.  The clashes are then those of the tests that found something
(`mem_keys_iff`).  A pair of objects has a single clash only as long as the swaps agree (`nodup_unordered_iff`).
-/

namespace Bouncer.Clash

open Library (collect mem_keys_collect)

structure OrderedPair where
  a : String
  b : String
  deriving DecidableEq

def OrderedPair.unordered (objects : OrderedPair) : Sym2 String := s(objects.a, objects.b)

structure ClashDetectionResult (R : Type*) where
  idA : String
  idB : String
  positions : List (RepoVector3D R)
  fingerprint : ℕ

/-- `createClashReport`, given the positions of the clash. -/
def createClashReport {R : Type*} (hashCombine : ℕ → R → ℕ) (objects : OrderedPair)
    (positions : List (RepoVector3D R)) : ClashDetectionResult R where
  idA := objects.a
  idB := objects.b
  positions := positions
  fingerprint := positions.foldl (fun hash p => hashCombine (hashCombine (hashCombine hash p.x) p.y) p.z) 0

/-- The report of `runPipeline`, given the positions of each clash.  The clashes are in an unordered map. -/
def createReport {R T : Type*} (hashCombine : ℕ → R → ℕ) (getClashPositions : T → List (RepoVector3D R))
    (clashes : AList fun _ : OrderedPair => T) : List (ClashDetectionResult R) :=
  clashes.entries.map fun entry => createClashReport hashCombine entry.1 (getClashPositions entry.2)

/-- The two objects of a result, in either order. -/
def ClashDetectionResult.unordered {R : Type*} (result : ClashDetectionResult R) : Sym2 String :=
  s(result.idA, result.idB)

section CreateReport

variable {R T : Type*} {hashCombine : ℕ → R → ℕ} {getClashPositions : T → List (RepoVector3D R)}
  {clashes : AList fun _ : OrderedPair => T}

theorem mem_createReport {result : ClashDetectionResult R} :
    result ∈ createReport hashCombine getClashPositions clashes ↔ ∃ objects clash,
      clashes.lookup objects = some clash ∧
        result = createClashReport hashCombine objects (getClashPositions clash) := by
  rw [createReport, List.mem_map]
  constructor
  · rintro ⟨⟨objects, clash⟩, hmem, rfl⟩
    exact ⟨objects, clash, AList.mem_lookup_iff.2 hmem, rfl⟩
  · rintro ⟨objects, clash, hlookup, rfl⟩
    exact ⟨⟨objects, clash⟩, AList.mem_lookup_iff.1 hlookup, rfl⟩

theorem unordered_createReport : (createReport hashCombine getClashPositions clashes).map ClashDetectionResult.unordered =
    clashes.keys.map OrderedPair.unordered := by
  unfold createReport AList.keys List.keys
  rw [List.map_map, List.map_map]
  rfl

theorem forall_createReport_ne_iff :
    (∀ result ∈ createReport hashCombine getClashPositions clashes, result.idA ≠ result.idB) ↔
      ∀ objects ∈ clashes.keys, objects.a ≠ objects.b := by
  unfold createReport AList.keys List.keys
  rw [List.forall_mem_map, List.forall_mem_map]
  rfl

end CreateReport

/-- The narrowphase of a pipeline, for entries `E` of its cache. -/
structure Narrowphase (E V R : Type*) where
  /-- The identifier of the composite object of an entry. -/
  getId : E → String
  getBounds : E → RepoBounds R
  /-- What the test of two entries hands to their clash, one after the other, if it returns. -/
  test : E → E → Option (List V)

namespace Narrowphase

variable {E V R T : Type*} [ExactReal R] (narrowphase : Narrowphase E V R)

/-- The two entries after `std::swap`. -/
def swapped (t : E × E) : E × E :=
  if (narrowphase.getBounds t.1).gt (narrowphase.getBounds t.2) then (t.2, t.1) else t

/-- The pair that `createClash` is called with. -/
def objects (t : E × E) : OrderedPair :=
  ⟨narrowphase.getId (narrowphase.swapped t).1, narrowphase.getId (narrowphase.swapped t).2⟩

def findings (t : E × E) : Option (List V) :=
  narrowphase.test (narrowphase.swapped t).1 (narrowphase.swapped t).2

/-- The test finds something. -/
def Reports (t : E × E) : Prop := ∃ vs, narrowphase.findings t = some vs ∧ vs ≠ []

/-- The findings of the tests, each with its pair of objects, in an order in which they can reach the clashes. -/
def Arrives (tests : List (E × E)) (arrival : List (OrderedPair × V)) : Prop :=
  ∃ results : List (List (OrderedPair × V)),
    List.Forall₂ (fun t result => ∃ vs, narrowphase.findings t = some vs ∧
      result = vs.map fun v => (narrowphase.objects t, v)) tests results ∧
    arrival.Perm results.flatten

/-- Whenever tests about the same two objects report, the swaps bring the objects into the same order. -/
structure SwapsAgree (tests : List (E × E)) : Prop where
  same : ∀ t ∈ tests, ∀ t' ∈ tests, narrowphase.Reports t → narrowphase.Reports t' →
    narrowphase.getId t.1 ≠ narrowphase.getId t.2 → narrowphase.getId t.1 = narrowphase.getId t'.1 →
    narrowphase.getId t.2 = narrowphase.getId t'.2 →
    (narrowphase.getBounds t.1).gt (narrowphase.getBounds t.2) =
      (narrowphase.getBounds t'.1).gt (narrowphase.getBounds t'.2)
  opposite : ∀ t ∈ tests, ∀ t' ∈ tests, narrowphase.Reports t → narrowphase.Reports t' →
    narrowphase.getId t.1 ≠ narrowphase.getId t.2 → narrowphase.getId t.1 = narrowphase.getId t'.2 →
    narrowphase.getId t.2 = narrowphase.getId t'.1 →
    (narrowphase.getBounds t.1).gt (narrowphase.getBounds t.2) ≠
      (narrowphase.getBounds t'.1).gt (narrowphase.getBounds t'.2)

section Arrives

variable {narrowphase} {tests : List (E × E)} {arrival : List (OrderedPair × V)}

theorem Arrives.mem_iff (h : narrowphase.Arrives tests arrival) {objects : OrderedPair} {v : V} :
    (objects, v) ∈ arrival ↔
      ∃ t ∈ tests, narrowphase.objects t = objects ∧ ∃ vs, narrowphase.findings t = some vs ∧ v ∈ vs := by
  obtain ⟨results, hresults, hperm⟩ := h
  rw [hperm.mem_iff]
  clear hperm
  induction hresults with
  | nil => simp
  | @cons t result tests results ht _ ih =>
    obtain ⟨vs, hvs, rfl⟩ := ht
    rw [List.flatten_cons, List.mem_append, ih]
    constructor
    · rintro (hv | ⟨t', ht', h⟩)
      · obtain ⟨w, hw, he⟩ := List.mem_map.1 hv
        cases he
        exact ⟨t, List.mem_cons_self, rfl, vs, hvs, hw⟩
      · exact ⟨t', List.mem_cons_of_mem _ ht', h⟩
    · rintro ⟨t', ht', hobjects, ws, hws, hv⟩
      rcases List.mem_cons.1 ht' with rfl | ht'
      · rw [hvs] at hws
        cases hws
        exact Or.inl (List.mem_map.2 ⟨v, hv, by rw [hobjects]⟩)
      · exact Or.inr ⟨t', ht', hobjects, ws, hws, hv⟩

/-- If every test returns, the findings can arrive. -/
theorem exists_arrives (h : ∀ t ∈ tests, (narrowphase.findings t).isSome) :
    ∃ arrival, narrowphase.Arrives tests arrival := by
  have hresults : ∃ results : List (List (OrderedPair × V)),
      List.Forall₂ (fun t result => ∃ vs, narrowphase.findings t = some vs ∧
        result = vs.map fun v => (narrowphase.objects t, v)) tests results := by
    induction tests with
    | nil => exact ⟨[], .nil⟩
    | cons t tests ih =>
      obtain ⟨results, hresults⟩ := ih fun t' ht' => h t' (List.mem_cons_of_mem _ ht')
      obtain ⟨vs, hvs⟩ := Option.isSome_iff_exists.1 (h t List.mem_cons_self)
      exact ⟨_, .cons ⟨vs, hvs, rfl⟩ hresults⟩
  obtain ⟨results, hresults⟩ := hresults
  exact ⟨results.flatten, results, hresults, List.Perm.refl _⟩

variable {init : T} {f : T → V → T}

private theorem Arrives.mem_keys_iff (h : narrowphase.Arrives tests arrival) {objects : OrderedPair} :
    objects ∈ (collect init f arrival).keys ↔ ∃ t ∈ tests, narrowphase.Reports t ∧ narrowphase.objects t = objects := by
  rw [mem_keys_collect]
  constructor
  · rintro ⟨v, hv⟩
    obtain ⟨t, ht, hobjects, vs, hvs, hmem⟩ := h.mem_iff.1 hv
    exact ⟨t, ht, ⟨vs, hvs, List.ne_nil_of_mem hmem⟩, hobjects⟩
  · rintro ⟨t, ht, ⟨vs, hvs, hne⟩, hobjects⟩
    obtain ⟨v, hv⟩ := List.exists_mem_of_ne_nil vs hne
    exact ⟨v, h.mem_iff.2 ⟨t, ht, hobjects, vs, hvs, hv⟩⟩

end Arrives

private theorem objects_eq (t : E × E) : narrowphase.objects t =
    if (narrowphase.getBounds t.1).gt (narrowphase.getBounds t.2)
    then ⟨narrowphase.getId t.2, narrowphase.getId t.1⟩ else ⟨narrowphase.getId t.1, narrowphase.getId t.2⟩ := by
  unfold objects swapped
  by_cases h : (narrowphase.getBounds t.1).gt (narrowphase.getBounds t.2) <;> simp [h]

theorem unordered_objects (t : E × E) :
    (narrowphase.objects t).unordered = s(narrowphase.getId t.1, narrowphase.getId t.2) := by
  rw [objects_eq]
  by_cases h : (narrowphase.getBounds t.1).gt (narrowphase.getBounds t.2)
  · rw [if_pos h]
    exact Sym2.eq_swap
  · rw [if_neg h]
    rfl

private theorem objects_a_eq_b_iff (t : E × E) :
    (narrowphase.objects t).a = (narrowphase.objects t).b ↔ narrowphase.getId t.1 = narrowphase.getId t.2 := by
  rw [objects_eq]
  by_cases h : (narrowphase.getBounds t.1).gt (narrowphase.getBounds t.2)
  · rw [if_pos h]
    exact eq_comm
  · rw [if_neg h]

variable {narrowphase} {tests : List (E × E)}

/-- Two tests about the same two objects have the same clash if the swaps agree. -/
private theorem SwapsAgree.objects_eq_of_unordered_eq (h : narrowphase.SwapsAgree tests) {t t' : E × E} (ht : t ∈ tests)
    (ht' : t' ∈ tests) (hr : narrowphase.Reports t) (hr' : narrowphase.Reports t')
    (hu : (narrowphase.objects t).unordered = (narrowphase.objects t').unordered) :
    narrowphase.objects t = narrowphase.objects t' := by
  rw [unordered_objects, unordered_objects, Sym2.eq_iff] at hu
  rw [objects_eq, objects_eq]
  by_cases hne : narrowphase.getId t.1 = narrowphase.getId t.2
  · have h' : narrowphase.getId t'.1 = narrowphase.getId t.1 ∧ narrowphase.getId t'.2 = narrowphase.getId t.1 := by
      rcases hu with ⟨h1, h2⟩ | ⟨h1, h2⟩
      · exact ⟨h1.symm, h2.symm.trans hne.symm⟩
      · exact ⟨h2.symm.trans hne.symm, h1.symm⟩
    rw [h'.1, h'.2, ← hne, ite_self, ite_self]
  · rcases hu with ⟨h1, h2⟩ | ⟨h1, h2⟩
    · rw [h.same t ht t' ht' hr hr' hne h1 h2, h1, h2]
    · have hgt := h.opposite t ht t' ht' hr hr' hne h1 h2
      rw [h1, h2]
      by_cases hg : (narrowphase.getBounds t'.1).gt (narrowphase.getBounds t'.2)
      · have hg' : (narrowphase.getBounds t.1).gt (narrowphase.getBounds t.2) = false := by
          rw [hg] at hgt
          simpa using hgt
        simp [hg, hg']
      · have hg' : (narrowphase.getBounds t.1).gt (narrowphase.getBounds t.2) = true := by
          rw [Bool.not_eq_true] at hg
          rw [hg] at hgt
          simpa using hgt
        simp [hg, hg']

private theorem swapsAgree_of_objects_eq
    (h : ∀ t ∈ tests, ∀ t' ∈ tests, narrowphase.Reports t → narrowphase.Reports t' →
      (narrowphase.objects t).unordered = (narrowphase.objects t').unordered →
      narrowphase.objects t = narrowphase.objects t') : narrowphase.SwapsAgree tests := by
  constructor
  · intro t ht t' ht' hr hr' hne h1 h2
    have hu : (narrowphase.objects t).unordered = (narrowphase.objects t').unordered := by
      rw [unordered_objects, unordered_objects, h1, h2]
    have he := h t ht t' ht' hr hr' hu
    rw [objects_eq, objects_eq, ← h1, ← h2] at he
    cases hg : (narrowphase.getBounds t.1).gt (narrowphase.getBounds t.2) <;>
      cases hg' : (narrowphase.getBounds t'.1).gt (narrowphase.getBounds t'.2) <;> simp [hg, hg'] at he ⊢
    · exact hne he.1
    · exact hne he.2
  · intro t ht t' ht' hr hr' hne h1 h2
    have hu : (narrowphase.objects t).unordered = (narrowphase.objects t').unordered := by
      rw [unordered_objects, unordered_objects, h1, h2]
      exact Sym2.eq_swap
    have he := h t ht t' ht' hr hr' hu
    rw [objects_eq, objects_eq, ← h1, ← h2] at he
    cases hg : (narrowphase.getBounds t.1).gt (narrowphase.getBounds t.2) <;>
      cases hg' : (narrowphase.getBounds t'.1).gt (narrowphase.getBounds t'.2) <;> simp [hg, hg'] at he ⊢
    · exact hne he.1
    · exact hne he.2

variable {arrival : List (OrderedPair × V)} {init : T} {f : T → V → T}

/-- No two clashes are about the same two objects, exactly if the swaps agree. -/
theorem Arrives.nodup_unordered_iff (h : narrowphase.Arrives tests arrival) :
    ((collect init f arrival).keys.map OrderedPair.unordered).Nodup ↔ narrowphase.SwapsAgree tests := by
  rw [List.nodup_map_iff_inj_on (AList.keys_nodup _)]
  constructor
  · intro hinj
    refine swapsAgree_of_objects_eq ?_
    intro t ht t' ht' hr hr' hu
    exact hinj _ (h.mem_keys_iff.2 ⟨t, ht, hr, rfl⟩) _ (h.mem_keys_iff.2 ⟨t', ht', hr', rfl⟩) hu
  · intro hagree objects hobjects objects' hobjects' hu
    obtain ⟨t, ht, hr, rfl⟩ := h.mem_keys_iff.1 hobjects
    obtain ⟨t', ht', hr', rfl⟩ := h.mem_keys_iff.1 hobjects'
    exact hagree.objects_eq_of_unordered_eq ht ht' hr hr' hu

/-- No clash has the same object on both sides, exactly if no test of an object with itself reports. -/
theorem Arrives.ne_iff (h : narrowphase.Arrives tests arrival) :
    (∀ objects ∈ (collect init f arrival).keys, objects.a ≠ objects.b) ↔
      ∀ t ∈ tests, narrowphase.getId t.1 = narrowphase.getId t.2 → ¬ narrowphase.Reports t := by
  constructor
  · intro hne t ht he hr
    exact hne _ (h.mem_keys_iff.2 ⟨t, ht, hr, rfl⟩) ((narrowphase.objects_a_eq_b_iff t).2 he)
  · intro hself objects hobjects he
    obtain ⟨t, ht, hr, rfl⟩ := h.mem_keys_iff.1 hobjects
    exact hself t ht ((narrowphase.objects_a_eq_b_iff t).1 he) hr

end Narrowphase

end Bouncer.Clash
