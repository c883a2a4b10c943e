import Mathlib.Data.Fin.VecNotation
import Mathlib.Data.Fintype.Basic
import Mathlib.Data.Sym.Sym2
import Mathlib.Tactic.FinCases

/-!
# The sets of a clash configuration

A configuration names two sets of composite objects.  `createDisjointSets` rearranges them into three disjoint ones,
and both pipelines compare these in a list of passes (`Hard.passes`, `Clearance.passes`).

Objects are identified by strings, but `createDisjointSets` keys its maps by `RepoUUID`, into which a string is
converted implicitly, and different strings may be converted into the same one.  So the passes compare exactly the
pairs that the configuration asks for only as long as no object is taken for another (`passes_decompose_iff`).  No
pair is ever compared by two passes (`pairwise_passes`).
-/

namespace Bouncer.Clash

/-! ### Identifiers -/

/-- The text tried by `stringToUUID` when its argument is not a UUID: the hash, padded with zeros. -/
def hashedUUID (hash : ℕ) : String :=
  let digits := toString hash
  digits ++ String.ofList (List.replicate (32 - digits.length) '0')

/-- What `RepoUUID` uses of the Boost library. -/
structure Boost where
  Uuid : Type
  decEq : DecidableEq Uuid
  /-- `boost::uuids::string_generator`, which throws if the text is not a UUID. -/
  stringGenerator : String → Option Uuid
  hash : String → ℕ
  /-- 32 digits in braces are a UUID. -/
  stringGenerator_hashed : ∀ text, (stringGenerator ("\x7b" ++ hashedUUID (hash text) ++ "\x7d")).isSome

namespace Boost

variable (boost : Boost)

instance : DecidableEq boost.Uuid := boost.decEq

instance : LawfulBEq boost.Uuid := inferInstance

def defaultValue : String := "00000000-0000-0000-0000-000000000000"

/-- `stringToUUID` for a text that is not empty. -/
def generate (text : String) : boost.Uuid :=
  match boost.stringGenerator (if text.toList.take 1 ≠ ['\x7b'] then "\x7b" ++ text ++ "\x7d" else text) with
  | some uuid => uuid
  | none => (boost.stringGenerator ("\x7b" ++ hashedUUID (boost.hash text) ++ "\x7d")).get
      (boost.stringGenerator_hashed text)

def stringToUUID (text : String) : boost.Uuid :=
  if text.isEmpty then boost.generate defaultValue else boost.generate text

end Boost

/-! ### Composite objects -/

structure MeshReference (boost : Boost) where
  /-- The address of the container. -/
  container : ℕ
  uniqueId : boost.Uuid
  deriving DecidableEq

structure CompositeObject (boost : Boost) where
  id : String
  meshes : List (MeshReference boost)
  deriving DecidableEq

/-- The fields of a `ClashDetectionConfig` that decide what is compared. -/
structure ClashDetectionConfig (boost : Boost) (R : Type*) where
  tolerance : R
  setA : List (CompositeObject boost)
  setB : List (CompositeObject boost)
  selfIntersectsA : Bool
  selfIntersectsB : Bool

structure CompositeObjectSets (boost : Boost) where
  a : List (CompositeObject boost)
  b : List (CompositeObject boost)
  c : List (CompositeObject boost)

variable {boost : Boost} {R : Type*}

/-- The conversion of the identifier to the key of the maps. -/
def CompositeObject.uuid (obj : CompositeObject boost) : boost.Uuid := boost.stringToUUID obj.id

def createDisjointSets (config : ClashDetectionConfig boost R) : CompositeObjectSets boost :=
  let mapA := config.setA.map CompositeObject.uuid
  let b := config.setB.filter fun obj => decide (obj.uuid ∉ mapA)
  let c := config.setB.filter fun obj => decide (obj.uuid ∈ mapA)
  let intersection := c.map CompositeObject.uuid
  ⟨config.setA.filter fun obj => decide (obj.uuid ∉ intersection), b, c⟩

/-- One call of the broadphase, between two sets or within one. -/
inductive Pass (S : Type*) where
  | inter (a b : S)
  | intra (a : S)

/-- The two sides of a pass. -/
def Pass.sides {S : Type*} : Pass S → S × S
  | .inter a b => (a, b)
  | .intra a => (a, a)

/-- The passes of `Hard::run`. -/
def Hard.passes {S : Type*} (config : ClashDetectionConfig boost R) (a b c : S) : List (Pass S) :=
  [Pass.inter a b, .inter a c, .inter b c] ++ (if config.selfIntersectsA then [Pass.intra a] else []) ++
    (if config.selfIntersectsB then [Pass.intra b] else []) ++ [Pass.intra c]

/-- The passes of `Clearance::run`. -/
def Clearance.passes {S : Type*} (config : ClashDetectionConfig boost R) (a b c : S) : List (Pass S) :=
  [Pass.inter a b, .inter a c, .inter b c] ++ (if config.selfIntersectsA then [Pass.intra a] else []) ++
    (if config.selfIntersectsB then [Pass.intra b] else []) ++ [Pass.intra c]

theorem Hard.mem_passes_iff {S : Type*} {config : ClashDetectionConfig boost R} {a b c : S} {pass : Pass S} :
    pass ∈ Hard.passes config a b c ↔ pass = .inter a b ∨ pass = .inter a c ∨ pass = .inter b c ∨
      (config.selfIntersectsA = true ∧ pass = .intra a) ∨ (config.selfIntersectsB = true ∧ pass = .intra b) ∨
      pass = .intra c := by
  unfold Hard.passes
  cases config.selfIntersectsA <;> cases config.selfIntersectsB <;> simp

/-- The sides of a pass are among the three sets. -/
theorem Hard.sides_mem {S : Type*} {config : ClashDetectionConfig boost R} {a b c : S} {pass : Pass S}
    (h : pass ∈ Hard.passes config a b c) : pass.sides.1 ∈ [a, b, c] ∧ pass.sides.2 ∈ [a, b, c] := by
  rcases Hard.mem_passes_iff.1 h with rfl | rfl | rfl | ⟨-, rfl⟩ | ⟨-, rfl⟩ | rfl <;> simp [Pass.sides]

/-- Both pipelines make the same passes. -/
theorem Clearance.passes_eq {S : Type*} (config : ClashDetectionConfig boost R) (a b c : S) :
    Clearance.passes config a b c = Hard.passes config a b c := rfl

def ids (set : List (CompositeObject boost)) : List String := set.map CompositeObject.id

/-- The pass compares objects with the two different identifiers. -/
def Pass.Compares : Pass (List (CompositeObject boost)) → String → String → Prop
  | .inter a b, p, q => (p ∈ ids a ∧ q ∈ ids b) ∨ (q ∈ ids a ∧ p ∈ ids b)
  | .intra a, p, q => p ∈ ids a ∧ q ∈ ids a

/-- The configuration asks for the two different identifiers to be compared. -/
def ClashDetectionConfig.Wants (config : ClashDetectionConfig boost R) (p q : String) : Prop :=
  ((p ∈ ids config.setA ∧ q ∈ ids config.setB) ∨ (q ∈ ids config.setA ∧ p ∈ ids config.setB)) ∨
    (config.selfIntersectsA = true ∧ p ∈ ids config.setA ∧ q ∈ ids config.setA) ∨
    (config.selfIntersectsB = true ∧ p ∈ ids config.setB ∧ q ∈ ids config.setB)

/-- The passes compare exactly the pairs that the configuration asks for, each in one pass. -/
def ClashDetectionConfig.DecomposedBy (config : ClashDetectionConfig boost R)
    (passes : List (Pass (List (CompositeObject boost)))) : Prop :=
  (∀ p q, p ≠ q → ((∃ pass ∈ passes, pass.Compares p q) ↔ config.Wants p q)) ∧
    passes.Pairwise fun pass pass' => ∀ p q, ¬ (pass.Compares p q ∧ pass'.Compares p q)

/-- No object is taken for another: an object of the first set with the UUID of one of the second set is in both, and
an object of the second set with the UUID of one of the first set is in both, or is alone with being in the second set
only, or the second set is compared with itself anyway. -/
structure ClashDetectionConfig.UuidsSeparate (config : ClashDetectionConfig boost R) : Prop where
  left : ∀ p ∈ ids config.setA, ∀ q ∈ ids config.setB, boost.stringToUUID p = boost.stringToUUID q →
    p ∈ ids config.setB
  right : config.selfIntersectsB = true ∨ ∀ q ∈ ids config.setB, q ∉ ids config.setA →
    (∃ p ∈ ids config.setA, boost.stringToUUID p = boost.stringToUUID q) →
      ∀ q' ∈ ids config.setB, q' ∉ ids config.setA → q' = q

/-! ### The disjoint sets -/

section Sets

variable (config : ClashDetectionConfig boost R)

private theorem exists_uuid_iff {set : List (CompositeObject boost)} {u : boost.Uuid} :
    u ∈ set.map CompositeObject.uuid ↔ ∃ p ∈ ids set, boost.stringToUUID p = u := by
  simp [ids, CompositeObject.uuid]

private theorem mem_ids_c {p : String} : p ∈ ids (createDisjointSets config).c ↔
    p ∈ ids config.setB ∧ ∃ a ∈ ids config.setA, boost.stringToUUID a = boost.stringToUUID p := by
  constructor
  · intro h
    obtain ⟨obj, hobj, rfl⟩ := List.mem_map.1 h
    obtain ⟨hB, hmap⟩ := List.mem_filter.1 hobj
    exact ⟨List.mem_map_of_mem hB, exists_uuid_iff.1 (of_decide_eq_true hmap)⟩
  · rintro ⟨hB, hA⟩
    obtain ⟨obj, hobj, rfl⟩ := List.mem_map.1 hB
    exact List.mem_map_of_mem (List.mem_filter.2 ⟨hobj, decide_eq_true (exists_uuid_iff.2 hA)⟩)

private theorem mem_ids_b {p : String} : p ∈ ids (createDisjointSets config).b ↔
    p ∈ ids config.setB ∧ ¬ ∃ a ∈ ids config.setA, boost.stringToUUID a = boost.stringToUUID p := by
  constructor
  · intro h
    obtain ⟨obj, hobj, rfl⟩ := List.mem_map.1 h
    obtain ⟨hB, hmap⟩ := List.mem_filter.1 hobj
    exact ⟨List.mem_map_of_mem hB, fun hA => of_decide_eq_true hmap (exists_uuid_iff.2 hA)⟩
  · rintro ⟨hB, hA⟩
    obtain ⟨obj, hobj, rfl⟩ := List.mem_map.1 hB
    exact List.mem_map_of_mem (List.mem_filter.2 ⟨hobj, decide_eq_true fun h => hA (exists_uuid_iff.1 h)⟩)

private theorem mem_ids_a {p : String} : p ∈ ids (createDisjointSets config).a ↔
    p ∈ ids config.setA ∧ ¬ ∃ b ∈ ids config.setB, boost.stringToUUID b = boost.stringToUUID p := by
  have hc : ∀ obj ∈ config.setA, obj.uuid ∈ (createDisjointSets config).c.map CompositeObject.uuid ↔
      ∃ b ∈ ids config.setB, boost.stringToUUID b = boost.stringToUUID obj.id := by
    intro obj hobj
    rw [exists_uuid_iff]
    constructor
    · rintro ⟨b, hb, he⟩
      exact ⟨b, ((mem_ids_c config).1 hb).1, he⟩
    · rintro ⟨b, hb, he⟩
      exact ⟨b, (mem_ids_c config).2 ⟨hb, obj.id, List.mem_map_of_mem hobj, he.symm⟩, he⟩
  constructor
  · intro h
    obtain ⟨obj, hobj, rfl⟩ := List.mem_map.1 h
    obtain ⟨hA, hinter⟩ := List.mem_filter.1 hobj
    exact ⟨List.mem_map_of_mem hA, fun hB => of_decide_eq_true hinter ((hc obj hA).2 hB)⟩
  · rintro ⟨hA, hB⟩
    obtain ⟨obj, hobj, rfl⟩ := List.mem_map.1 hA
    exact List.mem_map_of_mem (List.mem_filter.2 ⟨hobj, decide_eq_true fun h => hB ((hc obj hobj).1 h)⟩)

/-- The three sets have no identifier in common. -/
theorem disjoint_ids :
    (ids (createDisjointSets config).a).Disjoint (ids (createDisjointSets config).b) ∧
    (ids (createDisjointSets config).a).Disjoint (ids (createDisjointSets config).c) ∧
    (ids (createDisjointSets config).b).Disjoint (ids (createDisjointSets config).c) := by
  refine ⟨?_, ?_, ?_⟩
  · intro p ha hb
    exact ((mem_ids_a config).1 ha).2 ⟨p, ((mem_ids_b config).1 hb).1, rfl⟩
  · intro p ha hc
    exact ((mem_ids_a config).1 ha).2 ⟨p, ((mem_ids_c config).1 hc).1, rfl⟩
  · intro p hb hc
    exact ((mem_ids_b config).1 hb).2 ((mem_ids_c config).1 hc).2

end Sets

/-! ### What the passes compare -/

section Passes

variable (config : ClashDetectionConfig boost R)

private theorem exists_pass_iff {passes : List (Pass (List (CompositeObject boost)))}
    {a b c : List (CompositeObject boost)} (hpasses : passes = Hard.passes config a b c) (p q : String) :
    (∃ pass ∈ passes, pass.Compares p q) ↔
      Pass.Compares (.inter a b) p q ∨ Pass.Compares (.inter a c) p q ∨ Pass.Compares (.inter b c) p q ∨
        (config.selfIntersectsA = true ∧ Pass.Compares (.intra a) p q) ∨
        (config.selfIntersectsB = true ∧ Pass.Compares (.intra b) p q) ∨ Pass.Compares (.intra c) p q := by
  subst hpasses
  simp only [Hard.mem_passes_iff, or_and_right, exists_or, and_assoc, exists_and_left, exists_eq_left]

/-- The passes compare what is asked for, in terms of the sets that the two identifiers are in: `Ep` and `Eq` say that
they have the UUID of an object of the first set. -/
private theorem compares_iff_wants {pA pB qA qB Ep Eq SA SB : Prop} (hEp : pA → Ep) (hEq : qA → Eq)
    (hp : qB → ¬ qA → Eq → pB → ¬ pA → SB) (hq : pB → ¬ pA → Ep → qB → ¬ qA → SB) :
    (((pA ∧ ¬ pB) ∧ qB ∧ ¬ Eq ∨ (qA ∧ ¬ qB) ∧ pB ∧ ¬ Ep) ∨
      ((pA ∧ ¬ pB) ∧ qB ∧ Eq ∨ (qA ∧ ¬ qB) ∧ pB ∧ Ep) ∨
      ((pB ∧ ¬ Ep) ∧ qB ∧ Eq ∨ (qB ∧ ¬ Eq) ∧ pB ∧ Ep) ∨
      (SA ∧ (pA ∧ ¬ pB) ∧ qA ∧ ¬ qB) ∨ (SB ∧ (pB ∧ ¬ Ep) ∧ qB ∧ ¬ Eq) ∨ (pB ∧ Ep) ∧ qB ∧ Eq) ↔
    (pA ∧ qB ∨ qA ∧ pB) ∨ (SA ∧ pA ∧ qA) ∨ (SB ∧ pB ∧ qB) := by
  by_cases hpA : pA <;> by_cases hqA : qA
  · have : Ep := hEp hpA
    have : Eq := hEq hqA
    by_cases pB <;> by_cases qB <;> simp [*]
  · have : Ep := hEp hpA
    by_cases pB <;> by_cases qB <;> by_cases Eq <;> simp [*]
  · have : Eq := hEq hqA
    by_cases pB <;> by_cases qB <;> by_cases Ep <;> simp [*]
  · by_cases pB <;> by_cases qB
    · by_cases Ep <;> by_cases Eq <;> simp_all
    all_goals simp [*]

/-- The two sets that a pass compares. -/
def Pass.slot {S : Type*} : Pass S → Sym2 S
  | .inter a b => s(a, b)
  | .intra a => s(a, a)

def Pass.map {S T : Type*} (f : S → T) : Pass S → Pass T
  | .inter a b => .inter (f a) (f b)
  | .intra a => .intra (f a)

private theorem slot_eq_of_compares {f : Fin 3 → List (CompositeObject boost)}
    (hdisj : ∀ i j p, p ∈ ids (f i) → p ∈ ids (f j) → i = j) {pass : Pass (Fin 3)} {p q : String}
    (h : (pass.map f).Compares p q) : ∃ i j, p ∈ ids (f i) ∧ q ∈ ids (f j) ∧ pass.slot = s(i, j) ∧
      ∀ pass' : Pass (Fin 3), (pass'.map f).Compares p q → pass'.slot = s(i, j) := by
  have hslot : ∀ {pass : Pass (Fin 3)}, (pass.map f).Compares p q →
      ∃ i j, p ∈ ids (f i) ∧ q ∈ ids (f j) ∧ pass.slot = s(i, j) := by
    intro pass h
    cases pass with
    | inter i j =>
      rcases h with ⟨hp, hq⟩ | ⟨hq, hp⟩
      · exact ⟨i, j, hp, hq, rfl⟩
      · exact ⟨j, i, hp, hq, Sym2.eq_swap⟩
    | intra i => exact ⟨i, i, h.1, h.2, rfl⟩
  obtain ⟨i, j, hp, hq, hs⟩ := hslot h
  refine ⟨i, j, hp, hq, hs, ?_⟩
  intro pass' h'
  obtain ⟨i', j', hp', hq', hs'⟩ := hslot h'
  rw [hs', hdisj i' i p hp' hp, hdisj j' j q hq' hq]

/-- No pair of identifiers is compared by two passes. -/
theorem pairwise_passes :
    (Hard.passes config (createDisjointSets config).a (createDisjointSets config).b (createDisjointSets config).c).Pairwise
      fun pass pass' => ∀ p q, ¬ (pass.Compares p q ∧ pass'.Compares p q) := by
  let f : Fin 3 → List (CompositeObject boost) :=
    ![(createDisjointSets config).a, (createDisjointSets config).b, (createDisjointSets config).c]
  have hmap : Hard.passes config (createDisjointSets config).a (createDisjointSets config).b
      (createDisjointSets config).c = (Hard.passes config 0 1 2).map (Pass.map f) := by
    unfold Hard.passes
    cases config.selfIntersectsA <;> cases config.selfIntersectsB <;> rfl
  have hdistinct : (Hard.passes config (0 : Fin 3) 1 2).Pairwise fun pass pass' => pass.slot ≠ pass'.slot := by
    unfold Hard.passes
    cases config.selfIntersectsA <;> cases config.selfIntersectsB <;> simp [Pass.slot]
  have hdisj : ∀ i j p, p ∈ ids (f i) → p ∈ ids (f j) → i = j := by
    obtain ⟨hab, hac, hbc⟩ := disjoint_ids config
    intro i j p hi hj
    fin_cases i <;> fin_cases j
    · rfl
    · exact absurd hj (hab hi)
    · exact absurd hj (hac hi)
    · exact absurd hi (hab hj)
    · rfl
    · exact absurd hj (hbc hi)
    · exact absurd hi (hac hj)
    · exact absurd hi (hbc hj)
    · rfl
  rw [hmap, List.pairwise_map]
  refine hdistinct.imp ?_
  rintro pass pass' hne p q ⟨h, h'⟩
  obtain ⟨i, j, -, -, hs, hall⟩ := slot_eq_of_compares hdisj h
  exact hne (hs.trans (hall pass' h').symm)

/-- The passes over the disjoint sets compare every pair that the configuration asks for, and only those, exactly if
no object is taken for another. -/
theorem exists_pass_iff_wants_iff {passes : List (Pass (List (CompositeObject boost)))}
    (hpasses : passes = Hard.passes config (createDisjointSets config).a (createDisjointSets config).b
      (createDisjointSets config).c) :
    (∀ p q, p ≠ q → ((∃ pass ∈ passes, pass.Compares p q) ↔ config.Wants p q)) ↔ config.UuidsSeparate := by
  constructor
  · intro h
    constructor
    · intro p hp q hq hu
      by_contra hpB
      -- `p` is in none of the sets, so it is not compared with `q`
      have hpq : p ≠ q := fun he => hpB (he ▸ hq)
      have hcmp := (h p q hpq).2 (Or.inl (Or.inl ⟨hp, hq⟩))
      rw [exists_pass_iff config hpasses] at hcmp
      have ha : p ∉ ids (createDisjointSets config).a := fun hm => ((mem_ids_a config).1 hm).2 ⟨q, hq, hu.symm⟩
      have hb : p ∉ ids (createDisjointSets config).b := fun hm => hpB ((mem_ids_b config).1 hm).1
      have hc : p ∉ ids (createDisjointSets config).c := fun hm => hpB ((mem_ids_c config).1 hm).1
      simp only [Pass.Compares, ha, hb, hc] at hcmp
      tauto
    · by_contra hright
      rw [not_or] at hright
      obtain ⟨hself, hright⟩ := hright
      push Not at hright
      obtain ⟨q, hqB, hqA, ⟨p, hp, hu⟩, q', hqB', hqA', hne⟩ := hright
      -- `q` is in the third set, so it is compared with `q'`, wherever that is
      have hc : q ∈ ids (createDisjointSets config).c := (mem_ids_c config).2 ⟨hqB, p, hp, hu⟩
      have hwants : ¬ config.Wants q' q := by
        rintro ((⟨h1, -⟩ | ⟨h1, -⟩) | ⟨-, h1, -⟩ | ⟨h1, -⟩)
        · exact hqA' h1
        · exact hqA h1
        · exact hqA' h1
        · exact hself h1
      refine hwants ((h q' q hne).1 ((exists_pass_iff config hpasses q' q).2 ?_))
      by_cases hq' : ∃ a ∈ ids config.setA, boost.stringToUUID a = boost.stringToUUID q'
      · exact Or.inr (Or.inr (Or.inr (Or.inr (Or.inr ⟨(mem_ids_c config).2 ⟨hqB', hq'⟩, hc⟩))))
      · exact Or.inr (Or.inr (Or.inl (Or.inl ⟨(mem_ids_b config).2 ⟨hqB', hq'⟩, hc⟩)))
  · rintro ⟨hleft, hright⟩ p q hpq
    have ha : ∀ p, p ∈ ids (createDisjointSets config).a ↔ p ∈ ids config.setA ∧ p ∉ ids config.setB := by
      intro p
      rw [mem_ids_a]
      constructor
      · rintro ⟨hA, hB⟩
        exact ⟨hA, fun hm => hB ⟨p, hm, rfl⟩⟩
      · rintro ⟨hA, hB⟩
        exact ⟨hA, fun ⟨b, hb, hu⟩ => hB (hleft p hA b hb hu.symm)⟩
    have hE : ∀ p, p ∈ ids config.setA → ∃ a ∈ ids config.setA, boost.stringToUUID a = boost.stringToUUID p :=
      fun p hp => ⟨p, hp, rfl⟩
    -- two identifiers of the second set only, one of them with a UUID of the first set
    have honly : ∀ p q, p ≠ q → q ∈ ids config.setB → q ∉ ids config.setA →
        (∃ a ∈ ids config.setA, boost.stringToUUID a = boost.stringToUUID q) → p ∈ ids config.setB →
        p ∉ ids config.setA → config.selfIntersectsB = true := by
      intro p q hpq hqB hqA hE hpB hpA
      rcases hright with hself | hright
      · exact hself
      · exact absurd (hright q hqB hqA hE p hpB hpA) hpq
    have hp := honly p q hpq
    have hq := honly q p hpq.symm
    rw [exists_pass_iff config hpasses]
    simp only [Pass.Compares, ClashDetectionConfig.Wants, ha, mem_ids_b, mem_ids_c]
    exact compares_iff_wants (hE p) (hE q) hp hq

/-- The passes of both pipelines over the disjoint sets compare exactly the pairs that the configuration asks for, and
none of them twice, if and only if no object is taken for another by its UUID. -/
theorem passes_decompose_iff :
    (config.DecomposedBy (Hard.passes config (createDisjointSets config).a (createDisjointSets config).b
      (createDisjointSets config).c) ↔ config.UuidsSeparate) ∧
    (config.DecomposedBy (Clearance.passes config (createDisjointSets config).a (createDisjointSets config).b
      (createDisjointSets config).c) ↔ config.UuidsSeparate) := by
  have hhard : config.DecomposedBy (Hard.passes config (createDisjointSets config).a (createDisjointSets config).b
      (createDisjointSets config).c) ↔ config.UuidsSeparate := by
    unfold ClashDetectionConfig.DecomposedBy
    rw [and_iff_left (pairwise_passes config)]
    exact exists_pass_iff_wants_iff config rfl
  have hsame : ∀ a b c : List (CompositeObject boost),
      Clearance.passes config a b c = Hard.passes config a b c := fun _ _ _ => rfl
  exact ⟨hhard, by rw [hsame]; exact hhard⟩

end Passes

/-! ### Two spellings of one UUID -/

/-- UUIDs as their digits, whatever the braces and dashes. -/
def Boost.digits : Boost where
  Uuid := List Char
  decEq := inferInstance
  stringGenerator text := some (text.toList.filter Char.isAlphanum)
  hash _ := 0
  stringGenerator_hashed _ := rfl

/-- One object in each set, with identifiers that differ by the braces only. -/
def bracedConfig : ClashDetectionConfig Boost.digits ℕ where
  tolerance := 1
  setA := [⟨"\x7b5d1a4c2e-0b7f-4e3a-9c68-2f1d7b90a654\x7d", [⟨0, ['1']⟩]⟩]
  setB := [⟨"5d1a4c2e-0b7f-4e3a-9c68-2f1d7b90a654", [⟨0, ['2']⟩]⟩]
  selfIntersectsA := false
  selfIntersectsB := false

/-- The object of the second set is taken for the one of the first, which is then in no set: the two are not
compared. -/
theorem not_decomposedBy_bracedConfig :
    ¬ bracedConfig.DecomposedBy (Hard.passes bracedConfig (createDisjointSets bracedConfig).a
      (createDisjointSets bracedConfig).b (createDisjointSets bracedConfig).c) ∧
    ¬ bracedConfig.DecomposedBy (Clearance.passes bracedConfig (createDisjointSets bracedConfig).a
      (createDisjointSets bracedConfig).b (createDisjointSets bracedConfig).c) := by
  have hseparate : ¬ bracedConfig.UuidsSeparate := by
    intro h
    have hmem := h.left _ (List.mem_singleton_self _) _ (List.mem_singleton_self _) (by decide +kernel)
    exact absurd hmem (by decide +kernel)
  exact ⟨fun h => hseparate ((exists_pass_iff_wants_iff _ rfl).1 h.1),
    fun h => hseparate ((exists_pass_iff_wants_iff _ rfl).1 h.1)⟩

end Bouncer.Clash
