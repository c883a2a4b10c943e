import Bouncer.Library.Documents
import Mathlib.Data.List.Forall2

/-!
# Query filters

`makeQueryFilterDocument` turns a tree of conditions into one document for the server.  The conditions of a builder,
and of the builders in it, become fields next to each other; an `Or` becomes the field `$or`, and an `Eq` without
values no field at all.

The server takes the last of several fields with one name.  So what it looks for is the query without the conditions
that are dropped (`matches_iff_remaining`), which is the query itself if the names are different and each `Eq` has
values (`satisfies_remaining_of_distinct`).
-/

namespace Bouncer.Query

variable {D V : Type*}

/-- `RepoQuery`, but for projections.  An `Or` of the source has at least one condition. -/
inductive RepoQuery (V : Type*) where
  | eq (field : String) (values : List V)
  | exists (field : String) (present : Bool)
  | or (conditions : List (RepoQuery V))
  | arrayContains (field : String) (query : RepoQuery V)
  | builder (conditions : List (RepoQuery V))

/-- What a filter document has in a field: a value, `$in`, `$exists` or `$elemMatch`, or the documents of `$or`. -/
inductive Criterion (V : Type*) where
  | value (v : V)
  | in (values : List V)
  | exists (present : Bool)
  | elemMatch (document : List (String × Criterion V))
  | or (documents : List (List (String × Criterion V)))

abbrev FilterDocument (V : Type*) := List (String × Criterion V)

/-! ### Building the document -/

mutual

/-- `MongoQueryFilterVistior`, with the fields that the builder has already. -/
def visit : RepoQuery V → FilterDocument V → FilterDocument V
  | .eq field values, fields =>
    match values with
    | [] => fields
    | [v] => fields ++ [(field, .value v)]
    | v :: w :: rest => fields ++ [(field, .in (v :: w :: rest))]
  | .exists field present, fields => fields ++ [(field, .exists present)]
  | .arrayContains field query, fields => fields ++ [(field, .elemMatch (visit query []))]
  | .or conditions, fields => fields ++ [("$or", .or (documents conditions))]
  | .builder conditions, fields => visitAll conditions fields

def visitAll : List (RepoQuery V) → FilterDocument V → FilterDocument V
  | [], fields => fields
  | q :: conditions, fields => visitAll conditions (visit q fields)

/-- The documents of the conditions, each on its own. -/
def documents : List (RepoQuery V) → List (FilterDocument V)
  | [] => []
  | q :: conditions => visit q [] :: documents conditions

end

def makeQueryFilterDocument (query : RepoQuery V) : FilterDocument V := visit query []

/-! ### What the document and the query say -/

/-- What the server and the query can ask of a document. -/
structure Reading (D V : Type*) where
  /-- The field, or one of the elements of an array in it, has the value. -/
  equals : D → String → V → Prop
  has : D → String → Prop
  /-- The documents in an array in the field. -/
  elements : D → String → List D

variable (reading : Reading D V)

mutual

/-- The criterion of the field holds for the document. -/
def Holds : Criterion V → String → D → Prop
  | .value v, field, d => reading.equals d field v
  | .in values, field, d => ∃ v ∈ values, reading.equals d field v
  | .exists present, field, d => reading.has d field ↔ present = true
  | .elemMatch document, field, d => ∃ e ∈ reading.elements d field, Matches document e
  | .or documents, _, d => MatchesAny documents d

/-- The document has all fields of the filter, of several with one name the last. -/
def Matches : FilterDocument V → D → Prop
  | [], _ => True
  | (field, criterion) :: rest, d => ((∃ other ∈ rest, other.1 = field) ∨ Holds criterion field d) ∧ Matches rest d

def MatchesAny : List (FilterDocument V) → D → Prop
  | [], _ => False
  | document :: documents, d => Matches document d ∨ MatchesAny documents d

end

mutual

def Satisfies : RepoQuery V → D → Prop
  | .eq field values, d => ∃ v ∈ values, reading.equals d field v
  | .exists field present, d => reading.has d field ↔ present = true
  | .arrayContains field query, d => ∃ e ∈ reading.elements d field, Satisfies query e
  | .or conditions, d => SatisfiesAny conditions d
  | .builder conditions, d => SatisfiesAll conditions d

def SatisfiesAny : List (RepoQuery V) → D → Prop
  | [], _ => False
  | q :: conditions, d => Satisfies q d ∨ SatisfiesAny conditions d

def SatisfiesAll : List (RepoQuery V) → D → Prop
  | [], _ => True
  | q :: conditions, d => Satisfies q d ∧ SatisfiesAll conditions d

end

/-! ### What is left of a query -/

/-- Of several entries with one name, the last. -/
def lastOfEach {α : Type*} : List (String × α) → List (String × α)
  | [] => []
  | entry :: rest => if ∃ other ∈ rest, other.1 = entry.1 then lastOfEach rest else entry :: lastOfEach rest

mutual

/-- The conditions next to each other on the first level, with the names that their fields get, and what is left of
each. -/
def entries : RepoQuery V → List (String × RepoQuery V)
  | .eq field values => if values.isEmpty then [] else [(field, .eq field values)]
  | .exists field present => [(field, .exists field present)]
  | .arrayContains field query =>
    [(field, .arrayContains field (.builder ((lastOfEach (entries query)).map Prod.snd)))]
  | .or conditions => [("$or", .or (remainingEach conditions))]
  | .builder conditions => entriesAll conditions

def entriesAll : List (RepoQuery V) → List (String × RepoQuery V)
  | [] => []
  | q :: conditions => entries q ++ entriesAll conditions

def remainingEach : List (RepoQuery V) → List (RepoQuery V)
  | [] => []
  | q :: conditions => .builder ((lastOfEach (entries q)).map Prod.snd) :: remainingEach conditions

end

/-- The query without each `Eq` that has no values and without each condition that another one with the same name
follows on its level. -/
def remaining (query : RepoQuery V) : RepoQuery V := .builder ((lastOfEach (entries query)).map Prod.snd)

/-! ### Entries by their names -/

section LastOfEach

variable {α β : Type*} {l : List (String × α)}

private theorem lastOfEach_subset (l : List (String × α)) : lastOfEach l ⊆ l := by
  induction l with
  | nil => exact List.Subset.refl _
  | cons entry rest ih =>
    rw [lastOfEach]
    split
    · exact List.subset_cons_of_subset _ ih
    · exact List.cons_subset_cons _ ih

private theorem lastOfEach_eq_self (h : (l.map Prod.fst).Nodup) : lastOfEach l = l := by
  induction l with
  | nil => rfl
  | cons entry rest ih =>
    obtain ⟨hnew, hnodup⟩ := List.nodup_cons.1 h
    have hlast : ¬ ∃ other ∈ rest, other.1 = entry.1 := by
      rintro ⟨other, hother, hname⟩
      exact hnew (hname ▸ List.mem_map_of_mem hother)
    rw [lastOfEach, if_neg hlast, ih hnodup]

end LastOfEach

variable {reading}

@[simp] theorem satisfiesAll_iff {conditions : List (RepoQuery V)} {d : D} :
    SatisfiesAll reading conditions d ↔ ∀ q ∈ conditions, Satisfies reading q d := by
  induction conditions with
  | nil => simp [SatisfiesAll]
  | cons q conditions ih => simp [SatisfiesAll, ih]

@[simp] theorem satisfiesAny_iff {conditions : List (RepoQuery V)} {d : D} :
    SatisfiesAny reading conditions d ↔ ∃ q ∈ conditions, Satisfies reading q d := by
  induction conditions with
  | nil => simp [SatisfiesAny]
  | cons q conditions ih => simp [SatisfiesAny, ih]

private theorem satisfies_remaining_iff {q : RepoQuery V} {d : D} :
    Satisfies reading (remaining q) d ↔ ∀ entry ∈ lastOfEach (entries q), Satisfies reading entry.2 d := by
  rw [remaining, Satisfies, satisfiesAll_iff, List.forall_mem_map]

/-! ### The document says what is left of the query -/

/-- The field stands for the condition. -/
def Corresponds (reading : Reading D V) (field : String × Criterion V) (entry : String × RepoQuery V) : Prop :=
  field.1 = entry.1 ∧ ∀ d, Holds reading field.2 field.1 d ↔ Satisfies reading entry.2 d

private theorem matches_iff_of_corresponds {document : FilterDocument V} {conditions : List (String × RepoQuery V)}
    (h : List.Forall₂ (Corresponds reading) document conditions) (d : D) :
    Matches reading document d ↔ ∀ entry ∈ lastOfEach conditions, Satisfies reading entry.2 d := by
  induction h with
  | nil => simp [Matches, lastOfEach]
  | @cons field entry document conditions hfirst hrest ih =>
    obtain ⟨hname, hholds⟩ := hfirst
    -- the names are the same
    have hnames : (∃ other ∈ document, other.1 = field.1) ↔ ∃ other ∈ conditions, other.1 = entry.1 := by
      rw [hname]
      clear ih hholds hname
      induction hrest with
      | nil => simp
      | cons hsame _ ih => simp only [List.exists_mem_cons_iff, hsame.1, ih]
    rw [Matches, lastOfEach, ih, hnames, hholds]
    by_cases hlast : ∃ other ∈ conditions, other.1 = entry.1
    · rw [if_pos hlast]
      exact and_iff_right (Or.inl hlast)
    · rw [if_neg hlast, List.forall_mem_cons]
      exact and_congr_left fun _ => or_iff_right hlast

mutual

private theorem exists_fields_visit (q : RepoQuery V) : ∃ document, (∀ fields, visit q fields = fields ++ document) ∧
    List.Forall₂ (Corresponds reading) document (entries q) := by
  cases q with
  | eq field values =>
    rcases values with _ | ⟨v, _ | ⟨w, rest⟩⟩
    · exact ⟨[], fun fields => by simp [visit], by simp [entries]⟩
    · refine ⟨[(field, .value v)], fun fields => by simp [visit], ?_⟩
      simp [entries, Corresponds, Holds, Satisfies]
    · refine ⟨[(field, .in (v :: w :: rest))], fun fields => by simp [visit], ?_⟩
      simp [entries, Corresponds, Holds, Satisfies]
  | «exists» field present =>
    refine ⟨[(field, .exists present)], fun fields => by simp [visit], ?_⟩
    simp [entries, Corresponds, Holds, Satisfies]
  | arrayContains field query =>
    obtain ⟨document, hvisit, hcorresponds⟩ := exists_fields_visit query
    refine ⟨[(field, .elemMatch document)], fun fields => by simp [visit, hvisit], ?_⟩
    have hmatches : ∀ d, Matches reading document d ↔ Satisfies reading (remaining query) d := fun d =>
      (matches_iff_of_corresponds hcorresponds d).trans satisfies_remaining_iff.symm
    rw [entries]
    refine .cons ⟨rfl, fun d => ?_⟩ .nil
    rw [Holds, Satisfies]
    simp only [hmatches, remaining]
  | or conditions =>
    refine ⟨[("$or", .or (documents conditions))], fun fields => by simp [visit], ?_⟩
    have hany := matchesAny_documents conditions
    simp [entries, Corresponds, Holds, Satisfies, hany]
  | builder conditions =>
    obtain ⟨document, hvisit, hcorresponds⟩ := exists_fields_visitAll conditions
    exact ⟨document, fun fields => by rw [visit, hvisit], by rwa [entries]⟩

theorem exists_fields_visitAll (conditions : List (RepoQuery V)) : ∃ document,
    (∀ fields, visitAll conditions fields = fields ++ document) ∧
    List.Forall₂ (Corresponds reading) document (entriesAll conditions) := by
  cases conditions with
  | nil => exact ⟨[], fun fields => by simp [visitAll], by simp [entriesAll]⟩
  | cons q conditions =>
    obtain ⟨document, hvisit, hcorresponds⟩ := exists_fields_visit q
    obtain ⟨document', hvisit', hcorresponds'⟩ := exists_fields_visitAll conditions
    refine ⟨document ++ document', fun fields => ?_, ?_⟩
    · rw [visitAll, hvisit, hvisit', List.append_assoc]
    · rw [entriesAll]
      exact List.rel_append hcorresponds hcorresponds'

theorem matchesAny_documents (conditions : List (RepoQuery V)) (d : D) :
    MatchesAny reading (documents conditions) d ↔ ∃ q ∈ remainingEach conditions, Satisfies reading q d := by
  cases conditions with
  | nil => simp [documents, remainingEach, MatchesAny]
  | cons q conditions =>
    obtain ⟨document, hvisit, hcorresponds⟩ := exists_fields_visit q
    have hfirst : Matches reading (visit q []) d ↔ Satisfies reading (remaining q) d := by
      rw [hvisit, List.nil_append, matches_iff_of_corresponds hcorresponds, satisfies_remaining_iff]
    rw [documents, remainingEach, MatchesAny, hfirst, matchesAny_documents conditions, List.exists_mem_cons_iff]
    rfl

end

private theorem matches_iff_remaining (query : RepoQuery V) (d : D) :
    Matches reading (makeQueryFilterDocument query) d ↔ Satisfies reading (remaining query) d := by
  obtain ⟨document, hvisit, hcorresponds⟩ : ∃ document, (∀ fields, visit query fields = fields ++ document) ∧
    List.Forall₂ (Corresponds reading) document (entries query) := exists_fields_visit query
  rw [makeQueryFilterDocument, hvisit, List.nil_append, matches_iff_of_corresponds hcorresponds,
    satisfies_remaining_iff]

/-! ### What is left follows from the query -/

mutual

private theorem satisfies_of_mem_entries (q : RepoQuery V) {d : D} (h : Satisfies reading q d) {entry : String × RepoQuery V}
    (hentry : entry ∈ entries q) : Satisfies reading entry.2 d := by
  cases q with
  | eq field values =>
    rw [entries] at hentry
    split at hentry
    · exact absurd hentry List.not_mem_nil
    · rwa [List.mem_singleton.1 hentry]
  | «exists» field present =>
    rw [entries] at hentry
    rwa [List.mem_singleton.1 hentry]
  | arrayContains field query =>
    rw [entries] at hentry
    rw [List.mem_singleton.1 hentry]
    rw [Satisfies] at h ⊢
    obtain ⟨e, helements, hquery⟩ := h
    refine ⟨e, helements, satisfies_remaining_iff.2 ?_⟩
    exact fun inner hinner => satisfies_of_mem_entries query hquery (lastOfEach_subset _ hinner)
  | or conditions =>
    rw [entries] at hentry
    rw [List.mem_singleton.1 hentry]
    rw [Satisfies, satisfiesAny_iff] at h ⊢
    exact exists_satisfies_remainingEach conditions h
  | builder conditions =>
    rw [entries] at hentry
    rw [Satisfies, satisfiesAll_iff] at h
    exact satisfies_of_mem_entriesAll conditions h hentry

theorem satisfies_of_mem_entriesAll (conditions : List (RepoQuery V)) {d : D}
    (h : ∀ q ∈ conditions, Satisfies reading q d) {entry : String × RepoQuery V} (hentry : entry ∈ entriesAll conditions) :
    Satisfies reading entry.2 d := by
  cases conditions with
  | nil => exact absurd hentry List.not_mem_nil
  | cons q conditions =>
    rw [entriesAll, List.mem_append] at hentry
    rw [List.forall_mem_cons] at h
    rcases hentry with hentry | hentry
    · exact satisfies_of_mem_entries q h.1 hentry
    · exact satisfies_of_mem_entriesAll conditions h.2 hentry

theorem exists_satisfies_remainingEach (conditions : List (RepoQuery V)) {d : D}
    (h : ∃ q ∈ conditions, Satisfies reading q d) : ∃ q ∈ remainingEach conditions, Satisfies reading q d := by
  cases conditions with
  | nil => simp at h
  | cons q conditions =>
    rw [remainingEach, List.exists_mem_cons_iff]
    rw [List.exists_mem_cons_iff] at h
    refine h.imp ?_ (exists_satisfies_remainingEach conditions)
    intro hq
    exact satisfies_remaining_iff.2 fun entry hentry =>
      satisfies_of_mem_entries q hq (lastOfEach_subset _ hentry)

end

private theorem satisfies_remaining {q : RepoQuery V} {d : D} (h : Satisfies reading q d) : Satisfies reading (remaining q) d :=
  satisfies_remaining_iff.2 fun _ hentry => satisfies_of_mem_entries q h (lastOfEach_subset _ hentry)

/-- The filter document means the query exactly if what is dropped follows from what is left. -/
theorem matches_makeQueryFilterDocument_iff (reading : Reading D V) (query : RepoQuery V) (d : D) :
    (Matches reading (makeQueryFilterDocument query) d ↔ Satisfies reading query d) ↔
      (Satisfies reading (remaining query) d → Satisfies reading query d) := by
  rw [matches_iff_remaining]
  exact ⟨fun h => h.1, fun h => ⟨h, satisfies_remaining⟩⟩

/-! ### A condition that vanishes -/

section Vanishes

open Library (Value dotted)

/-- Reading documents with named fields. -/
def Reading.ofValues (S : Type) [DecidableEq S] : Reading (Value S) S where
  equals := fun d field v => ∃ value, d.get? (dotted field) = some value ∧ value.equals v = true
  has := fun d field => (d.get? (dotted field)).isSome = true
  elements := fun d field =>
    match d.get? (dotted field) with
    | some (.array items) => items.filter fun
      | .object _ => true
      | _ => false
    | _ => []

/-- The meshes with one of no identifiers are all meshes. -/
theorem not_matches_iff_satisfies_no_ids :
    ¬ (Matches (Reading.ofValues String)
          (makeQueryFilterDocument (.builder [.eq "type" ["mesh"], .eq "_id" []]))
          (.object [("_id", .scalar "a"), ("type", .scalar "mesh")]) ↔
        Satisfies (Reading.ofValues String) (.builder [.eq "type" ["mesh"], .eq "_id" []])
          (.object [("_id", .scalar "a"), ("type", .scalar "mesh")])) := by
  have hmatches : Matches (Reading.ofValues String)
      (makeQueryFilterDocument (.builder [.eq "type" ["mesh"], .eq "_id" []]))
      (.object [("_id", .scalar "a"), ("type", .scalar "mesh")]) := by
    refine ⟨Or.inr ⟨.scalar "mesh", ?_, rfl⟩, trivial⟩
    rw [(by decide : dotted "type" = ["type"])]
    rfl
  intro h
  obtain ⟨-, ⟨v, hv, -⟩, -⟩ := h.1 hmatches
  exact absurd hv List.not_mem_nil

end Vanishes

/-! ### Queries of which nothing is dropped -/

mutual

/-- Each `Eq` has values, and on each level the names are different. -/
def Distinct : RepoQuery V → Prop
  | .eq _ values => values ≠ []
  | .exists _ _ => True
  | .arrayContains _ query => Distinct query
  | .or conditions => DistinctEach conditions
  | .builder conditions => ((entriesAll conditions).map Prod.fst).Nodup ∧ DistinctEach conditions

def DistinctEach : List (RepoQuery V) → Prop
  | [] => True
  | q :: conditions => Distinct q ∧ DistinctEach conditions

end

private theorem nodup_entries {q : RepoQuery V} (h : Distinct q) : ((entries q).map Prod.fst).Nodup := by
  cases q with
  | eq field values =>
    rw [entries]
    split <;> simp
  | «exists» field present => simp [entries]
  | arrayContains field query => simp [entries]
  | or conditions => simp [entries]
  | builder conditions =>
    rw [Distinct] at h
    exact h.1

mutual

theorem satisfies_of_entries (q : RepoQuery V) (hdistinct : Distinct q) {d : D}
    (h : ∀ entry ∈ entries q, Satisfies reading entry.2 d) : Satisfies reading q d := by
  cases q with
  | eq field values =>
    rw [Distinct] at hdistinct
    have hvalues : ¬ values.isEmpty = true := by simpa using hdistinct
    rw [entries, if_neg hvalues] at h
    exact h _ (List.mem_singleton_self _)
  | «exists» field present =>
    rw [entries] at h
    exact h _ (List.mem_singleton_self _)
  | arrayContains field query =>
    rw [Distinct] at hdistinct
    rw [entries] at h
    have hquery := h _ (List.mem_singleton_self _)
    rw [Satisfies] at hquery ⊢
    obtain ⟨e, helements, he⟩ := hquery
    exact ⟨e, helements, satisfies_of_remaining query hdistinct he⟩
  | or conditions =>
    rw [Distinct] at hdistinct
    rw [entries] at h
    have hor := h _ (List.mem_singleton_self _)
    rw [Satisfies, satisfiesAny_iff] at hor ⊢
    exact exists_satisfies_of_remainingEach conditions hdistinct hor
  | builder conditions =>
    rw [Distinct] at hdistinct
    rw [entries] at h
    rw [Satisfies, satisfiesAll_iff]
    exact fun q hq => satisfies_of_entriesAll conditions hdistinct.2 h q hq

theorem satisfies_of_entriesAll (conditions : List (RepoQuery V)) (hdistinct : DistinctEach conditions) {d : D}
    (h : ∀ entry ∈ entriesAll conditions, Satisfies reading entry.2 d) :
    ∀ q ∈ conditions, Satisfies reading q d := by
  cases conditions with
  | nil => simp
  | cons q conditions =>
    rw [DistinctEach] at hdistinct
    rw [entriesAll, List.forall_mem_append] at h
    rw [List.forall_mem_cons]
    exact ⟨satisfies_of_entries q hdistinct.1 h.1, satisfies_of_entriesAll conditions hdistinct.2 h.2⟩

private theorem satisfies_of_remaining (q : RepoQuery V) (hdistinct : Distinct q) {d : D}
    (h : Satisfies reading (remaining q) d) : Satisfies reading q d := by
  rw [satisfies_remaining_iff, lastOfEach_eq_self (nodup_entries hdistinct)] at h
  exact satisfies_of_entries q hdistinct h

theorem exists_satisfies_of_remainingEach (conditions : List (RepoQuery V)) (hdistinct : DistinctEach conditions) {d : D}
    (h : ∃ q ∈ remainingEach conditions, Satisfies reading q d) : ∃ q ∈ conditions, Satisfies reading q d := by
  cases conditions with
  | nil => simp [remainingEach] at h
  | cons q conditions =>
    rw [DistinctEach] at hdistinct
    rw [remainingEach, List.exists_mem_cons_iff] at h
    rw [List.exists_mem_cons_iff]
    exact h.imp (satisfies_of_remaining q hdistinct.1) (exists_satisfies_of_remainingEach conditions hdistinct.2)

end

theorem matches_iff_of_distinct {query : RepoQuery V} (h : Distinct query) (d : D) :
    Matches reading (makeQueryFilterDocument query) d ↔ Satisfies reading query d := by
  rw [matches_iff_remaining]
  exact ⟨satisfies_of_remaining query h, satisfies_remaining⟩

end Bouncer.Query
