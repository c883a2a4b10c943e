import Mathlib.Data.List.AList
import Mathlib.Order.Lattice

/-!
# Accumulating values by key

A map from keys to accumulated values is fed a sequence of events, each a key with a value.  The entry of the key is
created on its first event (`upsert`).  In the end the map has an entry exactly for the keys of the events
(`mem_keys_collect`), and each entry is the fold of the values of its own key (`lookup_collect`), so what the order
of the events of different keys is does not matter.

`keepLess` is the accumulation that keeps the first least value (`isFirstLeast_foldl_keepLess`).
-/

namespace Bouncer.Library

universe u v w

variable {κ : Type u} {τ : Type v} {ε : Type w} [DecidableEq κ]

/-- The values of the events with the key `k`, in their order. -/
def valuesAt (k : κ) (events : List (κ × ε)) : List ε :=
  (events.filter fun e => e.1 = k).map Prod.snd

/-- One event: update the entry of its key, created as `init` if there is none. -/
def upsert (init : τ) (f : τ → ε → τ) (entries : AList fun _ : κ => τ) (e : κ × ε) : AList fun _ : κ => τ :=
  entries.insert e.1 (f ((entries.lookup e.1).getD init) e.2)

def collect (init : τ) (f : τ → ε → τ) (events : List (κ × ε)) : AList fun _ : κ => τ :=
  events.foldl (upsert init f) ∅

section Collect

variable {init : τ} {f : τ → ε → τ}

theorem mem_valuesAt {k : κ} {v : ε} {events : List (κ × ε)} : v ∈ valuesAt k events ↔ (k, v) ∈ events := by
  simp [valuesAt]

theorem valuesAt_map_self (k : κ) (values : List ε) : valuesAt k (values.map fun v => (k, v)) = values := by
  induction values with
  | nil => rfl
  | cons v values ih => simpa [valuesAt] using ih

theorem valuesAt_append (k : κ) (events events' : List (κ × ε)) :
    valuesAt k (events ++ events') = valuesAt k events ++ valuesAt k events' := by
  simp [valuesAt]

private theorem lookup_foldl_upsert (k : κ) (events : List (κ × ε)) (entries : AList fun _ : κ => τ) :
    (events.foldl (upsert init f) entries).lookup k =
      if valuesAt k events = [] then entries.lookup k
      else some ((valuesAt k events).foldl f ((entries.lookup k).getD init)) := by
  induction events generalizing entries with
  | nil => simp [valuesAt]
  | cons e events ih =>
    rw [List.foldl_cons, ih]
    by_cases he : e.1 = k
    · have hvalues : valuesAt k (e :: events) = e.2 :: valuesAt k events := by simp [valuesAt, he]
      have hlookup : (upsert init f entries e).lookup k = some (f ((entries.lookup k).getD init) e.2) := by
        rw [upsert, he]
        exact AList.lookup_insert entries
      rw [hvalues, hlookup, if_neg (List.cons_ne_nil _ _), List.foldl_cons]
      by_cases hempty : valuesAt k events = []
      · rw [if_pos hempty, hempty, List.foldl_nil]
      · rw [if_neg hempty, Option.getD_some]
    · have hvalues : valuesAt k (e :: events) = valuesAt k events := by simp [valuesAt, he]
      have hlookup : (upsert init f entries e).lookup k = entries.lookup k :=
        AList.lookup_insert_ne fun h => he h.symm
      rw [hvalues, hlookup]

/-- An entry is the fold of the values of its key. -/
theorem lookup_collect (k : κ) (events : List (κ × ε)) :
    (collect init f events).lookup k =
      if valuesAt k events = [] then none else some ((valuesAt k events).foldl f init) := by
  rw [collect, lookup_foldl_upsert, AList.lookup_empty, Option.getD_none]

/-- The keys of the entries are those of the events. -/
theorem mem_keys_collect {k : κ} {events : List (κ × ε)} :
    k ∈ (collect init f events).keys ↔ ∃ v, (k, v) ∈ events := by
  rw [← AList.mem_keys, ← AList.lookup_isSome, lookup_collect]
  constructor
  · intro h
    by_cases hempty : valuesAt k events = []
    · rw [if_pos hempty] at h
      cases h
    · obtain ⟨v, hv⟩ := List.exists_mem_of_ne_nil _ hempty
      exact ⟨v, mem_valuesAt.1 hv⟩
  · rintro ⟨v, hv⟩
    have hne : valuesAt k events ≠ [] := List.ne_nil_of_mem (mem_valuesAt.2 hv)
    rw [if_neg hne]
    rfl

/-- What an entry holds. -/
theorem entry_collect {events : List (κ × ε)} {entry : Sigma fun _ : κ => τ} (h : entry ∈ (collect init f events).entries) :
    valuesAt entry.1 events ≠ [] ∧ entry.2 = (valuesAt entry.1 events).foldl f init := by
  have hlookup : (collect init f events).lookup entry.1 = some entry.2 := AList.mem_lookup_iff.2 h
  rw [lookup_collect] at hlookup
  by_cases hempty : valuesAt entry.1 events = []
  · rw [if_pos hempty] at hlookup
    exact nomatch hlookup
  · rw [if_neg hempty] at hlookup
    exact ⟨hempty, (Option.some.inj hlookup).symm⟩

end Collect

/-- Every element of a list has one of the keys. -/
theorem perm_flatMap_filter {α : Type*} (key : α → κ) {keys : List κ} (hnodup : keys.Nodup) {l : List α}
    (hmem : ∀ x ∈ l, key x ∈ keys) : (keys.flatMap fun k => l.filter fun x => decide (key x = k)).Perm l := by
  induction keys generalizing l with
  | nil =>
    cases l with
    | nil => exact .nil
    | cons x l => exact absurd (hmem x List.mem_cons_self) List.not_mem_nil
  | cons k keys ih =>
    obtain ⟨hnew, hnodup⟩ := List.nodup_cons.1 hnodup
    have hrest : (keys.flatMap fun k' => l.filter fun x => decide (key x = k')).Perm
        (l.filter fun x => !decide (key x = k)) := by
      have hsame : ∀ k' ∈ keys, (l.filter fun x => decide (key x = k')) =
          (l.filter fun x => !decide (key x = k)).filter fun x => decide (key x = k') := by
        intro k' hk'
        rw [List.filter_filter]
        apply List.filter_congr
        intro x _
        by_cases hx : key x = k'
        · have hne : key x ≠ k := fun he => hnew (he ▸ hx ▸ hk')
          simp [hx, hx ▸ hne]
        · simp [hx]
      rw [List.flatMap_congr hsame]
      apply ih hnodup
      intro x hx
      have hne : key x ≠ k := by simpa using (List.mem_filter.1 hx).2
      exact (List.mem_cons.1 (hmem x (List.mem_filter.1 hx).1)).resolve_left hne
    rw [List.flatMap_cons]
    exact (hrest.append_left _).trans (List.filter_append_perm (fun x => decide (key x = k)) l)

theorem perm_flatMap_of_forall₂ {α β γ : Type*} {f : α → List γ} {g : β → List γ} {l : List α} {l' : List β}
    (h : List.Forall₂ (fun a b => (f a).Perm (g b)) l l') : (l.flatMap f).Perm (l'.flatMap g) := by
  induction h with
  | nil => exact .nil
  | cons hab _ ih => exact hab.append ih

/-! ### Keeping the least value -/

section Least

variable {α : Type*} {R : Type*} [LinearOrder R]

def keepLess (measure : α → R) (m x : α) : α := if measure x < measure m then x else m

theorem measure_keepLess_le (measure : α → R) (m x : α) :
    measure (keepLess measure m x) ≤ measure m ∧ measure (keepLess measure m x) ≤ measure x := by
  unfold keepLess
  by_cases h : measure x < measure m
  · rw [if_pos h]
    exact ⟨h.le, le_rfl⟩
  · rw [if_neg h]
    exact ⟨le_rfl, not_lt.1 h⟩

/-- The value that is kept is no greater than any of the values. -/
theorem measure_foldl_keepLess_le (measure : α → R) (m : α) (l : List α) :
    measure (l.foldl (keepLess measure) m) ≤ measure m ∧
      ∀ x ∈ l, measure (l.foldl (keepLess measure) m) ≤ measure x := by
  induction l generalizing m with
  | nil => simp
  | cons y l ih =>
    obtain ⟨hinit, hmem⟩ := ih (keepLess measure m y)
    obtain ⟨hm, hy⟩ := measure_keepLess_le measure m y
    rw [List.foldl_cons]
    refine ⟨hinit.trans hm, ?_⟩
    intro x hx
    rcases List.mem_cons.1 hx with rfl | hx
    · exact hinit.trans hy
    · exact hmem x hx

/-- It is the start value or one of the values. -/
theorem foldl_keepLess_mem (measure : α → R) (m : α) (l : List α) :
    l.foldl (keepLess measure) m = m ∨ l.foldl (keepLess measure) m ∈ l := by
  induction l generalizing m with
  | nil => exact Or.inl rfl
  | cons y l ih =>
    rw [List.foldl_cons]
    rcases ih (keepLess measure m y) with h | h
    · rw [h]
      unfold keepLess
      by_cases hlt : measure y < measure m
      · rw [if_pos hlt]
        exact Or.inr List.mem_cons_self
      · rw [if_neg hlt]
        exact Or.inl rfl
    · exact Or.inr (List.mem_cons_of_mem _ h)

/-- If one of the values is less than the start value, a least one of the values is kept. -/
theorem foldl_keepLess_mem_of_lt {measure : α → R} {m : α} {l : List α} (h : ∃ x ∈ l, measure x < measure m) :
    l.foldl (keepLess measure) m ∈ l := by
  obtain ⟨x, hx, hlt⟩ := h
  rcases foldl_keepLess_mem measure m l with hm | hm
  · have := (measure_foldl_keepLess_le measure m l).2 x hx
    rw [hm] at this
    exact absurd hlt (not_lt.2 this)
  · exact hm

/-- `x` is the first of the elements of the list whose measure is least. -/
def IsFirstLeast (measure : α → R) : List α → α → Prop
  | [], _ => False
  | y :: l, x => (x = y ∧ ∀ z ∈ l, measure y ≤ measure z) ∨ (measure x < measure y ∧ IsFirstLeast measure l x)

variable {measure : α → R} {l : List α} {x y : α}

theorem IsFirstLeast.mem (h : IsFirstLeast measure l x) : x ∈ l := by
  induction l with
  | nil => exact h.elim
  | cons y l ih =>
    obtain ⟨rfl, -⟩ | ⟨-, h⟩ := h
    · exact List.mem_cons_self
    · exact List.mem_cons_of_mem _ (ih h)

theorem IsFirstLeast.le (h : IsFirstLeast measure l x) (hy : y ∈ l) : measure x ≤ measure y := by
  induction l with
  | nil => exact h.elim
  | cons z l ih =>
    obtain ⟨rfl, hle⟩ | ⟨hlt, h⟩ := h
    · obtain rfl | hy := List.mem_cons.1 hy
      · exact le_rfl
      · exact hle y hy
    · obtain rfl | hy := List.mem_cons.1 hy
      · exact hlt.le
      · exact ih h hy

theorem IsFirstLeast.unique (hx : IsFirstLeast measure l x) (hy : IsFirstLeast measure l y) : x = y := by
  induction l with
  | nil => exact hx.elim
  | cons z l ih =>
    obtain ⟨rfl, hle⟩ | ⟨hlt, hx⟩ := hx
    · obtain ⟨rfl, -⟩ | ⟨hlt, hy⟩ := hy
      · rfl
      · exact absurd hlt (not_lt.2 (hle y hy.mem))
    · obtain ⟨rfl, hle⟩ | ⟨-, hy⟩ := hy
      · exact absurd hlt (not_lt.2 (hle x hx.mem))
      · exact ih hx hy

theorem isFirstLeast_of_forall_eq (hne : l ≠ []) (h : ∀ y ∈ l, y = x) : IsFirstLeast measure l x := by
  cases l with
  | nil => exact absurd rfl hne
  | cons y l =>
    obtain ⟨rfl, h⟩ := List.forall_mem_cons.1 h
    exact .inl ⟨rfl, fun z hz => (congrArg measure (h z hz)).ge⟩

theorem IsFirstLeast.append {l' : List α} (h : IsFirstLeast measure l x) (hle : ∀ y ∈ l', measure x ≤ measure y) :
    IsFirstLeast measure (l ++ l') x := by
  induction l with
  | nil => exact h.elim
  | cons z l ih =>
    obtain ⟨rfl, hz⟩ | ⟨hlt, h⟩ := h
    · exact .inl ⟨rfl, List.forall_mem_append.2 ⟨hz, hle⟩⟩
    · exact .inr ⟨hlt, ih h⟩

/-- The value that is kept is the first least one, the start value being the first of all. -/
theorem isFirstLeast_foldl_keepLess (measure : α → R) (m : α) (l : List α) :
    IsFirstLeast measure (m :: l) (l.foldl (keepLess measure) m) := by
  induction l generalizing m with
  | nil => exact .inl ⟨rfl, nofun⟩
  | cons y l ih =>
    rw [List.foldl_cons]
    unfold keepLess
    by_cases hlt : measure y < measure m
    · rw [if_pos hlt]
      have hrest := ih y
      have hle := hrest.le List.mem_cons_self
      exact .inr ⟨lt_of_le_of_lt hle hlt, hrest⟩
    · rw [if_neg hlt]
      obtain ⟨he, hle⟩ | ⟨hless, hrest⟩ := ih m
      · refine .inl ⟨he, ?_⟩
        intro z hz
        obtain rfl | hz := List.mem_cons.1 hz
        · exact not_lt.1 hlt
        · exact hle z hz
      · exact .inr ⟨hless, .inr ⟨lt_of_lt_of_le hless (not_lt.1 hlt), hrest⟩⟩

end Least

end Bouncer.Library
