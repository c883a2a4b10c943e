import Bouncer.Library.Tiling
import Mathlib.Data.List.Nodup

/-!
# Packing into bins of bounded size

Things of some size are packed in the order in which they arrive.  Each goes into the current bin, unless it would make
that larger than `cap`: then the bin is closed, and the thing goes into a new one (`NextFit.place`).  A thing that is
larger than `cap` gets a bin of its own (`NextFit.Bounded.place`).

`NextFit.slots` lists where the things are: the name of the bin, and a range in it.  Placing a thing adds one slot
and leaves the others as they are (`NextFit.slots_place`), and the slots of a bin are the spans of its things
(`NextFit.filter_slots`).
-/

namespace Bouncer.Library

universe u v

/-- Named bins, of which the last may still grow. -/
structure NextFit (ι : Type u) (α : Type v) where
  closed : List (ι × List α)
  current : Option (ι × List α)

namespace NextFit

variable {ι : Type u} {α : Type v} (size : α → ℕ) (cap : ℕ)

def empty : NextFit ι α := ⟨[], none⟩

def bins (s : NextFit ι α) : List (ι × List α) := s.closed ++ s.current.toList

def total (bin : ι × List α) : ℕ := (bin.2.map size).sum

/-- One more thing, with the name of the bin that it may need. -/
def place (s : NextFit ι α) (name : ι) (x : α) : NextFit ι α :=
  match s.current with
  | some bin =>
    if cap < total size bin + size x then ⟨s.closed ++ [bin], some (name, [x])⟩
    else { s with current := some (bin.1, bin.2 ++ [x]) }
  | none => ⟨s.closed, some (name, [x])⟩

/-- The slots of a bin, in the order of its things. -/
def slotsOf (bin : ι × List α) : List (ι × (ℕ × ℕ)) := (spans 0 (bin.2.map size)).map fun r => (bin.1, r)

def slots (s : NextFit ι α) : List (ι × (ℕ × ℕ)) := s.bins.flatMap (slotsOf size)

variable {size cap} {s : NextFit ι α} {name : ι} {x : α}

theorem place_of_none (h : s.current = none) : s.place size cap name x = ⟨s.closed, some (name, [x])⟩ := by
  rw [place, h]

variable {bin : ι × List α}

theorem place_of_full (h : s.current = some bin) (hcap : cap < total size bin + size x) :
    s.place size cap name x = ⟨s.closed ++ [bin], some (name, [x])⟩ := by
  rw [place, h]
  exact if_pos hcap

theorem place_of_fits (h : s.current = some bin) (hcap : ¬ cap < total size bin + size x) :
    s.place size cap name x = { s with current := some (bin.1, bin.2 ++ [x]) } := by
  rw [place, h]
  exact if_neg hcap

theorem slotsOf_concat (bin : ι × List α) (x : α) : slotsOf size (bin.1, bin.2 ++ [x]) =
    slotsOf size bin ++ [(bin.1, (total size bin, total size bin + size x))] := by
  unfold slotsOf total
  rw [List.map_append, List.map_singleton, spans_concat, Nat.zero_add, List.map_append]
  rfl

theorem slotsOf_singleton (name : ι) (x : α) : slotsOf size (name, [x]) = [(name, (0, size x))] := by
  unfold slotsOf
  rw [List.map_singleton, spans, spans, Nat.zero_add]
  rfl

theorem bins_of_some (h : s.current = some bin) : s.bins = s.closed ++ [bin] := by
  rw [bins, h]
  rfl

theorem bins_of_none (h : s.current = none) : s.bins = s.closed := by
  rw [bins, h]
  exact List.append_nil _

/-- The slot of a thing that is placed. -/
def nextSlot (size : α → ℕ) (cap : ℕ) (s : NextFit ι α) (name : ι) (x : α) : ι × (ℕ × ℕ) :=
  match s.current with
  | some bin =>
    if cap < total size bin + size x then (name, (0, size x))
    else (bin.1, (total size bin, total size bin + size x))
  | none => (name, (0, size x))

/-- Nothing that was placed is moved. -/
theorem slots_place (s : NextFit ι α) (name : ι) (x : α) :
    (s.place size cap name x).slots size = s.slots size ++ [s.nextSlot size cap name x] := by
  unfold slots nextSlot
  cases h : s.current with
  | none =>
    rw [place_of_none h, bins_of_none h]
    show List.flatMap _ (s.closed ++ [(name, [x])]) = _
    rw [List.flatMap_append, List.flatMap_singleton, slotsOf_singleton]
  | some bin =>
    rw [bins_of_some h]
    by_cases hcap : cap < total size bin + size x
    · rw [place_of_full h hcap]
      show List.flatMap _ (s.closed ++ [bin] ++ [(name, [x])]) = _
      rw [List.flatMap_append, List.flatMap_singleton, slotsOf_singleton]
      dsimp only
      rw [if_pos hcap]
    · rw [place_of_fits h hcap]
      show List.flatMap _ (s.closed ++ [(bin.1, bin.2 ++ [x])]) = _
      rw [List.flatMap_append, List.flatMap_append, List.flatMap_singleton, List.flatMap_singleton, slotsOf_concat,
        List.append_assoc]
      dsimp only
      rw [if_neg hcap]

/-- Every bin has something in it, and is not larger than `cap` unless it is for one thing alone. -/
def Bounded (size : α → ℕ) (cap : ℕ) (s : NextFit ι α) : Prop :=
  ∀ bin ∈ s.bins, bin.2 ≠ [] ∧ (total size bin ≤ cap ∨ bin.2.length = 1)

theorem bounded_empty : (empty : NextFit ι α).Bounded size cap := fun _ hbin => absurd hbin List.not_mem_nil

theorem Bounded.place (h : s.Bounded size cap) (name : ι) (x : α) : (s.place size cap name x).Bounded size cap := by
  have hone : ∀ {closed : List (ι × List α)}, (∀ bin ∈ closed, bin ∈ s.bins) →
      Bounded size cap ⟨closed, some (name, [x])⟩ := by
    intro closed hclosed bin hbin
    rcases List.mem_append.1 hbin with hbin | hbin
    · exact h bin (hclosed bin hbin)
    · rw [List.mem_singleton.1 hbin]
      exact ⟨List.cons_ne_nil _ _, .inr rfl⟩
  cases hcurrent : s.current with
  | none =>
    rw [place_of_none hcurrent]
    exact hone fun bin hbin => List.mem_append_left _ hbin
  | some bin =>
    by_cases hcap : cap < total size bin + size x
    · rw [place_of_full hcurrent hcap]
      exact hone fun bin hbin => (bins_of_some hcurrent) ▸ hbin
    · rw [place_of_fits hcurrent hcap]
      intro bin' hbin
      rcases List.mem_append.1 hbin with hbin | hbin
      · exact h bin' (List.mem_append_left _ hbin)
      · rw [List.mem_singleton.1 hbin]
        refine ⟨by simp, .inl ?_⟩
        unfold total at hcap ⊢
        rw [List.map_append, List.sum_append, List.map_singleton, List.sum_singleton]
        omega

/-- The names that are in use. -/
theorem names_place (s : NextFit ι α) (name : ι) (x : α) :
    (s.place size cap name x).bins.map Prod.fst = s.bins.map Prod.fst ∨
      (s.place size cap name x).bins.map Prod.fst = s.bins.map Prod.fst ++ [name] := by
  cases hcurrent : s.current with
  | none =>
    rw [place_of_none hcurrent, bins_of_none hcurrent]
    exact .inr List.map_append
  | some bin =>
    rw [bins_of_some hcurrent]
    by_cases hcap : cap < total size bin + size x
    · rw [place_of_full hcurrent hcap]
      exact .inr List.map_append
    · rw [place_of_fits hcurrent hcap]
      refine .inl ?_
      show List.map _ (s.closed ++ [(bin.1, bin.2 ++ [x])]) = _
      rw [List.map_append, List.map_append]
      rfl

variable (size) in
/-- The slots with the name of a bin are those of its things. -/
theorem filter_slots [DecidableEq ι] (hnodup : (s.bins.map Prod.fst).Nodup) (hbin : bin ∈ s.bins) :
    (s.slots size).filter (fun slot => decide (slot.1 = bin.1)) = slotsOf size bin := by
  have hslot : ∀ {bin' : ι × List α} {slot : ι × (ℕ × ℕ)}, slot ∈ slotsOf size bin' → slot.1 = bin'.1 := by
    intro bin' slot hslot
    obtain ⟨r, -, rfl⟩ := List.mem_map.1 hslot
    rfl
  unfold slots
  generalize s.bins = bins at hnodup hbin
  induction bins with
  | nil => exact absurd hbin List.not_mem_nil
  | cons first bins ih =>
    rw [List.map_cons, List.nodup_cons] at hnodup
    rw [List.flatMap_cons, List.filter_append]
    rcases List.mem_cons.1 hbin with rfl | hbin
    · have hself : (slotsOf size bin).filter (fun slot => decide (slot.1 = bin.1)) = slotsOf size bin :=
        List.filter_eq_self.2 fun slot hmem => decide_eq_true (hslot hmem)
      have hrest : (bins.flatMap (slotsOf size)).filter (fun slot => decide (slot.1 = bin.1)) = [] := by
        refine List.filter_eq_nil_iff.2 fun slot hmem heq => ?_
        obtain ⟨bin', hbin', hmem⟩ := List.mem_flatMap.1 hmem
        exact hnodup.1 (of_decide_eq_true heq ▸ hslot hmem ▸ List.mem_map_of_mem hbin')
      rw [hself, hrest, List.append_nil]
    · have hfirst : (slotsOf size first).filter (fun slot => decide (slot.1 = bin.1)) = [] := by
        refine List.filter_eq_nil_iff.2 fun slot hmem heq => ?_
        have hname : first.1 = bin.1 := (hslot hmem).symm.trans (of_decide_eq_true heq)
        exact hnodup.1 (hname ▸ List.mem_map_of_mem hbin)
      rw [hfirst, List.nil_append, ih hnodup.2 hbin]

theorem mem_slots {slot : ι × (ℕ × ℕ)} : slot ∈ s.slots size ↔ ∃ bin ∈ s.bins, slot ∈ slotsOf size bin :=
  List.mem_flatMap

end NextFit

end Bouncer.Library
