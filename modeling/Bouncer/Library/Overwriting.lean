import Mathlib.Data.List.Basic
import Mathlib.Logic.Function.Basic

/-!
# Entries that overwrite and entries that do not

A map is written entry by entry.  An entry that does not overwrite is lost if its key has a value already.  So a key that
is overwritten ends with the value of the last entry that overwrites it (`writeAll_last`).

If the entries come from several sources, and one of these should win, then it does so if and only if none of the others
overrules it (`exists_value_iff_not_overruled`).
-/

namespace Bouncer.Library.Overwriting

universe u v w

structure Entry (K : Type u) (V : Type v) where
  key : K
  value : V
  overwrite : Bool
  deriving DecidableEq

variable {K : Type u} {V : Type v} [DecidableEq K]

def Entry.write (map : K → Option V) (e : Entry K V) : K → Option V :=
  if e.overwrite = false ∧ (map e.key).isSome then map else Function.update map e.key (some e.value)

def writeAll (map : K → Option V) (es : List (Entry K V)) : K → Option V := es.foldl Entry.write map

@[simp] theorem writeAll_nil (map : K → Option V) : writeAll map [] = map := rfl

@[simp] theorem writeAll_cons (map : K → Option V) (e : Entry K V) (es : List (Entry K V)) :
    writeAll map (e :: es) = writeAll (e.write map) es := rfl

theorem writeAll_append (map : K → Option V) (es es' : List (Entry K V)) :
    writeAll map (es ++ es') = writeAll (writeAll map es) es' := List.foldl_append

variable {e : Entry K V}

theorem Entry.write_of_overwrite (h : e.overwrite = true) (map : K → Option V) :
    e.write map e.key = some e.value := by
  unfold Entry.write
  rw [if_neg (by simp [h]), Function.update_self]

variable {k : K}

theorem Entry.write_of_ne (h : e.key ≠ k) (map : K → Option V) : e.write map k = map k := by
  unfold Entry.write
  split_ifs
  · rfl
  · exact Function.update_of_ne h.symm _ _

variable {map : K → Option V}

theorem Entry.write_of_isSome (h : e.overwrite = false) (hkey : (map e.key).isSome) :
    e.write map = map := if_pos ⟨h, hkey⟩

/-- A key has its value from before, or that of one of its entries. -/
theorem writeAll_cases (es : List (Entry K V)) (map : K → Option V) (k : K) :
    writeAll map es k = map k ∨ ∃ e ∈ es, e.key = k ∧ writeAll map es k = some e.value := by
  induction es generalizing map with
  | nil => exact .inl rfl
  | cons e es ih =>
    rw [writeAll_cons]
    rcases ih (e.write map) with hsame | ⟨e', he', hkey, hvalue⟩
    · rw [hsame]
      unfold Entry.write
      split_ifs
      · exact .inl rfl
      · by_cases hkey : e.key = k
        · subst hkey
          exact .inr ⟨e, List.mem_cons_self, rfl, Function.update_self ..⟩
        · exact .inl (Function.update_of_ne (Ne.symm hkey) _ _)
    · exact .inr ⟨e', List.mem_cons_of_mem _ he', hkey, hvalue⟩

theorem Entry.isSome_write (e : Entry K V) (h : (map k).isSome ∨ e.key = k) :
    (e.write map k).isSome := by
  unfold Entry.write
  split_ifs with hlost
  · rcases h with h | rfl
    · exact h
    · exact hlost.2
  · by_cases hkey : e.key = k
    · subst hkey
      simp
    · rw [Function.update_of_ne (Ne.symm hkey)]
      exact h.resolve_right hkey

theorem isSome_writeAll (es : List (Entry K V))
    (h : (map k).isSome ∨ ∃ e ∈ es, e.key = k) : (writeAll map es k).isSome := by
  induction es generalizing map with
  | nil => simpa using h
  | cons e es ih =>
    rw [writeAll_cons]
    rw [List.exists_mem_cons_iff, ← or_assoc] at h
    exact ih (h.imp_left e.isSome_write)

theorem writeAll_of_not_overwrite (es : List (Entry K V)) (hk : (map k).isSome)
    (h : ∀ e ∈ es, e.key = k → e.overwrite = false) : writeAll map es k = map k := by
  induction es generalizing map with
  | nil => rfl
  | cons e es ih =>
    obtain ⟨he, hes⟩ := List.forall_mem_cons.1 h
    have hsame : e.write map k = map k := by
      by_cases hkey : e.key = k
      · rw [Entry.write_of_isSome (he hkey) (hkey ▸ hk)]
      · exact Entry.write_of_ne hkey map
    rw [writeAll_cons, ih (by rwa [hsame]) hes, hsame]

/-- The last entry that overwrites a key gives its value. -/
theorem writeAll_last {before after : List (Entry K V)} (he : e.overwrite = true)
    (hafter : ∀ e' ∈ after, e'.key = e.key → e'.overwrite = false) (map : K → Option V) :
    writeAll map (before ++ e :: after) e.key = some e.value := by
  have hwritten := Entry.write_of_overwrite he (writeAll map before)
  rw [writeAll_append, writeAll_cons, writeAll_of_not_overwrite after (by rw [hwritten]; rfl) hafter, hwritten]

/-! ### Sources -/

section Sources

variable {S : Type w}

/-- A list with an element of some kind has a last one of this kind. -/
theorem exists_last {α : Type*} (P : α → Prop) {l : List α} (h : ∃ a ∈ l, P a) :
    ∃ before a after, l = before ++ a :: after ∧ P a ∧ ∀ b ∈ after, ¬P b := by
  induction l with
  | nil => simp at h
  | cons a l ih =>
    by_cases hl : ∃ b ∈ l, P b
    · obtain ⟨before, b, after, rfl, hb, hafter⟩ := ih hl
      exact ⟨a :: before, b, after, rfl, hb, hafter⟩
    · obtain ⟨b, hb, hPb⟩ := h
      rcases List.mem_cons.1 hb with rfl | hb
      · exact ⟨[], b, l, rfl, hPb, fun c hc hPc => hl ⟨c, hc, hPc⟩⟩
      · exact absurd ⟨b, hb, hPb⟩ hl

/-- The last entry that overwrites the key has a value that no entry of the source in question has. -/
def Overruled (own : S → Prop) (es : List (S × Entry K V)) (k : K) : Prop :=
  ∃ before p after, es = before ++ p :: after ∧ p.2.key = k ∧ p.2.overwrite = true ∧
    (∀ q ∈ after, q.2.key = k → q.2.overwrite = false) ∧
    ∀ q ∈ es, own q.1 → q.2.key = k → q.2.value ≠ p.2.value

/-- A source that overwrites a key wins if and only if it is not overruled. -/
theorem exists_value_iff_not_overruled (own : S → Prop) {es : List (S × Entry K V)}
    (hown : ∃ q ∈ es, q.2.key = k ∧ q.2.overwrite = true) (map : K → Option V) :
    (∃ q ∈ es, own q.1 ∧ q.2.key = k ∧ writeAll map (es.map Prod.snd) k = some q.2.value) ↔ ¬Overruled own es k := by
  have hlast : ∀ {before p after}, es = before ++ p :: after → p.2.key = k → p.2.overwrite = true →
      (∀ q ∈ after, q.2.key = k → q.2.overwrite = false) →
      writeAll map (es.map Prod.snd) k = some p.2.value := by
    rintro before p after rfl rfl hp hafter
    rw [List.map_append, List.map_cons]
    exact writeAll_last hp (List.forall_mem_map.2 hafter) map
  constructor
  · rintro ⟨q, hq, hqown, hkey, hvalue⟩ ⟨before, p, after, hes, hp, hpover, hafter, hne⟩
    rw [hlast hes hp hpover hafter] at hvalue
    exact hne q hq hqown hkey (Option.some.inj hvalue).symm
  · intro hnot
    obtain ⟨before, p, after, hes, ⟨hp, hpover⟩, hafter⟩ :=
      exists_last (fun q : S × Entry K V => q.2.key = k ∧ q.2.overwrite = true) hown
    have hafter : ∀ q ∈ after, q.2.key = k → q.2.overwrite = false := fun q hq hkey =>
      Bool.eq_false_iff.2 fun hover => hafter q hq ⟨hkey, hover⟩
    by_contra hnone
    refine hnot ⟨before, p, after, hes, hp, hpover, hafter, fun q hq hqown hkey heq => hnone ⟨q, hq, hqown, hkey, ?_⟩⟩
    rw [hlast hes hp hpover hafter, heq]

end Sources

end Bouncer.Library.Overwriting
