import Mathlib.Data.List.Nodup

/-!
# New identifiers

Identifiers come from a source that gives a new one each time, and the number of those so far is kept.  The identifiers
that were created in a range differ from each other and from those outside of it.
-/

namespace Bouncer.Library.Identifiers

variable {U : Type*}

/-- Different identifiers that were created in this range. -/
def CreatedIn (createUUID : ℕ → U) (first last : ℕ) (ids : List U) : Prop :=
  ∃ ns : List ℕ, ids = ns.map createUUID ∧ ns.Nodup ∧ ∀ n ∈ ns, first ≤ n ∧ n < last

variable {createUUID : ℕ → U} {first mid last : ℕ} {ids ids' : List U}

theorem createdIn_nil : CreatedIn createUUID first last [] := ⟨[], rfl, List.nodup_nil, nofun⟩

theorem createdIn_single {n : ℕ} (h : first ≤ n) (h' : n < last) : CreatedIn createUUID first last [createUUID n] :=
  ⟨[n], rfl, List.nodup_singleton n, fun m hm => by rw [List.mem_singleton.1 hm]; exact ⟨h, h'⟩⟩

theorem CreatedIn.mono {first' last' : ℕ} (h : CreatedIn createUUID first last ids) (hfirst : first' ≤ first)
    (hlast : last ≤ last') : CreatedIn createUUID first' last' ids := by
  obtain ⟨ns, hids, hnodup, hrange⟩ := h
  refine ⟨ns, hids, hnodup, fun n hn => ?_⟩
  have hn := hrange n hn
  omega

theorem CreatedIn.append (h : CreatedIn createUUID first mid ids) (h' : CreatedIn createUUID mid last ids')
    (hfirst : first ≤ mid) (hlast : mid ≤ last) : CreatedIn createUUID first last (ids ++ ids') := by
  obtain ⟨ns, rfl, hnodup, hrange⟩ := h
  obtain ⟨ns', rfl, hnodup', hrange'⟩ := h'
  refine ⟨ns ++ ns', (List.map_append).symm, List.nodup_append'.2 ⟨hnodup, hnodup', ?_⟩, ?_⟩
  · intro n hn hn'
    have hlt := (hrange n hn).2
    have hle := (hrange' n hn').1
    omega
  · intro n hn
    rcases List.mem_append.1 hn with hn | hn
    · have hn := hrange n hn
      omega
    · have hn := hrange' n hn
      omega

theorem CreatedIn.nodup (h : CreatedIn createUUID first last ids) (hinj : Function.Injective createUUID) : ids.Nodup := by
  obtain ⟨ns, rfl, hnodup, -⟩ := h
  exact hnodup.map hinj

theorem CreatedIn.not_mem (h : CreatedIn createUUID first last ids) (hinj : Function.Injective createUUID) {n : ℕ}
    (hn : n < first) : createUUID n ∉ ids := by
  obtain ⟨ns, rfl, -, hrange⟩ := h
  intro hmem
  obtain ⟨m, hm, heq⟩ := List.mem_map.1 hmem
  have hle := (hrange m hm).1
  have hsame := hinj heq
  omega

theorem CreatedIn.not_mem_of_le (h : CreatedIn createUUID first last ids) (hinj : Function.Injective createUUID) {n : ℕ}
    (hn : last ≤ n) : createUUID n ∉ ids := by
  obtain ⟨ns, rfl, -, hrange⟩ := h
  intro hmem
  obtain ⟨m, hm, heq⟩ := List.mem_map.1 hmem
  have hlt := (hrange m hm).2
  have hsame := hinj heq
  omega

end Bouncer.Library.Identifiers
