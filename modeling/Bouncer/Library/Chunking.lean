import Mathlib.Data.List.Basic
import Mathlib.Data.List.Flatten
import Mathlib.Tactic.Linarith

/-!
# Chunks cut with a buffer

Elements are appended to a buffer, and a buffer of `k` elements becomes a chunk (`pushChunk`).  `flushChunks` cuts a
whole list and also makes a chunk of what is left in the buffer at its end, *without emptying the buffer*, so that
the next list is cut starting with the same elements.

`flushAll_flatten_perm_iff`: when a sequence of lists is cut in this way, nothing is repeated in the chunks exactly if
every list but the last has a multiple of `k` elements.

`batches` cuts one list without a buffer.
-/

namespace Bouncer.Library

variable {α : Type*}

/-- Finished chunks and the buffer. -/
abbrev Chunks (α : Type*) := List (List α) × List α

def pushChunk (k : ℕ) (s : Chunks α) (x : α) : Chunks α :=
  let buffer := s.2 ++ [x]
  if k ≤ buffer.length then (s.1 ++ [buffer], []) else (s.1, buffer)

/-- Cut one list; the remaining buffer becomes a chunk, and stays. -/
def flushChunks (k : ℕ) (s : Chunks α) (xs : List α) : Chunks α :=
  let s := xs.foldl (pushChunk k) s
  if s.2.length ≠ 0 then (s.1 ++ [s.2], s.2) else s

/-- The invariant of the buffer: it is short, and so are the chunks. -/
def Chunks.Bounded (k : ℕ) (s : Chunks α) : Prop := (∀ c ∈ s.1, c.length ≤ k) ∧ s.2.length < k

section Push

variable {k : ℕ} {s : Chunks α}

theorem Chunks.Bounded.push (h : s.Bounded k) (x : α) : (pushChunk k s x).Bounded k := by
  obtain ⟨hchunks, hbuffer⟩ := h
  unfold pushChunk
  by_cases hk : k ≤ (s.2 ++ [x]).length
  · rw [if_pos hk]
    refine ⟨?_, by simpa using (Nat.zero_le _).trans_lt hbuffer⟩
    intro c hc
    rcases List.mem_append.1 hc with hc | hc
    · exact hchunks c hc
    · rw [List.mem_singleton.1 hc, List.length_append, List.length_singleton]
      omega
  · rw [if_neg hk]
    exact ⟨hchunks, not_le.1 hk⟩

theorem Chunks.Bounded.foldl_push (h : s.Bounded k) (xs : List α) : (xs.foldl (pushChunk k) s).Bounded k := by
  induction xs generalizing s with
  | nil => exact h
  | cons x xs ih => exact ih (h.push x)

theorem Chunks.Bounded.flush (h : s.Bounded k) (xs : List α) : (flushChunks k s xs).Bounded k := by
  obtain ⟨hchunks, hbuffer⟩ := h.foldl_push xs
  unfold flushChunks
  by_cases hempty : (xs.foldl (pushChunk k) s).2.length ≠ 0
  · simp only [if_pos hempty]
    refine ⟨?_, hbuffer⟩
    intro c hc
    rcases List.mem_append.1 hc with hc | hc
    · exact hchunks c hc
    · rw [List.mem_singleton.1 hc]
      exact hbuffer.le
  · simp only [if_neg hempty]
    exact ⟨hchunks, hbuffer⟩

/-- Pushing moves elements from the buffer to the chunks and loses none. -/
theorem foldl_pushChunk_flatten (xs : List α) (s : Chunks α) :
    (xs.foldl (pushChunk k) s).1.flatten ++ (xs.foldl (pushChunk k) s).2 = s.1.flatten ++ s.2 ++ xs := by
  induction xs generalizing s with
  | nil => simp
  | cons x xs ih =>
    have hx : (pushChunk k s x).1.flatten ++ (pushChunk k s x).2 = s.1.flatten ++ s.2 ++ [x] := by
      simp only [pushChunk]
      split <;> simp
    rw [List.foldl_cons, ih, hx]
    simp

theorem length_foldl_pushChunk (h : s.2.length < k) (xs : List α) :
    (xs.foldl (pushChunk k) s).2.length = (s.2.length + xs.length) % k := by
  induction xs generalizing s with
  | nil => exact (Nat.mod_eq_of_lt h).symm
  | cons x xs ih =>
    rw [List.foldl_cons]
    by_cases hk : k ≤ s.2.length + 1
    · have hx : pushChunk k s x = (s.1 ++ [s.2 ++ [x]], []) := by simp [pushChunk, hk]
      have hlen : s.2.length + (x :: xs).length = k + xs.length := by
        rw [List.length_cons]
        omega
      rw [hx, ih (by simpa using (Nat.zero_le _).trans_lt h), hlen]
      simp
    · have hx : pushChunk k s x = (s.1, s.2 ++ [x]) := by simp [pushChunk, hk]
      have hlen : (s.2 ++ [x]).length + xs.length = s.2.length + (x :: xs).length := by
        simp only [List.length_append, List.length_cons, List.length_nil]
        omega
      rw [hx, ih (by simpa using not_le.1 hk), hlen]

/-- The chunks of a list hold the old buffer and the list. -/
theorem flushChunks_flatten (s : Chunks α) (xs : List α) :
    (flushChunks k s xs).1.flatten = s.1.flatten ++ s.2 ++ xs := by
  rw [← foldl_pushChunk_flatten (k := k)]
  simp only [flushChunks]
  by_cases hempty : (xs.foldl (pushChunk k) s).2.length ≠ 0
  · rw [if_pos hempty]
    simp
  · rw [if_neg hempty]
    rw [not_not, List.length_eq_zero_iff] at hempty
    simp [hempty]

theorem length_flushChunks (h : s.2.length < k) (xs : List α) :
    (flushChunks k s xs).2.length = (s.2.length + xs.length) % k := by
  rw [← length_foldl_pushChunk h]
  simp only [flushChunks]
  split <;> rfl

end Push

/-! ### A sequence of lists -/

section Sequence

variable {k : ℕ}

theorem foldl_flushChunks_bounded {s : Chunks α} (h : s.Bounded k) (xss : List (List α)) :
    (xss.foldl (flushChunks k) s).Bounded k := by
  induction xss generalizing s with
  | nil => exact h
  | cons xs xss ih => exact ih (h.flush xs)

/-- If every list but the last has a multiple of `k` elements, the chunks hold the lists and nothing else. -/
theorem foldl_flushChunks_flatten {s : Chunks α} (hk : 0 < k) (hs : s.2 = []) {xss : List (List α)}
    (h : ∀ xs ∈ xss.dropLast, k ∣ xs.length) :
    (xss.foldl (flushChunks k) s).1.flatten = s.1.flatten ++ xss.flatten := by
  induction xss generalizing s with
  | nil => simp
  | cons xs xss ih =>
    have hflush : (flushChunks k s xs).1.flatten = s.1.flatten ++ xs := by simp [flushChunks_flatten, hs]
    cases xss with
    | nil => simpa using hflush
    | cons ys xss =>
      rw [List.dropLast_cons_cons] at h
      have hxs : k ∣ xs.length := h xs List.mem_cons_self
      have hempty : (flushChunks k s xs).2 = [] := by
        have hlen := length_flushChunks (s := s) (by simpa [hs] using hk) xs
        rw [hs, List.length_nil, Nat.zero_add, Nat.mod_eq_zero_of_dvd hxs] at hlen
        exact List.length_eq_zero_iff.1 hlen
      rw [List.foldl_cons, ih hempty fun zs hzs => h zs (List.mem_cons_of_mem _ hzs), hflush]
      simp

private theorem le_length_foldl_flushChunks (s : Chunks α) (xss : List (List α)) :
    s.1.flatten.length + xss.flatten.length ≤ (xss.foldl (flushChunks k) s).1.flatten.length ∧
      (xss ≠ [] → s.1.flatten.length + s.2.length + xss.flatten.length ≤
        (xss.foldl (flushChunks k) s).1.flatten.length) := by
  induction xss generalizing s with
  | nil => simp
  | cons xs xss ih =>
    have h := (ih (flushChunks k s xs)).1
    rw [flushChunks_flatten] at h
    simp only [List.foldl_cons, List.flatten_cons, List.length_append] at h ⊢
    constructor
    · omega
    · intro
      omega

/-- If a list other than the last leaves something in the buffer, the chunks hold more than the lists. -/
private theorem dvd_of_length_foldl_flushChunks {s : Chunks α} (hk : 0 < k) (hs : s.2 = []) {xss : List (List α)}
    (h : (xss.foldl (flushChunks k) s).1.flatten.length ≤ s.1.flatten.length + xss.flatten.length) :
    ∀ xs ∈ xss.dropLast, k ∣ xs.length := by
  induction xss generalizing s with
  | nil => simp
  | cons xs xss ih =>
    cases xss with
    | nil => simp
    | cons ys xss =>
      have hflat : (flushChunks k s xs).1.flatten.length = s.1.flatten.length + xs.length := by
        simp [flushChunks_flatten, hs]
      have hlen := length_flushChunks (s := s) (by simpa [hs] using hk) xs
      rw [hs, List.length_nil, Nat.zero_add] at hlen
      have hge := (le_length_foldl_flushChunks (k := k) (flushChunks k s xs) (ys :: xss)).2 (by simp)
      rw [List.foldl_cons, List.flatten_cons, List.length_append] at h
      -- the buffer that `xs` leaves is what the chunks hold beyond the lists
      have hbuffer : (flushChunks k s xs).2.length = 0 := by omega
      have htail := ih (List.length_eq_zero_iff.1 hbuffer) (by omega)
      intro zs hzs
      rw [List.dropLast_cons_cons] at hzs
      rcases List.mem_cons.1 hzs with rfl | hzs
      · exact Nat.dvd_of_mod_eq_zero (hlen ▸ hbuffer)
      · exact htail zs hzs

/-- The chunks of a sequence of lists. -/
def flushAll (k : ℕ) (out xss : List (List α)) : List (List α) := (xss.foldl (flushChunks k) (out, [])).1

theorem length_le_of_mem_flushAll (hk : 0 < k) {out xss : List (List α)} (hout : ∀ c ∈ out, c.length ≤ k) :
    ∀ c ∈ flushAll k out xss, c.length ≤ k :=
  (foldl_flushChunks_bounded ⟨hout, hk⟩ xss).1

/-- The chunks are a rearrangement of the lists exactly if every list but the last has a multiple of `k` elements. -/
theorem flushAll_flatten_perm_iff (hk : 0 < k) {out xss : List (List α)} :
    (flushAll k out xss).flatten.Perm (out ++ xss).flatten ↔ ∀ xs ∈ xss.dropLast, k ∣ xs.length := by
  constructor
  · intro h
    have hlen := h.length_eq
    rw [List.flatten_append, List.length_append] at hlen
    exact dvd_of_length_foldl_flushChunks hk rfl hlen.le
  · intro h
    have hflat := foldl_flushChunks_flatten (s := (out, [])) hk rfl h
    rw [flushAll, hflat, List.flatten_append]

end Sequence

/-! ### Batches

A loop over the positions `0, k, 2 * k, ..` takes the `k` elements from each position on, or those that are left. -/

def batches (k : ℕ) (xs : List α) : List (List α) :=
  (List.range' 0 ((xs.length + k - 1) / k) k).map fun i => (xs.drop i).take k

theorem flatten_batches_aux (k : ℕ) (xs : List α) (n : ℕ) :
    ((List.range' 0 n k).map fun i => (xs.drop i).take k).flatten = xs.take (k * n) := by
  induction n with
  | zero => simp
  | succ n ih =>
    rw [List.range'_concat, List.map_append, List.flatten_append, ih, Nat.mul_succ, List.take_add]
    simp

/-- The batches are the list, cut. -/
theorem flatten_batches {k : ℕ} (hk : 0 < k) (xs : List α) : (batches k xs).flatten = xs := by
  have hlength : xs.length ≤ k * ((xs.length + k - 1) / k) := by
    have hdiv := Nat.div_add_mod (xs.length + k - 1) k
    have hmod := Nat.mod_lt (xs.length + k - 1) hk
    omega
  rw [batches, flatten_batches_aux, List.take_of_length_le hlength]

end Bouncer.Library
