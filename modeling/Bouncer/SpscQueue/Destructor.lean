import Bouncer.SpscQueue.Fifo

/-!
# The destructor of the queue

The destructor goes around the circle of the blocks, destroys the elements between the front and the tail of each block, and frees
the block.  The threads must have left the queue.  Then it destroys exactly those elements that were put into the queue and not
taken from it, and frees each block once (`Run.destructor_destroys`).
-/

namespace Bouncer

namespace ReaderWriterQueue

open Library (Circle)

variable {T : Type*}

/-- The inner loop, if it ends after at most so many passes.  A slot without an element is destroyed as `none`. -/
def Block.remaining (B : Block T) : ℕ → ℕ → Option (List (Option T))
  | 0, _ => none
  | n + 1, i => if i ≠ B.tail then (B.remaining n (B.advance i)).map (B.data i :: ·) else some []

/-- The outer loop, if it ends after at most so many passes: the slots that are destroyed, and the blocks that are freed. -/
def State.destroyFrom (s : State T) : ℕ → ℕ → Option (List (Option T) × List ℕ)
  | 0, _ => none
  | n + 1, block => do
    let B := s.blocks block
    let elements ← B.remaining B.size B.front
    if B.next ≠ s.frontBlock then
      let rest ← s.destroyFrom n B.next
      return (elements ++ rest.1, block :: rest.2)
    else
      return (elements, [block])

def State.destructor (s : State T) : Option (List (Option T) × List ℕ) := s.destroyFrom s.blockCount s.frontBlock

private theorem Intact.remaining_eq {B : Block T} {xs : List T} {claimed reserved : ℕ} (h : Intact B ⟨0, claimed, reserved, []⟩ xs) :
    B.remaining B.size B.front = some (xs.map some) := by
  have hholds := h.holds
  have hfront : (B.front + 0) % B.size = B.front := Nat.mod_eq_of_lt h.front_lt
  have htail : B.tail = (B.front + xs.length) % B.size := h.tail_eq
  rw [hfront, List.append_nil] at hholds
  have hloop : ∀ n j, j ≤ xs.length → xs.length - j < n →
      B.remaining n ((B.front + j) % B.size) = some ((xs.drop j).map some) := by
    intro n
    induction n with
    | zero => exact fun j _ hlt => absurd hlt (Nat.not_lt_zero _)
    | succ n ih =>
      intro j hj hlt
      rw [Block.remaining, htail]
      obtain hj | rfl := Nat.lt_or_eq_of_le hj
      · have hne : (B.front + j) % B.size ≠ (B.front + xs.length) % B.size := fun heq =>
          absurd (Library.add_mod_inj (hj.trans hholds.length_lt) hholds.length_lt heq) hj.ne
        rw [if_pos hne, hholds.get j (hj.trans hholds.length_lt), h.advance_eq, Nat.mod_add_mod, Nat.add_assoc,
          ih (j + 1) hj (by omega), List.drop_eq_getElem_cons hj, List.getElem?_eq_getElem hj, List.map_cons, Option.map_some]
      · rw [if_neg (not_not.2 rfl), List.drop_length, List.map_nil]
  have hall := hloop B.size 0 (Nat.zero_le _) hholds.length_lt
  rwa [hfront, List.drop_zero] at hall

/-- The outer loop ends behind the last block of the circle. -/
theorem destroyFrom_eq {s : State T} {elements : ℕ → List (Option T)} {rest : List ℕ}
    (hcircle : Circle s.next (s.frontBlock :: rest)) (hnodup : (s.frontBlock :: rest).Nodup)
    (helements : ∀ b ∈ s.frontBlock :: rest, (s.blocks b).remaining (s.blocks b).size (s.blocks b).front = some (elements b)) :
    ∀ (w u : List ℕ) (b n : ℕ), s.frontBlock :: rest = u ++ b :: w → w.length < n →
      s.destroyFrom n b = some ((b :: w).flatMap elements, b :: w) := by
  intro w
  induction w with
  | nil =>
    intro u b n hsplit hn
    obtain ⟨n, rfl⟩ := Nat.exists_eq_add_one_of_ne_zero (Nat.ne_zero_of_lt hn)
    have hb : b ∈ s.frontBlock :: rest := hsplit ▸ List.mem_append_right _ List.mem_cons_self
    have hnext : (s.blocks b).next = s.frontBlock := by
      cases u with
      | nil =>
        obtain ⟨rfl, rfl⟩ := List.cons.inj hsplit
        exact (List.cons.inj (Circle.cons_iff.1 hcircle)).1
      | cons a u =>
        obtain ⟨-, rfl⟩ := List.cons.inj hsplit
        exact hcircle.next_last
    rw [State.destroyFrom, helements b hb, Option.bind_eq_bind, Option.bind_some, if_neg (not_not.2 hnext),
      List.flatMap_singleton]
    rfl
  | cons c w ih =>
    intro u b n hsplit hn
    obtain ⟨n, rfl⟩ := Nat.exists_eq_add_one_of_ne_zero (Nat.ne_zero_of_lt hn)
    have hb : b ∈ s.frontBlock :: rest := hsplit ▸ List.mem_append_right _ List.mem_cons_self
    have hnext : (s.blocks b).next = c := by
      rw [hsplit] at hcircle
      exact hcircle.next_mid
    have hne : c ≠ s.frontBlock := by
      rintro rfl
      cases u with
      | nil =>
        obtain ⟨-, rfl⟩ := List.cons.inj hsplit
        exact (List.nodup_cons.1 hnodup).1 List.mem_cons_self
      | cons a u =>
        obtain ⟨-, rfl⟩ := List.cons.inj hsplit
        exact (List.nodup_cons.1 hnodup).1 (List.mem_append_right _ (List.mem_cons_of_mem _ List.mem_cons_self))
    have hrest := ih (u ++ [b]) c n (by rw [hsplit, List.append_assoc]; rfl) (Nat.lt_of_succ_lt_succ hn)
    rw [State.destroyFrom, helements b hb, Option.bind_eq_bind, Option.bind_some, hnext, if_pos hne, hrest]
    rfl

/-- When the threads have left the queue, the destructor ends, destroys what is still there, in its order, and frees all
blocks. -/
theorem Run.destructor_destroys {maxBlockSize size : ℕ} {s : State T} (h : Sized maxBlockSize size)
    (hrun : Run maxBlockSize (start maxBlockSize size) s) (hp : s.producer = .idle) (hc : s.consumer = .idle) :
    ∃ queue blocks, s.enqueued = s.dequeued ++ queue ∧ s.destructor = some (queue.map some, blocks) ∧
      blocks.Perm (List.range s.blockCount) := by
  obtain ⟨used, free, contents, hs⟩ := Run.invariant h hrun
  obtain ⟨us, hus⟩ := hs.ring.front
  have hring : used ++ free = s.frontBlock :: (us ++ free) := by rw [hus]; rfl
  have helements : ∀ b ∈ s.frontBlock :: (us ++ free),
      (s.blocks b).remaining (s.blocks b).size (s.blocks b).front = some ((contents b).map some) := by
    intro b hb
    have hintact := hs.intact b (hring ▸ hb)
    rw [State.view_of_producer hp, hc] at hintact
    exact hintact.remaining_eq
  have hperm : (used ++ free).Perm (List.range s.blockCount) := by
    refine (List.perm_ext_iff_of_nodup hs.ring.nodup List.nodup_range).2 fun b => ?_
    have hmade := hs.made b
    rw [hp] at hmade
    rw [List.mem_range]
    exact ⟨hs.ring.lt b, fun hb => (List.append_nil (used ++ free)) ▸ hmade hb⟩
  have hfree : free.flatMap contents = [] := by
    refine List.flatMap_eq_nil_iff.2 fun b hb => ?_
    rw [hs.empty b hb, hp]
    rfl
  have hlength : (us ++ free).length < s.blockCount := by
    have hcount := hperm.length_eq
    rw [hring, List.length_range, List.length_cons] at hcount
    omega
  have hcircle := hs.ring.circle
  have hnodup := hs.ring.nodup
  have hfifo := hs.fifo
  rw [hring] at hcircle hnodup
  rw [hp, hc] at hfifo
  have hall := destroyFrom_eq hcircle hnodup helements (us ++ free) [] s.frontBlock s.blockCount rfl hlength
  rw [← hring] at hall
  refine ⟨used.flatMap contents, used ++ free, ?_, ?_, hperm⟩
  · rw [← List.append_nil s.enqueued, ← List.append_nil s.dequeued]
    exact hfifo
  · rw [State.destructor, hall, ← List.map_flatMap, List.flatMap_append, hfree, List.append_nil]

theorem Run.destructor_destroys_one : ∃ (s : State ℕ) (queue : List ℕ) (blocks : List ℕ), s.enqueued = [7] ∧
    s.enqueued = s.dequeued ++ queue ∧ s.destructor = some (queue.map some, blocks) ∧
      blocks.Perm (List.range s.blockCount) := by
  obtain ⟨s, hrun, hp, hc, -, -, -, -, henqueued⟩ := exists_run_signalled
  obtain ⟨queue, blocks, hqueue⟩ := Run.destructor_destroys sized_one hrun hp hc
  exact ⟨s, queue, blocks, henqueued, hqueue⟩

end ReaderWriterQueue

end Bouncer
