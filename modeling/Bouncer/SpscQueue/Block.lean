import Bouncer.Library.RingBuffer
import Bouncer.SpscQueue.ReaderWriterQueue

/-!
# What the two threads do with a block

The producer knows that a block has room for another element, or has already made it in a slot that the consumer does not know
of yet.  The consumer knows that there is an element, or has already taken it from a slot that the producer still counts.
`Intact` says how far the threads are, and what is in the block.  One lemma for each access says how the block is afterwards.
-/

namespace Bouncer

namespace ReaderWriterQueue

open Library (HoldsFrom)

variable {T : Type*}

/-- How many slots the consumer has emptied without moving the front, how many elements it has made sure of, for how many the
producer has made sure that there is room, and which elements it has made without moving the tail. -/
structure View (T : Type*) where
  popped : ℕ
  claimed : ℕ
  reserved : ℕ
  pending : List T

def Block.size (B : Block T) : ℕ := B.sizeMask + 1

/-- The elements `xs` are in the block.  The copy of the front index is `d` slots behind, and the copy of the tail index is `e`
slots ahead of the front. -/
structure Intact (B : Block T) (v : View T) (xs : List T) : Prop where
  size_eq : ∃ k, B.size = 2 ^ (k + 1)
  front_lt : B.front < B.size
  localFront_lt : B.localFront < B.size
  holds : HoldsFrom B.size B.data ((B.front + v.popped) % B.size) (xs ++ v.pending)
  tail_eq : B.tail = (B.front + v.popped + xs.length) % B.size
  room : ∃ d, B.front = (B.localFront + d) % B.size ∧ d + v.popped + xs.length + v.pending.length + v.reserved < B.size
  known : ∃ e, B.localTail = (B.front + e) % B.size ∧ v.popped + v.claimed ≤ e ∧ e ≤ v.popped + xs.length

theorem Block.advance_eq {B : Block T} (h : ∃ k, B.size = 2 ^ (k + 1)) (i : ℕ) : B.advance i = (i + 1) % B.size := by
  obtain ⟨k, hk⟩ := h
  have hmask : B.sizeMask = 2 ^ (k + 1) - 1 := Nat.eq_sub_of_add_eq hk
  rw [Block.advance, hmask, Nat.and_two_pow_sub_one_eq_mod, hk]

namespace Intact

variable {B : Block T} {v : View T} {xs ys : List T} {x : T} {popped claimed reserved : ℕ}

theorem advance_eq (h : Intact B v xs) (i : ℕ) : B.advance i = (i + 1) % B.size := Block.advance_eq h.size_eq i

private theorem two_le_size (h : Intact B v xs) : 2 ≤ B.size := by
  obtain ⟨k, hk⟩ := h.size_eq
  rw [hk, Nat.pow_succ]
  have hpos := Nat.two_pow_pos k
  omega

private theorem size_pos (h : Intact B v xs) : 0 < B.size := Nat.zero_lt_of_lt h.front_lt

/-- The link to the next block does not matter. -/
theorem link (h : Intact B v xs) (next : ℕ) : Intact { B with next := next } v xs :=
  ⟨h.size_eq, h.front_lt, h.localFront_lt, h.holds, h.tail_eq, h.room, h.known⟩

/-! ### The producer -/

theorem refreshFront (h : Intact B v xs) : Intact { B with localFront := B.front } v xs where
  size_eq := h.size_eq
  front_lt := h.front_lt
  localFront_lt := h.front_lt
  holds := h.holds
  tail_eq := h.tail_eq
  room := by
    obtain ⟨d, -, hd⟩ := h.room
    refine ⟨0, (Nat.mod_eq_of_lt h.front_lt).symm, ?_⟩
    show 0 + v.popped + xs.length + v.pending.length + v.reserved < B.size
    omega
  known := h.known

/-- If the tail does not get to the copy of the front index, then there is room. -/
theorem reserve (h : Intact B ⟨popped, claimed, 0, []⟩ xs) (hne : B.advance B.tail ≠ B.localFront) :
    Intact B ⟨popped, claimed, 1, []⟩ xs where
  size_eq := h.size_eq
  front_lt := h.front_lt
  localFront_lt := h.localFront_lt
  holds := h.holds
  tail_eq := h.tail_eq
  room := by
    obtain ⟨d, hfront, hd⟩ := h.room
    refine ⟨d, hfront, ?_⟩
    by_contra hfull
    have hsize : d + popped + xs.length + 1 = B.size := by
      simp only [List.length_nil] at hd hfull
      omega
    have htail : B.tail = (B.localFront + (d + popped + xs.length)) % B.size := by
      rw [h.tail_eq, hfront, Nat.add_assoc, Nat.mod_add_mod]
      simp only [Nat.add_assoc]
    refine hne ?_
    rw [h.advance_eq, htail, Nat.mod_add_mod, Nat.add_assoc, hsize, Nat.add_mod_right, Nat.mod_eq_of_lt h.localFront_lt]
  known := h.known

/-- If the tail gets to the front, then all slots but one are in use. -/
theorem length_eq (h : Intact B v xs) (heq : B.advance B.tail = B.front) : v.popped + xs.length = B.sizeMask := by
  obtain ⟨d, -, hd⟩ := h.room
  have hlength : v.popped + xs.length < B.size := by omega
  have hfront : (B.front + (v.popped + xs.length + 1)) % B.size = B.front := by
    rw [h.advance_eq, h.tail_eq, Nat.mod_add_mod, Nat.add_assoc B.front] at heq
    exact heq
  by_contra hne
  have hlt : v.popped + xs.length + 1 < B.size := Nat.lt_of_le_of_ne hlength fun hsize => hne (Nat.succ.inj hsize)
  have hzero : (B.front + 0) % B.size = B.front := Nat.mod_eq_of_lt h.front_lt
  exact absurd (Library.add_mod_inj hlt h.size_pos (hfront.trans hzero.symm)) (Nat.succ_ne_zero _)

/-- There is room in a block without elements. -/
theorem reserve_nil (h : Intact B ⟨0, claimed, 0, []⟩ []) :
    Intact { B with localFront := B.front } ⟨0, claimed, 1, []⟩ [] :=
  { h.refreshFront with
    room := ⟨0, (Nat.mod_eq_of_lt h.front_lt).symm, h.two_le_size⟩ }

private theorem slot_eq (h : Intact B v xs) : ((B.front + v.popped) % B.size + xs.length) % B.size = B.tail := by
  rw [h.tail_eq, Nat.mod_add_mod]

/-- The slot at the tail has no element. -/
theorem data_tail (h : Intact B ⟨popped, claimed, reserved, []⟩ xs) : B.data B.tail = none := by
  have hdata := h.holds.get_length
  rwa [List.append_nil, h.slot_eq] at hdata

theorem construct (h : Intact B ⟨popped, claimed, 1, []⟩ xs) (x : T) :
    Intact (B.construct B.tail x) ⟨popped, claimed, 0, [x]⟩ xs where
  size_eq := h.size_eq
  front_lt := h.front_lt
  localFront_lt := h.localFront_lt
  holds := by
    obtain ⟨d, -, hd⟩ := h.room
    have hholds : HoldsFrom B.size B.data ((B.front + popped) % B.size) xs := by
      rw [← List.append_nil xs]
      exact h.holds
    have hroom : xs.length + 1 < B.size := by
      simp only [List.length_nil] at hd
      omega
    have hpush := hholds.push hroom x
    rwa [h.slot_eq] at hpush
  tail_eq := h.tail_eq
  room := h.room
  known := h.known

theorem publish (h : Intact B ⟨popped, claimed, 0, [x]⟩ xs) :
    Intact { B with tail := B.advance B.tail } ⟨popped, claimed, 0, []⟩ (xs ++ [x]) where
  size_eq := h.size_eq
  front_lt := h.front_lt
  localFront_lt := h.localFront_lt
  holds := by
    rw [List.append_nil]
    exact h.holds
  tail_eq := by
    show B.advance B.tail = _
    rw [h.advance_eq, h.tail_eq, Nat.mod_add_mod, List.length_append, List.length_singleton, ← Nat.add_assoc]
    rfl
  room := by
    obtain ⟨d, hfront, hd⟩ := h.room
    refine ⟨d, hfront, ?_⟩
    rw [List.length_append]
    exact hd
  known := by
    obtain ⟨e, hlocal, hpopped, he⟩ := h.known
    refine ⟨e, hlocal, hpopped, ?_⟩
    rw [List.length_append]
    exact he.trans (Nat.add_le_add_left (Nat.le_add_right _ _) _)

/-! ### The consumer -/

theorem front_eq_tail_iff (h : Intact B ⟨0, claimed, reserved, ys⟩ xs) : B.front = B.tail ↔ xs = [] := by
  obtain ⟨d, -, hd⟩ := h.room
  have hlength : xs.length < B.size := by
    simp only at hd
    omega
  have hfront : (B.front + 0) % B.size = B.front := Nat.mod_eq_of_lt h.front_lt
  rw [h.tail_eq, ← List.length_eq_zero_iff]
  constructor
  · intro heq
    exact (Library.add_mod_inj h.size_pos hlength (hfront.trans heq)).symm
  · intro hnil
    show B.front = (B.front + 0 + xs.length) % B.size
    rw [hnil, Nat.add_zero (B.front + 0), hfront]

/-- If the copy of the tail index is not the front, then there is an element. -/
theorem claim (h : Intact B ⟨0, 0, reserved, ys⟩ xs) (hne : B.front ≠ B.localTail) : Intact B ⟨0, 1, reserved, ys⟩ xs :=
  { h with
    known := by
      obtain ⟨e, hlocal, -, he⟩ := h.known
      refine ⟨e, hlocal, Nat.pos_iff_ne_zero.2 ?_, he⟩
      rintro rfl
      exact hne (hlocal.trans (Nat.mod_eq_of_lt h.front_lt)).symm }

theorem ne_nil (h : Intact B ⟨0, 1, reserved, ys⟩ xs) : xs ≠ [] := by
  obtain ⟨e, -, hclaimed, he⟩ := h.known
  rintro rfl
  exact absurd (hclaimed.trans he) (by simp)

theorem refreshTail (h : Intact B v xs) : Intact { B with localTail := B.tail } v xs where
  size_eq := h.size_eq
  front_lt := h.front_lt
  localFront_lt := h.localFront_lt
  holds := h.holds
  tail_eq := h.tail_eq
  room := h.room
  known := by
    obtain ⟨e, -, hclaimed, he⟩ := h.known
    exact ⟨v.popped + xs.length, by rw [← Nat.add_assoc]; exact h.tail_eq, hclaimed.trans he, le_rfl⟩

theorem data_front (h : Intact B ⟨0, claimed, reserved, ys⟩ (x :: xs)) : B.data B.front = some x := by
  have hdata := h.holds.head
  rwa [Nat.add_zero, Nat.mod_eq_of_lt h.front_lt] at hdata

theorem destroy (h : Intact B ⟨0, 1, reserved, ys⟩ (x :: xs)) :
    Intact (B.destroy B.front) ⟨1, 0, reserved, ys⟩ xs where
  size_eq := h.size_eq
  front_lt := h.front_lt
  localFront_lt := h.localFront_lt
  holds := by
    have hpop := h.holds.pop
    rwa [Nat.add_zero, Nat.mod_eq_of_lt h.front_lt] at hpop
  tail_eq := by
    show B.tail = (B.front + 1 + xs.length) % B.size
    rw [h.tail_eq, List.length_cons, Nat.add_zero, Nat.add_assoc B.front 1, Nat.add_comm 1]
  room := by
    obtain ⟨d, hfront, hd⟩ := h.room
    refine ⟨d, hfront, ?_⟩
    simp only [List.length_cons] at hd
    show d + 1 + xs.length + ys.length + reserved < B.size
    omega
  known := by
    obtain ⟨e, hlocal, hclaimed, he⟩ := h.known
    simp only [List.length_cons] at hclaimed he
    exact ⟨e, hlocal, hclaimed, by simp only; omega⟩

theorem leave (h : Intact B ⟨1, 0, reserved, ys⟩ xs) :
    Intact { B with front := B.advance B.front } ⟨0, 0, reserved, ys⟩ xs := by
  rw [h.advance_eq]
  have hlt : (B.front + 1) % B.size < B.size := Nat.mod_lt _ h.size_pos
  exact {
    size_eq := h.size_eq
    front_lt := hlt
    localFront_lt := h.localFront_lt
    holds := by
      show HoldsFrom B.size B.data (((B.front + 1) % B.size + 0) % B.size) (xs ++ ys)
      rw [Nat.add_zero, Nat.mod_mod]
      exact h.holds
    tail_eq := by
      show B.tail = ((B.front + 1) % B.size + 0 + xs.length) % B.size
      rw [h.tail_eq, Nat.add_zero, Nat.mod_add_mod]
    room := by
      obtain ⟨d, hfront, hd⟩ := h.room
      simp only at hd
      refine ⟨d + 1, ?_, ?_⟩
      · show (B.front + 1) % B.size = (B.localFront + (d + 1)) % B.size
        rw [hfront, Nat.mod_add_mod, Nat.add_assoc]
      · show d + 1 + 0 + xs.length + ys.length + reserved < B.size
        omega
    known := by
      obtain ⟨e, hlocal, hclaimed, he⟩ := h.known
      simp only at hclaimed he
      refine ⟨e - 1, ?_, Nat.zero_le _, ?_⟩
      · show B.localTail = ((B.front + 1) % B.size + (e - 1)) % B.size
        rw [hlocal, Nat.mod_add_mod, Nat.add_assoc, Nat.add_sub_cancel' hclaimed]
      · show e - 1 ≤ 0 + xs.length
        omega }

end Intact

/-! ### New blocks -/

theorem intact_makeBlock {capacity : ℕ} (h : ∃ k, capacity = 2 ^ (k + 1)) (next : ℕ) :
    Intact (makeBlock capacity next : Block T) ⟨0, 0, 0, []⟩ [] := by
  obtain ⟨k, rfl⟩ := h
  have hpos := Nat.two_pow_pos (k + 1)
  have hsize : (makeBlock (2 ^ (k + 1)) next : Block T).size = 2 ^ (k + 1) := Nat.sub_add_cancel hpos
  have hlt : 0 < (makeBlock (2 ^ (k + 1)) next : Block T).size := by rwa [hsize]
  exact {
    size_eq := ⟨k, hsize⟩
    front_lt := hlt
    localFront_lt := hlt
    holds := .nil (Nat.mod_lt _ hlt)
    tail_eq := (Nat.zero_mod _).symm
    room := ⟨0, (Nat.zero_mod _).symm, hlt⟩
    known := ⟨0, (Nat.zero_mod _).symm, le_rfl, le_rfl⟩ }

theorem intact_newBlock {maxBlockSize : ℕ} {s : State T} (h : ∃ k, newBlockSize maxBlockSize s = 2 ^ (k + 1)) (x : T) :
    Intact (newBlock maxBlockSize s x) ⟨0, 0, 0, []⟩ [x] := by
  have hempty : Intact (makeBlock (newBlockSize maxBlockSize s) s.atTail.next : Block T) ⟨0, 0, 0, []⟩ [] :=
    intact_makeBlock h _
  have hnew := (hempty.reserve_nil.construct x).publish.refreshTail
  have hadvance : (makeBlock (newBlockSize maxBlockSize s) s.atTail.next : Block T).advance 0 = 1 := by
    rw [hempty.advance_eq, Nat.mod_eq_of_lt hempty.two_le_size]
  have heq : newBlock maxBlockSize s x =
      { (makeBlock (newBlockSize maxBlockSize s) s.atTail.next).construct 0 x with
        tail := (makeBlock (newBlockSize maxBlockSize s) s.atTail.next : Block T).advance 0
        localTail := (makeBlock (newBlockSize maxBlockSize s) s.atTail.next : Block T).advance 0 } := by
    rw [hadvance, newBlock]
  rw [heq]
  exact hnew

end ReaderWriterQueue

end Bouncer
