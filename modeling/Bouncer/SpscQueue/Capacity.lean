import Bouncer.SpscQueue.Fifo

/-!
# How many elements the queue holds

The constructor promises that the queue holds a number of elements without making another block.  All blocks between the front
block and the tail block are full.  So if no block is free and the tail block is full, there is one block, or all but the front
block are full; both are enough for this number (`Run.size_le_of_refused`).
-/

namespace Bouncer

namespace ReaderWriterQueue

open Relation (ReflTransGen)

variable {T : Type*} {maxBlockSize size : ℕ} {s s' : State T} {used free : List ℕ} {contents : ℕ → List T}
  {mode : AllocationMode} {v : T}

/-- Each block holds `size` elements, or all have the largest size and hold them without one of the blocks. -/
def Wide (maxBlockSize size : ℕ) (s : State T) : Prop :=
  ((∀ b < s.blockCount, size ≤ (s.blocks b).sizeMask) ∧ size < s.largestBlockSize) ∨
    (∀ b < s.blockCount, (s.blocks b).sizeMask = maxBlockSize - 1) ∧ s.largestBlockSize = maxBlockSize ∧
      size ≤ (s.blockCount - 1) * (maxBlockSize - 1)

/-- A step keeps the sizes of all blocks, and makes at most one. -/
theorem Step.sizes (hstep : Step maxBlockSize s s') :
    (∀ b < s.blockCount, (s'.blocks b).sizeMask = (s.blocks b).sizeMask) ∧
      (s'.blockCount = s.blockCount ∧ s'.largestBlockSize = s.largestBlockSize ∨
        s'.blockCount = s.blockCount + 1 ∧ s'.largestBlockSize = newBlockSize maxBlockSize s ∧
          (s'.blocks s.blockCount).sizeMask = newBlockSize maxBlockSize s - 1) := by
  cases hstep with
  | allocate hp =>
    refine ⟨fun b hb => congrArg Block.sizeMask (Function.update_of_ne hb.ne _ _), .inr ⟨rfl, rfl, ?_⟩⟩
    show (Function.update s.blocks s.blockCount (newBlock maxBlockSize s _) s.blockCount).sizeMask = _
    rw [Function.update_self]
    rfl
  | refresh => exact ⟨fun b _ => sizeMask_setBlock (by rfl) b, .inl ⟨rfl, rfl⟩⟩
  | construct => exact ⟨fun b _ => sizeMask_setBlock (by rfl) b, .inl ⟨rfl, rfl⟩⟩
  | publish => exact ⟨fun b _ => sizeMask_setBlock (by rfl) b, .inl ⟨rfl, rfl⟩⟩
  | advance => exact ⟨fun b _ => sizeMask_setBlock (by rfl) b, .inl ⟨rfl, rfl⟩⟩
  | constructNext => exact ⟨fun b _ => sizeMask_setBlock (by rfl) b, .inl ⟨rfl, rfl⟩⟩
  | publishNext => exact ⟨fun b _ => sizeMask_setBlock (by rfl) b, .inl ⟨rfl, rfl⟩⟩
  | link => exact ⟨fun b _ => sizeMask_setBlock (by rfl) b, .inl ⟨rfl, rfl⟩⟩
  | refreshTail => exact ⟨fun b _ => sizeMask_setBlock (by rfl) b, .inl ⟨rfl, rfl⟩⟩
  | recheck => exact ⟨fun b _ => sizeMask_setBlock (by rfl) b, .inl ⟨rfl, rfl⟩⟩
  | loadNext => exact ⟨fun b _ => sizeMask_setBlock (by rfl) b, .inl ⟨rfl, rfl⟩⟩
  | take => exact ⟨fun b _ => sizeMask_setBlock (by rfl) b, .inl ⟨rfl, rfl⟩⟩
  | leave => exact ⟨fun b _ => sizeMask_setBlock (by rfl) b, .inl ⟨rfl, rfl⟩⟩
  | _ => exact ⟨fun _ _ => rfl, .inl ⟨rfl, rfl⟩⟩

theorem Step.wide (hstep : Step maxBlockSize s s') (h : Wide maxBlockSize size s) : Wide maxBlockSize size s' := by
  obtain ⟨hsame, ⟨hcount, hlargest⟩ | ⟨hcount, hlargest, hnew⟩⟩ := hstep.sizes
  · unfold Wide
    rw [hcount, hlargest]
    refine h.imp (And.imp_left fun hsizes b hb => ?_) (And.imp_left fun hsizes b hb => ?_)
    · rw [hsame b hb]
      exact hsizes b hb
    · rw [hsame b hb]
      exact hsizes b hb
  · obtain ⟨hsizes, hlt⟩ | ⟨hsizes, heq, hle⟩ := h
    · have hnewSize : size < newBlockSize maxBlockSize s := by
        unfold newBlockSize
        split
        · exact hlt
        · omega
      refine .inl ⟨fun b hb => ?_, hlargest ▸ hnewSize⟩
      obtain hb | rfl := Nat.lt_succ_iff_lt_or_eq.1 (hcount ▸ hb)
      · rw [hsame b hb]
        exact hsizes b hb
      · rw [hnew]
        exact Nat.le_sub_one_of_lt hnewSize
    · have hnewSize : newBlockSize maxBlockSize s = maxBlockSize := (if_pos heq.ge).trans heq
      refine .inr ⟨fun b hb => ?_, hlargest.trans hnewSize, ?_⟩
      · obtain hb | rfl := Nat.lt_succ_iff_lt_or_eq.1 (hcount ▸ hb)
        · rw [hsame b hb]
          exact hsizes b hb
        · rw [hnew, hnewSize]
      · refine hle.trans (Nat.mul_le_mul_right _ ?_)
        omega

theorem Run.wide (h : Sized maxBlockSize size) (hrun : Run maxBlockSize (start maxBlockSize size) s) :
    Wide maxBlockSize size s := by
  induction hrun with
  | refl =>
    obtain ⟨n, capacity, hstart, hcapacity, hsize⟩ := h.exists_start (T := T)
    have hmask : ∀ b < n + 1, ((startWith (n + 1) capacity : State T).blocks b).sizeMask = capacity - 1 :=
      fun b hb => Nat.eq_sub_of_add_eq (intact_madeBlocks hcapacity hb).2
    rw [hstart]
    obtain hlt | ⟨rfl, hle⟩ := hsize
    · exact .inl ⟨fun b hb => (hmask b hb).symm ▸ Nat.le_sub_one_of_lt hlt, hlt⟩
    · exact .inr ⟨hmask, rfl, hle⟩
  | tail _ hstep ih => exact hstep.wide ih

/-! ### Full blocks -/

private theorem length_flatMap_ge (contents : ℕ → List T) {l : List ℕ} {m : ℕ} (h : ∀ b ∈ l, m ≤ (contents b).length) :
    l.length * m ≤ (l.flatMap contents).length := by
  induction l with
  | nil => rw [List.length_nil, Nat.zero_mul]; exact Nat.zero_le _
  | cons b l ih =>
    obtain ⟨hb, hl⟩ := List.forall_mem_cons.1 h
    rw [List.length_cons, Nat.succ_mul, List.flatMap_cons, List.length_append, Nat.add_comm]
    exact Nat.add_le_add hb (ih hl)

/-- If the tail block is full and no block is free, then `size` elements are in the queue. -/
theorem Invariant.size_le (h : Invariant s used free contents) (hwide : Wide maxBlockSize size s)
    (hp : s.producer = .refreshing mode v) (hfull : s.atTail.advance s.atTail.tail = s.atTail.front) (hfree : free = []) :
    size ≤ (used.flatMap contents).length + s.consumer.taken.length := by
  have hmade : ∀ b < s.blockCount, b ∈ used := by
    have hmade := h.made
    rw [hfree, hp, List.append_nil] at hmade
    exact fun b hb => (List.append_nil used) ▸ hmade b hb
  have hcount : s.blockCount ≤ used.length := by
    have hsubperm := List.subperm_of_subset List.nodup_range fun b hb => hmade b (List.mem_range.1 hb)
    have hlength := hsubperm.length_le
    rwa [List.length_range] at hlength
  have htail := (h.intact_tail hp).length_eq hfull
  have htailLt : s.tailBlock < s.blockCount := h.ring.lt _ (List.mem_append_left _ h.ring.tail_mem)
  obtain ⟨us, hus⟩ := h.ring.front
  obtain ⟨us', hus'⟩ := h.ring.tail
  cases us' with
  | nil =>
    -- there is only one block
    obtain ⟨heq, rfl⟩ := List.cons.inj (hus.symm.trans hus')
    have htaken : s.consumer.popped s.frontBlock s.tailBlock ≤ s.consumer.taken.length := by
      unfold Consumer.popped Consumer.taken
      split
      · exact le_of_eq (if_pos heq.symm)
      · exact Nat.zero_le _
    rw [hus', List.nil_append, List.flatMap_singleton]
    rw [hus', List.nil_append, List.length_singleton] at hcount
    obtain ⟨hsizes, -⟩ | ⟨-, -, hle⟩ := hwide
    · have hsize := hsizes _ htailLt
      rw [← State.atTail, ← htail] at hsize
      simp only at hsize
      omega
    · rw [Nat.sub_eq_zero_of_le hcount, Nat.zero_mul] at hle
      omega
  | cons f us' =>
    have hrest : us = us' ++ [s.tailBlock] := (List.cons.inj (hus.symm.trans hus')).2
    have hne : s.frontBlock ≠ s.tailBlock := by
      have hnodup := (List.nodup_append.1 h.ring.nodup).1
      rw [hus, hrest] at hnodup
      rintro heq
      exact (List.nodup_cons.1 hnodup).1 (List.mem_append_right _ (List.mem_singleton.2 heq))
    have hlengths : ∀ b ∈ us, (contents b).length = (s.blocks b).sizeMask := by
      intro b hb
      rw [hrest] at hb
      obtain hb | hb := List.mem_append.1 hb
      · refine h.middle b ?_
        rw [hus, List.tail_cons, hrest, List.dropLast_concat]
        exact hb
      · rw [List.mem_singleton.1 hb]
        rw [popped_of_ne hne.symm] at htail
        exact (Nat.zero_add _).symm.trans htail
    have hlt : ∀ b ∈ us, b < s.blockCount := by
      intro b hb
      refine h.ring.lt b (List.mem_append_left _ ?_)
      rw [hus]
      exact List.mem_cons_of_mem _ hb
    have hge : (us.flatMap contents).length ≤ (used.flatMap contents).length := by
      rw [hus, List.flatMap_cons, List.length_append]
      exact Nat.le_add_left _ _
    obtain ⟨hsizes, -⟩ | ⟨hsizes, -, hle⟩ := hwide
    · have hsum := length_flatMap_ge contents fun b hb => (hsizes b (hlt b hb)).trans_eq (hlengths b hb).symm
      have hpos : 1 ≤ us.length := by
        rw [hrest, List.length_append, List.length_singleton]
        exact Nat.le_add_left _ _
      have hsize := Nat.mul_le_mul_right size hpos
      omega
    · have hsum := length_flatMap_ge contents fun b hb =>
        ((hlengths b hb).trans (hsizes b (hlt b hb))).ge
      have hlength : s.blockCount - 1 ≤ us.length := by
        rw [hus, List.length_cons] at hcount
        omega
      have hsize := hle.trans (Nat.mul_le_mul_right (maxBlockSize - 1) hlength)
      omega

private theorem Invariant.free_ne_nil (h : Invariant s used free contents) (hfree : free ≠ [])
    (hwait : ReflTransGen (fun s s' => Step maxBlockSize s s' ∧ s'.producer = s.producer) s s') :
    s'.atTail.next ≠ s'.frontBlock := by
  have hreach : ∃ used free contents, Invariant s' used free contents ∧ free ≠ [] := by
    induction hwait with
    | refl => exact ⟨_, _, _, h, hfree⟩
    | tail _ hstep ih =>
      obtain ⟨used, free, contents, hs, hfree⟩ := ih
      obtain ⟨used', free', contents', hs', hfree'⟩ := hstep.1.invariant hs
      exact ⟨used', free', contents', hs', hfree' hstep.2 hfree⟩
  obtain ⟨used, free, contents, hs, hfree⟩ := hreach
  obtain ⟨b, l, rfl⟩ := List.exists_cons_of_ne_nil hfree
  rw [hs.ring.next_tail rfl]
  exact hs.ring.ne_front (hs.ring.not_free List.mem_cons_self)

theorem Step.full_of_refreshing (hstep : Step maxBlockSize s s') (hp : s.producer = .refreshing mode v)
    (hfull : s'.producer = .full mode v) (h : Invariant s used free contents) :
    s.atTail.advance s.atTail.tail = s.atTail.front ∧ Invariant s' used free contents := by
  cases hstep with
  | refresh hp' =>
    obtain ⟨rfl, rfl⟩ := Producer.refreshing.inj (hp.symm.trans hp')
    refine ⟨?_, h.refresh hp⟩
    by_contra hne
    exact nomatch (if_pos hne).symm.trans hfull
  | _ => simp_all

/-- The producer gives up, or makes another block, only if at least `size` elements were in the queue when it looked whether
the tail block is full. -/
theorem Run.size_le_of_refused {s₁ : State T} (h : Sized maxBlockSize size) (hrun : Run maxBlockSize (start maxBlockSize size) s)
    (hp : s.producer = .refreshing mode v) (hstep : Step maxBlockSize s s') (hfull : s'.producer = .full mode v)
    (hwait : ReflTransGen (fun s s' => Step maxBlockSize s s' ∧ s'.producer = s.producer) s' s₁)
    (hnext : s₁.atTail.next = s₁.frontBlock) : s.dequeued.length + size ≤ s.enqueued.length := by
  obtain ⟨used, free, contents, hs⟩ := Run.invariant h hrun
  obtain ⟨htail, hs'⟩ := hstep.full_of_refreshing hp hfull hs
  have hfree : free = [] := by
    by_contra hne
    exact hs'.free_ne_nil hne hwait hnext
  have hsize := hs.size_le (Run.wide h hrun) hp htail hfree
  have hlength := congrArg List.length hs.fifo
  rw [hp] at hlength
  simp only [List.length_append, Producer.unsignalled, List.length_nil] at hlength
  omega

theorem Run.size_le_of_refused_one : ∃ s : State ℕ, s.producer = .refreshing .cannotAlloc 8 ∧
    s.dequeued.length + 1 ≤ s.enqueued.length := by
  obtain ⟨s, hrun, hp, -, -, hlocal, hfull, hnext, -⟩ := exists_run_signalled
  have hcheck := (hrun.tail (.enqueue .cannotAlloc 8 hp)).tail (.check rfl)
  obtain ⟨t, ht, hp', hfull', hnext'⟩ : ∃ t : State ℕ, Run 2 (start 2 1) t ∧ t.producer = .refreshing .cannotAlloc 8 ∧
      t.atTail.advance t.atTail.tail = t.atTail.front ∧ t.atTail.next = t.frontBlock :=
    ⟨_, hcheck, if_neg (not_not.2 hlocal), hfull, hnext⟩
  have hstep : Step 2 t _ := .refresh hp'
  refine ⟨t, hp', Run.size_le_of_refused sized_one ht hp' hstep (if_neg (not_not.2 hfull')) .refl ?_⟩
  show (Function.update t.blocks t.tailBlock { t.atTail with localFront := t.atTail.front } t.tailBlock).next = t.frontBlock
  rw [Function.update_self]
  exact hnext'

end ReaderWriterQueue

end Bouncer
