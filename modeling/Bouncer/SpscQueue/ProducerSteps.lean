import Bouncer.SpscQueue.Invariant

/-!
# What the producer does

Each step of the producer keeps the invariant of the queue.  An element is in the queue from when the tail index of the tail block
is moved past it, or the tail moves to the block where it is.
-/

namespace Bouncer

namespace ReaderWriterQueue

open Function (update update_of_ne update_self)

namespace Invariant

variable {T : Type*} {s : State T} {used free : List ℕ} {contents : ℕ → List T} {mode : AllocationMode} {v : T} {b : ℕ}

theorem popped_of_ne (hb : b ≠ s.frontBlock) : s.consumer.popped s.frontBlock b = 0 := by
  unfold Consumer.popped
  split
  · exact if_neg hb
  · rfl

variable (h : Invariant s used free contents)
include h

/-- The tail block as the producer knows it. -/
theorem intact_tail {p : Producer T} (hp : s.producer = p) :
    Intact s.atTail ⟨s.consumer.popped s.frontBlock s.tailBlock, s.consumer.claimed s.frontBlock s.tailBlock,
      p.reserved s.tailBlock s.tailBlock, p.pending s.tailBlock s.tailBlock⟩ (contents s.tailBlock) := by
  rw [← State.view_of_producer hp]
  exact h.intact _ (List.mem_append_left _ h.ring.tail_mem)

private theorem popped_eq_zero (hb : b ∉ used) :
    s.consumer.popped s.frontBlock b = 0 := popped_of_ne (h.ring.ne_front hb)

private theorem claimed_eq_zero (hb : b ∉ used) :
    s.consumer.claimed s.frontBlock b = 0 := by
  have hconsumer := h.consumer
  unfold ConsumerOk at hconsumer
  unfold Consumer.claimed
  split
  · exact if_neg (h.ring.ne_front hb)
  · rename_i b' hc
    rw [hc] at hconsumer
    obtain ⟨us, rfl, -⟩ := hconsumer
    exact if_neg (List.ne_and_not_mem_of_not_mem_cons (List.ne_and_not_mem_of_not_mem_cons hb).2).1
  · rfl

/-- A free block as the producer knows it.  The consumer does nothing there. -/
theorem intact_free {p : Producer T} (hp : s.producer = p) (hb : b ∈ free) :
    Intact (s.blocks b) ⟨0, 0, p.reserved s.tailBlock b, p.pending s.tailBlock b⟩ (p.early b) := by
  have hintact := h.intact b (List.mem_append_right _ hb)
  have hnotin := h.ring.not_free hb
  rwa [State.view_of_producer hp, h.popped_eq_zero hnotin, h.claimed_eq_zero hnotin, h.empty b hb, hp] at hintact

theorem enqueue (hp : s.producer = .idle) :
    Invariant { s with producer := .checking mode v } used free contents :=
  h.producer_move hp _ (fun _ => rfl) (fun _ => rfl) rfl rfl rfl (.inl rfl) trivial

theorem check (hp : s.producer = .checking mode v) :
    Invariant { s with
      producer := if s.atTail.advance s.atTail.tail ≠ s.atTail.localFront then .constructing v else .refreshing mode v }
      used free contents := by
  split
  · rename_i hne
    have hstep := h.producer_step hp (.constructing v) s.tailBlock (s.blocks s.tailBlock) rfl rfl
    rw [State.setBlock_self] at hstep
    refine hstep (fun _ => ?_) (fun b hb => if_neg hb) (fun _ _ => rfl) rfl rfl rfl (.inl rfl) trivial
    have hreserve := (h.intact_tail hp).reserve hne
    rw [Producer.reserved, if_pos rfl]
    exact hreserve
  · exact h.producer_move hp _ (fun _ => rfl) (fun _ => rfl) rfl rfl rfl (.inl rfl) trivial

theorem refresh (hp : s.producer = .refreshing mode v) :
    Invariant { s.setBlock s.tailBlock { s.atTail with localFront := s.atTail.front } with
      producer := if s.atTail.advance s.atTail.tail ≠ s.atTail.front then .constructing v else .full mode v } used free
      contents := by
  have hfront := (h.intact_tail hp).refreshFront
  split
  · rename_i hne
    refine h.producer_step hp _ _ _ rfl rfl (fun _ => ?_) (fun b hb => if_neg hb) (fun _ _ => rfl) rfl rfl rfl (.inl rfl)
      trivial
    have hreserve := hfront.reserve hne
    rw [Producer.reserved, if_pos rfl]
    exact hreserve
  · rename_i heq
    refine h.producer_step hp _ _ _ rfl rfl (fun _ => hfront) (fun _ _ => rfl) (fun _ _ => rfl) rfl rfl rfl
      (.inr (.inr fun hne => ?_)) trivial
    have htail := h.intact_tail hp
    rw [popped_of_ne hne.symm] at htail
    exact (Nat.zero_add _).symm.trans (htail.length_eq (not_not.1 heq))

theorem construct (hp : s.producer = .constructing v) :
    Invariant { s.setBlock s.tailBlock (s.atTail.construct s.atTail.tail v) with producer := .publishing v } used free
      contents := by
  have htail := h.intact_tail hp
  rw [Producer.reserved, if_pos rfl] at htail
  refine h.producer_step hp _ _ _ rfl rfl (fun _ => ?_) (fun b hb => (if_neg hb).symm) (fun b hb => if_neg hb) rfl rfl
    rfl (.inl rfl) trivial
  rw [Producer.pending, if_pos rfl]
  exact htail.construct v

/-- The element is now the last one in the queue. -/
theorem publish (hp : s.producer = .publishing v) :
    Invariant { s.setBlock s.tailBlock { s.atTail with tail := s.atTail.advance s.atTail.tail } with
      producer := .signalling v } used free (update contents s.tailBlock (contents s.tailBlock ++ [v])) := by
  have htail := h.intact_tail hp
  rw [Producer.pending, if_pos rfl] at htail
  obtain ⟨us, hus⟩ := h.ring.tail
  have hnotin : s.tailBlock ∉ us := by
    have hnodup := (List.nodup_append.1 h.ring.nodup).1
    rw [hus] at hnodup
    exact fun hmem => (List.nodup_append.1 hnodup).2.2 _ hmem _ (List.mem_singleton_self _) rfl
  have hconcat : used.flatMap (update contents s.tailBlock (contents s.tailBlock ++ [v])) =
      used.flatMap contents ++ [v] := by
    rw [hus, List.flatMap_append, List.flatMap_append, flatMap_update hnotin, List.flatMap_singleton,
      List.flatMap_singleton, update_self, List.append_assoc]
  have hfifo := h.fifo
  have hcount := h.count
  have hmade := h.made
  rw [hp] at hfifo hcount hmade
  exact {
    ring := h.ring.congr (fun b _ => next_setBlock (by rfl) b) le_rfl rfl rfl
    made := hmade
    size := h.size
    intact := by
      refine intact_set h.intact rfl (fun _ => htail.publish) fun b hb => ?_
      have hpending : (Producer.publishing v).pending s.tailBlock b = [] := if_neg hb
      rw [State.view_of_producer hp, hpending]
      rfl
    filled := by
      intro b hb
      by_cases heq : b = s.tailBlock
      · subst heq
        rw [update_self]
        exact List.append_ne_nil_of_right_ne_nil _ (List.cons_ne_nil _ _)
      · rw [update_of_ne heq]
        exact h.filled b hb
    empty := by
      intro b hb
      rw [update_of_ne (h.ring.ne_tail (h.ring.not_free hb)), h.empty b hb, hp]
      rfl
    middle := by
      intro b hb
      have hne : b ≠ s.tailBlock := by
        rintro rfl
        rw [← List.tail_dropLast] at hb
        have hmem := List.mem_of_mem_tail hb
        rw [hus, List.dropLast_concat] at hmem
        exact hnotin hmem
      rw [update_of_ne hne, h.middle b hb]
      exact (sizeMask_setBlock (by rfl) b).symm
    tail := fun hp => absurd hp Bool.false_ne_true
    producer := trivial
    consumer := h.consumer.update (fun b us hus => h.ring.front_ne_tail hus) _
    fifo := by
      show s.enqueued ++ [v] = _
      rw [hconcat, ← List.append_assoc]
      exact congrArg (fun l => l ++ [v]) ((List.append_nil _).symm.trans hfifo)
    count := by
      rw [hconcat, List.length_append, hcount]
      show s.sema + 0 + s.consumer.waited + 1 = s.sema + 1 + s.consumer.waited
      omega }

theorem full (hp : s.producer = .full mode v) :
    Invariant { s with
      producer := if s.atTail.next ≠ s.frontBlock then .advancing v else mode.producer v } used free contents := by
  split
  · rename_i hne
    exact h.producer_move hp _ (fun _ => rfl) (fun _ => rfl) rfl rfl rfl (.inr (.inl rfl)) fun hfree =>
      hne (h.ring.next_tail_nil hfree)
  · cases mode with
    | canAlloc => exact h.producer_move hp _ (fun _ => rfl) (fun _ => rfl) rfl rfl rfl (.inr (.inl rfl)) trivial
    | cannotAlloc => exact h.producer_move hp _ (fun _ => rfl) (fun _ => rfl) rfl rfl rfl (.inl rfl) trivial

theorem advance (hp : s.producer = .advancing v) :
    Invariant
      { s.setBlock s.atTail.next { s.blocks s.atTail.next with localFront := (s.blocks s.atTail.next).front } with
        producer := .constructingNext v s.atTail.next } used free contents := by
  have hproducer := h.producer
  rw [ProducerOk, hp] at hproducer
  obtain ⟨b, l, hfree⟩ := List.exists_cons_of_ne_nil hproducer
  have hb : b ∈ free := hfree ▸ List.mem_cons_self
  have hintact : Intact (s.blocks b) ⟨0, 0, 0, []⟩ [] := h.intact_free hp hb
  rw [h.ring.next_tail hfree]
  refine h.producer_step hp _ _ _ rfl rfl (fun _ => ?_) (fun b hb => if_neg hb) (fun _ _ => rfl) rfl rfl rfl
    (.inr (.inl rfl)) ⟨l, hfree⟩
  have hnotin := h.ring.not_free hb
  rw [h.popped_eq_zero hnotin, h.claimed_eq_zero hnotin, h.empty b hb, hp, Producer.reserved, if_pos rfl]
  exact hintact.reserve_nil

theorem constructNext (hp : s.producer = .constructingNext v b) :
    Invariant { s.setBlock b ((s.blocks b).construct (s.blocks b).tail v) with producer := .publishingNext v b } used
      free contents := by
  obtain ⟨l, hfree⟩ : ∃ l, free = b :: l := by
    have hproducer := h.producer
    rwa [ProducerOk, hp] at hproducer
  have hb : b ∈ free := hfree ▸ List.mem_cons_self
  have hintact := h.intact_free hp hb
  rw [Producer.reserved, if_pos rfl] at hintact
  refine h.producer_step hp _ _ _ rfl rfl (fun _ => ?_) (fun b hb => (if_neg hb).symm) (fun b hb => if_neg hb) rfl rfl
    rfl (.inr (.inl rfl)) ⟨l, hfree⟩
  have hnotin := h.ring.not_free hb
  rw [h.popped_eq_zero hnotin, h.claimed_eq_zero hnotin, h.empty b hb, hp, Producer.pending, if_pos rfl]
  exact hintact.construct v

theorem publishNext (hp : s.producer = .publishingNext v b) :
    Invariant { s.setBlock b { s.blocks b with tail := (s.blocks b).advance (s.blocks b).tail } with
      producer := .movingTail v b } used free (update contents b [v]) := by
  obtain ⟨l, hfree⟩ : ∃ l, free = b :: l := by
    have hproducer := h.producer
    rwa [ProducerOk, hp] at hproducer
  have hb : b ∈ free := hfree ▸ List.mem_cons_self
  have hintact := h.intact_free hp hb
  rw [Producer.pending, if_pos rfl] at hintact
  have hnotin : b ∉ used := h.ring.not_free hb
  have hfifo := h.fifo
  have hcount := h.count
  have hmade := h.made
  have htail := h.tail
  rw [hp] at hmade htail
  rw [hp, ← flatMap_update hnotin [v]] at hfifo hcount
  exact {
    ring := h.ring.congr (fun b _ => next_setBlock (by rfl) b) le_rfl rfl rfl
    made := hmade
    size := h.size
    intact := by
      refine intact_set h.intact rfl (fun _ => ?_) fun b' hb' => ?_
      · rw [State.view_of_producer (p := .movingTail v b) rfl]
        show Intact _ ⟨s.consumer.popped s.frontBlock b, s.consumer.claimed s.frontBlock b, 0, []⟩ [v]
        rw [h.popped_eq_zero hnotin, h.claimed_eq_zero hnotin]
        exact hintact.publish
      · have hpending : (Producer.publishingNext v b).pending s.tailBlock b' = [] := if_neg hb'
        rw [State.view_of_producer hp, hpending]
        rfl
    filled := by
      intro b' hb'
      have hne : b' ≠ b := by
        rintro rfl
        exact hnotin (List.mem_of_mem_tail hb')
      rw [update_of_ne hne]
      exact h.filled b' hb'
    empty := by
      intro b' hb'
      by_cases heq : b' = b
      · subst heq
        rw [update_self]
        exact (if_pos rfl).symm
      · rw [update_of_ne heq, h.empty b' hb', hp]
        exact (if_neg heq).symm
    middle := by
      intro b' hb'
      have hne : b' ≠ b := by
        rintro rfl
        exact hnotin (List.mem_of_mem_tail (List.mem_of_mem_dropLast hb'))
      rw [update_of_ne hne, h.middle b' hb']
      exact (sizeMask_setBlock (by rfl) b').symm
    tail := by
      intro _ hne
      have hsame : update contents b [v] s.tailBlock = contents s.tailBlock :=
        update_of_ne (h.ring.ne_tail hnotin).symm _ _
      exact (congrArg List.length hsame).trans
        ((htail rfl hne).trans (sizeMask_setBlock (by rfl) s.tailBlock).symm)
    producer := ⟨l, hfree⟩
    consumer := h.consumer.update (fun _ _ _ => (h.ring.ne_front hnotin).symm) _
    fifo := hfifo
    count := hcount }

theorem outOfMemory (hp : s.producer = .allocating v) :
    Invariant { s with producer := .idle } used free contents :=
  h.producer_move hp _ (fun _ => rfl) (fun _ => rfl) rfl rfl rfl (.inl rfl) trivial

private theorem size_newBlock (maxBlockSize : ℕ) :
    ∃ k, newBlockSize maxBlockSize s = 2 ^ (k + 1) := by
  obtain ⟨k, hk⟩ := h.size
  unfold newBlockSize
  split
  · exact ⟨k, hk⟩
  · exact ⟨k + 1, by rw [hk, Nat.pow_succ 2 (k + 1)]⟩

/-- The new block is not in the circle yet. -/
theorem allocate (maxBlockSize : ℕ) (hp : s.producer = .allocating v) :
    Invariant { s.setBlock s.blockCount (newBlock maxBlockSize s v) with
      blockCount := s.blockCount + 1
      largestBlockSize := newBlockSize maxBlockSize s
      producer := .linking v s.blockCount } used free contents := by
  have hnew : s.blockCount ∉ used ++ free := fun hmem => absurd (h.ring.lt _ hmem) (Nat.lt_irrefl _)
  have hblocks : ∀ b ∈ used ++ free, update s.blocks s.blockCount (newBlock maxBlockSize s v) b = s.blocks b := by
    intro b hb
    refine update_of_ne ?_ _ _
    rintro rfl
    exact hnew hb
  have hfifo := h.fifo
  have hcount := h.count
  have hempty := h.empty
  have hmade := h.made
  have htail := h.tail
  rw [hp] at hfifo hcount hempty hmade htail
  exact {
    ring := h.ring.congr (fun b hb => congrArg Block.next (hblocks b hb)) (Nat.le_succ _) rfl rfl
    made := by
      intro b hb
      rw [List.mem_append]
      obtain hb | rfl := Nat.lt_succ_iff_lt_or_eq.1 hb
      · exact .inl (List.append_nil (used ++ free) ▸ hmade b hb)
      · exact .inr List.mem_cons_self
    size := h.size_newBlock maxBlockSize
    intact := by
      intro b hb
      have hintact := h.intact b hb
      rw [State.view_of_producer hp] at hintact
      show Intact (update s.blocks s.blockCount _ b) _ _
      rw [hblocks b hb]
      exact hintact
    filled := h.filled
    empty := hempty
    middle := by
      intro b hb
      have hmem : b ∈ used ++ free := List.mem_append_left _ (List.mem_of_mem_tail (List.mem_of_mem_dropLast hb))
      rw [h.middle b hb]
      exact (congrArg Block.sizeMask (hblocks b hmem)).symm
    tail := fun _ hne => (htail rfl hne).trans
      (congrArg Block.sizeMask (hblocks _ (List.mem_append_left _ h.ring.tail_mem))).symm
    producer := by
      refine ⟨Nat.lt_succ_self _, hnew, ?_, ?_⟩
      · show Intact (update s.blocks s.blockCount _ s.blockCount) _ _
        rw [update_self]
        exact intact_newBlock (h.size_newBlock maxBlockSize) v
      · show (update s.blocks s.blockCount _ s.blockCount).next =
          (update s.blocks s.blockCount _ s.tailBlock).next
        rw [update_self, hblocks _ (List.mem_append_left _ h.ring.tail_mem)]
        rfl
    consumer := h.consumer
    fifo := hfifo
    count := hcount }

/-- The new block comes behind the tail block. -/
theorem link (hp : s.producer = .linking v b) :
    Invariant { s.setBlock s.tailBlock { s.atTail with next := b } with producer := .movingTail v b } used (b :: free)
      (update contents b [v]) := by
  obtain ⟨hlt, hnew, hintact, hlink⟩ : b < s.blockCount ∧ b ∉ used ++ free ∧
      Intact (s.blocks b) ⟨0, 0, 0, []⟩ [v] ∧ (s.blocks b).next = s.atTail.next := by
    have hproducer := h.producer
    rwa [ProducerOk, hp] at hproducer
  have hused : b ∉ used := fun hmem => hnew (List.mem_append_left _ hmem)
  have hfree : b ∉ free := fun hmem => hnew (List.mem_append_right _ hmem)
  have htail : update s.blocks s.tailBlock { s.atTail with next := b } b = s.blocks b :=
    update_of_ne (h.ring.ne_tail hused) _ _
  have hmem : ∀ {b'}, b' ∈ used ++ b :: free → b' = b ∨ b' ∈ used ++ free := by
    intro b' hb'
    rwa [List.mem_append, List.mem_cons, or_left_comm, ← List.mem_append] at hb'
  have hfifo := h.fifo
  have hcount := h.count
  have hmade := h.made
  have hfull := h.tail
  rw [hp] at hmade hfull
  rw [hp, ← flatMap_update hused [v]] at hfifo hcount
  exact {
    ring := {
      circle := by
        obtain ⟨us, hus⟩ := h.ring.tail
        have hcircle := h.ring.circle
        have hnodup := h.ring.nodup
        have hshift : ∀ l, used ++ l = us ++ s.tailBlock :: l := fun l => by rw [hus, List.append_assoc]; rfl
        rw [hshift] at hcircle hnodup ⊢
        refine hcircle.insert hnodup ?_ ?_ fun x _ hx => ?_
        · show (update s.blocks s.tailBlock _ s.tailBlock).next = b
          rw [update_self]
        · exact (congrArg Block.next htail).trans hlink
        · show (update s.blocks s.tailBlock _ x).next = (s.blocks x).next
          rw [update_of_ne hx]
      nodup := List.nodup_middle.2 (List.nodup_cons.2 ⟨hnew, h.ring.nodup⟩)
      lt := by
        intro b' hb'
        obtain rfl | hb' := hmem hb'
        · exact hlt
        · exact h.ring.lt b' hb'
      front := h.ring.front
      tail := h.ring.tail }
    made := by
      intro b' hb'
      refine List.mem_append_left _ ?_
      rw [List.mem_append, List.mem_cons, or_left_comm, ← List.mem_append]
      obtain hmem | hmem := List.mem_append.1 (hmade b' hb')
      · exact .inr hmem
      · exact .inl (List.mem_singleton.1 hmem)
    size := h.size
    intact := by
      intro b' hmem'
      rw [State.view_of_producer (p := .movingTail v b) rfl]
      show Intact (update s.blocks s.tailBlock _ b') ⟨s.consumer.popped s.frontBlock b',
        s.consumer.claimed s.frontBlock b', 0, []⟩ _
      obtain rfl | hb' := hmem hmem'
      · rw [htail, update_self, h.popped_eq_zero hused, h.claimed_eq_zero hused]
        exact hintact
      · have hold := h.intact b' hb'
        rw [State.view_of_producer hp] at hold
        have hne : b' ≠ b := by
          rintro rfl
          exact hnew hb'
        have hsame : update contents b [v] b' = contents b' := update_of_ne hne _ _
        rw [hsame]
        by_cases heq : b' = s.tailBlock
        · subst heq
          rw [update_self]
          exact hold.link b
        · rw [update_of_ne heq]
          exact hold
    filled := by
      intro b' hb'
      have hne : b' ≠ b := by
        rintro rfl
        exact hused (List.mem_of_mem_tail hb')
      rw [update_of_ne hne]
      exact h.filled b' hb'
    empty := by
      intro b' hb'
      by_cases heq : b' = b
      · subst heq
        rw [update_self]
        exact (if_pos rfl).symm
      · rw [update_of_ne heq, h.empty b' ((List.mem_cons.1 hb').resolve_left heq), hp]
        exact (if_neg heq).symm
    middle := by
      intro b' hb'
      have hne : b' ≠ b := by
        rintro rfl
        exact hused (List.mem_of_mem_tail (List.mem_of_mem_dropLast hb'))
      rw [update_of_ne hne, h.middle b' hb']
      exact (sizeMask_setBlock (by rfl) b').symm
    tail := by
      intro _ hne
      have hsame : update contents b [v] s.tailBlock = contents s.tailBlock :=
        update_of_ne (h.ring.ne_tail hused).symm _ _
      exact (congrArg List.length hsame).trans ((hfull rfl hne).trans (sizeMask_setBlock (by rfl) s.tailBlock).symm)
    producer := ⟨free, rfl⟩
    consumer := h.consumer.update (fun _ _ _ => (h.ring.ne_front hused).symm) _
    fifo := hfifo
    count := hcount }

/-- The element is now the last one in the queue. -/
theorem moveTail (hp : s.producer = .movingTail v b) :
    ∃ l, Invariant { s with tailBlock := b, producer := .signalling v } (used ++ [b]) l contents := by
  obtain ⟨l, rfl⟩ : ∃ l, free = b :: l := by
    have hproducer := h.producer
    rwa [ProducerOk, hp] at hproducer
  have hb : contents b = [v] := by
    rw [h.empty b List.mem_cons_self, hp]
    exact if_pos rfl
  have happend : used ++ [b] ++ l = used ++ b :: l := by rw [List.append_assoc]; rfl
  have hconcat : (used ++ [b]).flatMap contents = used.flatMap contents ++ [v] := by
    rw [List.flatMap_append, List.flatMap_singleton, hb]
  have hfifo := h.fifo
  have hcount := h.count
  have hmade := h.made
  have hfull := h.tail
  rw [hp] at hfifo hcount hmade hfull
  exact ⟨l, {
    ring := {
      circle := happend ▸ h.ring.circle
      nodup := happend ▸ h.ring.nodup
      lt := happend ▸ h.ring.lt
      front := by
        obtain ⟨us, hus⟩ := h.ring.front
        exact ⟨us ++ [b], by rw [hus]; rfl⟩
      tail := ⟨used, rfl⟩ }
    made := happend ▸ hmade
    size := h.size
    intact := by
      rw [happend]
      intro b' hb'
      have hold := h.intact b' hb'
      rw [State.view_of_producer hp] at hold
      exact hold
    filled := by
      obtain ⟨us, hus⟩ := h.ring.front
      have hfilled := h.filled
      rw [hus] at hfilled ⊢
      intro b' hb'
      obtain hb' | hb' := List.mem_append.1 (show b' ∈ us ++ [b] from hb')
      · exact hfilled b' hb'
      · rw [List.mem_singleton.1 hb', hb]
        exact List.cons_ne_nil _ _
    empty := by
      intro b' hb'
      have hnodup := (List.nodup_append.1 h.ring.nodup).2.1
      have hne : b' ≠ b := by
        rintro rfl
        exact (List.nodup_cons.1 hnodup).1 hb'
      rw [h.empty b' (List.mem_cons_of_mem _ hb'), hp]
      exact if_neg hne
    middle := by
      -- the old tail block is now one of those in the middle, unless it is the front block
      intro b' hb'
      obtain ⟨us, hus⟩ := h.ring.front
      have hmem : b' ∈ us := by
        rw [hus, List.cons_append, List.tail_cons, List.dropLast_concat] at hb'
        exact hb'
      obtain ⟨us', hus'⟩ := h.ring.tail
      cases us' with
      | nil =>
        obtain ⟨-, rfl⟩ := List.cons.inj (hus.symm.trans hus')
        exact absurd hmem List.not_mem_nil
      | cons f us' =>
        obtain ⟨hf, rfl⟩ := List.cons.inj (hus.symm.trans hus')
        obtain hmem | hmem := List.mem_append.1 hmem
        · refine h.middle b' ?_
          rw [hus', List.cons_append, List.tail_cons, List.dropLast_concat]
          exact hmem
        · obtain rfl := List.mem_singleton.1 hmem
          refine hfull rfl fun heq => ?_
          have hnodup := (List.nodup_append.1 h.ring.nodup).1
          rw [hus, heq] at hnodup
          exact (List.nodup_cons.1 hnodup).1 (List.mem_append_right _ hmem)
    tail := fun hp => absurd hp Bool.false_ne_true
    producer := trivial
    consumer := h.consumer.concat b
    fifo := by
      show s.enqueued ++ [v] = _
      rw [hconcat, ← List.append_assoc]
      exact congrArg (fun l => l ++ [v]) ((List.append_nil _).symm.trans hfifo)
    count := by
      rw [hconcat, List.length_append, hcount]
      show s.sema + 0 + s.consumer.waited + 1 = s.sema + 1 + s.consumer.waited
      omega }⟩

theorem signal (hp : s.producer = .signalling v) :
    Invariant { s with sema := s.sema + 1, producer := .idle, enqueued := s.enqueued ++ [v] } used free contents := by
  have hfifo := h.fifo
  have hcount := h.count
  have hempty := h.empty
  have hmade := h.made
  rw [hp] at hfifo hcount hempty hmade
  exact {
    ring := h.ring.congr (fun _ _ => rfl) le_rfl rfl rfl
    made := hmade
    size := h.size
    intact := by
      intro b hb
      have hold := h.intact b hb
      rw [State.view_of_producer hp] at hold
      exact hold
    filled := h.filled
    empty := hempty
    middle := h.middle
    tail := fun hp => absurd hp Bool.false_ne_true
    producer := trivial
    consumer := h.consumer
    fifo := (List.append_nil _).trans hfifo
    count := hcount }

end Invariant

end ReaderWriterQueue

end Bouncer
