import Bouncer.SpscQueue.Invariant

/-!
# What the consumer does

Each step of the consumer keeps the invariant of the queue.  The semaphore has counted an element for the consumer, so that there
is another block if the front block is empty.
-/

namespace Bouncer

namespace ReaderWriterQueue

namespace Invariant

variable {T : Type*} {s : State T} {used free : List ℕ} {contents : ℕ → List T} {x : T} {b : ℕ}
variable (h : Invariant s used free contents)
include h

/-- The front block as the consumer knows it. -/
theorem intact_front {c : Consumer T} (hc : s.consumer = c) :
    Intact s.atFront ⟨c.popped s.frontBlock s.frontBlock, c.claimed s.frontBlock s.frontBlock,
      s.producer.reserved s.tailBlock s.frontBlock, s.producer.pending s.tailBlock s.frontBlock⟩
      (contents s.frontBlock) := by
  rw [← State.view_of_consumer hc]
  exact h.intact _ (List.mem_append_left _ h.ring.front_mem)

private theorem exists_ahead (hwaited : s.consumer.waited = 1)
    (hnil : contents s.frontBlock = []) : ∃ b us, used = s.frontBlock :: b :: us ∧ contents s.frontBlock = [] := by
  obtain ⟨us, hus⟩ := h.ring.front
  have hcount := h.count
  rw [hwaited, hus, List.flatMap_cons, hnil, List.nil_append] at hcount
  cases us with
  | nil =>
    rw [List.flatMap_nil, List.length_nil] at hcount
    omega
  | cons b us => exact ⟨b, us, hus, hnil⟩

theorem wait (hc : s.consumer = .idle) (hsema : s.sema ≠ 0) :
    Invariant { s with sema := s.sema - 1, consumer := .checking } used free contents := by
  have hfifo := h.fifo
  have hcount := h.count
  rw [hc] at hfifo hcount
  exact {
    ring := h.ring.congr (fun _ _ => rfl) le_rfl rfl rfl
    made := h.made
    size := h.size
    intact := by
      intro b hb
      have hold := h.intact b hb
      rw [State.view_of_consumer hc] at hold
      exact hold
    filled := h.filled
    empty := h.empty
    middle := h.middle
    tail := h.tail
    producer := h.producer
    consumer := trivial
    fifo := hfifo
    count := by
      rw [hcount]
      show s.sema + s.producer.unsignalled.length + 0 = s.sema - 1 + s.producer.unsignalled.length + 1
      omega }

theorem checkFront (hc : s.consumer = .checking) :
    Invariant { s with consumer := if s.atFront.front ≠ s.atFront.localTail then .taking else .refreshing } used free
      contents := by
  split
  · rename_i hne
    have hfront : s.frontBlock ∈ used ++ free := List.mem_append_left _ h.ring.front_mem
    have hstep := h.consumer_step hc .taking s.frontBlock (s.blocks s.frontBlock) hfront rfl rfl
    rw [State.setBlock_self] at hstep
    refine hstep ?_ (fun _ _ => rfl) (fun b hb => if_neg hb) rfl rfl trivial
    rw [Consumer.claimed, if_pos rfl]
    exact (h.intact_front hc).claim hne
  · exact h.consumer_move hc _ (fun _ => rfl) (fun _ => rfl) rfl rfl trivial

theorem refreshTail (hc : s.consumer = .refreshing) :
    Invariant { s.setBlock s.frontBlock { s.atFront with localTail := s.atFront.tail } with
      consumer := if s.atFront.front ≠ s.atFront.tail then .taking else .comparing } used free contents := by
  have hfront : s.frontBlock ∈ used ++ free := List.mem_append_left _ h.ring.front_mem
  have hintact := (h.intact_front hc).refreshTail
  split
  · rename_i hne
    refine h.consumer_step hc _ _ _ hfront rfl rfl ?_ (fun _ _ => rfl) (fun b hb => if_neg hb) rfl rfl trivial
    rw [Consumer.claimed, if_pos rfl]
    exact hintact.claim hne
  · rename_i heq
    have hnil : contents s.frontBlock = [] := (h.intact_front hc).front_eq_tail_iff.1 (not_not.1 heq)
    refine h.consumer_step hc _ _ _ hfront rfl rfl hintact (fun _ _ => rfl) (fun _ _ => rfl) rfl rfl ?_
    exact h.exists_ahead (by rw [hc]; rfl) hnil

theorem compare (hc : s.consumer = .comparing) :
    Invariant { s with consumer := if s.frontBlock ≠ s.tailBlock then .rechecking else .failed } used free contents := by
  have hconsumer := h.consumer
  rw [ConsumerOk, hc] at hconsumer
  have hne : s.frontBlock ≠ s.tailBlock := by
    obtain ⟨b, us, hus, -⟩ := hconsumer
    exact h.ring.front_ne_tail hus
  rw [if_pos hne]
  exact h.consumer_move hc _ (fun _ => rfl) (fun _ => rfl) rfl rfl hconsumer

theorem recheck (hc : s.consumer = .rechecking) :
    Invariant { s.setBlock s.frontBlock { s.atFront with localTail := s.atFront.tail } with
      consumer := if s.atFront.front ≠ s.atFront.tail then .taking else .readingNext } used free contents := by
  have hfront : s.frontBlock ∈ used ++ free := List.mem_append_left _ h.ring.front_mem
  have hconsumer := h.consumer
  rw [ConsumerOk, hc] at hconsumer
  have heq : s.atFront.front = s.atFront.tail := by
    obtain ⟨b, us, -, hnil⟩ := hconsumer
    exact (h.intact_front hc).front_eq_tail_iff.2 hnil
  rw [if_neg (not_not.2 heq)]
  exact h.consumer_step hc _ _ _ hfront rfl rfl (h.intact_front hc).refreshTail (fun _ _ => rfl) (fun _ _ => rfl) rfl rfl
    hconsumer

theorem readNext (hc : s.consumer = .readingNext) :
    Invariant { s with consumer := .loadingNext s.atFront.next } used free contents := by
  have hconsumer := h.consumer
  rw [ConsumerOk, hc] at hconsumer
  obtain ⟨b, us, hus, hnil⟩ := hconsumer
  rw [h.ring.next_front hus]
  exact h.consumer_move hc _ (fun _ => rfl) (fun _ => rfl) rfl rfl ⟨us, hus, hnil⟩

/-- The next block as the consumer knows it. -/
theorem intact_next {c : Consumer T} (hc : s.consumer = c) {us : List ℕ}
    (hus : used = s.frontBlock :: b :: us) : b ∈ used ++ free ∧ contents b ≠ [] ∧
      Intact (s.blocks b) ⟨c.popped s.frontBlock b, c.claimed s.frontBlock b, s.producer.reserved s.tailBlock b,
        s.producer.pending s.tailBlock b⟩ (contents b) := by
  have hb : b ∈ used ++ free := by
    rw [hus]
    exact List.mem_append_left _ (List.mem_cons_of_mem _ List.mem_cons_self)
  have hfilled := h.filled b
  rw [hus] at hfilled
  rw [← State.view_of_consumer hc]
  exact ⟨hb, hfilled List.mem_cons_self, h.intact b hb⟩

theorem loadNext (hc : s.consumer = .loadingNext b) :
    Invariant { s.setBlock b { s.blocks b with localTail := (s.blocks b).tail } with consumer := .movingFront b } used free
      contents := by
  have hconsumer := h.consumer
  rw [ConsumerOk, hc] at hconsumer
  obtain ⟨us, hus, hnil⟩ := hconsumer
  obtain ⟨hb, hne, hintact⟩ := h.intact_next hc hus
  refine h.consumer_step hc _ _ _ hb rfl rfl ?_ (fun _ _ => rfl) (fun b hb => if_neg hb) rfl rfl ⟨us, hus, hnil⟩
  rw [Consumer.claimed, if_pos rfl]
  exact hintact.refreshTail.claim fun heq => hne (hintact.front_eq_tail_iff.1 heq)

private theorem early_eq_nil (hb : b ∉ free) : s.producer.early b = [] := by
  have hproducer := h.producer
  unfold ProducerOk at hproducer
  unfold Producer.early
  split
  · rename_i v b' hp
    rw [hp] at hproducer
    obtain ⟨l, rfl⟩ := hproducer
    exact if_neg (List.ne_of_not_mem_cons hb)
  · rfl

/-- The front block is free now. -/
theorem moveFront (hc : s.consumer = .movingFront b) :
    ∃ us, used = s.frontBlock :: us ∧
      Invariant { s with frontBlock := b, consumer := .taking } us (free ++ [s.frontBlock]) contents := by
  have hconsumer := h.consumer
  rw [ConsumerOk, hc] at hconsumer
  obtain ⟨us, rfl, hnil⟩ := hconsumer
  have hnodup := h.ring.nodup
  have hnotin : s.frontBlock ∉ b :: us ++ free := (List.nodup_cons.1 hnodup).1
  have hperm : (b :: us ++ (free ++ [s.frontBlock])).Perm (s.frontBlock :: b :: us ++ free) := by
    rw [← List.append_assoc]
    exact List.perm_append_singleton _ _
  have hfifo := h.fifo
  have hcount := h.count
  rw [hc, List.flatMap_cons, hnil, List.nil_append] at hfifo hcount
  exact ⟨b :: us, rfl, {
    ring := {
      circle := by
        rw [← List.append_assoc]
        exact Library.Circle.swap (u := [s.frontBlock]) h.ring.circle
      nodup := hperm.nodup_iff.2 hnodup
      lt := fun b' hb' => h.ring.lt b' (hperm.mem_iff.1 hb')
      front := ⟨us, rfl⟩
      tail := by
        obtain ⟨us', hus'⟩ := h.ring.tail
        cases us' with
        | nil => exact absurd (List.cons.inj hus').2 (List.cons_ne_nil _ _)
        | cons f us' => exact ⟨us', (List.cons.inj hus').2⟩ }
    made := by
      intro b' hb'
      obtain hmem | hmem := List.mem_append.1 (h.made b' hb')
      · exact List.mem_append_left _ (hperm.mem_iff.2 hmem)
      · exact List.mem_append_right _ hmem
    size := h.size
    intact := by
      intro b' hb'
      have hold := h.intact b' (hperm.mem_iff.1 hb')
      rw [State.view_of_consumer hc] at hold
      exact hold
    filled := fun b' hb' => h.filled b' (List.mem_cons_of_mem _ hb')
    empty := by
      intro b' hb'
      obtain hb' | hb' := List.mem_append.1 hb'
      · exact h.empty b' hb'
      · rw [List.mem_singleton.1 hb', hnil]
        exact (h.early_eq_nil fun hmem => hnotin (List.mem_append_right _ hmem)).symm
    middle := by
      intro b' hb'
      refine h.middle b' ?_
      rw [List.tail_cons] at hb' ⊢
      cases us with
      | nil => exact absurd hb' List.not_mem_nil
      | cons b'' us => exact List.mem_cons_of_mem _ hb'
    tail := fun hp _ => h.tail hp (h.ring.front_ne_tail rfl)
    producer := h.producer.moveFront rfl rfl rfl rfl fun _ => hperm.mem_iff.1
    consumer := trivial
    fifo := hfifo
    count := hcount }⟩

theorem take (hc : s.consumer = .taking)
    (hx : s.atFront.data s.atFront.front = some x) :
    ∃ xs, contents s.frontBlock = x :: xs ∧
      Invariant { s.setBlock s.frontBlock (s.atFront.destroy s.atFront.front) with consumer := .leaving x } used free
        (Function.update contents s.frontBlock xs) := by
  have hintact := h.intact_front hc
  rw [Consumer.claimed, if_pos rfl] at hintact
  obtain ⟨y, xs, hcontents⟩ := List.exists_cons_of_ne_nil hintact.ne_nil
  rw [hcontents] at hintact
  obtain rfl : y = x := Option.some.inj (hintact.data_front.symm.trans hx)
  obtain ⟨us, hus⟩ := h.ring.front
  have hnodup := h.ring.nodup
  rw [hus] at hnodup
  have hnotin : s.frontBlock ∉ us := fun hmem => (List.nodup_cons.1 hnodup).1 (List.mem_append_left _ hmem)
  have hfifo := h.fifo
  have hcount := h.count
  rw [hc, hus, List.flatMap_cons, hcontents] at hfifo hcount
  have hflat : used.flatMap (Function.update contents s.frontBlock xs) = xs ++ us.flatMap contents := by
    rw [hus, List.flatMap_cons, Function.update_self, flatMap_update hnotin]
  refine ⟨xs, hcontents, ?_⟩
  exact {
    ring := h.ring.congr (fun b _ => next_setBlock (by rfl) b) le_rfl rfl rfl
    made := h.made
    size := h.size
    intact := by
      refine intact_set h.intact rfl (fun _ => ?_) fun b hb => ?_
      · rw [State.view_of_consumer (c := .leaving y) rfl, Consumer.popped]
        show Intact _ ⟨if s.frontBlock = s.frontBlock then 1 else 0, _, _, _⟩ _
        rw [if_pos rfl]
        exact hintact.destroy
      · have hpopped : (Consumer.leaving y).popped s.frontBlock b = 0 := if_neg hb
        have hclaimed : (Consumer.taking : Consumer T).claimed s.frontBlock b = 0 := if_neg hb
        rw [State.view_of_consumer hc, hclaimed, State.view_of_consumer (c := .leaving y) rfl]
        show View.mk ((Consumer.leaving y).popped s.frontBlock b) _ _ _ = _
        rw [hpopped]
        rfl
    filled := by
      intro b hb
      have hne : b ≠ s.frontBlock := by
        rintro rfl
        rw [hus] at hb
        exact hnotin hb
      rw [Function.update_of_ne hne]
      exact h.filled b hb
    empty := by
      intro b hb
      rw [Function.update_of_ne (h.ring.ne_front (h.ring.not_free hb))]
      exact h.empty b hb
    middle := by
      intro b hb
      have hne : b ≠ s.frontBlock := by
        rintro rfl
        rw [hus] at hb
        exact hnotin (List.mem_of_mem_dropLast hb)
      rw [Function.update_of_ne hne, h.middle b hb]
      exact (sizeMask_setBlock (by rfl) b).symm
    tail := by
      intro hp hne
      have hsame : Function.update contents s.frontBlock xs s.tailBlock = contents s.tailBlock :=
        Function.update_of_ne (Ne.symm hne) _ _
      exact (congrArg List.length hsame).trans ((h.tail hp hne).trans (sizeMask_setBlock (by rfl) s.tailBlock).symm)
    producer := by
      refine h.producer.congr rfl rfl rfl (fun b hb => Function.update_of_ne ?_ _ _) (next_setBlock (by rfl))
      exact h.ring.ne_front fun hmem => hb (List.mem_append_left _ hmem)
    consumer := trivial
    fifo := by
      rw [hflat]
      show s.enqueued ++ s.producer.unsignalled = s.dequeued ++ [y] ++ (xs ++ us.flatMap contents)
      rw [hfifo]
      simp [Consumer.taken]
    count := by
      rw [hflat]
      exact Nat.succ.inj hcount }

theorem leave (hc : s.consumer = .leaving x) :
    Invariant { s.setBlock s.frontBlock { s.atFront with front := s.atFront.advance s.atFront.front } with
      consumer := .idle, dequeued := s.dequeued ++ [x] } used free contents := by
  have hintact := h.intact_front hc
  rw [Consumer.popped, if_pos rfl] at hintact
  have hfifo := h.fifo
  have hcount := h.count
  rw [hc] at hfifo hcount
  exact {
    ring := h.ring.congr (fun b _ => next_setBlock (by rfl) b) le_rfl rfl rfl
    made := h.made
    size := h.size
    intact := by
      rw [← Function.update_eq_self s.frontBlock contents]
      refine intact_set h.intact rfl (fun _ => hintact.leave) fun b hb => ?_
      have hpopped : (Consumer.leaving x).popped s.frontBlock b = 0 := if_neg hb
      rw [State.view_of_consumer hc, hpopped]
      rfl
    filled := h.filled
    empty := h.empty
    middle := fun b hb => (h.middle b hb).trans (sizeMask_setBlock (by rfl) b).symm
    tail := fun hp hne => (h.tail hp hne).trans (sizeMask_setBlock (by rfl) s.tailBlock).symm
    producer := by
      refine h.producer.congr rfl rfl rfl (fun b hb => Function.update_of_ne ?_ _ _) (next_setBlock (by rfl))
      exact h.ring.ne_front fun hmem => hb (List.mem_append_left _ hmem)
    consumer := trivial
    fifo := by
      show s.enqueued ++ s.producer.unsignalled = s.dequeued ++ [x] ++ [] ++ used.flatMap contents
      rw [List.append_nil]
      exact hfifo
    count := hcount }

end Invariant

end ReaderWriterQueue

end Bouncer
