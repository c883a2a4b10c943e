import Bouncer.SpscQueue.ConsumerSteps
import Bouncer.SpscQueue.ProducerSteps
import Bouncer.SpscQueue.Start

/-!
# First in, first out

Whatever the order of the steps of the two threads, what the consumer takes is what the producer has put into the queue, in its
order, and nothing is lost (`Run.fifo_order`).  No element is put where another one lives or taken where none is, the assertions hold,
and a consumer that the semaphore has let through always finds an element (`Run.never_unsafe`).
-/

namespace Bouncer

namespace ReaderWriterQueue

variable {T : Type*} {maxBlockSize size : ℕ} {s s' : State T} {used free : List ℕ} {contents : ℕ → List T}

/-- A step keeps the invariant.  While the producer does nothing, there are no less free blocks. -/
theorem Step.invariant (hstep : Step maxBlockSize s s') (h : Invariant s used free contents) :
    ∃ used' free' contents', Invariant s' used' free' contents' ∧
      (s'.producer = s.producer → free ≠ [] → free' ≠ []) := by
  cases hstep with
  | enqueue mode v hp => exact ⟨_, _, _, h.enqueue hp, fun _ => id⟩
  | check hp => exact ⟨_, _, _, h.check hp, fun _ => id⟩
  | refresh hp => exact ⟨_, _, _, h.refresh hp, fun _ => id⟩
  | construct hp => exact ⟨_, _, _, h.construct hp, fun _ => id⟩
  | publish hp => exact ⟨_, _, _, h.publish hp, fun _ => id⟩
  | full hp => exact ⟨_, _, _, h.full hp, fun _ => id⟩
  | advance hp => exact ⟨_, _, _, h.advance hp, fun _ => id⟩
  | constructNext hp => exact ⟨_, _, _, h.constructNext hp, fun _ => id⟩
  | publishNext hp => exact ⟨_, _, _, h.publishNext hp, fun _ => id⟩
  | allocate hp => exact ⟨_, _, _, h.allocate maxBlockSize hp, fun _ => id⟩
  | outOfMemory hp => exact ⟨_, _, _, h.outOfMemory hp, fun _ => id⟩
  | link hp => exact ⟨_, _, _, h.link hp, fun _ _ => List.cons_ne_nil _ _⟩
  | moveTail hp =>
    obtain ⟨l, hl⟩ := h.moveTail hp
    refine ⟨_, _, _, hl, fun heq => ?_⟩
    rw [hp] at heq
    exact nomatch heq
  | signal hp => exact ⟨_, _, _, h.signal hp, fun _ => id⟩
  | wait hc hsema => exact ⟨_, _, _, h.wait hc hsema, fun _ => id⟩
  | checkFront hc => exact ⟨_, _, _, h.checkFront hc, fun _ => id⟩
  | refreshTail hc => exact ⟨_, _, _, h.refreshTail hc, fun _ => id⟩
  | compare hc => exact ⟨_, _, _, h.compare hc, fun _ => id⟩
  | recheck hc => exact ⟨_, _, _, h.recheck hc, fun _ => id⟩
  | readNext hc => exact ⟨_, _, _, h.readNext hc, fun _ => id⟩
  | loadNext hc => exact ⟨_, _, _, h.loadNext hc, fun _ => id⟩
  | moveFront hc =>
    obtain ⟨us, -, hus⟩ := h.moveFront hc
    exact ⟨_, _, _, hus, fun _ hfree => List.append_ne_nil_of_left_ne_nil hfree _⟩
  | take hc hx =>
    obtain ⟨xs, -, hxs⟩ := h.take hc hx
    exact ⟨_, _, _, hxs, fun _ => id⟩
  | leave hc => exact ⟨_, _, _, h.leave hc, fun _ => id⟩

theorem Run.invariant (h : Sized maxBlockSize size) (hrun : Run maxBlockSize (start maxBlockSize size) s) :
    ∃ used free contents, Invariant s used free contents := by
  induction hrun with
  | refl =>
    obtain ⟨n, capacity, hstart, hcapacity, -⟩ := h.exists_start (T := T)
    rw [hstart]
    exact ⟨_, _, _, invariant_startWith hcapacity n⟩
  | tail _ hstep ih =>
    obtain ⟨used, free, contents, hs⟩ := ih
    obtain ⟨used', free', contents', hs', -⟩ := hstep.invariant hs
    exact ⟨used', free', contents', hs'⟩

/-- What must not happen does not.  The fields about `advancing` and `movingFront` are the assertions of `inner_enqueue` and of
`try_dequeue`, and the last one is that of `wait_dequeue`. -/
structure Safe (s : State T) : Prop where
  construct : ∀ v, s.producer = .constructing v → s.atTail.data s.atTail.tail = none
  advance : ∀ v, s.producer = .advancing v → (s.blocks s.atTail.next).front = (s.blocks s.atTail.next).tail
  constructNext : ∀ v b, s.producer = .constructingNext v b → (s.blocks b).data (s.blocks b).tail = none
  allocate : ∀ v, s.producer = .allocating v → s.frontBlock < s.blockCount ∧ s.tailBlock < s.blockCount
  movingFront : ∀ b, s.consumer = .movingFront b → (s.blocks b).front ≠ (s.blocks b).tail
  take : s.consumer = .taking → ∃ x, s.atFront.data s.atFront.front = some x
  success : s.consumer ≠ .failed

theorem Invariant.safe (h : Invariant s used free contents) : Safe s where
  construct := fun v hp => (h.intact_tail hp).data_tail
  advance := by
    intro v hp
    have hproducer := h.producer
    rw [ProducerOk, hp] at hproducer
    obtain ⟨b, l, hfree⟩ := List.exists_cons_of_ne_nil hproducer
    rw [h.ring.next_tail hfree]
    exact (h.intact_free hp (hfree ▸ List.mem_cons_self)).front_eq_tail_iff.2 rfl
  constructNext := by
    intro v b hp
    have hproducer := h.producer
    rw [ProducerOk, hp] at hproducer
    obtain ⟨l, hfree⟩ := hproducer
    exact (h.intact_free hp (hfree ▸ List.mem_cons_self)).data_tail
  allocate := fun _ _ => ⟨h.ring.lt _ (List.mem_append_left _ h.ring.front_mem),
    h.ring.lt _ (List.mem_append_left _ h.ring.tail_mem)⟩
  movingFront := by
    intro b hc heq
    have hconsumer := h.consumer
    rw [ConsumerOk, hc] at hconsumer
    obtain ⟨us, hus, -⟩ := hconsumer
    obtain ⟨-, hne, hintact⟩ := h.intact_next hc hus
    exact hne (hintact.front_eq_tail_iff.1 heq)
  take := by
    intro hc
    have hintact := h.intact_front hc
    rw [Consumer.claimed, if_pos rfl] at hintact
    obtain ⟨x, xs, hcontents⟩ := List.exists_cons_of_ne_nil hintact.ne_nil
    rw [hcontents] at hintact
    exact ⟨x, hintact.data_front⟩
  success := by
    intro hc
    have hconsumer := h.consumer
    rw [ConsumerOk, hc] at hconsumer
    exact hconsumer

/-- An element is put into a queue of the smallest size. -/
theorem exists_run_signalled : ∃ s : State ℕ, Run 2 (start 2 1) s ∧ s.producer = .idle ∧ s.consumer = .idle ∧ s.sema = 1 ∧
    s.atTail.advance s.atTail.tail = s.atTail.localFront ∧ s.atTail.advance s.atTail.tail = s.atTail.front ∧
      s.atTail.next = s.frontBlock ∧ s.enqueued = [7] := by
  have hrun : Run 2 (start 2 1 : State ℕ) (start 2 1) := .refl
  have hcheck := (hrun.tail (.enqueue .cannotAlloc 7 rfl)).tail (.check rfl)
  have hsignal := ((hcheck.tail (.construct (v := 7) rfl)).tail (.publish rfl)).tail (.signal rfl)
  exact ⟨_, hsignal, rfl, rfl, rfl, rfl, rfl, rfl, rfl⟩

theorem sized_one : Sized 2 1 := ⟨⟨0, rfl⟩, by decide, by decide⟩

/-- No state that the threads can reach is unsafe. -/
theorem Run.never_unsafe (h : Sized maxBlockSize size) (hrun : Run maxBlockSize (start maxBlockSize size) s) : Safe s := by
  obtain ⟨used, free, contents, hs⟩ := Run.invariant h hrun
  exact hs.safe

theorem Run.never_unsafe_one : ∃ s : State ℕ, s.consumer = .checking ∧ s.enqueued = [7] ∧ Safe s := by
  obtain ⟨s, hrun, -, hc, hsema, -, -, -, henqueued⟩ := exists_run_signalled
  have hwait := hrun.tail (.wait hc (hsema ▸ Nat.one_ne_zero))
  refine ⟨_, ?_, ?_, Run.never_unsafe sized_one hwait⟩
  · rfl
  · exact henqueued

/-- What was taken from the queue and what is still there is what was put there, in the same order.  An element is taken only
after the call that put it there has signalled, and the semaphore counts what the consumer may take. -/
theorem Run.fifo_order (h : Sized maxBlockSize size) (hrun : Run maxBlockSize (start maxBlockSize size) s) :
    ∃ queue, s.enqueued ++ s.producer.unsignalled = s.dequeued ++ s.consumer.taken ++ queue ∧
      queue.length = s.sema + s.producer.unsignalled.length + s.consumer.waited ∧
      s.dequeued ++ s.consumer.taken <+: s.enqueued := by
  obtain ⟨used, free, contents, hs⟩ := Run.invariant h hrun
  refine ⟨used.flatMap contents, hs.fifo, hs.count, ?_⟩
  have hprefix : s.dequeued ++ s.consumer.taken <+: s.enqueued ++ s.producer.unsignalled := by
    rw [hs.fifo]
    exact List.prefix_append _ _
  refine List.prefix_of_prefix_length_le hprefix (List.prefix_append _ _) ?_
  have hlength := congrArg List.length hs.fifo
  have hcount := hs.count
  simp only [List.length_append] at hlength ⊢
  omega

theorem Run.fifo_order_one : ∃ (s : State ℕ) (queue : List ℕ), s.consumer = .checking ∧
    s.enqueued ++ s.producer.unsignalled = s.dequeued ++ s.consumer.taken ++ queue ∧
      queue.length = s.sema + s.producer.unsignalled.length + s.consumer.waited ∧
      s.dequeued ++ s.consumer.taken <+: s.enqueued := by
  obtain ⟨s, hrun, -, hc, hsema, -⟩ := exists_run_signalled
  have hwait := hrun.tail (.wait hc (hsema ▸ Nat.one_ne_zero))
  obtain ⟨queue, hqueue⟩ := Run.fifo_order sized_one hwait
  refine ⟨_, queue, ?_, hqueue⟩
  rfl

end ReaderWriterQueue

end Bouncer
