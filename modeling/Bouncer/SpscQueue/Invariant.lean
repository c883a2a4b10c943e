import Bouncer.SpscQueue.Block

/-!
# The invariant of the queue

The blocks from the front block to the tail block are in use, and the others are free.  All used blocks but the front block have
elements, and the free blocks have none.  What was put into the queue and not taken from it is in the used blocks, in their
order, and the semaphore counts it.
-/

namespace Bouncer

namespace ReaderWriterQueue

open Library (Circle)

variable {T : Type*}

/-! ### What the threads are doing -/

namespace Consumer

def popped (c : Consumer T) (frontBlock b : ℕ) : ℕ :=
  match c with
  | .leaving _ => if b = frontBlock then 1 else 0
  | _ => 0

def claimed (c : Consumer T) (frontBlock b : ℕ) : ℕ :=
  match c with
  | .taking => if b = frontBlock then 1 else 0
  | .movingFront nextBlock => if b = nextBlock then 1 else 0
  | _ => 0

/-- The element that the consumer has taken and not returned yet. -/
def taken (c : Consumer T) : List T :=
  match c with
  | .leaving x => [x]
  | _ => []

/-- One for the element that the semaphore has let the consumer take. -/
def waited (c : Consumer T) : ℕ :=
  match c with
  | .idle | .leaving _ => 0
  | _ => 1

end Consumer

namespace Producer

def reserved (p : Producer T) (tailBlock b : ℕ) : ℕ :=
  match p with
  | .constructing _ => if b = tailBlock then 1 else 0
  | .constructingNext _ tailBlockNext => if b = tailBlockNext then 1 else 0
  | _ => 0

def pending (p : Producer T) (tailBlock b : ℕ) : List T :=
  match p with
  | .publishing v => if b = tailBlock then [v] else []
  | .publishingNext v tailBlockNext => if b = tailBlockNext then [v] else []
  | _ => []

/-- What is in a block that is not in use yet. -/
def early (p : Producer T) (b : ℕ) : List T :=
  match p with
  | .movingTail v block => if b = block then [v] else []
  | _ => []

/-- The element that is in the queue and not counted by the semaphore. -/
def unsignalled (p : Producer T) : List T :=
  match p with
  | .signalling v => [v]
  | _ => []

/-- Whether the tail block was full when the producer looked. -/
def sawFull (p : Producer T) : Bool :=
  match p with
  | .full .. | .advancing _ | .constructingNext .. | .publishingNext .. | .allocating _ | .linking .. | .movingTail .. => true
  | _ => false

/-- The block that has been made and is not in the circle yet. -/
def apart (p : Producer T) : List ℕ :=
  match p with
  | .linking _ newBlock => [newBlock]
  | _ => []

end Producer

def State.view (s : State T) (b : ℕ) : View T where
  popped := s.consumer.popped s.frontBlock b
  claimed := s.consumer.claimed s.frontBlock b
  reserved := s.producer.reserved s.tailBlock b
  pending := s.producer.pending s.tailBlock b

namespace State

@[simp] theorem setBlock_self (s : State T) (t : ℕ) : s.setBlock t (s.blocks t) = s := by
  rw [setBlock, Function.update_eq_self]

@[simp] theorem producer_setBlock (s : State T) (t : ℕ) (B : Block T) : (s.setBlock t B).producer = s.producer := rfl

variable {s : State T}

theorem view_of_producer {p : Producer T} (hp : s.producer = p) (b : ℕ) :
    s.view b = ⟨s.consumer.popped s.frontBlock b, s.consumer.claimed s.frontBlock b, p.reserved s.tailBlock b,
      p.pending s.tailBlock b⟩ := by
  subst hp
  rfl

theorem view_of_consumer {c : Consumer T} (hc : s.consumer = c) (b : ℕ) :
    s.view b = ⟨c.popped s.frontBlock b, c.claimed s.frontBlock b, s.producer.reserved s.tailBlock b,
      s.producer.pending s.tailBlock b⟩ := by
  subst hc
  rfl

end State

/-! ### The circle of the blocks -/

def State.next (s : State T) (b : ℕ) : ℕ := (s.blocks b).next

structure Ring (s : State T) (used free : List ℕ) : Prop where
  circle : Circle s.next (used ++ free)
  nodup : (used ++ free).Nodup
  lt : ∀ b ∈ used ++ free, b < s.blockCount
  front : ∃ us, used = s.frontBlock :: us
  tail : ∃ us, used = us ++ [s.tailBlock]

variable {t : ℕ} {B : Block T}

theorem next_setBlock {s : State T} (h : B.next = s.next t) (b : ℕ) :
    (s.setBlock t B).next b = s.next b := by
  by_cases hb : b = t
  · subst hb
    show (Function.update s.blocks b B b).next = _
    rw [Function.update_self, h]
  · show (Function.update s.blocks t B b).next = (s.blocks b).next
    rw [Function.update_of_ne hb]

namespace Ring

variable {s s' : State T} {used free : List ℕ}

section Blocks

variable (h : Ring s used free)
include h

theorem congr (hnext : ∀ b ∈ used ++ free, s'.next b = s.next b)
    (hcount : s.blockCount ≤ s'.blockCount) (hfront : s'.frontBlock = s.frontBlock)
    (htail : s'.tailBlock = s.tailBlock) : Ring s' used free where
  circle := h.circle.congr hnext
  nodup := h.nodup
  lt := fun b hb => (h.lt b hb).trans_le hcount
  front := hfront ▸ h.front
  tail := htail ▸ h.tail

theorem front_mem : s.frontBlock ∈ used := by
  obtain ⟨us, hus⟩ := h.front
  rw [hus]
  exact List.mem_cons_self

theorem tail_mem : s.tailBlock ∈ used := by
  obtain ⟨us, hus⟩ := h.tail
  rw [hus]
  exact List.mem_append_right _ (List.mem_singleton_self _)

variable {b : ℕ}

theorem not_free (hb : b ∈ free) : b ∉ used :=
  fun hused => (List.nodup_append.1 h.nodup).2.2 b hused b hb rfl

theorem ne_front (hb : b ∉ used) : b ≠ s.frontBlock := by
  rintro rfl
  exact hb h.front_mem

theorem ne_tail (hb : b ∉ used) : b ≠ s.tailBlock := by
  rintro rfl
  exact hb h.tail_mem

theorem next_tail {l : List ℕ} (hfree : free = b :: l) : s.atTail.next = b := by
  obtain ⟨us, hus⟩ := h.tail
  have hcircle := h.circle
  rw [hus, hfree, List.append_assoc] at hcircle
  exact hcircle.next_mid

/-- If no block is free, then the front block comes after the tail block. -/
theorem next_tail_nil (hfree : free = []) : s.atTail.next = s.frontBlock := by
  obtain ⟨us, hus⟩ := h.tail
  obtain ⟨us', hus'⟩ := h.front
  have hcircle := h.circle
  rw [hfree, List.append_nil] at hcircle
  cases us with
  | nil =>
    obtain ⟨htail, rfl⟩ := List.cons.inj (hus.symm.trans hus')
    rw [hus, List.nil_append, Circle.cons_iff] at hcircle
    exact (List.cons.inj hcircle).1.trans htail
  | cons f us =>
    obtain ⟨hfront, -⟩ := List.cons.inj (hus.symm.trans hus')
    rw [hus, List.cons_append] at hcircle
    exact hcircle.next_last.trans hfront

theorem next_front {us : List ℕ} (hused : used = s.frontBlock :: b :: us) :
    s.atFront.next = b := by
  have hcircle := h.circle
  rw [hused] at hcircle
  exact hcircle.next_head

theorem front_ne_tail {us : List ℕ} (hused : used = s.frontBlock :: b :: us) :
    s.frontBlock ≠ s.tailBlock := by
  obtain ⟨us', hus'⟩ := h.tail
  have hnodup := (List.nodup_append.1 h.nodup).1
  cases us' with
  | nil =>
    rw [hused] at hus'
    exact absurd (List.cons.inj hus').2 (List.cons_ne_nil _ _)
  | cons f us' =>
    obtain ⟨hfront, hrest⟩ := List.cons.inj (hused.symm.trans hus')
    rw [hused, hrest] at hnodup
    rintro heq
    exact (List.nodup_cons.1 hnodup).1 (List.mem_append_right _ (List.mem_singleton.2 heq))

end Blocks

end Ring

/-! ### The invariant -/

/-- What the producer relies on. -/
def ProducerOk (s : State T) (used free : List ℕ) : Prop :=
  match s.producer with
  | .advancing _ => free ≠ []
  | .constructingNext _ b | .publishingNext _ b | .movingTail _ b => ∃ l, free = b :: l
  | .linking v b => b < s.blockCount ∧ b ∉ used ++ free ∧ Intact (s.blocks b) ⟨0, 0, 0, []⟩ [v] ∧
      (s.blocks b).next = s.atTail.next
  | _ => True

/-- What the consumer relies on. -/
def ConsumerOk (s : State T) (used : List ℕ) (contents : ℕ → List T) : Prop :=
  match s.consumer with
  | .comparing | .rechecking | .readingNext => ∃ b us, used = s.frontBlock :: b :: us ∧ contents s.frontBlock = []
  | .loadingNext b | .movingFront b => ∃ us, used = s.frontBlock :: b :: us ∧ contents s.frontBlock = []
  | .failed => False
  | _ => True

structure Invariant (s : State T) (used free : List ℕ) (contents : ℕ → List T) : Prop where
  ring : Ring s used free
  made : ∀ b < s.blockCount, b ∈ used ++ free ++ s.producer.apart
  size : ∃ k, s.largestBlockSize = 2 ^ (k + 1)
  intact : ∀ b ∈ used ++ free, Intact (s.blocks b) (s.view b) (contents b)
  filled : ∀ b ∈ used.tail, contents b ≠ []
  empty : ∀ b ∈ free, contents b = s.producer.early b
  middle : ∀ b ∈ used.tail.dropLast, (contents b).length = (s.blocks b).sizeMask
  tail : s.producer.sawFull = true → s.frontBlock ≠ s.tailBlock → (contents s.tailBlock).length = s.atTail.sizeMask
  producer : ProducerOk s used free
  consumer : ConsumerOk s used contents
  fifo : s.enqueued ++ s.producer.unsignalled = s.dequeued ++ s.consumer.taken ++ used.flatMap contents
  count : (used.flatMap contents).length = s.sema + s.producer.unsignalled.length + s.consumer.waited

section Frame

variable {s : State T} {used free : List ℕ} {contents : ℕ → List T}

theorem sizeMask_setBlock (h : B.sizeMask = (s.blocks t).sizeMask) (b : ℕ) :
    ((s.setBlock t B).blocks b).sizeMask = (s.blocks b).sizeMask := by
  by_cases hb : b = t
  · subst hb
    show (Function.update s.blocks b B b).sizeMask = _
    rw [Function.update_self, h]
  · show (Function.update s.blocks t B b).sizeMask = _
    rw [Function.update_of_ne hb]

theorem intact_set {r : State T} {ring : List ℕ} {xs : List T}
    (h : ∀ b ∈ ring, Intact (s.blocks b) (s.view b) (contents b)) (hblocks : r.blocks = Function.update s.blocks t B)
    (hB : t ∈ ring → Intact B (r.view t) xs) (hview : ∀ b, b ≠ t → r.view b = s.view b) :
    ∀ b ∈ ring, Intact (r.blocks b) (r.view b) (Function.update contents t xs b) := by
  intro b hb
  rw [hblocks]
  by_cases heq : b = t
  · subst heq
    rw [Function.update_self, Function.update_self]
    exact hB hb
  · rw [Function.update_of_ne heq, Function.update_of_ne heq, hview b heq]
    exact h b hb

theorem flatMap_update {l : List ℕ} (h : t ∉ l) (xs : List T) :
    l.flatMap (Function.update contents t xs) = l.flatMap contents := by
  rw [List.flatMap_def, List.flatMap_def]
  refine congrArg List.flatten (List.map_congr_left fun b hb => Function.update_of_ne ?_ _ _)
  rintro rfl
  exact h hb

/-- The consumer does not rely on what is in other blocks. -/
theorem ConsumerOk.update (h : ConsumerOk s used contents)
    (hne : ∀ b us, used = s.frontBlock :: b :: us → s.frontBlock ≠ t) (xs : List T) :
    ConsumerOk s used (Function.update contents t xs) := by
  have hsame : ∀ {b us}, used = s.frontBlock :: b :: us → contents s.frontBlock = [] →
      Function.update contents t xs s.frontBlock = [] := by
    intro b us hus hnil
    rw [Function.update_of_ne (hne b us hus), hnil]
  unfold ConsumerOk at h ⊢
  split at h
  · obtain ⟨b, us, hus, hnil⟩ := h
    exact ⟨b, us, hus, hsame hus hnil⟩
  · obtain ⟨b, us, hus, hnil⟩ := h
    exact ⟨b, us, hus, hsame hus hnil⟩
  · obtain ⟨b, us, hus, hnil⟩ := h
    exact ⟨b, us, hus, hsame hus hnil⟩
  · obtain ⟨us, hus, hnil⟩ := h
    exact ⟨us, hus, hsame hus hnil⟩
  · obtain ⟨us, hus, hnil⟩ := h
    exact ⟨us, hus, hsame hus hnil⟩
  · exact h.elim
  · trivial

theorem ConsumerOk.concat (h : ConsumerOk s used contents) (b : ℕ) : ConsumerOk s (used ++ [b]) contents := by
  unfold ConsumerOk at h ⊢
  split at h
  · obtain ⟨b', us, rfl, hnil⟩ := h
    exact ⟨b', us ++ [b], rfl, hnil⟩
  · obtain ⟨b', us, rfl, hnil⟩ := h
    exact ⟨b', us ++ [b], rfl, hnil⟩
  · obtain ⟨b', us, rfl, hnil⟩ := h
    exact ⟨b', us ++ [b], rfl, hnil⟩
  · obtain ⟨us, rfl, hnil⟩ := h
    exact ⟨us ++ [b], rfl, hnil⟩
  · obtain ⟨us, rfl, hnil⟩ := h
    exact ⟨us ++ [b], rfl, hnil⟩
  · exact h
  · trivial

/-- The producer goes on, and changes at most one block, which keeps its contents. -/
theorem Invariant.producer_step (h : Invariant s used free contents) {q : Producer T} (hq : s.producer = q)
    (p : Producer T) (t : ℕ) (B : Block T) (hnext : B.next = (s.blocks t).next)
    (hmask : B.sizeMask = (s.blocks t).sizeMask)
    (hB : t ∈ used ++ free → Intact B ⟨s.consumer.popped s.frontBlock t, s.consumer.claimed s.frontBlock t,
      p.reserved s.tailBlock t, p.pending s.tailBlock t⟩ (contents t))
    (hreserved : ∀ b, b ≠ t → p.reserved s.tailBlock b = q.reserved s.tailBlock b)
    (hpending : ∀ b, b ≠ t → p.pending s.tailBlock b = q.pending s.tailBlock b) (hearly : p.early = q.early)
    (hsignal : p.unsignalled = q.unsignalled) (hapart : p.apart = q.apart)
    (hfull : p.sawFull = false ∨ q.sawFull = true ∨
      (s.frontBlock ≠ s.tailBlock → (contents s.tailBlock).length = s.atTail.sizeMask))
    (hproducer : ProducerOk { s.setBlock t B with producer := p } used free) :
    Invariant { s.setBlock t B with producer := p } used free contents := by
  have hview : ∀ b, b ≠ t → State.view { s.setBlock t B with producer := p } b = s.view b := by
    intro b hb
    rw [State.view_of_producer hq, State.view_of_producer (p := p) rfl, ← hreserved b hb, ← hpending b hb]
    rfl
  have hintact := intact_set (r := { s.setBlock t B with producer := p }) h.intact rfl hB hview
  rw [Function.update_eq_self] at hintact
  have hempty := h.empty
  have hfifo := h.fifo
  have hcount := h.count
  rw [hq, ← hearly] at hempty
  have hmade := h.made
  have hsame : p.sawFull = true → s.frontBlock ≠ s.tailBlock → (contents s.tailBlock).length = s.atTail.sizeMask := by
    intro hp
    obtain hfalse | hold | hnew := hfull
    · exact absurd (hfalse.symm.trans hp) Bool.false_ne_true
    · exact h.tail (hq ▸ hold)
    · exact hnew
  rw [hq, ← hapart] at hmade
  rw [hq, ← hsignal] at hfifo hcount
  exact {
    ring := h.ring.congr (fun b _ => next_setBlock hnext b) le_rfl rfl rfl
    made := hmade
    size := h.size
    intact := hintact
    filled := h.filled
    empty := hempty
    middle := fun b hb => (h.middle b hb).trans (sizeMask_setBlock hmask b).symm
    tail := fun hp hne => (hsame hp hne).trans (sizeMask_setBlock hmask _).symm
    producer := hproducer
    consumer := h.consumer
    fifo := hfifo
    count := hcount }

/-- The producer goes on and changes nothing. -/
theorem Invariant.producer_move (h : Invariant s used free contents) {q : Producer T} (hq : s.producer = q)
    (p : Producer T) (hreserved : ∀ b, p.reserved s.tailBlock b = q.reserved s.tailBlock b)
    (hpending : ∀ b, p.pending s.tailBlock b = q.pending s.tailBlock b) (hearly : p.early = q.early)
    (hsignal : p.unsignalled = q.unsignalled) (hapart : p.apart = q.apart)
    (hfull : p.sawFull = false ∨ q.sawFull = true ∨
      (s.frontBlock ≠ s.tailBlock → (contents s.tailBlock).length = s.atTail.sizeMask))
    (hproducer : ProducerOk { s with producer := p } used free) : Invariant { s with producer := p } used free contents := by
  have hstep := h.producer_step hq p s.tailBlock (s.blocks s.tailBlock) rfl rfl
  rw [State.setBlock_self] at hstep
  refine hstep (fun ht => ?_) (fun b _ => hreserved b) (fun b _ => hpending b) hearly hsignal hapart hfull hproducer
  rw [hreserved, hpending, ← State.view_of_producer hq]
  exact h.intact _ ht

/-- What the producer relies on holds for other states of the consumer, too. -/
theorem ProducerOk.congr {s' : State T} (h : ProducerOk s used free) (hproducer : s'.producer = s.producer)
    (hcount : s'.blockCount = s.blockCount) (htail : s'.tailBlock = s.tailBlock)
    (hblocks : ∀ b, b ∉ used ++ free → s'.blocks b = s.blocks b)
    (hnext : ∀ b, s'.next b = s.next b) : ProducerOk s' used free := by
  unfold ProducerOk at h ⊢
  rw [hproducer]
  split at h
  · exact h
  · exact h
  · exact h
  · exact h
  · obtain ⟨hlt, hnew, hintact, hlink⟩ := h
    refine ⟨hcount ▸ hlt, hnew, ?_, ?_⟩
    · rw [hblocks _ hnew]
      exact hintact
    · show s'.next _ = s'.next s'.tailBlock
      rw [hnext, hnext, htail]
      exact hlink
  · trivial

theorem ProducerOk.moveFront {s' : State T} (h : ProducerOk s used free) (hproducer : s'.producer = s.producer)
    (hcount : s'.blockCount = s.blockCount) (htail : s'.tailBlock = s.tailBlock) (hblocks : s'.blocks = s.blocks)
    {used' l : List ℕ} (hmem : ∀ b, b ∈ used' ++ (free ++ l) → b ∈ used ++ free) : ProducerOk s' used' (free ++ l) := by
  unfold ProducerOk at h ⊢
  rw [hproducer, hcount, hblocks, State.atTail, htail, hblocks]
  split at h
  · exact List.append_ne_nil_of_left_ne_nil h _
  · obtain ⟨l', rfl⟩ := h
    exact ⟨l' ++ l, rfl⟩
  · obtain ⟨l', rfl⟩ := h
    exact ⟨l' ++ l, rfl⟩
  · obtain ⟨l', rfl⟩ := h
    exact ⟨l' ++ l, rfl⟩
  · obtain ⟨hlt, hnew, hrest⟩ := h
    exact ⟨hlt, fun hb => hnew (hmem _ hb), hrest⟩
  · trivial

/-- The consumer goes on, and changes at most one block, which keeps its contents. -/
theorem Invariant.consumer_step (h : Invariant s used free contents) {d : Consumer T} (hd : s.consumer = d)
    (c : Consumer T) (t : ℕ) (B : Block T) (ht : t ∈ used ++ free) (hnext : B.next = (s.blocks t).next)
    (hmask : B.sizeMask = (s.blocks t).sizeMask)
    (hB : Intact B ⟨c.popped s.frontBlock t, c.claimed s.frontBlock t, s.producer.reserved s.tailBlock t,
      s.producer.pending s.tailBlock t⟩ (contents t))
    (hpopped : ∀ b, b ≠ t → c.popped s.frontBlock b = d.popped s.frontBlock b)
    (hclaimed : ∀ b, b ≠ t → c.claimed s.frontBlock b = d.claimed s.frontBlock b) (htaken : c.taken = d.taken)
    (hwaited : c.waited = d.waited) (hconsumer : ConsumerOk { s.setBlock t B with consumer := c } used contents) :
    Invariant { s.setBlock t B with consumer := c } used free contents := by
  have hview : ∀ b, b ≠ t → State.view { s.setBlock t B with consumer := c } b = s.view b := by
    intro b hb
    rw [State.view_of_consumer hd, State.view_of_consumer (c := c) rfl, ← hpopped b hb, ← hclaimed b hb]
    rfl
  have hintact := intact_set (r := { s.setBlock t B with consumer := c }) h.intact rfl (fun _ => hB) hview
  rw [Function.update_eq_self] at hintact
  have hproducer : ProducerOk { s.setBlock t B with consumer := c } used free := by
    refine h.producer.congr rfl rfl rfl (fun b hb => Function.update_of_ne ?_ _ _) (next_setBlock hnext)
    rintro rfl
    exact hb ht
  have hfifo := h.fifo
  have hcount := h.count
  rw [hd, ← htaken] at hfifo
  rw [hd, ← hwaited] at hcount
  exact {
    ring := h.ring.congr (fun b _ => next_setBlock hnext b) le_rfl rfl rfl
    made := h.made
    size := h.size
    intact := hintact
    filled := h.filled
    empty := h.empty
    middle := fun b hb => (h.middle b hb).trans (sizeMask_setBlock hmask b).symm
    tail := fun hp hne => (h.tail hp hne).trans (sizeMask_setBlock hmask _).symm
    producer := hproducer
    consumer := hconsumer
    fifo := hfifo
    count := hcount }

/-- The consumer goes on and changes nothing. -/
theorem Invariant.consumer_move (h : Invariant s used free contents) {d : Consumer T} (hd : s.consumer = d)
    (c : Consumer T) (hpopped : ∀ b, c.popped s.frontBlock b = d.popped s.frontBlock b)
    (hclaimed : ∀ b, c.claimed s.frontBlock b = d.claimed s.frontBlock b) (htaken : c.taken = d.taken)
    (hwaited : c.waited = d.waited) (hconsumer : ConsumerOk { s with consumer := c } used contents) :
    Invariant { s with consumer := c } used free contents := by
  have hfront : s.frontBlock ∈ used ++ free := List.mem_append_left _ h.ring.front_mem
  have hstep := h.consumer_step hd c s.frontBlock (s.blocks s.frontBlock) hfront rfl rfl
  rw [State.setBlock_self] at hstep
  refine hstep ?_ (fun b _ => hpopped b) (fun b _ => hclaimed b) htaken hwaited hconsumer
  rw [hpopped, hclaimed, ← State.view_of_consumer hd]
  exact h.intact _ hfront

end Frame

end ReaderWriterQueue

end Bouncer
