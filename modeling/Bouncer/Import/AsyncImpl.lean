import Bouncer.Import.SceneBuilder
import Mathlib.Algebra.GroupWithZero.Nat
import Mathlib.Algebra.Order.BigOperators.Group.List

/-!
# The queue of the scene builder

`RepoSceneBuilder` pushes nodes and updates to a queue, from which another thread takes them.  Both threads keep count of
the size of what is in the queue: it is added before something is put there, and subtracted after it was taken.  If there is
too much, the first thread waits for a semaphore, which the other one releases when a message for this arrives, but it
never waits for more than a second.

Whatever the order of the steps, all that was pushed has been consumed in this order when the destructor returns, and the
size counts what is in the queue (`nothing_lost`).
-/

namespace Bouncer

open Relation (ReflTransGen)

namespace RepoSceneBuilder

namespace AsyncImpl

/-- `DEFAULT_THRESHOLD`, which the constructor sets. -/
def threshold : ℕ := 1024 * 1024 * 500

variable (U M : Type)

inductive Consumables where
  | item (i : Item U M)
  | close
  | notify

structure Consumable where
  object : Consumables U M
  size : ℕ

/-- `getSize` of the nodes.  A node is in memory, so that its size is far below the limits of `size_t` and of `long`. -/
structure NodeSizes where
  getSize : SceneNode U M → ℕ
  getSize_lt : ∀ n, getSize n < 2 ^ 63

/-- Where the first thread is: between two calls, in `push`, or in the destructor. -/
inductive Producer where
  | idle
  | checking (consumable : Consumable U M)
  | notifying (consumable : Consumable U M)
  | acquiring (consumable : Consumable U M)
  | adding (consumable : Consumable U M)
  | enqueuing (consumable : Consumable U M)
  | joining
  | returned

/-- Where the other thread is in `consumerFunction`. -/
inductive Consumer where
  | waiting
  | subtracting (consumable : Consumable U M)
  | visiting (consumable : Consumable U M)
  | stopped

/-- The threads, what they share, and which items have been pushed and consumed so far. -/
structure State where
  producer : Producer U M
  consumer : Consumer U M
  queue : List (Consumable U M)
  queueSize : ℕ
  block : ℕ
  pushed : List (Item U M)
  consumed : List (Item U M)

variable {U M}

/-- `(long)`. -/
def toLong (n : ℕ) : ℤ := Int.bmod n (2 ^ 64)

def maxQueueSize (size : ℕ) : ℕ := (max (toLong threshold - toLong size) 0).toNat

/-- An item with its size. -/
def consumable (sizes : NodeSizes U M) (i : Item U M) : Consumable U M :=
  match i with
  | .insert node => ⟨.item i, sizes.getSize node⟩
  | .update .. => ⟨.item i, 100⟩

/-- The start of `push`. -/
def push (c : Consumable U M) : Producer U M := if c.size ≠ 0 then .checking c else .adding c

/-- The visit of a message.  What becomes of the counter of the semaphore is left open (`release`), as it is by the standard if
the semaphore was released already. -/
def visit (release : ℕ → ℕ) (s : State U M) (c : Consumable U M) : State U M :=
  match c.object with
  | .item i => { s with consumer := .waiting, consumed := s.consumed ++ [i] }
  | .close => { s with consumer := .stopped }
  | .notify => { s with consumer := .waiting, block := release s.block }

/-- After a message was put in the queue. -/
def enqueued (c : Consumable U M) : Producer U M :=
  match c.object with
  | .close => .joining
  | _ => .idle

variable (sizes : NodeSizes U M) (release : ℕ → ℕ)

/-- The steps of the two threads. -/
inductive Step : State U M → State U M → Prop
  | push {s : State U M} (i : Item U M) : s.producer = .idle →
    Step s { s with producer := push (consumable sizes i), pushed := s.pushed ++ [i] }
  | destroy {s : State U M} : s.producer = .idle → Step s { s with producer := push ⟨.close, 0⟩ }
  | check {s : State U M} {c : Consumable U M} : s.producer = .checking c →
    Step s { s with producer := if s.queueSize > maxQueueSize c.size then .notifying c else .adding c }
  | notify {s : State U M} {c : Consumable U M} : s.producer = .notifying c →
    Step s { s with producer := .acquiring c, queue := s.queue ++ [⟨.notify, 0⟩] }
  | acquire {s : State U M} {c : Consumable U M} : s.producer = .acquiring c → s.block ≠ 0 →
    Step s { s with producer := .checking c, block := s.block - 1 }
  | timeout {s : State U M} {c : Consumable U M} : s.producer = .acquiring c → Step s { s with producer := .checking c }
  | add {s : State U M} {c : Consumable U M} : s.producer = .adding c →
    Step s { s with producer := .enqueuing c, queueSize := (s.queueSize + c.size) % 2 ^ 64 }
  | enqueue {s : State U M} {c : Consumable U M} : s.producer = .enqueuing c →
    Step s { s with producer := enqueued c, queue := s.queue ++ [c] }
  | join {s : State U M} : s.producer = .joining → s.consumer = .stopped → Step s { s with producer := .returned }
  | dequeue {s : State U M} {c : Consumable U M} {rest : List (Consumable U M)} : s.consumer = .waiting →
    s.queue = c :: rest → Step s { s with consumer := .subtracting c, queue := rest }
  | subtract {s : State U M} {c : Consumable U M} : s.consumer = .subtracting c →
    Step s { s with consumer := .visiting c, queueSize := (s.queueSize + (2 ^ 64 - c.size)) % 2 ^ 64 }
  | visit {s : State U M} {c : Consumable U M} : s.consumer = .visiting c → Step s (visit release s c)

/-- Any number of steps. -/
def Run : State U M → State U M → Prop := ReflTransGen (Step sizes release)

/-- An `AsyncImpl` that is new. -/
def start : State U M := ⟨.idle, .waiting, [], 0, 0, [], []⟩

/-! ### What is on its way -/

/-- The message that the first thread is pushing. -/
def offered : Producer U M → List (Consumable U M)
  | .checking c | .notifying c | .acquiring c | .adding c | .enqueuing c => [c]
  | _ => []

/-- The message that the other thread has taken. -/
def taken : Consumer U M → List (Consumable U M)
  | .subtracting c | .visiting c => [c]
  | _ => []

/-- What is counted and not in the queue yet. -/
def reserved : Producer U M → ℕ
  | .enqueuing c => c.size
  | _ => 0

/-- What is counted and not in the queue any more. -/
def counted : Consumer U M → ℕ
  | .subtracting c => c.size
  | _ => 0

def items (cs : List (Consumable U M)) : List (Item U M) :=
  cs.filterMap fun c => match c.object with
    | .item i => some i
    | _ => none

private theorem items_append (cs cs' : List (Consumable U M)) : items (cs ++ cs') = items cs ++ items cs' :=
  List.filterMap_append

/-- How many messages ask for a release of the semaphore. -/
def notifies (cs : List (Consumable U M)) : ℕ :=
  cs.countP fun c => match c.object with
    | .notify => true
    | _ => false

theorem notifies_append (cs cs' : List (Consumable U M)) : notifies (cs ++ cs') = notifies cs + notifies cs' :=
  List.countP_append

theorem notifies_cons (c : Consumable U M) (cs : List (Consumable U M)) : notifies (c :: cs) = notifies [c] + notifies cs :=
  notifies_append [c] cs

def totalSize (cs : List (Consumable U M)) : ℕ := (cs.map Consumable.size).sum

private theorem totalSize_append (cs cs' : List (Consumable U M)) : totalSize (cs ++ cs') = totalSize cs + totalSize cs' := by
  rw [totalSize, List.map_append, List.sum_append]
  rfl

/-- No more than the threshold, or than the largest item. -/
def Within (pushed : List (Item U M)) (n : ℕ) : Prop := n ≤ threshold ∨ ∃ i ∈ pushed, n ≤ (consumable sizes i).size

variable {sizes} {release}

variable (sizes) in
private theorem size_consumable_lt (i : Item U M) : (consumable sizes i).size < 2 ^ 63 := by
  cases i with
  | insert node => exact sizes.getSize_lt node
  | update k ps =>
    change 100 < 2 ^ 63
    decide

private theorem items_consumable (i : Item U M) : items [consumable sizes i] = [i] := by
  cases i <;> rfl

theorem Within.lt {pushed : List (Item U M)} {n : ℕ} (h : Within sizes pushed n) : n < 2 ^ 63 := by
  rcases h with h | ⟨i, -, h⟩
  · unfold threshold at h
    omega
  · exact lt_of_le_of_lt h (size_consumable_lt sizes i)

theorem Within.mono {pushed pushed' : List (Item U M)} {m n : ℕ} (h : Within sizes pushed n) (hmn : m ≤ n)
    (hsub : ∀ i ∈ pushed, i ∈ pushed') : Within sizes pushed' m := by
  rcases h with h | ⟨i, hi, h⟩
  · exact .inl (hmn.trans h)
  · exact .inr ⟨i, hsub i hi, hmn.trans h⟩

private theorem Within.add {pushed : List (Item U M)} {i : Item U M} (hi : i ∈ pushed) {n : ℕ}
    (h : n ≤ maxQueueSize (consumable sizes i).size) : Within sizes pushed (n + (consumable sizes i).size) := by
  have hlt := size_consumable_lt sizes i
  have hthreshold : toLong threshold = threshold := by decide
  have hsize : toLong (consumable sizes i).size = (consumable sizes i).size := by
    unfold toLong
    apply Int.bmod_eq_of_le <;> omega
  unfold maxQueueSize at h
  rw [hthreshold, hsize] at h
  rcases le_total (consumable sizes i).size threshold with hle | hle
  · left
    omega
  · right
    exact ⟨i, hi, by omega⟩

/-- What is counted, and in which order the items are. -/
structure Accounted (sizes : NodeSizes U M) (s : State U M) : Prop where
  order : s.consumed ++ items (taken s.consumer ++ s.queue ++ offered s.producer) = s.pushed
  size : s.queueSize = counted s.consumer + totalSize s.queue + reserved s.producer
  within : Within sizes s.pushed s.queueSize
  room : ∀ c, s.producer = .adding c → Within sizes s.pushed (s.queueSize + c.size)
  offered : ∀ c ∈ offered s.producer, c = ⟨.close, 0⟩ ∨ ∃ i ∈ s.pushed, c = consumable sizes i

private theorem accounted_start : Accounted sizes (start : State U M) where
  order := rfl
  size := rfl
  within := .inl (Nat.zero_le _)
  room := nofun
  offered := nofun

variable {s s' : State U M}

section Accounts

variable (h : Accounted sizes s)
include h

private theorem Accounted.go_on {producer : Producer U M} (block : ℕ)
    (hoffered : AsyncImpl.offered producer = AsyncImpl.offered s.producer)
    (hreserved : reserved producer = reserved s.producer)
    (hroom : ∀ c, producer = .adding c → Within sizes s.pushed (s.queueSize + c.size)) :
    Accounted sizes { s with producer := producer, block := block } where
  order := by
    rw [← h.order, ← hoffered]
  size := by
    rw [h.size, ← hreserved]
  within := h.within
  room := hroom
  offered c hc := h.offered c (hoffered ▸ hc)

/-- The first thread starts to push something. -/
theorem Accounted.push (hidle : s.producer = .idle) (c : Consumable U M) (more : List (Item U M))
    (hitems : items [c] = more) (hc : c = ⟨.close, 0⟩ ∨ ∃ i ∈ more, c = consumable sizes i) :
    Accounted sizes { s with producer := AsyncImpl.push c, pushed := s.pushed ++ more } := by
  have hoffered : AsyncImpl.offered (AsyncImpl.push c) = [c] := by
    unfold AsyncImpl.push
    split <;> rfl
  have hreserved : reserved (AsyncImpl.push c) = 0 := by
    unfold AsyncImpl.push
    split <;> rfl
  have hsub : ∀ i ∈ s.pushed, i ∈ s.pushed ++ more := fun i hi => List.mem_append_left _ hi
  constructor
  · have horder := h.order
    rw [hidle] at horder
    change s.consumed ++ items (taken s.consumer ++ s.queue ++ []) = s.pushed at horder
    rw [List.append_nil] at horder
    rw [hoffered, items_append, ← List.append_assoc, horder, hitems]
  · rw [h.size, hidle, hreserved]
    rfl
  · exact h.within.mono le_rfl hsub
  · intro c' hc'
    have hzero : c'.size = 0 := by
      unfold AsyncImpl.push at hc'
      split at hc'
      · cases hc'
      · rename_i hsize
        obtain rfl := Producer.adding.inj hc'
        exact not_not.mp hsize
    rw [hzero]
    exact h.within.mono le_rfl hsub
  · intro c' hc'
    rw [hoffered, List.mem_singleton] at hc'
    obtain rfl := hc'
    rcases hc with hclose | ⟨i, hi, hc⟩
    · exact .inl hclose
    · exact .inr ⟨i, List.mem_append_right _ hi, hc⟩

variable {c : Consumable U M}

theorem Accounted.check (hchecking : s.producer = .checking c) :
    Accounted sizes
      { s with producer := if s.queueSize > maxQueueSize c.size then .notifying c else .adding c } := by
  have hoffered := h.offered
  rw [hchecking] at hoffered
  split
  · exact h.go_on s.block (by rw [hchecking]; rfl) (by rw [hchecking]; rfl) nofun
  · rename_i hsize
    refine h.go_on s.block (by rw [hchecking]; rfl) (by rw [hchecking]; rfl) ?_
    intro c' hc'
    obtain rfl := Producer.adding.inj hc'
    rcases hoffered _ (List.mem_singleton_self _) with rfl | ⟨i, hi, rfl⟩
    · exact h.within
    · exact Within.add hi (Nat.not_lt.mp hsize)

theorem Accounted.notify (hnotifying : s.producer = .notifying c) :
    Accounted sizes { s with producer := .acquiring c, queue := s.queue ++ [⟨.notify, 0⟩] } := by
  obtain ⟨horder, hsize, hwithin, -, hoffered⟩ := h
  rw [hnotifying] at horder hsize hoffered
  constructor
  · rw [← horder, items_append, items_append, items_append, items_append, items_append]
    exact congrArg (fun l => s.consumed ++ (l ++ _)) (congrArg _ (List.append_nil _))
  · rw [hsize, totalSize_append]
    rfl
  · exact hwithin
  · exact nofun
  · exact hoffered

theorem Accounted.add (hadding : s.producer = .adding c) :
    Accounted sizes { s with producer := .enqueuing c, queueSize := (s.queueSize + c.size) % 2 ^ 64 } := by
  have hroom := h.room c hadding
  have hmod : (s.queueSize + c.size) % 2 ^ 64 = s.queueSize + c.size := by
    apply Nat.mod_eq_of_lt
    have hlt := hroom.lt
    omega
  obtain ⟨horder, hsize, -, -, hoffered⟩ := h
  rw [hadding] at horder hsize hoffered
  rw [hmod]
  constructor
  · exact horder
  · rw [hsize]
    rfl
  · exact hroom
  · exact nofun
  · exact hoffered

theorem Accounted.enqueue (henqueuing : s.producer = .enqueuing c) :
    Accounted sizes { s with producer := enqueued c, queue := s.queue ++ [c] } := by
  obtain ⟨horder, hsize, hwithin, -, -⟩ := h
  rw [henqueuing] at horder hsize
  have hoffered : AsyncImpl.offered (enqueued c) = [] := by
    unfold enqueued
    split <;> rfl
  have hreserved : reserved (enqueued c) = 0 := by
    unfold enqueued
    split <;> rfl
  constructor
  · rw [← horder, hoffered, List.append_nil, List.append_assoc]
    rfl
  · rw [hsize, hreserved, totalSize_append]
    exact Nat.add_assoc _ _ _
  · exact hwithin
  · intro c' hc'
    unfold enqueued at hc'
    split at hc' <;> cases hc'
  · intro c' hc'
    rw [hoffered] at hc'
    cases hc'

variable {rest : List (Consumable U M)}

theorem Accounted.dequeue
    (hwaiting : s.consumer = .waiting) (hqueue : s.queue = c :: rest) :
    Accounted sizes { s with consumer := .subtracting c, queue := rest } := by
  obtain ⟨horder, hsize, hwithin, hroom, hoffered⟩ := h
  rw [hwaiting, hqueue] at horder hsize
  constructor
  · exact horder
  · rw [hsize]
    change 0 + (c.size + totalSize rest) + _ = c.size + totalSize rest + _
    rw [Nat.zero_add]
  · exact hwithin
  · exact hroom
  · exact hoffered

theorem Accounted.subtract (hsubtracting : s.consumer = .subtracting c) :
    Accounted sizes { s with consumer := .visiting c, queueSize := (s.queueSize + (2 ^ 64 - c.size)) % 2 ^ 64 } := by
  have hlt := h.within.lt
  obtain ⟨horder, hsize, hwithin, hroom, hoffered⟩ := h
  rw [hsubtracting] at horder hsize
  have hle : c.size ≤ s.queueSize := by
    rw [hsize, counted]
    omega
  have hmod : (s.queueSize + (2 ^ 64 - c.size)) % 2 ^ 64 = s.queueSize - c.size := by
    omega
  rw [hmod]
  constructor
  · exact horder
  · change s.queueSize - c.size = 0 + totalSize s.queue + reserved s.producer
    rw [hsize, counted]
    omega
  · exact hwithin.mono (Nat.sub_le _ _) fun _ hi => hi
  · intro c' hc'
    apply (hroom c' hc').mono _ fun _ hi => hi
    change s.queueSize - c.size + c'.size ≤ s.queueSize + c'.size
    omega
  · exact hoffered

theorem Accounted.visit (hvisiting : s.consumer = .visiting c) :
    Accounted sizes (AsyncImpl.visit release s c) := by
  obtain ⟨horder, hsize, hwithin, hroom, hoffered⟩ := h
  rw [hvisiting] at horder hsize
  obtain ⟨object, size⟩ := c
  cases object with
  | item i =>
    refine ⟨?_, hsize, hwithin, hroom, hoffered⟩
    exact (List.append_assoc _ _ _).trans horder
  | close => exact ⟨horder, hsize, hwithin, hroom, hoffered⟩
  | notify => exact ⟨horder, hsize, hwithin, hroom, hoffered⟩

private theorem Accounted.step (hstep : Step sizes release s s') : Accounted sizes s' := by
  cases hstep with
  | push i hidle =>
    apply h.push hidle _ _ (items_consumable i)
    exact .inr ⟨i, List.mem_singleton_self i, rfl⟩
  | destroy hidle =>
    have hclose := h.push hidle ⟨.close, 0⟩ [] rfl (.inl rfl)
    rwa [List.append_nil] at hclose
  | check hchecking => exact h.check hchecking
  | notify hnotifying => exact h.notify hnotifying
  | acquire hacquiring => exact h.go_on _ (by rw [hacquiring]; rfl) (by rw [hacquiring]; rfl) nofun
  | timeout hacquiring => exact h.go_on s.block (by rw [hacquiring]; rfl) (by rw [hacquiring]; rfl) nofun
  | add hadding => exact h.add hadding
  | enqueue henqueuing => exact h.enqueue henqueuing
  | join hjoining => exact h.go_on s.block (by rw [hjoining]; rfl) (by rw [hjoining]; rfl) nofun
  | dequeue hwaiting hqueue => exact h.dequeue hwaiting hqueue
  | subtract hsubtracting => exact h.subtract hsubtracting
  | visit hvisiting => exact h.visit hvisiting

end Accounts

theorem Run.accounted (h : Run sizes release start s) : Accounted sizes s := by
  induction h with
  | refl => exact accounted_start
  | tail _ hstep ih => exact ih.step hstep

/-! ### The end -/

/-- The first thread has sent the message that ends the other one. -/
def Closed : Producer U M → Prop
  | .joining | .returned => True
  | _ => False

/-- What the other thread still gets. -/
def flight (s : State U M) : List (Consumable U M) := taken s.consumer ++ s.queue

/-- The message that ends the other thread is the last one. -/
structure Closing (s : State U M) : Prop where
  pending : ¬ Closed s.producer → s.consumer ≠ .stopped ∧ ∀ c ∈ flight s, c.object ≠ .close
  closed : Closed s.producer → (s.consumer = .stopped ∧ s.queue = []) ∨
    (s.consumer ≠ .stopped ∧ ∃ first : List (Consumable U M),
      flight s = first ++ [⟨.close, 0⟩] ∧ ∀ c ∈ first, c.object ≠ .close)
  returned : s.producer = .returned → s.consumer = .stopped

private theorem closing_start : Closing (start : State U M) where
  pending _ := ⟨nofun, nofun⟩
  closed := nofun
  returned := nofun

theorem Closing.of_pending (hclosed : ¬ Closed s.producer) (hconsumer : s.consumer ≠ .stopped)
    (hflight : ∀ c ∈ flight s, c.object ≠ .close) : Closing s where
  pending _ := ⟨hconsumer, hflight⟩
  closed h := absurd h hclosed
  returned h := by
    rw [h] at hclosed
    exact absurd trivial hclosed

private theorem Closing.go_on (h : Closing s) (hpending : ¬ Closed s.producer) (hproducer : ¬ Closed s'.producer)
    (hconsumer : s'.consumer = s.consumer) (hqueue : ∀ c ∈ s'.queue, c ∈ s.queue ∨ c.object ≠ .close) : Closing s' := by
  obtain ⟨hstopped, hflight⟩ := h.pending hpending
  apply Closing.of_pending hproducer (by rwa [hconsumer])
  intro c hc
  rw [flight, hconsumer, List.mem_append] at hc
  rcases hc with hc | hc
  · exact hflight c (List.mem_append_left _ hc)
  · rcases hqueue c hc with hc | hc
    · exact hflight c (List.mem_append_right _ hc)
    · exact hc

private theorem Closing.same (h : Closing s) (hproducer : s'.producer = s.producer) (hconsumer : s.consumer ≠ .stopped)
    (hconsumer' : s'.consumer ≠ .stopped) (hflight : flight s' = flight s) : Closing s' where
  pending hpending := by
    rw [hproducer] at hpending
    rw [hflight]
    exact ⟨hconsumer', (h.pending hpending).2⟩
  closed hclosed := by
    rw [hproducer] at hclosed
    rcases h.closed hclosed with ⟨hstopped, -⟩ | ⟨-, hfirst⟩
    · exact absurd hstopped hconsumer
    · rw [hflight]
      exact .inr ⟨hconsumer', hfirst⟩
  returned hreturned := absurd (h.returned (hproducer ▸ hreturned)) hconsumer

theorem Closing.enqueue (h : Closing s) (haccounted : Accounted sizes s)
    (henqueuing : s.producer = .enqueuing c) :
    Closing { s with producer := enqueued c, queue := s.queue ++ [c] } := by
  have hpending : ¬ Closed s.producer := by
    rw [henqueuing]
    exact id
  obtain ⟨hstopped, hflight⟩ := h.pending hpending
  have hoffered := haccounted.offered
  rw [henqueuing] at hoffered
  rcases hoffered c (List.mem_singleton_self c) with rfl | ⟨i, -, rfl⟩
  · refine ⟨fun hnot => absurd trivial hnot, fun _ => .inr ⟨hstopped, flight s, ?_, hflight⟩, nofun⟩
    exact (List.append_assoc _ _ _).symm
  · have hitem : enqueued (consumable sizes i) = .idle := by
      cases i <;> rfl
    refine h.go_on hpending ?_ ?_ ?_
    · rw [hitem]
      exact id
    · rfl
    · intro c hc
      rcases List.mem_append.mp hc with hc | hc
      · exact .inl hc
      · right
        rw [List.mem_singleton.mp hc]
        cases i <;> nofun

theorem producer_visit (release : ℕ → ℕ) (s : State U M) (c : Consumable U M) :
    (AsyncImpl.visit release s c).producer = s.producer := by
  unfold AsyncImpl.visit
  split <;> rfl

theorem Closing.visit (h : Closing s) (hvisiting : s.consumer = .visiting c) :
    Closing (AsyncImpl.visit release s c) := by
  have hflight : flight s = c :: s.queue := by
    rw [flight, hvisiting]
    rfl
  have hstopped : s.consumer ≠ .stopped := by
    rw [hvisiting]
    exact nofun
  have hproducer := producer_visit release s c
  -- all messages but the last one
  have hnext : c.object ≠ .close → (AsyncImpl.visit release s c).consumer = .waiting →
      flight (AsyncImpl.visit release s c) = s.queue → Closing (AsyncImpl.visit release s c) := by
    intro hobject hwaiting hqueue
    refine ⟨?_, ?_, ?_⟩
    · intro hpending
      rw [hproducer] at hpending
      rw [hwaiting, hqueue]
      refine ⟨nofun, fun c' hc' => (h.pending hpending).2 c' ?_⟩
      rw [hflight]
      exact List.mem_cons_of_mem _ hc'
    · intro hclosed
      rw [hproducer] at hclosed
      rcases h.closed hclosed with ⟨hstop, -⟩ | ⟨-, first, hfirst, hnot⟩
      · exact absurd hstop hstopped
      · rw [hflight] at hfirst
        cases first with
        | nil =>
          obtain ⟨rfl, -⟩ := List.cons.inj hfirst
          exact absurd rfl hobject
        | cons c' first =>
          obtain ⟨-, hrest⟩ := List.cons.inj hfirst
          rw [hwaiting, hqueue]
          exact .inr ⟨nofun, first, hrest, fun c hc => hnot c (List.mem_cons_of_mem _ hc)⟩
    · intro hreturned
      exact absurd (h.returned (hproducer ▸ hreturned)) hstopped
  obtain ⟨object, size⟩ := c
  cases object with
  | item i => exact hnext nofun rfl rfl
  | notify => exact hnext nofun rfl rfl
  | close =>
    refine ⟨?_, ?_, fun _ => rfl⟩
    · intro hpending
      apply absurd rfl
      apply (h.pending hpending).2 ⟨.close, size⟩
      rw [hflight]
      exact List.mem_cons_self
    · intro hclosed
      rcases h.closed hclosed with ⟨hstop, -⟩ | ⟨-, first, hfirst, hnot⟩
      · exact absurd hstop hstopped
      · rw [hflight] at hfirst
        cases first with
        | nil => exact .inl ⟨rfl, (List.cons.inj hfirst).2⟩
        | cons c' first =>
          obtain ⟨rfl, -⟩ := List.cons.inj hfirst
          exact absurd rfl (hnot _ List.mem_cons_self)

/-- What one step preserves. -/
theorem Closing.step (h : Closing s) (haccounted : Accounted sizes s) (hstep : Step sizes release s s') : Closing s' := by
  have hpush : ∀ c : Consumable U M, ¬ Closed (push c) := by
    intro c
    unfold push
    split <;> exact id
  cases hstep with
  | push i hidle => exact h.go_on (by rw [hidle]; exact id) (hpush _) rfl fun c hc => .inl hc
  | destroy hidle => exact h.go_on (by rw [hidle]; exact id) (hpush ⟨.close, 0⟩) rfl fun c hc => .inl hc
  | check hchecking =>
    refine h.go_on (by rw [hchecking]; exact id) ?_ rfl fun c hc => .inl hc
    change ¬ Closed (if _ then _ else _)
    split <;> exact id
  | notify hnotifying =>
    refine h.go_on (by rw [hnotifying]; exact id) id rfl ?_
    intro c hc
    rcases List.mem_append.mp hc with hc | hc
    · exact .inl hc
    · rw [List.mem_singleton.mp hc]
      exact .inr nofun
  | acquire hacquiring => exact h.go_on (by rw [hacquiring]; exact id) id rfl fun c hc => .inl hc
  | timeout hacquiring => exact h.go_on (by rw [hacquiring]; exact id) id rfl fun c hc => .inl hc
  | add hadding => exact h.go_on (by rw [hadding]; exact id) id rfl fun c hc => .inl hc
  | enqueue henqueuing => exact h.enqueue haccounted henqueuing
  | join hjoining hstopped =>
    refine ⟨fun hnot => absurd trivial hnot, ?_, fun _ => hstopped⟩
    intro _
    exact h.closed (by rw [hjoining]; trivial)
  | dequeue hwaiting hqueue =>
    refine h.same ?_ (by rw [hwaiting]; exact nofun) ?_ ?_
    · rfl
    · exact nofun
    · rw [flight, flight, hwaiting, hqueue]
      rfl
  | subtract hsubtracting =>
    refine h.same ?_ (by rw [hsubtracting]; exact nofun) ?_ ?_
    · rfl
    · exact nofun
    · rw [flight, flight, hsubtracting]
      rfl
  | visit hvisiting => exact h.visit hvisiting

theorem Run.closing (h : Run sizes release start s) : Closing s := by
  induction h with
  | refl => exact closing_start
  | tail hrun hstep ih => exact ih.step (Run.accounted hrun) hstep

/-! ### The destructor can return -/

theorem Run.head {s₁ : State U M} (hstep : Step sizes release s s₁) (h : Run sizes release s₁ s') :
    Run sizes release s s' := ReflTransGen.head hstep h

variable (sizes release) in
/-- The other thread gets to the visit of its next message. -/
theorem exists_visiting (hstopped : s.consumer ≠ .stopped)
    (hflight : flight s = c :: rest) :
    ∃ t, Run sizes release s t ∧ t.producer = s.producer ∧ t.consumer = .visiting c ∧ t.queue = rest ∧
      t.block = s.block := by
  have hsubtracting : ∀ u : State U M, u.consumer = .subtracting c → u.queue = rest →
      ∃ t, Run sizes release u t ∧ t.producer = u.producer ∧ t.consumer = .visiting c ∧ t.queue = rest ∧
        t.block = u.block :=
    fun u hu hqueue => ⟨_, ReflTransGen.single (.subtract hu), rfl, rfl, hqueue, rfl⟩
  cases hconsumer : s.consumer with
  | waiting =>
    rw [flight, hconsumer] at hflight
    obtain ⟨t, ht, hrest⟩ := hsubtracting { s with consumer := .subtracting c, queue := rest } rfl rfl
    exact ⟨t, Run.head (.dequeue hconsumer hflight) ht, hrest⟩
  | subtracting c' =>
    rw [flight, hconsumer] at hflight
    obtain ⟨rfl, hqueue⟩ := List.cons.inj hflight
    exact hsubtracting s hconsumer hqueue
  | visiting c' =>
    rw [flight, hconsumer] at hflight
    obtain ⟨rfl, hqueue⟩ := List.cons.inj hflight
    exact ⟨s, ReflTransGen.refl, rfl, hconsumer, hqueue, rfl⟩
  | stopped => exact absurd hconsumer hstopped

variable (sizes release) in
private theorem exists_visited (hstopped : s.consumer ≠ .stopped)
    (hflight : flight s = c :: rest) (hc : c.object ≠ .close) :
    ∃ t, Run sizes release s t ∧ t.producer = s.producer ∧ t.consumer ≠ .stopped ∧ flight t = rest ∧
      t.block = release^[notifies [c]] s.block := by
  obtain ⟨t, ht, hproducer, hvisiting, hqueue, hblock⟩ := exists_visiting sizes release hstopped hflight
  refine ⟨visit release t c, ReflTransGen.tail ht (.visit hvisiting), ?_⟩
  obtain ⟨object, size⟩ := c
  cases object with
  | item i => exact ⟨hproducer, nofun, hqueue, hblock⟩
  | notify => exact ⟨hproducer, nofun, hqueue, congrArg release hblock⟩
  | close => exact absurd rfl hc

variable (sizes release) in
/-- The other thread takes all that comes first. -/
theorem exists_drained {first rest : List (Consumable U M)} (hstopped : s.consumer ≠ .stopped)
    (hflight : flight s = first ++ rest) (hfirst : ∀ c ∈ first, c.object ≠ .close) :
    ∃ t, Run sizes release s t ∧ t.producer = s.producer ∧ t.consumer ≠ .stopped ∧ flight t = rest ∧
      t.block = release^[notifies first] s.block := by
  induction first generalizing s with
  | nil => exact ⟨s, ReflTransGen.refl, rfl, hstopped, hflight, rfl⟩
  | cons c first ih =>
    obtain ⟨u, hu, hproducer, hstopped', hflight', hblock⟩ := exists_visited sizes release hstopped hflight
      (hfirst c List.mem_cons_self)
    obtain ⟨t, ht, hproducer', hstopped'', hrest, hblock'⟩ :=
      ih hstopped' hflight' fun c hc => hfirst c (List.mem_cons_of_mem _ hc)
    refine ⟨t, ReflTransGen.trans hu ht, hproducer'.trans hproducer, hstopped'', hrest, ?_⟩
    rw [hblock', hblock, notifies_cons c first, Nat.add_comm, Function.iterate_add_apply]

/-- The destructor can return. -/
def Returns (sizes : NodeSizes U M) (release : ℕ → ℕ) (s : State U M) : Prop :=
  ∃ t, Run sizes release s t ∧ t.producer = .returned

theorem Returns.of_run (hrun : Run sizes release s s') (h : Returns sizes release s') : Returns sizes release s := by
  obtain ⟨t, ht, hreturned⟩ := h
  exact ⟨t, ReflTransGen.trans hrun ht, hreturned⟩

theorem Returns.of_step (hstep : Step sizes release s s') (h : Returns sizes release s') : Returns sizes release s :=
  h.of_run (ReflTransGen.single hstep)

private theorem returns_of_stopped (hjoining : s.producer = .joining) (hstopped : s.consumer = .stopped) :
    Returns sizes release s :=
  ⟨_, ReflTransGen.single (.join hjoining hstopped), rfl⟩

private theorem returns_of_joining (hclosing : Closing s) (hjoining : s.producer = .joining) : Returns sizes release s := by
  have hclosed : Closed s.producer := by
    rw [hjoining]
    trivial
  rcases hclosing.closed hclosed with ⟨hstopped, -⟩ | ⟨hstopped, first, hflight, hfirst⟩
  · exact returns_of_stopped hjoining hstopped
  · obtain ⟨u, hu, hproducer, hstopped', hflight', -⟩ :=
      exists_drained sizes release hstopped hflight hfirst
    obtain ⟨t, ht, hproducer', hvisiting, -⟩ := exists_visiting sizes release hstopped' hflight'
    apply Returns.of_run hu
    apply Returns.of_run ht
    apply Returns.of_step (.visit hvisiting)
    exact returns_of_stopped ((hproducer'.trans hproducer).trans hjoining) rfl

private theorem returns_of_enqueuing_close (hclosing : Closing s) (haccounted : Accounted sizes s)
    (henqueuing : s.producer = .enqueuing ⟨.close, 0⟩) : Returns sizes release s :=
  Returns.of_step (.enqueue henqueuing) (returns_of_joining (hclosing.enqueue haccounted henqueuing) rfl)

private theorem returns_of_adding_close (hclosing : Closing s) (haccounted : Accounted sizes s)
    (hadding : s.producer = .adding ⟨.close, 0⟩) : Returns sizes release s := by
  have hstep : Step sizes release s _ := .add hadding
  exact Returns.of_step hstep
    (returns_of_enqueuing_close (hclosing.step haccounted hstep) (haccounted.step hstep) rfl)

private theorem returns_of_idle (hclosing : Closing s) (haccounted : Accounted sizes s) (hidle : s.producer = .idle) :
    Returns sizes release s := by
  have hstep : Step sizes release s _ := .destroy hidle
  exact Returns.of_step hstep (returns_of_adding_close (hclosing.step haccounted hstep) (haccounted.step hstep) rfl)

private theorem returns_of_enqueuing (hclosing : Closing s) (haccounted : Accounted sizes s)
    (henqueuing : s.producer = .enqueuing c) : Returns sizes release s := by
  have hoffered := haccounted.offered
  rw [henqueuing] at hoffered
  rcases hoffered c (List.mem_singleton_self c) with rfl | ⟨i, -, rfl⟩
  · exact returns_of_enqueuing_close hclosing haccounted henqueuing
  · have hstep : Step sizes release s _ := .enqueue henqueuing
    apply Returns.of_step hstep
    apply returns_of_idle (hclosing.step haccounted hstep) (haccounted.step hstep)
    cases i <;> rfl

private theorem returns_of_adding (hclosing : Closing s) (haccounted : Accounted sizes s)
    (hadding : s.producer = .adding c) : Returns sizes release s := by
  have hstep : Step sizes release s _ := .add hadding
  exact Returns.of_step hstep (returns_of_enqueuing (hclosing.step haccounted hstep) (haccounted.step hstep) rfl)

/-- The first thread waits no more when the queue is empty. -/
theorem returns_of_checking (hclosing : Closing s) (haccounted : Accounted sizes s)
    (hchecking : s.producer = .checking c) : Returns sizes release s := by
  have hpending : ¬ Closed s.producer := by
    rw [hchecking]
    exact id
  obtain ⟨hstopped, hfirst⟩ := hclosing.pending hpending
  obtain ⟨t, ht, hproducer, -, hflight, -⟩ := exists_drained sizes release hstopped
    (List.append_nil (flight s)).symm hfirst
  have hboth : Accounted sizes t ∧ Closing t := by
    clear hproducer hflight
    induction ht with
    | refl => exact ⟨haccounted, hclosing⟩
    | tail _ hstep ih => exact ⟨ih.1.step hstep, ih.2.step ih.1 hstep⟩
  have hempty : t.queueSize = 0 := by
    obtain ⟨htaken, hqueue⟩ := List.append_eq_nil_iff.mp hflight
    rw [hboth.1.size, hqueue, hproducer, hchecking]
    cases hconsumer : t.consumer with
    | subtracting c' =>
      rw [hconsumer] at htaken
      cases htaken
    | _ => rfl
  have hstep : Step sizes release t _ := .check (hproducer.trans hchecking)
  rw [hempty, if_neg (Nat.not_lt_zero _)] at hstep
  apply Returns.of_run ht
  exact Returns.of_step hstep (returns_of_adding (hboth.2.step hboth.1 hstep) (hboth.1.step hstep) rfl)

private theorem returns_of_acquiring (hclosing : Closing s) (haccounted : Accounted sizes s)
    (hacquiring : s.producer = .acquiring c) : Returns sizes release s := by
  have hstep : Step sizes release s _ := .timeout hacquiring
  exact Returns.of_step hstep (returns_of_checking (hclosing.step haccounted hstep) (haccounted.step hstep) rfl)

private theorem returns (hclosing : Closing s) (haccounted : Accounted sizes s) : Returns sizes release s := by
  cases hproducer : s.producer with
  | idle => exact returns_of_idle hclosing haccounted hproducer
  | checking c => exact returns_of_checking hclosing haccounted hproducer
  | notifying c =>
    have hstep : Step sizes release s _ := .notify hproducer
    exact Returns.of_step hstep (returns_of_acquiring (hclosing.step haccounted hstep) (haccounted.step hstep) rfl)
  | acquiring c => exact returns_of_acquiring hclosing haccounted hproducer
  | adding c => exact returns_of_adding hclosing haccounted hproducer
  | enqueuing c => exact returns_of_enqueuing hclosing haccounted hproducer
  | joining => exact returns_of_joining hclosing hproducer
  | returned => exact ⟨s, ReflTransGen.refl, hproducer⟩

/-! ### Nothing is lost -/

private theorem Run.consumed_eq (h : Run sizes release start s) (hreturned : s.producer = .returned) : s.consumed = s.pushed := by
  have hstopped := h.closing.returned hreturned
  have hclosed : Closed s.producer := by
    rw [hreturned]
    trivial
  rcases h.closing.closed hclosed with ⟨-, hqueue⟩ | ⟨hnot, -⟩
  · rw [← h.accounted.order, hstopped, hqueue, hreturned]
    exact (List.append_nil _).symm
  · exact absurd hstopped hnot

/-- What the calls of the builder push is what is committed. -/
theorem Run.committed_eq [DecidableEq U] (h : Run sizes release start s) (hreturned : s.producer = .returned)
    {fields : MaterialFields M} {isOpen : String → Bool} {iteration : Iteration (NodeId U × Finset (NodeId U))}
    {calls : List (Call U M)}
    (hpushed : s.pushed = (commit iteration (calls.foldl (call fields isOpen iteration) RepoSceneBuilder.start).2).queue) :
    parentsSet.records s.consumed = committed fields isOpen iteration calls := by
  rw [h.consumed_eq hreturned, hpushed]
  rfl

/-- In every state, what was consumed is the beginning of what was pushed, and when the destructor has returned, it is all of
it.  The counter is the size of what is in the queue, but for a message that is just being put there or was just taken, it
never wraps around, and it never exceeds the larger of the threshold and the largest item.  The destructor can return
from every state. -/
theorem nothing_lost (sizes : NodeSizes U M) (release : ℕ → ℕ) (s : State U M) (h : Run sizes release start s) :
    s.consumed <+: s.pushed ∧
    (s.producer = .returned → s.consumed = s.pushed) ∧
    (∀ c, s.consumer = .subtracting c → c.size ≤ s.queueSize) ∧
    (∀ c, s.producer = .adding c → s.queueSize + c.size < 2 ^ 64) ∧
    ((∀ c, s.producer ≠ .enqueuing c) → (∀ c, s.consumer ≠ .subtracting c) → s.queueSize = totalSize s.queue) ∧
    (s.queueSize ≤ threshold ∨ ∃ i ∈ s.pushed, s.queueSize ≤ (consumable sizes i).size) ∧
    ∃ t, Run sizes release s t ∧ t.producer = .returned := by
  have haccounted := h.accounted
  have hclosing := h.closing
  refine ⟨⟨_, haccounted.order⟩, ?_, ?_, ?_, ?_, haccounted.within, returns hclosing haccounted⟩
  · exact h.consumed_eq
  · intro c hsubtracting
    rw [haccounted.size, hsubtracting, counted]
    omega
  · intro c hadding
    have hlt := (haccounted.room c hadding).lt
    omega
  · intro hproducer hconsumer
    have hreserved : reserved s.producer = 0 := by
      cases hp : s.producer with
      | enqueuing c => exact absurd hp (hproducer c)
      | _ => rfl
    have hcounted : counted s.consumer = 0 := by
      cases hc : s.consumer with
      | subtracting c => exact absurd hc (hconsumer c)
      | _ => rfl
    rw [haccounted.size, hreserved, hcounted, Nat.zero_add, Nat.add_zero]

/-- One item is pushed, and the destructor returns. -/
theorem nothing_lost_one :
    let node : SceneNode ℕ ℕ := ⟨.given 0, .given 1, ∅, .other⟩
    let sizes : NodeSizes ℕ ℕ := ⟨fun _ => 48, fun _ => by decide⟩
    ∃ s : State ℕ ℕ, Run sizes Nat.succ start s ∧ s.producer = .returned ∧ s.pushed = [.insert node] ∧
      s.consumed = s.pushed := by
  intro node sizes
  have hcheck : Step sizes Nat.succ
      (⟨.checking (consumable sizes (.insert node)), .waiting, [], 0, 0, [.insert node], []⟩ : State ℕ ℕ) _ := .check rfl
  rw [if_neg (Nat.not_lt_zero _)] at hcheck
  have hpush : Run sizes Nat.succ start
      (⟨.idle, .waiting, [⟨.item (.insert node), 48⟩], 48, 0, [.insert node], []⟩ : State ℕ ℕ) :=
    (((ReflTransGen.single (.push (.insert node) rfl)).tail hcheck).tail (.add rfl)).tail
      (.enqueue (c := consumable sizes (.insert node)) rfl)
  have hsubtract : ∀ (producer : Producer ℕ ℕ) (c : Consumable ℕ ℕ) (consumed : List (Item ℕ ℕ)), c.size < 2 ^ 64 →
      Step sizes Nat.succ ⟨producer, .subtracting c, [], c.size, 0, [.insert node], consumed⟩
        ⟨producer, .visiting c, [], 0, 0, [.insert node], consumed⟩ := by
    intro producer c consumed hlt
    have hzero : (c.size + (2 ^ 64 - c.size)) % 2 ^ 64 = 0 := by
      rw [Nat.add_sub_cancel' hlt.le, Nat.mod_self]
    have hstep : Step sizes Nat.succ ⟨producer, .subtracting c, [], c.size, 0, [.insert node], consumed⟩ _ :=
      .subtract rfl
    rwa [hzero] at hstep
  have hconsumed : Run sizes Nat.succ start
      (⟨.idle, .waiting, [], 0, 0, [.insert node], [.insert node]⟩ : State ℕ ℕ) :=
    ((hpush.tail (.dequeue rfl rfl)).tail (hsubtract .idle ⟨.item (.insert node), 48⟩ [] (by decide))).tail
      (.visit (c := ⟨.item (.insert node), 48⟩) rfl)
  have hclosed : Run sizes Nat.succ start
      (⟨.joining, .waiting, [⟨.close, 0⟩], 0, 0, [.insert node], [.insert node]⟩ : State ℕ ℕ) :=
    ((hconsumed.tail (.destroy rfl)).tail (.add rfl)).tail (.enqueue (c := ⟨.close, 0⟩) rfl)
  have hstopped : Run sizes Nat.succ start
      (⟨.joining, .stopped, [], 0, 0, [.insert node], [.insert node]⟩ : State ℕ ℕ) :=
    ((hclosed.tail (.dequeue rfl rfl)).tail (hsubtract .joining ⟨.close, 0⟩ [.insert node] (by decide))).tail
      (.visit (c := ⟨.close, 0⟩) rfl)
  have hreturned := hstopped.tail (.join rfl rfl)
  exact ⟨_, hreturned, rfl, rfl, (nothing_lost sizes Nat.succ _ hreturned).2.1 rfl⟩

end AsyncImpl

end RepoSceneBuilder

end Bouncer
