import Mathlib.Data.List.Range
import Mathlib.Data.Nat.Bitwise

/-!
# The queue between two threads

`BlockingReaderWriterQueue` is the queue without locks from which the consumer of the scene builder takes what its producer
has put there.  It is a circle of blocks, each of them a circular buffer.  The producer writes to the tail block, and the
consumer reads from the front block.  If the tail block is full, then the producer goes on to the next one, unless this is the
front block; then it puts a new block between the two.  Each thread keeps a copy of the index that the other one changes, and
reads the index itself only if it cannot go on with the copy.

A step does at most one access to what the other thread writes, with what the thread does to its own variables before or after
it.  So the threads can take turns between any two of these accesses.  They see memory in this order: what the fences of the
source are for is not modelled.
-/

namespace Bouncer

namespace ReaderWriterQueue

open Relation (ReflTransGen)

variable {T : Type*}

/-- A circular buffer.  `data i` is the element that lives in the slot `i`. -/
structure Block (T : Type*) where
  front : ℕ
  localTail : ℕ
  tail : ℕ
  localFront : ℕ
  next : ℕ
  data : ℕ → Option T
  sizeMask : ℕ

namespace Block

/-- The index after `i`. -/
def advance (B : Block T) (i : ℕ) : ℕ := (i + 1) &&& B.sizeMask

/-- A new element in the slot `i`. -/
def construct (B : Block T) (i : ℕ) (element : T) : Block T := { B with data := Function.update B.data i (some element) }

/-- The element in the slot `i` is moved from and destroyed. -/
def destroy (B : Block T) (i : ℕ) : Block T := { B with data := Function.update B.data i none }

end Block

/-- `make_block`, and what becomes the next block before others can see the new one. -/
def makeBlock (capacity next : ℕ) : Block T := ⟨0, 0, 0, 0, next, fun _ => none, capacity - 1⟩

inductive AllocationMode where
  | canAlloc
  | cannotAlloc

/-- Where the producer is in `inner_enqueue`, or before the signal for its element. -/
inductive Producer (T : Type*) where
  | idle
  | checking (mode : AllocationMode) (element : T)
  | refreshing (mode : AllocationMode) (element : T)
  | constructing (element : T)
  | publishing (element : T)
  | full (mode : AllocationMode) (element : T)
  | advancing (element : T)
  | constructingNext (element : T) (tailBlockNext : ℕ)
  | publishingNext (element : T) (tailBlockNext : ℕ)
  | allocating (element : T)
  | linking (element : T) (newBlock : ℕ)
  | movingTail (element : T) (block : ℕ)
  | signalling (element : T)

/-- Where the producer goes on if no block is free. -/
def AllocationMode.producer (mode : AllocationMode) (element : T) : Producer T :=
  match mode with
  | .canAlloc => .allocating element
  | .cannotAlloc => .idle

/-- Where the consumer is in `try_dequeue`, after it has waited for the semaphore. -/
inductive Consumer (T : Type*) where
  | idle
  | checking
  | refreshing
  | comparing
  | rechecking
  | readingNext
  | loadingNext (nextBlock : ℕ)
  | movingFront (nextBlock : ℕ)
  | taking
  | leaving (result : T)
  | failed

/-- The queue with the counter of its semaphore, the threads, and which elements were put into the queue and taken from it so
far.  The blocks below `blockCount` have been made. -/
structure State (T : Type*) where
  blocks : ℕ → Block T
  blockCount : ℕ
  frontBlock : ℕ
  tailBlock : ℕ
  largestBlockSize : ℕ
  sema : ℕ
  producer : Producer T
  consumer : Consumer T
  enqueued : List T
  dequeued : List T

namespace State

variable (s : State T)

def atFront : Block T := s.blocks s.frontBlock

def atTail : Block T := s.blocks s.tailBlock

def setBlock (b : ℕ) (B : Block T) : State T := { s with blocks := Function.update s.blocks b B }

end State

/-- The size of a block that is added. -/
def newBlockSize (maxBlockSize : ℕ) (s : State T) : ℕ :=
  if s.largestBlockSize ≥ maxBlockSize then s.largestBlockSize else s.largestBlockSize * 2

/-- The block that is added, with its first element. -/
def newBlock (maxBlockSize : ℕ) (s : State T) (element : T) : Block T :=
  { (makeBlock (newBlockSize maxBlockSize s) s.atTail.next).construct 0 element with tail := 1, localTail := 1 }

/-- The steps of the two threads.  The memory for a block may be refused at any time. -/
inductive Step (maxBlockSize : ℕ) : State T → State T → Prop
  | enqueue {s : State T} (mode : AllocationMode) (v : T) : s.producer = .idle →
    Step maxBlockSize s { s with producer := .checking mode v }
  | check {s : State T} {mode : AllocationMode} {v : T} : s.producer = .checking mode v →
    Step maxBlockSize s { s with
      producer := if s.atTail.advance s.atTail.tail ≠ s.atTail.localFront then .constructing v else .refreshing mode v }
  | refresh {s : State T} {mode : AllocationMode} {v : T} : s.producer = .refreshing mode v →
    Step maxBlockSize s { s.setBlock s.tailBlock { s.atTail with localFront := s.atTail.front } with
      producer := if s.atTail.advance s.atTail.tail ≠ s.atTail.front then .constructing v else .full mode v }
  | construct {s : State T} {v : T} : s.producer = .constructing v →
    Step maxBlockSize s { s.setBlock s.tailBlock (s.atTail.construct s.atTail.tail v) with producer := .publishing v }
  | publish {s : State T} {v : T} : s.producer = .publishing v →
    Step maxBlockSize s { s.setBlock s.tailBlock { s.atTail with tail := s.atTail.advance s.atTail.tail } with
      producer := .signalling v }
  | full {s : State T} {mode : AllocationMode} {v : T} : s.producer = .full mode v →
    Step maxBlockSize s { s with
      producer := if s.atTail.next ≠ s.frontBlock then .advancing v else mode.producer v }
  | advance {s : State T} {v : T} : s.producer = .advancing v →
    Step maxBlockSize s
      { s.setBlock s.atTail.next { s.blocks s.atTail.next with localFront := (s.blocks s.atTail.next).front } with
        producer := .constructingNext v s.atTail.next }
  | constructNext {s : State T} {v : T} {b : ℕ} : s.producer = .constructingNext v b →
    Step maxBlockSize s { s.setBlock b ((s.blocks b).construct (s.blocks b).tail v) with producer := .publishingNext v b }
  | publishNext {s : State T} {v : T} {b : ℕ} : s.producer = .publishingNext v b →
    Step maxBlockSize s { s.setBlock b { s.blocks b with tail := (s.blocks b).advance (s.blocks b).tail } with
      producer := .movingTail v b }
  | allocate {s : State T} {v : T} : s.producer = .allocating v →
    Step maxBlockSize s { s.setBlock s.blockCount (newBlock maxBlockSize s v) with
      blockCount := s.blockCount + 1
      largestBlockSize := newBlockSize maxBlockSize s
      producer := .linking v s.blockCount }
  | outOfMemory {s : State T} {v : T} : s.producer = .allocating v → Step maxBlockSize s { s with producer := .idle }
  | link {s : State T} {v : T} {b : ℕ} : s.producer = .linking v b →
    Step maxBlockSize s { s.setBlock s.tailBlock { s.atTail with next := b } with producer := .movingTail v b }
  | moveTail {s : State T} {v : T} {b : ℕ} : s.producer = .movingTail v b →
    Step maxBlockSize s { s with tailBlock := b, producer := .signalling v }
  | signal {s : State T} {v : T} : s.producer = .signalling v →
    Step maxBlockSize s { s with sema := s.sema + 1, producer := .idle, enqueued := s.enqueued ++ [v] }
  | wait {s : State T} : s.consumer = .idle → s.sema ≠ 0 →
    Step maxBlockSize s { s with sema := s.sema - 1, consumer := .checking }
  | checkFront {s : State T} : s.consumer = .checking →
    Step maxBlockSize s { s with consumer := if s.atFront.front ≠ s.atFront.localTail then .taking else .refreshing }
  | refreshTail {s : State T} : s.consumer = .refreshing →
    Step maxBlockSize s { s.setBlock s.frontBlock { s.atFront with localTail := s.atFront.tail } with
      consumer := if s.atFront.front ≠ s.atFront.tail then .taking else .comparing }
  | compare {s : State T} : s.consumer = .comparing →
    Step maxBlockSize s { s with consumer := if s.frontBlock ≠ s.tailBlock then .rechecking else .failed }
  | recheck {s : State T} : s.consumer = .rechecking →
    Step maxBlockSize s { s.setBlock s.frontBlock { s.atFront with localTail := s.atFront.tail } with
      consumer := if s.atFront.front ≠ s.atFront.tail then .taking else .readingNext }
  | readNext {s : State T} : s.consumer = .readingNext →
    Step maxBlockSize s { s with consumer := .loadingNext s.atFront.next }
  | loadNext {s : State T} {b : ℕ} : s.consumer = .loadingNext b →
    Step maxBlockSize s { s.setBlock b { s.blocks b with localTail := (s.blocks b).tail } with consumer := .movingFront b }
  | moveFront {s : State T} {b : ℕ} : s.consumer = .movingFront b →
    Step maxBlockSize s { s with frontBlock := b, consumer := .taking }
  | take {s : State T} {x : T} : s.consumer = .taking → s.atFront.data s.atFront.front = some x →
    Step maxBlockSize s { s.setBlock s.frontBlock (s.atFront.destroy s.atFront.front) with consumer := .leaving x }
  | leave {s : State T} {x : T} : s.consumer = .leaving x →
    Step maxBlockSize s { s.setBlock s.frontBlock { s.atFront with front := s.atFront.advance s.atFront.front } with
      consumer := .idle, dequeued := s.dequeued ++ [x] }

/-- Any number of steps. -/
def Run (maxBlockSize : ℕ) : State T → State T → Prop := ReflTransGen (Step maxBlockSize)

/-! ### A new queue -/

/-- A bit is set if it is set in `x`, or the one `n` places higher. -/
def smear (x n : ℕ) : ℕ := x ||| x >>> n

/-- `ceilToPow2`, on numbers of 64 bits.  The last three shifts are those of its loop. -/
def ceilToPow2 (x : ℕ) : ℕ :=
  let x := (x + (2 ^ 64 - 1)) % 2 ^ 64
  let x := smear (smear (smear x 1) 2) 4
  let x := [1, 2, 4].foldl (fun x i => smear x (i <<< 3)) x
  (x + 1) % 2 ^ 64

/-- One pass of the loop of the constructor: the block `i` is made, and put behind the one before it. -/
def addBlock (capacity : ℕ) (blocks : ℕ → Block T) (i : ℕ) : ℕ → Block T :=
  let blocks := if i = 0 then blocks else Function.update blocks (i - 1) { blocks (i - 1) with next := i }
  Function.update blocks i (makeBlock capacity 0)

/-- A queue with blocks of one size. -/
def startWith (blockCount capacity : ℕ) : State T where
  blocks := (List.range blockCount).foldl (addBlock capacity) fun _ => makeBlock 0 0
  blockCount := blockCount
  frontBlock := 0
  tailBlock := 0
  largestBlockSize := capacity
  sema := 0
  producer := .idle
  consumer := .idle
  enqueued := []
  dequeued := []

/-- The constructor of the queue. -/
def start (maxBlockSize size : ℕ) : State T :=
  if ceilToPow2 (size + 1) > maxBlockSize * 2 then
    startWith ((size + maxBlockSize * 2 - 3) / (maxBlockSize - 1)) maxBlockSize
  else
    startWith 1 (ceilToPow2 (size + 1))

end ReaderWriterQueue

end Bouncer
