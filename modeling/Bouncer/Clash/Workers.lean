import Bouncer.Clash.Report
import Bouncer.Library.Interleaving
import Bouncer.Library.Threads

/-!
# The threads of a narrowphase

Both pipelines put their tests into queues and start threads that take them from there.  A thread runs its test,
hands the findings to their clash, each while it holds the lock of the clashes, and goes on until its queue is empty.
The threads of the clearance pipeline share one queue, those of the hard pipeline have one each.

If a test raises, the thread throws a `DegenerateTestException`, which nothing in its function catches.

When all threads have returned, the findings of the tests have arrived in some interleaving (`exists_interleaves`), and
any order of the tests in one queue is one in which they can arrive (`exists_run`).
-/

namespace Bouncer.Clash

open Library (collect upsert valuesAt Interleaves)
open Relation (ReflTransGen)

inductive WorkerState (V : Type*) where
  /-- In the loop, with findings of the last test that it has still to hand over. -/
  | running (pending : List (OrderedPair × V))
  | returned
  /-- A `DegenerateTestException` has left the function of the thread. -/
  | threw (objects : OrderedPair) (message : String)

structure Worker (V : Type*) where
  queue : ℕ
  state : WorkerState V

namespace Worker

variable {V : Type*}

def start (queue : ℕ) : Worker V := ⟨queue, .running []⟩

def pending (worker : Worker V) : List (OrderedPair × V) :=
  match worker.state with
  | .running pending => pending
  | _ => []

end Worker

/-- What the threads of a narrowphase share. -/
structure Shared (E V T : Type*) where
  queues : List (List (E × E))
  clashes : AList fun _ : OrderedPair => T

namespace Narrowphase

variable {E V R T : Type*} [ExactReal R] (narrowphase : Narrowphase E V R)

/-- The message of the `GeometryTestException` of a test, for the two entries after `std::swap`, if it raises one. -/
def raised (raises : E → E → Option String) (t : E × E) : Option String :=
  raises (narrowphase.swapped t).1 (narrowphase.swapped t).2

/-- The findings of a test that returns, each with the pair of objects. -/
def tagged (t : E × E) : List (OrderedPair × V) :=
  ((narrowphase.findings t).getD []).map fun v => (narrowphase.objects t, v)

variable (raises : E → E → Option String)

/-- The test returns. -/
structure Returns (t : E × E) : Prop where
  raised : narrowphase.raised raises t = none
  findings : (narrowphase.findings t).isSome

variable (init : T) (f : T → V → T)

/-- One step of a thread. -/
inductive WorkerStep : Worker V × Shared E V T → Worker V × Shared E V T → Prop
  | take (qs₁ qs₂ : List (List (E × E))) (t : E × E) {queue : List (E × E)} {clashes : AList fun _ => T} :
    narrowphase.Returns raises t →
    WorkerStep (⟨qs₁.length, .running []⟩, ⟨qs₁ ++ (t :: queue) :: qs₂, clashes⟩)
      (⟨qs₁.length, .running (narrowphase.tagged t)⟩, ⟨qs₁ ++ queue :: qs₂, clashes⟩)
  | throw (qs₁ qs₂ : List (List (E × E))) (t : E × E) {queue : List (E × E)} {clashes : AList fun _ => T}
      {message : String} :
    narrowphase.raised raises t = some message →
    WorkerStep (⟨qs₁.length, .running []⟩, ⟨qs₁ ++ (t :: queue) :: qs₂, clashes⟩)
      (⟨qs₁.length, .threw (narrowphase.objects t) message⟩, ⟨qs₁ ++ queue :: qs₂, clashes⟩)
  | append (e : OrderedPair × V) {queue : ℕ} {pending : List (OrderedPair × V)} {qs : List (List (E × E))}
      {clashes : AList fun _ => T} :
    WorkerStep (⟨queue, .running (e :: pending)⟩, ⟨qs, clashes⟩)
      (⟨queue, .running pending⟩, ⟨qs, upsert init f clashes e⟩)
  | leave {queue : ℕ} {qs : List (List (E × E))} {clashes : AList fun _ => T} :
    qs[queue]? = some [] →
    WorkerStep (⟨queue, .running []⟩, ⟨qs, clashes⟩) (⟨queue, .returned⟩, ⟨qs, clashes⟩)

/-- The threads that take their tests from the queues with these numbers have done some of their work. -/
def Executes (queues : List ℕ) (tests : List (List (E × E))) (workers : List (Worker V)) (shared : Shared E V T) : Prop :=
  Library.Threads.Run (narrowphase.WorkerStep raises init f) (queues.map .start, ⟨tests, ∅⟩) (workers, shared)

/-- All threads have returned. -/
def Finishes (queues : List ℕ) (tests : List (List (E × E))) (clashes : AList fun _ : OrderedPair => T) : Prop :=
  ∃ workers shared, narrowphase.Executes raises init f queues tests workers shared ∧
    (∀ worker ∈ workers, worker.state = .returned) ∧ shared.clashes = clashes

/-- An exception has left the function of a thread. -/
def Terminates (queues : List ℕ) (tests : List (List (E × E))) (objects : OrderedPair) (message : String) : Prop :=
  ∃ workers shared, narrowphase.Executes raises init f queues tests workers shared ∧
    ∃ worker ∈ workers, worker.state = .threw objects message

variable {narrowphase} {raises} {init} {f}

/-! ### What the threads have done when they have returned -/

section Finishes

variable {queues : List ℕ} {tests : List (List (E × E))} {workers workers' : List (Worker V)}
  {shared shared' : Shared E V T} {clashes : AList fun _ : OrderedPair => T}

/-- The threads keep their queues, a thread that has returned has left its queue empty, and no queue is added. -/
private theorem Executes.queues_nil (h : narrowphase.Executes raises init f queues tests workers shared) :
    workers.map Worker.queue = queues ∧ shared.queues.length = tests.length ∧
      ∀ worker ∈ workers, worker.state = .returned → shared.queues[worker.queue]? = some [] := by
  let Inv : List (Worker V) × Shared E V T → Prop := fun c =>
    c.1.map Worker.queue = queues ∧ c.2.queues.length = tests.length ∧
      ∀ worker ∈ c.1, worker.state = .returned → c.2.queues[worker.queue]? = some []
  have htaken : ∀ {qs₁ qs₂ : List (List (E × E))} {t : E × E} {queue : List (E × E)} {k : ℕ},
      (qs₁ ++ (t :: queue) :: qs₂)[k]? = some [] → (qs₁ ++ queue :: qs₂)[k]? = some [] := by
    intro qs₁ qs₂ t queue k hk
    by_cases he : k = qs₁.length
    · subst he
      simp at hk
    · have hset : qs₁ ++ queue :: qs₂ = (qs₁ ++ (t :: queue) :: qs₂).set qs₁.length queue := by simp
      rw [hset, List.getElem?_set_ne (Ne.symm he)]
      exact hk
  refine Library.Threads.Run.invariant Inv ?_ h ?_
  · rintro ws₁ ws₂ w w' s s' hstep ⟨hqueues, hlength, hreturned⟩
    cases hstep with
    | take qs₁ qs₂ t _ =>
      have hleft := fun worker hworker hstate => htaken (hreturned worker hworker hstate)
      exact ⟨by simpa using hqueues, by simpa using hlength, Library.Threads.forall_step hleft nofun⟩
    | throw qs₁ qs₂ t _ =>
      have hleft := fun worker hworker hstate => htaken (hreturned worker hworker hstate)
      exact ⟨by simpa using hqueues, by simpa using hlength, Library.Threads.forall_step hleft nofun⟩
    | append e => exact ⟨by simpa using hqueues, hlength, Library.Threads.forall_step hreturned nofun⟩
    | leave hempty => exact ⟨by simpa using hqueues, hlength, Library.Threads.forall_step hreturned fun _ => hempty⟩
  · refine ⟨by simp [Worker.start, Function.comp_def], rfl, ?_⟩
    intro worker hworker hstate
    obtain ⟨k, -, rfl⟩ := List.mem_map.1 hworker
    cases hstate

private theorem perm_take {α : Type*} (before after : List α) {rest all : List α} {x : α} (y : α)
    (h : all.Perm (x :: rest)) : (y :: (before ++ x :: after ++ rest)).Perm (before ++ y :: after ++ all) := by
  have hleft : (before ++ x :: after ++ rest).Perm (x :: (before ++ (after ++ rest))) := by
    rw [List.append_assoc, List.cons_append]
    exact List.perm_middle
  have hright : (before ++ y :: after ++ all).Perm (y :: (before ++ (after ++ all))) := by
    rw [List.append_assoc, List.cons_append]
    exact List.perm_middle
  have hall : (before ++ (after ++ all)).Perm (x :: (before ++ (after ++ rest))) := by
    rw [← List.append_assoc, ← List.append_assoc]
    exact (h.append_left _).trans List.perm_middle
  exact (hleft.trans hall.symm).cons y |>.trans hright.symm

/-- From here on, the findings of the tests that are left reach the clashes in some interleaving. -/
private theorem exists_interleaves_of_run
    (h : Library.Threads.Run (narrowphase.WorkerStep raises init f) (workers, shared) (workers', shared'))
    (hreturned : ∀ worker ∈ workers', worker.state = .returned) (hempty : shared'.queues.flatten = []) :
    (∀ worker ∈ workers, ∀ objects message, worker.state ≠ .threw objects message) ∧
      (∀ t ∈ shared.queues.flatten, narrowphase.Returns raises t) ∧
      ∃ arrival, Interleaves (workers.map Worker.pending ++ shared.queues.flatten.map narrowphase.tagged) arrival ∧
        shared'.clashes = arrival.foldl (upsert init f) shared.clashes := by
  let Inv : List (Worker V) × Shared E V T → Prop := fun c =>
    (∀ worker ∈ c.1, ∀ objects message, worker.state ≠ .threw objects message) ∧
      (∀ t ∈ c.2.queues.flatten, narrowphase.Returns raises t) ∧
      ∃ arrival, Interleaves (c.1.map Worker.pending ++ c.2.queues.flatten.map narrowphase.tagged) arrival ∧
        shared'.clashes = arrival.foldl (upsert init f) c.2.clashes
  refine Library.Threads.Run.backward Inv ?_ h ?_
  · rintro ws₁ ws₂ w w' s s' hstep ⟨hthrew, hreturns, arrival, hinter, hclashes⟩
    have hothers : (∀ objects message, w.state ≠ .threw objects message) →
        ∀ worker ∈ ws₁ ++ w :: ws₂, ∀ objects message, worker.state ≠ .threw objects message := by
      exact Library.Threads.forall_step hthrew
    cases hstep with
    | @take qs₁ qs₂ t queue clashes ht =>
      have hflatten : (qs₁ ++ (t :: queue) :: qs₂).flatten.Perm (t :: (qs₁ ++ queue :: qs₂).flatten) := by
        simp only [List.flatten_append, List.flatten_cons, List.cons_append]
        exact List.perm_middle
      refine ⟨hothers nofun, ?_, arrival, ?_, hclashes⟩
      · intro t' ht'
        obtain rfl | ht' := List.mem_cons.1 (hflatten.mem_iff.1 ht')
        · exact ht
        · exact hreturns t' ht'
      · refine hinter.cons_nil.of_perm ?_
        have hperm := perm_take (ws₁.map Worker.pending) (ws₂.map Worker.pending) []
          (hflatten.map narrowphase.tagged)
        simpa only [List.map_append, List.map_cons, List.append_assoc, List.cons_append, Worker.pending] using hperm
    | throw qs₁ qs₂ t _ =>
      exact absurd rfl (hthrew _ (List.mem_append_right _ List.mem_cons_self) _ _)
    | append e =>
      refine ⟨hothers nofun, hreturns, e :: arrival, ?_, hclashes⟩
      simp only [List.map_append, List.map_cons, Worker.pending, List.append_assoc, List.cons_append] at hinter ⊢
      exact hinter.cons e
    | leave _ =>
      refine ⟨hothers nofun, hreturns, arrival, ?_, hclashes⟩
      simpa [Worker.pending] using hinter
  · refine ⟨?_, ?_, [], ?_, rfl⟩
    · intro worker hworker objects message
      rw [hreturned worker hworker]
      exact nofun
    · intro t ht
      rw [hempty] at ht
      cases ht
    · refine .nil ?_
      intro l hl
      rw [hempty, List.map_nil, List.append_nil] at hl
      obtain ⟨worker, hworker, rfl⟩ := List.mem_map.1 hl
      rw [Worker.pending, hreturned worker hworker]

/-- When all threads have returned, all tests have returned, and their findings have arrived in some interleaving. -/
theorem Finishes.exists_interleaves (h : narrowphase.Finishes raises init f queues tests clashes)
    (hqueues : ∀ k < tests.length, k ∈ queues) :
    (∀ t ∈ tests.flatten, narrowphase.Returns raises t) ∧
      ∃ arrival, Interleaves (tests.flatten.map narrowphase.tagged) arrival ∧ clashes = collect init f arrival := by
  obtain ⟨workers, shared, hrun, hreturned, rfl⟩ := h
  obtain ⟨hmap, hlength, hleft⟩ := Executes.queues_nil hrun
  have hempty : shared.queues.flatten = [] := by
    rw [List.flatten_eq_nil_iff]
    intro queue hqueue
    obtain ⟨k, hk, rfl⟩ := List.getElem_of_mem hqueue
    have hmem : k ∈ workers.map Worker.queue := by
      rw [hmap]
      exact hqueues k (hlength ▸ hk)
    obtain ⟨worker, hworker, rfl⟩ := List.mem_map.1 hmem
    exact Option.some_injective _ ((List.getElem?_eq_getElem hk).symm.trans
      (hleft worker hworker (hreturned worker hworker)))
  obtain ⟨-, hreturns, arrival, hinter, hclashes⟩ := exists_interleaves_of_run hrun hreturned hempty
  refine ⟨hreturns, arrival, ?_, hclashes⟩
  refine hinter.of_append fun l hl => ?_
  simp only [List.mem_map] at hl
  obtain ⟨worker, ⟨k, -, rfl⟩, rfl⟩ := hl
  rfl

/-- So they have arrived in one of the orders that the tests allow. -/
theorem arrives_of_interleaves {tests : List (E × E)} {arrival : List (OrderedPair × V)}
    (hreturns : ∀ t ∈ tests, narrowphase.Returns raises t)
    (h : Interleaves (tests.map narrowphase.tagged) arrival) : narrowphase.Arrives tests arrival := by
  refine ⟨tests.map narrowphase.tagged, ?_, h.perm⟩
  rw [List.forall₂_map_right_iff, List.forall₂_same]
  intro t ht
  obtain ⟨vs, hvs⟩ := Option.isSome_iff_exists.1 (hreturns t ht).findings
  refine ⟨vs, hvs, ?_⟩
  rw [tagged, hvs]
  rfl

theorem Arrives.of_perm {tests tests' : List (E × E)} {arrival : List (OrderedPair × V)}
    (h : narrowphase.Arrives tests arrival) (hperm : tests.Perm tests') : narrowphase.Arrives tests' arrival := by
  obtain ⟨results, hresults, harrival⟩ := h
  obtain ⟨results', hresults', hperm'⟩ := List.perm_comp_forall₂ hperm.symm hresults
  exact ⟨results', hresults', harrival.trans hperm'.flatten.symm⟩

end Finishes

/-! ### Exceptions -/

section Terminates

variable {queues : List ℕ} {tests : List (List (E × E))} {objects : OrderedPair} {message : String}

/-- The exception is that of a test that raises. -/
theorem Terminates.exists_raised (h : narrowphase.Terminates raises init f queues tests objects message) :
    ∃ t ∈ tests.flatten, narrowphase.raised raises t = some message ∧ narrowphase.objects t = objects := by
  obtain ⟨workers, shared, hrun, worker, hworker, hstate⟩ := h
  let Inv : List (Worker V) × Shared E V T → Prop := fun c =>
    (∀ t ∈ c.2.queues.flatten, t ∈ tests.flatten) ∧
      ∀ worker ∈ c.1, ∀ objects message, worker.state = .threw objects message →
        ∃ t ∈ tests.flatten, narrowphase.raised raises t = some message ∧ narrowphase.objects t = objects
  have hinv : Inv (workers, shared) := by
    refine Library.Threads.Run.invariant Inv ?_ hrun ?_
    · rintro ws₁ ws₂ w w' s s' hstep ⟨hqueues, hthrew⟩
      have hfrom : ∀ {qs₁ qs₂ : List (List (E × E))} {t : E × E} {queue : List (E × E)},
          (∀ t' ∈ (qs₁ ++ (t :: queue) :: qs₂).flatten, t' ∈ tests.flatten) →
            t ∈ tests.flatten ∧ ∀ t' ∈ (qs₁ ++ queue :: qs₂).flatten, t' ∈ tests.flatten := by
        intro qs₁ qs₂ t queue hall
        refine ⟨hall t (by simp), fun t' ht' => hall t' ?_⟩
        simp only [List.flatten_append, List.flatten_cons, List.mem_append, List.mem_cons] at ht' ⊢
        tauto
      cases hstep with
      | take qs₁ qs₂ t _ => exact ⟨(hfrom hqueues).2, Library.Threads.forall_step hthrew nofun⟩
      | throw qs₁ qs₂ t hraised =>
        refine ⟨(hfrom hqueues).2, Library.Threads.forall_step hthrew ?_⟩
        intro objects message hstate
        cases hstate
        exact ⟨t, (hfrom hqueues).1, hraised, rfl⟩
      | append e => exact ⟨hqueues, Library.Threads.forall_step hthrew nofun⟩
      | leave _ => exact ⟨hqueues, Library.Threads.forall_step hthrew nofun⟩
    · refine ⟨fun t ht => ht, ?_⟩
      intro worker hworker objects message hstate
      obtain ⟨k, -, rfl⟩ := List.mem_map.1 hworker
      cases hstate
  exact hinv.2 worker hworker objects message hstate

/-- A thread throws if the test at the front of its queue raises. -/
theorem terminates_of_raised {t : E × E} (h : narrowphase.raised raises t = some message) (ks₁ ks₂ : List ℕ)
    (qs₁ qs₂ : List (List (E × E))) (queue : List (E × E)) :
    narrowphase.Terminates raises init f (ks₁ ++ qs₁.length :: ks₂) (qs₁ ++ (t :: queue) :: qs₂)
      (narrowphase.objects t) message := by
  have hstep : narrowphase.WorkerStep raises init f (.start qs₁.length, ⟨qs₁ ++ (t :: queue) :: qs₂, ∅⟩)
      (⟨qs₁.length, .threw (narrowphase.objects t) message⟩, ⟨qs₁ ++ queue :: qs₂, ∅⟩) := .throw qs₁ qs₂ t h
  have hrun := Library.Threads.Run.of_thread (ks₁.map Worker.start) (ks₂.map Worker.start) (.single hstep)
  unfold Terminates Executes
  rw [List.map_append, List.map_cons]
  exact ⟨_, _, hrun, _, List.mem_append_right _ List.mem_cons_self, rfl⟩

end Terminates

/-! ### Runs that exist -/

section Exists

variable {clashes : AList fun _ : OrderedPair => T}

private theorem reflTransGen_append (k : ℕ) (pending : List (OrderedPair × V)) (qs : List (List (E × E)))
    (clashes : AList fun _ : OrderedPair => T) :
    ReflTransGen (narrowphase.WorkerStep raises init f) (⟨k, .running pending⟩, ⟨qs, clashes⟩)
      (⟨k, .running []⟩, ⟨qs, pending.foldl (upsert init f) clashes⟩) := by
  induction pending generalizing clashes with
  | nil => exact .refl
  | cons e pending ih => exact .head (.append e) (ih _)

private theorem reflTransGen_tests (qs₁ qs₂ : List (List (E × E))) {tests : List (E × E)}
    (h : ∀ t ∈ tests, narrowphase.Returns raises t) (queue : List (E × E)) (clashes : AList fun _ : OrderedPair => T) :
    ReflTransGen (narrowphase.WorkerStep raises init f)
      (⟨qs₁.length, .running []⟩, ⟨qs₁ ++ (tests ++ queue) :: qs₂, clashes⟩)
      (⟨qs₁.length, .running []⟩,
        ⟨qs₁ ++ queue :: qs₂, (tests.flatMap narrowphase.tagged).foldl (upsert init f) clashes⟩) := by
  induction tests generalizing clashes with
  | nil => exact .refl
  | cons t tests ih =>
    obtain ⟨ht, h⟩ := List.forall_mem_cons.1 h
    rw [List.flatMap_cons, List.foldl_append]
    refine .head (.take qs₁ qs₂ t ht) ?_
    exact (reflTransGen_append _ _ _ _).trans (ih h _)

private theorem run_leave (before : List (Worker V)) {ks : List ℕ} {qs : List (List (E × E))}
    (h : ∀ k ∈ ks, qs[k]? = some []) :
    Library.Threads.Run (narrowphase.WorkerStep raises init f) (before ++ ks.map Worker.start, ⟨qs, clashes⟩)
      (before ++ ks.map (⟨·, .returned⟩), ⟨qs, clashes⟩) := by
  induction ks generalizing before with
  | nil => exact .refl _
  | cons k ks ih =>
    obtain ⟨hk, h⟩ := List.forall_mem_cons.1 h
    have hrest := ih (before ++ [⟨k, .returned⟩]) h
    rw [List.append_assoc, List.append_assoc] at hrest
    exact .trans (.single (.thread before (ks.map Worker.start) (.leave hk))) hrest

private theorem finishes_of_run {queues : List ℕ} {tests qs : List (List (E × E))}
    (h : narrowphase.Executes raises init f queues tests (queues.map .start) ⟨qs, clashes⟩)
    (hqueues : ∀ k ∈ queues, qs[k]? = some []) : narrowphase.Finishes raises init f queues tests clashes := by
  refine ⟨_, _, h.trans (run_leave [] hqueues), ?_, rfl⟩
  intro worker hworker
  obtain ⟨k, -, rfl⟩ := List.mem_map.1 hworker
  rfl

/-- Threads that share a queue can run its tests in their order. -/
theorem exists_run {queue : List (E × E)} (h : ∀ t ∈ queue, narrowphase.Returns raises t) (numThreads : ℕ) :
    narrowphase.Finishes raises init f (List.replicate (numThreads + 1) 0) [queue]
      (collect init f (queue.flatMap narrowphase.tagged)) := by
  have hqueue : ReflTransGen (narrowphase.WorkerStep raises init f) (.start 0, ⟨[queue ++ []], ∅⟩)
      (.start 0, ⟨[[]], collect init f (queue.flatMap narrowphase.tagged)⟩) :=
    reflTransGen_tests [] [] h [] ∅
  rw [List.append_nil] at hqueue
  have hrun := Library.Threads.Run.of_thread [] ((List.replicate numThreads 0).map Worker.start) hqueue
  refine finishes_of_run hrun ?_
  intro k hk
  obtain rfl := List.eq_of_mem_replicate (n := numThreads + 1) hk
  rfl

/-- Two threads can have the findings of the first test arrive last. -/
theorem exists_run_last {t : E × E} {queue : List (E × E)} (ht : narrowphase.Returns raises t)
    (h : ∀ t ∈ queue, narrowphase.Returns raises t) :
    narrowphase.Finishes raises init f [0, 0] [t :: queue]
      (collect init f (queue.flatMap narrowphase.tagged ++ narrowphase.tagged t)) := by
  let step := narrowphase.WorkerStep raises init f
  let others := collect init f (queue.flatMap narrowphase.tagged)
  have htake : step (.start 0, ⟨[t :: queue], ∅⟩) (⟨0, .running (narrowphase.tagged t)⟩, ⟨[queue], ∅⟩) :=
    .take [] [] t ht
  have hqueue : ReflTransGen step (.start 0, ⟨[queue ++ []], ∅⟩) (.start 0, ⟨[[]], others⟩) :=
    reflTransGen_tests [] [] h [] ∅
  rw [List.append_nil] at hqueue
  have happend : ReflTransGen step (⟨0, .running (narrowphase.tagged t)⟩, ⟨[[]], others⟩)
      (.start 0, ⟨[[]], collect init f (queue.flatMap narrowphase.tagged ++ narrowphase.tagged t)⟩) := by
    rw [collect, List.foldl_append]
    exact reflTransGen_append _ _ _ _
  -- the first thread takes the test, the second one runs all others, then the first one goes on
  have hfirst := Library.Threads.Run.of_thread [] [Worker.start 0] (.single htake)
  have hsecond := Library.Threads.Run.of_thread [⟨0, .running (narrowphase.tagged t)⟩] [] hqueue
  have hthird := Library.Threads.Run.of_thread [] [Worker.start 0] happend
  refine finishes_of_run ((hfirst.trans hsecond).trans hthird) ?_
  intro k hk
  simp only [List.mem_cons, List.not_mem_nil, or_false, or_self] at hk
  rw [hk]
  rfl

end Exists

end Narrowphase

end Bouncer.Clash
