import Mathlib.Algebra.Order.Ring.Int
import Mathlib.Logic.Relation

/-!
# The semaphore of the queue

`LightweightSemaphore` counts in an atomic number, and uses a semaphore of the operating system only to sleep.  A thread that
finds nothing to take subtracts one nevertheless before it sleeps, so that the number is negative, and the next signal wakes it.
If it gives up, then it must undo this, unless a signal has come meanwhile.

One thread signals, and one waits.  No signal is lost or used twice (`Run.accounts`), so that the semaphore is
the counter that the queue takes it for (`Step.sema_cases`), and a thread that waits while there is a signal gets it
(`Run.gets_signal`).
-/

namespace Bouncer

namespace LightweightSemaphore

open Relation (ReflTransGen)

/-- Where the thread that signals is. -/
inductive Producer where
  | idle
  | waking

/-- Where the thread that waits is: in `tryWait`, in the loops of `wait` with so many looks at the number left, or asleep. -/
inductive Consumer where
  | idle
  | probing
  | loading (n : ℕ)
  | decrementing
  | sleeping
  | restoring
  | retrying
  | trying

/-- The two numbers, the threads, and how often they have signalled and have been let through. -/
structure State where
  mCount : ℤ
  mSema : ℕ
  producer : Producer
  consumer : Consumer
  signalled : ℕ
  acquired : ℕ

def start : State := ⟨0, 0, .idle, .idle, 0, 0⟩

/-- `tryWait` looks once, and then `waitWithPartialSpinning` looks 1024 times. -/
def spin : ℕ := 1 + 1024

/-- The thread that waits is let through. -/
def State.acquire (s : State) : State := { s with consumer := .idle, acquired := s.acquired + 1 }

/-- The steps of the two threads.  A thread may give up to sleep at any time, which is how a timeout or an error looks. -/
inductive Step : State → State → Prop
  | signal {s : State} : s.producer = .idle →
    Step s { s with
      mCount := s.mCount + 1, signalled := s.signalled + 1, producer := if s.mCount < 0 then .waking else .idle }
  | wake {s : State} : s.producer = .waking → Step s { s with mSema := s.mSema + 1, producer := .idle }
  | tryWait {s : State} : s.consumer = .idle → Step s { s with consumer := .probing }
  | wait {s : State} : s.consumer = .idle → Step s { s with consumer := .loading spin }
  | probe {s : State} : s.consumer = .probing →
    Step s { s with consumer := if s.mCount > 0 then .decrementing else .idle }
  | load {s : State} {n : ℕ} : s.consumer = .loading (n + 1) →
    Step s { s with consumer := if s.mCount > 0 then .decrementing else .loading n }
  | decrement {s : State} : s.consumer = .decrementing → Step s { s.acquire with mCount := s.mCount - 1 }
  | subtract {s : State} : s.consumer = .loading 0 →
    Step s (if s.mCount > 0 then { s.acquire with mCount := s.mCount - 1 } else
      { s with mCount := s.mCount - 1, consumer := .sleeping })
  | awake {s : State} : s.consumer = .sleeping → s.mSema ≠ 0 → Step s { s.acquire with mSema := s.mSema - 1 }
  | giveUp {s : State} : s.consumer = .sleeping → Step s { s with consumer := .restoring }
  | restore {s : State} : s.consumer = .restoring →
    Step s { s with mCount := s.mCount + 1, consumer := if s.mCount < 0 then .idle else .retrying }
  | retry {s : State} : s.consumer = .retrying →
    Step s { s with mCount := s.mCount - 1, consumer := if s.mCount > 0 then .trying else .restoring }
  | tryAgain {s : State} : s.consumer = .trying →
    Step s (if s.mSema ≠ 0 then { s.acquire with mSema := s.mSema - 1 } else { s with consumer := .restoring })

/-- Any number of steps. -/
def Run : State → State → Prop := ReflTransGen Step

/-! ### The invariant -/

/-- What the thread that waits has subtracted without being let through. -/
def Consumer.debt (c : Consumer) : ℤ :=
  match c with
  | .sleeping | .restoring | .trying => 1
  | _ => 0

/-- The least number there can be. -/
def Consumer.bound (c : Consumer) : ℤ :=
  match c with
  | .sleeping | .restoring => -1
  | .decrementing | .retrying => 1
  | _ => 0

/-- How often the thread that waits is still to be woken. -/
def Consumer.owed (c : Consumer) (mCount : ℤ) : ℕ :=
  match c with
  | .sleeping | .restoring => if 0 ≤ mCount then 1 else 0
  | .retrying | .trying => 1
  | _ => 0

/-- One for the wake that a signal still owes. -/
def Producer.pending (p : Producer) : ℕ :=
  match p with
  | .idle => 0
  | .waking => 1

structure Invariant (s : State) : Prop where
  count : s.mCount + s.consumer.debt + s.acquired = s.signalled
  bound : s.consumer.bound ≤ s.mCount
  owed : s.mSema + s.producer.pending = s.consumer.owed s.mCount

private theorem Consumer.owed_of_neg {c : Consumer} {m : ℤ} (hbound : c.bound ≤ m) (hneg : m < 0) :
    c.owed m = 0 ∧ c.owed (m + 1) = 1 := by
  have hzero : ¬0 ≤ m := not_le.2 hneg
  cases c with
  | sleeping =>
    have hone : 0 ≤ m + 1 := by
      simp only [Consumer.bound] at hbound
      omega
    exact ⟨if_neg hzero, if_pos hone⟩
  | restoring =>
    have hone : 0 ≤ m + 1 := by
      simp only [Consumer.bound] at hbound
      omega
    exact ⟨if_neg hzero, if_pos hone⟩
  | decrementing => exact absurd (Int.one_pos.le.trans hbound) hzero
  | retrying => exact absurd (Int.one_pos.le.trans hbound) hzero
  | _ => exact absurd hbound hzero

private theorem Consumer.owed_of_nonneg (c : Consumer) {m : ℤ} (h : 0 ≤ m) : c.owed (m + 1) = c.owed m := by
  have hone : 0 ≤ m + 1 := h.trans (Int.le_add_one le_rfl)
  cases c with
  | sleeping => exact (if_pos hone).trans (if_pos h).symm
  | restoring => exact (if_pos hone).trans (if_pos h).symm
  | _ => rfl

theorem Invariant.signal {s : State} (h : Invariant s) (hp : s.producer = .idle) :
    Invariant { s with
      mCount := s.mCount + 1, signalled := s.signalled + 1, producer := if s.mCount < 0 then .waking else .idle } := by
  obtain ⟨hcount, hbound, howed⟩ := h
  rw [hp, Producer.pending, Nat.add_zero] at howed
  refine ⟨?_, hbound.trans (Int.le_add_one le_rfl), ?_⟩
  · show s.mCount + 1 + s.consumer.debt + s.acquired = ((s.signalled + 1 : ℕ) : ℤ)
    omega
  · show s.mSema + (if s.mCount < 0 then Producer.waking else .idle).pending = s.consumer.owed (s.mCount + 1)
    split
    · rename_i hneg
      obtain ⟨hzero, hone⟩ := Consumer.owed_of_neg hbound hneg
      rw [howed, hzero, hone]
      rfl
    · rename_i hneg
      rw [howed, s.consumer.owed_of_nonneg (not_lt.1 hneg)]
      rfl

theorem Step.invariant {s s' : State} (hstep : Step s s') (h : Invariant s) : Invariant s' := by
  cases hstep with
  | signal hp => exact h.signal hp
  | wake hp =>
    obtain ⟨hcount, hbound, howed⟩ := h
    rw [hp] at howed
    exact ⟨hcount, hbound, howed⟩
  | tryWait hc =>
    obtain ⟨hcount, hbound, howed⟩ := h
    rw [hc] at hcount hbound howed
    exact ⟨hcount, hbound, howed⟩
  | wait hc =>
    obtain ⟨hcount, hbound, howed⟩ := h
    rw [hc] at hcount hbound howed
    exact ⟨hcount, hbound, howed⟩
  | probe hc =>
    obtain ⟨hcount, hbound, howed⟩ := h
    rw [hc] at hcount hbound howed
    split
    · rename_i hpos
      exact ⟨hcount, hpos, howed⟩
    · exact ⟨hcount, hbound, howed⟩
  | load hc =>
    obtain ⟨hcount, hbound, howed⟩ := h
    rw [hc] at hcount hbound howed
    split
    · rename_i hpos
      exact ⟨hcount, hpos, howed⟩
    · exact ⟨hcount, hbound, howed⟩
  | decrement hc =>
    obtain ⟨hcount, hbound, howed⟩ := h
    rw [hc] at hcount hbound howed
    refine ⟨?_, Int.sub_nonneg_of_le hbound, howed⟩
    show s.mCount - 1 + 0 + ((s.acquired + 1 : ℕ) : ℤ) = s.signalled
    simp only [Consumer.debt] at hcount
    omega
  | subtract hc =>
    obtain ⟨hcount, hbound, howed⟩ := h
    rw [hc] at hcount hbound howed
    simp only [Consumer.debt, Consumer.bound] at hcount hbound
    split
    · rename_i hpos
      refine ⟨?_, Int.sub_nonneg_of_le hpos, howed⟩
      show s.mCount - 1 + 0 + ((s.acquired + 1 : ℕ) : ℤ) = s.signalled
      omega
    · rename_i hneg
      refine ⟨?_, ?_, howed.trans (if_neg ?_).symm⟩
      · show s.mCount - 1 + 1 + s.acquired = s.signalled
        omega
      · show -1 ≤ s.mCount - 1
        omega
      · show ¬0 ≤ s.mCount - 1
        omega
  | awake hc hsema =>
    obtain ⟨hcount, hbound, howed⟩ := h
    rw [hc] at hcount howed
    simp only [Consumer.debt] at hcount
    have hnonneg : 0 ≤ s.mCount := by
      by_contra hneg
      have hzero : s.mSema + s.producer.pending = 0 := howed.trans (if_neg hneg)
      omega
    have hone : s.mSema + s.producer.pending = 1 := howed.trans (if_pos hnonneg)
    refine ⟨?_, hnonneg, ?_⟩
    · show s.mCount + 0 + ((s.acquired + 1 : ℕ) : ℤ) = s.signalled
      omega
    · show s.mSema - 1 + s.producer.pending = 0
      omega
  | giveUp hc =>
    obtain ⟨hcount, hbound, howed⟩ := h
    rw [hc] at hcount hbound howed
    exact ⟨hcount, hbound, howed⟩
  | restore hc =>
    obtain ⟨hcount, hbound, howed⟩ := h
    rw [hc] at hcount hbound howed
    simp only [Consumer.debt, Consumer.bound] at hcount hbound
    have hsum : s.mCount + 1 + 0 + s.acquired = s.signalled := by omega
    split
    · rename_i hneg
      refine ⟨hsum, ?_, howed.trans (if_neg (not_le.2 hneg))⟩
      show 0 ≤ s.mCount + 1
      omega
    · rename_i hneg
      refine ⟨hsum, ?_, howed.trans (if_pos (not_lt.1 hneg))⟩
      show 1 ≤ s.mCount + 1
      omega
  | retry hc =>
    obtain ⟨hcount, hbound, howed⟩ := h
    rw [hc] at hcount hbound howed
    simp only [Consumer.debt, Consumer.bound] at hcount hbound
    have hpos : s.mCount > 0 := hbound
    rw [if_pos hpos]
    refine ⟨?_, Int.sub_nonneg_of_le hpos, howed⟩
    show s.mCount - 1 + 1 + s.acquired = s.signalled
    omega
  | tryAgain hc =>
    obtain ⟨hcount, hbound, howed⟩ := h
    rw [hc] at hcount hbound howed
    simp only [Consumer.debt, Consumer.bound] at hcount hbound
    have hone : s.mSema + s.producer.pending = 1 := howed
    split
    · rename_i hsema
      refine ⟨?_, hbound, ?_⟩
      · show s.mCount + 0 + ((s.acquired + 1 : ℕ) : ℤ) = s.signalled
        omega
      · show s.mSema - 1 + s.producer.pending = 0
        omega
    · refine ⟨hcount, ?_, hone.trans (if_pos hbound).symm⟩
      show -1 ≤ s.mCount
      omega

theorem Run.invariant {s : State} (hrun : Run start s) : Invariant s := by
  induction hrun with
  | refl => exact ⟨rfl, le_rfl, rfl⟩
  | tail _ hstep ih => exact hstep.invariant ih

/-! ### What the semaphore promises -/

theorem Consumer.bound_add_debt (c : Consumer) : -1 ≤ c.bound ∧ 0 ≤ c.bound + c.debt := by
  cases c with
  | loading n => exact ⟨show (-1 : ℤ) ≤ 0 by decide, show (0 : ℤ) ≤ 0 + 0 by decide⟩
  | _ => decide

theorem Run.acquired_le {s : State} (hrun : Run start s) : s.acquired ≤ s.signalled := by
  obtain ⟨hcount, hbound, -⟩ := Run.invariant hrun
  have hsum := s.consumer.bound_add_debt.2
  omega

/-- The number is never below what `signal` asserts.  The thread that waits is not let through more often than there are signals.
Between two calls the number is that of the signals that are left, and nothing is left to wake. -/
theorem Run.accounts {s : State} (hrun : Run start s) : -1 ≤ s.mCount ∧ s.acquired ≤ s.signalled ∧
    (s.consumer = .idle → s.mCount + s.acquired = s.signalled ∧ s.mSema = 0 ∧ s.producer = .idle) := by
  obtain ⟨hcount, hbound, howed⟩ := Run.invariant hrun
  refine ⟨s.consumer.bound_add_debt.1.trans hbound, hrun.acquired_le, fun hc => ?_⟩
  rw [hc] at hcount howed
  have hleft : s.mCount + 0 + s.acquired = s.signalled := hcount
  have hzero : s.mSema + s.producer.pending = 0 := howed
  refine ⟨by omega, by omega, ?_⟩
  cases hp : s.producer with
  | idle => rfl
  | waking =>
    rw [hp, Producer.pending] at hzero
    omega

private theorem run_asleep : Run start ⟨0, 1, .idle, .sleeping, 1, 0⟩ := by
  have hloads : ∀ n, Run start ⟨0, 0, .idle, .loading (spin - n), 0, 0⟩ := by
    intro n
    induction n with
    | zero => exact .single (.wait rfl)
    | succ n ih =>
      cases hspin : spin - n with
      | zero =>
        have hsame : spin - (n + 1) = spin - n := by omega
        rw [hsame]
        exact ih
      | succ m =>
        have hm : spin - (n + 1) = m := by omega
        rw [hspin] at ih
        rw [hm]
        exact ih.tail (.load rfl)
  have hasleep := (hloads spin).tail (.subtract (Nat.sub_self spin ▸ rfl))
  exact (hasleep.tail (.signal rfl)).tail (.wake rfl)

/-- After a wait from which the signal has woken. -/
theorem Run.accounts_signal : ∃ s : State, Run start s ∧ s.acquired = 1 ∧ -1 ≤ s.mCount ∧ s.acquired ≤ s.signalled ∧
    (s.consumer = .idle → s.mCount + s.acquired = s.signalled ∧ s.mSema = 0 ∧ s.producer = .idle) :=
  have hrun := run_asleep.tail (.awake rfl Nat.one_ne_zero)
  ⟨_, hrun, rfl, Run.accounts hrun⟩

/-- The counter of which the queue makes use. -/
def State.sema (s : State) : ℕ := s.signalled - s.acquired

/-- A step does nothing to the counter, or signals, or lets the thread that waits through while the counter is not zero. -/
theorem Step.sema_cases {s s' : State} (hrun : Run start s) (hstep : Step s s') :
    s'.sema = s.sema ∨ s'.signalled = s.signalled + 1 ∧ s'.sema = s.sema + 1 ∨
      s'.acquired = s.acquired + 1 ∧ s.sema ≠ 0 ∧ s'.sema = s.sema - 1 := by
  have hle := hrun.acquired_le
  have hle' := Run.acquired_le (hrun.tail hstep)
  have hcounts : s'.signalled = s.signalled ∧ s'.acquired = s.acquired ∨
      s'.signalled = s.signalled + 1 ∧ s'.acquired = s.acquired ∨
        s'.signalled = s.signalled ∧ s'.acquired = s.acquired + 1 := by
    cases hstep with
    | signal => exact .inr (.inl ⟨rfl, rfl⟩)
    | decrement => exact .inr (.inr ⟨rfl, rfl⟩)
    | awake => exact .inr (.inr ⟨rfl, rfl⟩)
    | subtract =>
      split
      · exact .inr (.inr ⟨rfl, rfl⟩)
      · exact .inl ⟨rfl, rfl⟩
    | tryAgain =>
      split
      · exact .inr (.inr ⟨rfl, rfl⟩)
      · exact .inl ⟨rfl, rfl⟩
    | _ => exact .inl ⟨rfl, rfl⟩
  unfold State.sema
  omega

/-- A call returns after the thread was let through, or if no signal is left. -/
theorem Run.returns_or_empty {s s' : State} (hrun : Run start s) (hstep : Step s s') (hc : s.consumer ≠ .idle)
    (hc' : s'.consumer = .idle) : s'.acquired = s.acquired + 1 ∨ s'.acquired = s.acquired ∧ s.acquired = s.signalled := by
  obtain ⟨hcount, hbound, -⟩ := Run.invariant hrun
  cases hstep with
  | signal => exact absurd hc' hc
  | wake => exact absurd hc' hc
  | tryWait => exact nomatch hc'
  | wait => exact nomatch hc'
  | probe hprobe =>
    rw [hprobe] at hcount hbound
    simp only [Consumer.debt, Consumer.bound] at hcount hbound
    have hnone : ¬s.mCount > 0 := fun hpos => nomatch (if_pos hpos).symm.trans hc'
    exact .inr ⟨rfl, by omega⟩
  | load hload =>
    by_cases hpos : s.mCount > 0
    · exact nomatch (if_pos hpos).symm.trans hc'
    · exact nomatch (if_neg hpos).symm.trans hc'
  | decrement => exact .inl rfl
  | subtract hsubtract =>
    split at hc'
    · rename_i hpos
      rw [if_pos hpos]
      exact .inl rfl
    · exact nomatch hc'
  | awake => exact .inl rfl
  | giveUp => exact nomatch hc'
  | restore hrestore =>
    rw [hrestore] at hcount hbound
    simp only [Consumer.debt, Consumer.bound] at hcount hbound
    have hneg : s.mCount < 0 := by
      by_contra hge
      exact nomatch (if_neg hge).symm.trans hc'
    exact .inr ⟨rfl, by omega⟩
  | retry hretry =>
    by_cases hpos : s.mCount > 0
    · exact nomatch (if_pos hpos).symm.trans hc'
    · exact nomatch (if_neg hpos).symm.trans hc'
  | tryAgain htry =>
    split at hc'
    · rename_i hsema
      rw [if_pos hsema]
      exact .inl rfl
    · exact nomatch hc'

theorem Run.returns_or_empty_start : ∃ s s' : State, Step s s' ∧ s.signalled = 1 ∧
    (s'.acquired = s.acquired + 1 ∨ s'.acquired = s.acquired ∧ s.acquired = s.signalled) := by
  have hstep : Step ⟨0, 1, .idle, .sleeping, 1, 0⟩ _ := .awake rfl Nat.one_ne_zero
  exact ⟨_, _, hstep, rfl, Run.returns_or_empty run_asleep hstep nofun rfl⟩

/-- From `s` the thread that waits can go on until it is let through. -/
def Gets (s : State) : Prop := ∃ s', Run s s' ∧ s'.consumer = .idle ∧ s'.acquired = s.acquired + 1 ∧
  s'.signalled = s.signalled

section Gets

variable {s s' : State}

theorem Gets.of_step (hstep : Step s s') (h : Gets s') (hacquired : s'.acquired = s.acquired)
    (hsignalled : s'.signalled = s.signalled) : Gets s := by
  obtain ⟨t, hrun, hc, ht, ht'⟩ := h
  exact ⟨t, .head hstep hrun, hc, ht.trans (congrArg Nat.succ hacquired), ht'.trans hsignalled⟩

private theorem gets_of_decrementing (hc : s.consumer = .decrementing) : Gets s :=
  ⟨_, .single (.decrement hc), rfl, rfl, rfl⟩

private theorem gets_of_trying (hc : s.consumer = .trying) (hsema : s.mSema ≠ 0) : Gets s := by
  have hstep := Step.tryAgain hc
  rw [if_pos hsema] at hstep
  exact ⟨_, .single hstep, rfl, rfl, rfl⟩

private theorem gets_of_retrying (hc : s.consumer = .retrying) (hpos : s.mCount > 0) (hsema : s.mSema ≠ 0) : Gets s :=
  .of_step (.retry hc) (gets_of_trying (if_pos hpos) hsema) rfl rfl

private theorem gets_of_restoring (hc : s.consumer = .restoring) (hnonneg : 0 ≤ s.mCount) (hsema : s.mSema ≠ 0) : Gets s :=
  .of_step (.restore hc) (gets_of_retrying (if_neg (not_lt.2 hnonneg)) (Int.lt_add_one_of_le hnonneg) hsema) rfl rfl

private theorem gets_of_loading {n : ℕ} (hc : s.consumer = .loading n) (hpos : s.mCount > 0) : Gets s := by
  cases n with
  | zero =>
    have hstep := Step.subtract hc
    rw [if_pos hpos] at hstep
    exact ⟨_, .single hstep, rfl, rfl, rfl⟩
  | succ n => exact .of_step (.load hc) (gets_of_decrementing (if_pos hpos)) rfl rfl

end Gets

/-- While a signal is left and the other thread does nothing, a thread that waits can go on until it is let through. -/
theorem Run.gets_signal {s : State} (hrun : Run start s) (hp : s.producer = .idle) (hleft : s.acquired < s.signalled)
    (hc : s.consumer ≠ .idle) : Gets s := by
  obtain ⟨hcount, hbound, howed⟩ := Run.invariant hrun
  rw [hp, Producer.pending, Nat.add_zero] at howed
  cases hcase : s.consumer with
  | idle => exact absurd hcase hc
  | probing =>
    rw [hcase] at hcount
    simp only [Consumer.debt] at hcount
    have hpos : s.mCount > 0 := by omega
    exact .of_step (.probe hcase) (gets_of_decrementing (if_pos hpos)) rfl rfl
  | loading n =>
    rw [hcase] at hcount
    simp only [Consumer.debt] at hcount
    exact gets_of_loading hcase (by omega)
  | decrementing => exact gets_of_decrementing hcase
  | sleeping =>
    rw [hcase] at hcount howed
    have hnonneg : 0 ≤ s.mCount := by
      simp only [Consumer.debt] at hcount
      omega
    have hone : s.mSema = 1 := howed.trans (if_pos hnonneg)
    exact ⟨_, .single (.awake hcase (hone ▸ Nat.one_ne_zero)), rfl, rfl, rfl⟩
  | restoring =>
    rw [hcase] at hcount howed
    have hnonneg : 0 ≤ s.mCount := by
      simp only [Consumer.debt] at hcount
      omega
    have hone : s.mSema = 1 := howed.trans (if_pos hnonneg)
    exact gets_of_restoring hcase hnonneg (hone ▸ Nat.one_ne_zero)
  | retrying =>
    rw [hcase] at hbound howed
    have hone : s.mSema = 1 := howed
    exact gets_of_retrying hcase hbound (hone ▸ Nat.one_ne_zero)
  | trying =>
    rw [hcase] at howed
    have hone : s.mSema = 1 := howed
    exact gets_of_trying hcase (hone ▸ Nat.one_ne_zero)

theorem Run.gets_signal_asleep : Gets ⟨0, 1, .idle, .sleeping, 1, 0⟩ :=
  Run.gets_signal run_asleep rfl Nat.one_pos nofun

end LightweightSemaphore

end Bouncer
