import Bouncer.Import.AsyncImpl

/-!
# The semaphore of the scene builder

If there is too much in the queue, `push` sends a `Notify` and waits for the semaphore, which the other thread releases for
each such message.  It is a binary semaphore: it counts to one, and may be released only after it was acquired.

A wait that times out leaves its message behind, and the next turn of the loop sends another one.  The other thread answers
both of them, the second one while the first thread may still not have acquired the first release.  The semaphore is safe in
all runs in which no message is sent before the last one was answered and its release acquired, and in no other state
(`releasedOnce`).  This is so if no wait times out (`PatientRun.clearRun`).
-/

namespace Bouncer

open Relation (ReflTransGen)

namespace RepoSceneBuilder

namespace AsyncImpl

variable {U M : Type}

/-- `release` of a semaphore. -/
def release (counter : ℕ) : ℕ := counter + 1

/-- The binary semaphore counts to one, and is not released while it has not been acquired since the last time. -/
structure ReleasedOnce (s : State U M) : Prop where
  counter : s.block ≤ 1
  acquired : ∀ c, s.consumer = .visiting c → c.object = .notify → s.block = 0

/-- The releases that the first thread has asked for and not acquired. -/
def outstanding (s : State U M) : ℕ := s.block + notifies (flight s)

variable (sizes : NodeSizes U M)

/-- `push` puts a `Notify` into the queue. -/
def Notifies (s s' : State U M) : Prop := ∃ c, s.producer = .notifying c ∧ s'.producer = .acquiring c

/-- `push` goes on without having acquired the semaphore. -/
def TimesOut (s s' : State U M) : Prop :=
  ∃ c, s.producer = .acquiring c ∧ s'.producer = .checking c ∧ s'.block = s.block

/-- A step that asks for a release only if no other one is outstanding. -/
def ClearStep (s s' : State U M) : Prop := Step sizes release s s' ∧ (Notifies s s' → outstanding s = 0)

def ClearRun : State U M → State U M → Prop := ReflTransGen (ClearStep sizes)

/-- A step in which no wait times out. -/
def PatientStep (s s' : State U M) : Prop := Step sizes release s s' ∧ ¬ TimesOut s s'

def PatientRun : State U M → State U M → Prop := ReflTransGen (PatientStep sizes)

variable {sizes} {s s' : State U M}

theorem ClearRun.run (h : ClearRun sizes s s') : Run sizes release s s' := by
  induction h with
  | refl => exact ReflTransGen.refl
  | tail _ hstep ih => exact ih.tail hstep.1

theorem PatientRun.run (h : PatientRun sizes s s') : Run sizes release s s' := by
  induction h with
  | refl => exact ReflTransGen.refl
  | tail _ hstep ih => exact ih.tail hstep.1

/-! ### What is outstanding -/

private theorem outstanding_frame (producer : Producer U M) {consumer : Consumer U M} {queue : List (Consumable U M)}
    (queueSize : ℕ) (pushed : List (Item U M)) (hflight : taken consumer ++ queue = flight s) :
    outstanding { s with
      producer := producer, consumer := consumer, queue := queue, queueSize := queueSize, pushed := pushed } =
    outstanding s := by
  change s.block + notifies (taken consumer ++ queue) = _
  rw [hflight, outstanding]

private theorem notifies_eq_zero_of_offered (haccounted : Accounted sizes s) {c : Consumable U M}
    (hc : c ∈ offered s.producer) : notifies [c] = 0 := by
  rcases haccounted.offered c hc with rfl | ⟨i, -, rfl⟩
  · rfl
  · cases i <;> rfl

private theorem outstanding_visit {c : Consumable U M} (hvisiting : s.consumer = .visiting c) :
    outstanding (visit release s c) = outstanding s := by
  have hflight : flight s = c :: s.queue := by
    rw [flight, hvisiting]
    rfl
  rw [outstanding, outstanding, hflight, notifies_cons]
  obtain ⟨object, size⟩ := c
  cases object with
  | item i => exact congrArg _ (Nat.zero_add _).symm
  | close => exact congrArg _ (Nat.zero_add _).symm
  | notify => exact Nat.add_assoc s.block 1 _

/-- Only the first thread asks for a release. -/
theorem outstanding_step (haccounted : Accounted sizes s) (hstep : Step sizes release s s') :
    outstanding s' ≤ outstanding s ∨ Notifies s s' ∧ outstanding s' = outstanding s + 1 := by
  cases hstep with
  | notify hnotifying =>
    right
    refine ⟨⟨_, hnotifying, rfl⟩, ?_⟩
    change s.block + notifies (taken s.consumer ++ (s.queue ++ [⟨.notify, 0⟩])) = _
    rw [← List.append_assoc, notifies_append]
    rfl
  | acquire hacquiring hblock =>
    left
    apply Nat.add_le_add_right
    exact Nat.sub_le _ _
  | enqueue henqueuing =>
    rename_i c
    left
    have hzero : notifies [c] = 0 := by
      apply notifies_eq_zero_of_offered haccounted
      rw [henqueuing]
      exact List.mem_singleton_self c
    change s.block + notifies (taken s.consumer ++ (s.queue ++ [c])) ≤ _
    rw [← List.append_assoc, notifies_append, hzero]
    exact le_rfl
  | dequeue hwaiting hqueue =>
    left
    apply (outstanding_frame s.producer s.queueSize s.pushed _).le
    rw [flight, hwaiting, hqueue]
    rfl
  | subtract hsubtracting =>
    left
    apply (outstanding_frame s.producer _ s.pushed _).le
    rw [flight, hsubtracting]
    rfl
  | visit hvisiting => exact .inl (outstanding_visit hvisiting).le
  | push | destroy | check | timeout | add | join => exact .inl (outstanding_frame _ _ _ rfl).le

private theorem releasedOnce_of_outstanding (h : outstanding s ≤ 1) : ReleasedOnce s where
  counter := (Nat.le_add_right _ _).trans h
  acquired c hvisiting hobject := by
    rw [outstanding, flight, hvisiting, taken, List.singleton_append, notifies_cons] at h
    have hone : notifies [c] = 1 := by
      obtain ⟨object, size⟩ := c
      obtain rfl : object = .notify := hobject
      rfl
    omega

theorem ClearRun.outstanding_le_one (h : ClearRun sizes start s) : outstanding s ≤ 1 := by
  induction h with
  | refl => exact Nat.zero_le 1
  | tail hrun hstep ih =>
    obtain ⟨hstep, hclear⟩ := hstep
    have haccounted := Run.accounted (ClearRun.run hrun)
    rcases outstanding_step haccounted hstep with hle | ⟨hnotifies, heq⟩
    · exact hle.trans ih
    · rw [heq, hclear hnotifies]

/-! ### Runs in which no wait times out -/

/-- The release that the first thread is waiting for. -/
def awaited : Producer U M → ℕ
  | .acquiring _ => 1
  | _ => 0

private theorem outstanding_le_awaited_step (haccounted : Accounted sizes s) (h : outstanding s ≤ awaited s.producer)
    (hstep : PatientStep sizes s s') : outstanding s' ≤ awaited s'.producer := by
  obtain ⟨hstep, hpatient⟩ := hstep
  rcases outstanding_step haccounted hstep with hle | ⟨⟨c, hnotifying, hacquiring⟩, heq⟩
  · cases hstep with
    | timeout hacquiring => exact absurd ⟨_, hacquiring, rfl, rfl⟩ hpatient
    | acquire hacquiring hblock =>
      rw [hacquiring] at h
      change s.block + notifies (flight s) ≤ 1 at h
      change s.block - 1 + notifies (flight s) ≤ 0
      omega
    | visit =>
      rw [producer_visit]
      exact hle.trans h
    | dequeue | subtract => exact hle.trans h
    | push _ hproducer | destroy hproducer | check hproducer | notify hproducer | add hproducer | enqueue hproducer
    | join hproducer =>
      rw [hproducer] at h
      exact hle.trans (h.trans (Nat.zero_le _))
  · rw [hnotifying] at h
    rw [heq, hacquiring]
    exact Nat.succ_le_succ h

theorem PatientRun.outstanding_le_awaited (h : PatientRun sizes start s) : outstanding s ≤ awaited s.producer := by
  induction h with
  | refl => exact le_rfl
  | tail hrun hstep ih => exact outstanding_le_awaited_step (Run.accounted (PatientRun.run hrun)) ih hstep

/-- Without a timeout, nothing is outstanding when the next release is asked for. -/
theorem PatientRun.clearRun (h : PatientRun sizes start s) : ClearRun sizes start s := by
  induction h with
  | refl => exact ReflTransGen.refl
  | tail hrun hstep ih =>
    refine ih.tail ⟨hstep.1, ?_⟩
    rintro ⟨c, hnotifying, -⟩
    have hle := PatientRun.outstanding_le_awaited hrun
    rw [hnotifying] at hle
    exact Nat.le_zero.mp hle

/-! ### Two releases -/

private theorem release_iterate (n counter : ℕ) : release^[n] counter = counter + n := by
  induction n with
  | zero => rfl
  | succ n ih => rw [Function.iterate_succ_apply', ih, release, Nat.add_assoc]

private theorem exists_not_releasedOnce (hrun : Run sizes release start s) {c : Consumable U M}
    (hnotifying : s.producer = .notifying c) (hout : outstanding s ≠ 0) :
    ∃ t, Run sizes release { s with producer := .acquiring c, queue := s.queue ++ [⟨.notify, 0⟩] } t ∧
      ¬ ReleasedOnce t := by
  have hpending : ¬ Closed s.producer := by
    rw [hnotifying]
    exact id
  obtain ⟨hstopped, hfirst⟩ := hrun.closing.pending hpending
  obtain ⟨u, hu, -, hstopped', hflight, hblock⟩ := exists_drained sizes release
    (s := { s with producer := .acquiring c, queue := s.queue ++ [⟨.notify, 0⟩] }) hstopped
    (List.append_assoc _ _ _).symm hfirst
  obtain ⟨t, ht, -, hvisiting, -, hblock'⟩ := exists_visiting sizes release hstopped' hflight
  refine ⟨t, ReflTransGen.trans hu ht, ?_⟩
  intro hreleased
  have hzero := hreleased.acquired _ hvisiting rfl
  have hsum : t.block = outstanding s := by
    rw [hblock', hblock]
    exact release_iterate _ _
  omega

/-- The semaphore is released only after it was acquired, in every run in which no message asks for a release while another
one is outstanding.  Any step that does may be followed by a release too many. -/
theorem releasedOnce (sizes : NodeSizes U M) :
    (∀ s, ClearRun sizes start s → ReleasedOnce s) ∧
    ∀ s s', Run sizes release start s → Step sizes release s s' → ¬ ClearStep sizes s s' →
      ∃ t, Run sizes release s' t ∧ ¬ ReleasedOnce t := by
  refine ⟨fun s h => releasedOnce_of_outstanding h.outstanding_le_one, ?_⟩
  intro s s' hrun hstep hclear
  obtain ⟨⟨c, hnotifying, hacquiring⟩, hout⟩ := Classical.not_imp.mp fun h => hclear ⟨hstep, h⟩
  cases hstep with
  | notify hproducer => exact exists_not_releasedOnce hrun hproducer hout
  | push _ hproducer | destroy hproducer | check hproducer | acquire hproducer | timeout hproducer | add hproducer
  | enqueue hproducer | join hproducer =>
    rw [hnotifying] at hproducer
    cases hproducer
  | dequeue | subtract =>
    rw [hnotifying] at hacquiring
    cases hacquiring
  | visit =>
    rw [producer_visit, hnotifying] at hacquiring
    cases hacquiring

/-! ### Two large nodes -/

/-- Every node takes 300 MB. -/
def largeSizes : NodeSizes ℕ ℕ := ⟨fun _ => 314572800, fun _ => by decide⟩

def node : SceneNode ℕ ℕ := ⟨.given 0, .given 1, ∅, .other⟩

theorem ClearStep.of_ne (hstep : Step sizes release s s') (hproducer : ∀ c, s.producer ≠ .notifying c) :
    ClearStep sizes s s' := by
  refine ⟨hstep, ?_⟩
  rintro ⟨c, hnotifying, -⟩
  exact absurd hnotifying (hproducer c)

private theorem clearRun_acquiring :
    ClearRun largeSizes start ⟨.acquiring ⟨.item (.insert node), 314572800⟩, .waiting,
      [⟨.item (.insert node), 314572800⟩, ⟨.notify, 0⟩], 314572800, 0, [.insert node, .insert node], []⟩ := by
  have hroom : maxQueueSize 314572800 = 209715200 := by decide
  have hcheck : Step largeSizes release
      (⟨.checking ⟨.item (.insert node), 314572800⟩, .waiting, [], 0, 0, [.insert node], []⟩ : State ℕ ℕ) _ := .check rfl
  rw [if_neg (Nat.not_lt_zero _)] at hcheck
  have hfull : Step largeSizes release
      (⟨.checking ⟨.item (.insert node), 314572800⟩, .waiting, [⟨.item (.insert node), 314572800⟩], 314572800, 0,
        [.insert node, .insert node], []⟩ : State ℕ ℕ) _ := .check rfl
  rw [if_pos (by rw [hroom]; decide)] at hfull
  have hpush : ClearRun largeSizes start
      (⟨.idle, .waiting, [⟨.item (.insert node), 314572800⟩], 314572800, 0, [.insert node], []⟩ : State ℕ ℕ) :=
    (((ReflTransGen.single (.of_ne (.push (.insert node) rfl) nofun)).tail (.of_ne hcheck nofun)).tail
      (.of_ne (.add rfl) nofun)).tail (.of_ne (.enqueue (c := consumable largeSizes (.insert node)) rfl) nofun)
  have hnotifying := (hpush.tail (.of_ne (.push (.insert node) rfl) nofun)).tail (.of_ne hfull nofun)
  exact hnotifying.tail ⟨.notify rfl, fun _ => rfl⟩

/-- The other thread takes the first node, and answers. -/
theorem releasedOnce_answered :
    ∃ s, ClearRun largeSizes start s ∧ s.producer = .acquiring ⟨.item (.insert node), 314572800⟩ ∧ s.block = 1 ∧
      ReleasedOnce s := by
  have hsubtract : ∀ (c : Consumable ℕ ℕ) (queue : List (Consumable ℕ ℕ)) (consumed : List (Item ℕ ℕ)),
      c.size < 2 ^ 64 →
      ClearStep largeSizes
        ⟨.acquiring ⟨.item (.insert node), 314572800⟩, .subtracting c, queue, c.size, 0, [.insert node, .insert node],
          consumed⟩
        ⟨.acquiring ⟨.item (.insert node), 314572800⟩, .visiting c, queue, 0, 0, [.insert node, .insert node],
          consumed⟩ := by
    intro c queue consumed hlt
    have hzero : (c.size + (2 ^ 64 - c.size)) % 2 ^ 64 = 0 := by
      rw [Nat.add_sub_cancel' hlt.le, Nat.mod_self]
    have hstep : Step largeSizes release
        ⟨.acquiring ⟨.item (.insert node), 314572800⟩, .subtracting c, queue, c.size, 0, [.insert node, .insert node],
          consumed⟩ _ := .subtract rfl
    rw [hzero] at hstep
    exact .of_ne hstep nofun
  have hconsumed : ClearRun largeSizes start
      (⟨.acquiring ⟨.item (.insert node), 314572800⟩, .waiting, [⟨.notify, 0⟩], 0, 0, [.insert node, .insert node],
        [.insert node]⟩ : State ℕ ℕ) :=
    ((clearRun_acquiring.tail (.of_ne (.dequeue rfl rfl) nofun)).tail
      (hsubtract ⟨.item (.insert node), 314572800⟩ [⟨.notify, 0⟩] [] (by decide))).tail
      (.of_ne (.visit (c := ⟨.item (.insert node), 314572800⟩) rfl) nofun)
  have hanswered := ((hconsumed.tail (.of_ne (.dequeue rfl rfl) nofun)).tail
    (hsubtract ⟨.notify, 0⟩ [] [.insert node] (by decide))).tail (.of_ne (.visit (c := ⟨.notify, 0⟩) rfl) nofun)
  exact ⟨_, hanswered, rfl, rfl, (releasedOnce largeSizes).1 _ hanswered⟩

/-- A wait times out while the other thread is busy, and the next turn of the loop asks for another release. -/
theorem not_releasedOnce_timeout : ¬ ∀ s, Run largeSizes release start s → ReleasedOnce s := by
  intro hall
  have hfull : Step largeSizes release
      (⟨.checking ⟨.item (.insert node), 314572800⟩, .waiting, [⟨.item (.insert node), 314572800⟩, ⟨.notify, 0⟩],
        314572800, 0, [.insert node, .insert node], []⟩ : State ℕ ℕ) _ := .check rfl
  rw [if_pos (by decide)] at hfull
  have hnotifying := (clearRun_acquiring.run.tail (.timeout rfl)).tail hfull
  obtain ⟨t, ht, hnot⟩ := exists_not_releasedOnce hnotifying rfl Nat.one_ne_zero
  exact hnot (hall t ((hnotifying.tail (.notify rfl)).trans ht))

end AsyncImpl

end RepoSceneBuilder

end Bouncer
