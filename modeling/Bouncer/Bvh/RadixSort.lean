import Bouncer.Library.DigitSort
import Bouncer.Library.Threads
import Bouncer.Library.Tiling

/-!
# The parallel radix sort

`RadixSort::sort_in_parallel` takes some bits of the keys at a time, from the lowest on.  In one iteration each thread
counts the keys of its part of the array in buckets, the counts become the places at which the buckets of the threads
start, and then the threads move their elements to the copy, in any order of their steps.

Every schedule moves an element to the same place (`scatter_eq`), so that an iteration is a stable pass and all of them
together sort by the keys and keep the order of elements with the same key (`Sorts.eq_digitSort`).
-/

namespace Bouncer.RadixSort

open Library (Chains stablePass digitSort place)

variable {V : Type*}

/-- `(key >> bit) & mask`. -/
def bucketOf (bitsPerIteration bit key : ℕ) : ℕ := (key >>> bit) &&& (1 <<< bitsPerIteration - 1)

structure Arrays (V : Type*) where
  keys : ℕ → ℕ
  values : ℕ → V

/-- The keys and values of the first `count` elements. -/
def Arrays.elements (a : Arrays V) (count : ℕ) : List (ℕ × V) := (List.range count).map fun i => (a.keys i, a.values i)

/-- A running sum: each number is replaced by the sum of those before it, and the sum of all is left. -/
def prefixSums : ℕ → List ℕ → List ℕ × ℕ
  | sum, [] => ([], sum)
  | sum, x :: xs => (sum :: (prefixSums (sum + x) xs).1, (prefixSums (sum + x) xs).2)

section Iteration

variable (bitsPerIteration bit : ℕ)

/-- The buckets of a thread after it has counted its chunk. -/
def countBuckets (keys : ℕ → ℕ) (chunk : ℕ × ℕ) : ℕ → ℕ :=
  (List.range' chunk.1 (chunk.2 - chunk.1)).foldl (fun buckets i =>
    Function.update buckets (bucketOf bitsPerIteration bit (keys i))
      (buckets (bucketOf bitsPerIteration bit (keys i)) + 1)) fun _ => 0

/-- The counts of one bucket, thread by thread. -/
def column (keys : ℕ → ℕ) (chunks : List (ℕ × ℕ)) (bucket : ℕ) : List ℕ :=
  chunks.map fun chunk => countBuckets bitsPerIteration bit keys chunk bucket

/-- Where a bucket of the thread with the given number starts: the sums of the bucket over the threads, and of all
buckets before it. -/
def startOf (keys : ℕ → ℕ) (chunks : List (ℕ × ℕ)) (thread bucket : ℕ) : ℕ :=
  (prefixSums 0 (column bitsPerIteration bit keys chunks bucket)).1.getD thread 0 +
    (prefixSums 0 ((List.range (1 <<< bitsPerIteration)).map fun i =>
      (prefixSums 0 (column bitsPerIteration bit keys chunks i)).2)).1.getD bucket 0

/-- A thread while it moves the elements of its chunk. -/
structure Mover where
  thread : ℕ
  next : ℕ
  stop : ℕ
  buckets : ℕ → ℕ

/-- A thread moves one element. -/
inductive Moves (a : Arrays V) : Mover × Arrays V → Mover × Arrays V → Prop
  | element (m : Mover) (copy : Arrays V) : m.next < m.stop →
    Moves a (m, copy)
      ({ m with
          next := m.next + 1
          buckets := Function.update m.buckets (bucketOf bitsPerIteration bit (a.keys m.next))
            (m.buckets (bucketOf bitsPerIteration bit (a.keys m.next)) + 1) },
        { keys := Function.update copy.keys (m.buckets (bucketOf bitsPerIteration bit (a.keys m.next))) (a.keys m.next)
          values :=
            Function.update copy.values (m.buckets (bucketOf bitsPerIteration bit (a.keys m.next))) (a.values m.next) })

/-- The threads before they move anything. -/
def movers (keys : ℕ → ℕ) (chunks : List (ℕ × ℕ)) : List Mover :=
  chunks.zipIdx.map fun p => ⟨p.2, p.1.1, p.1.2, startOf bitsPerIteration bit keys chunks p.2⟩

/-- One iteration: with some division of the array among the threads, they move all elements in some order. -/
def Iteration (count : ℕ) (a copy' : Arrays V) : Prop :=
  ∃ chunks copy ms, Chains 0 chunks count ∧
    Library.Threads.Run (Moves bitsPerIteration bit a) (movers bitsPerIteration bit a.keys chunks, copy) (ms, copy') ∧
    ∀ m ∈ ms, m.next = m.stop

end Iteration

/-- `sort_in_parallel` from some bit on. -/
inductive Sorts (bitsPerIteration count bitCount : ℕ) : ℕ → Arrays V → Arrays V → Prop
  | done {bit : ℕ} (a : Arrays V) : bitCount ≤ bit → Sorts bitsPerIteration count bitCount bit a a
  | iteration {bit : ℕ} {a copy a' : Arrays V} : bit < bitCount → Iteration bitsPerIteration bit count a copy →
    Sorts bitsPerIteration count bitCount (bit + bitsPerIteration) copy a' →
    Sorts bitsPerIteration count bitCount bit a a'

/-! ### Counting -/

private theorem bucketOf_eq (bitsPerIteration bit key : ℕ) :
    bucketOf bitsPerIteration bit key = key / 2 ^ bit % 2 ^ bitsPerIteration := by
  unfold bucketOf
  rw [Nat.one_shiftLeft, Nat.and_two_pow_sub_one_eq_mod, Nat.shiftRight_eq_div_pow]

private theorem prefixSums_append (sum : ℕ) (xs ys : List ℕ) :
    prefixSums sum (xs ++ ys) =
      ((prefixSums sum xs).1 ++ (prefixSums (sum + xs.sum) ys).1, (prefixSums (sum + xs.sum) ys).2) := by
  induction xs generalizing sum with
  | nil => rfl
  | cons x xs ih =>
    rw [List.cons_append, prefixSums, ih, prefixSums, List.sum_cons, Nat.add_assoc]
    rfl

@[simp] theorem length_prefixSums (sum : ℕ) (xs : List ℕ) : (prefixSums sum xs).1.length = xs.length := by
  induction xs generalizing sum with
  | nil => rfl
  | cons x xs ih => simp [prefixSums, ih]

private theorem prefixSums_sum (sum : ℕ) (xs : List ℕ) : (prefixSums sum xs).2 = sum + xs.sum := by
  induction xs generalizing sum with
  | nil => rfl
  | cons x xs ih => rw [prefixSums, ih, List.sum_cons, Nat.add_assoc]

private theorem prefixSums_getD (xs ys : List ℕ) (y : ℕ) : (prefixSums 0 (xs ++ y :: ys)).1.getD xs.length 0 = xs.sum := by
  rw [prefixSums_append, Nat.zero_add, prefixSums]
  simp [List.getD_eq_getElem?_getD]

/-- The number of elements from `begin` to `stop` in one bucket. -/
def countIn (bitsPerIteration bit : ℕ) (keys : ℕ → ℕ) (begin stop bucket : ℕ) : ℕ :=
  (List.range' begin (stop - begin)).countP fun i => bucketOf bitsPerIteration bit (keys i) = bucket

variable {bitsPerIteration bit : ℕ} {keys : ℕ → ℕ}

private theorem countIn_append {begin middle stop : ℕ} (hb : begin ≤ middle) (hs : middle ≤ stop) (bucket : ℕ) :
    countIn bitsPerIteration bit keys begin stop bucket =
      countIn bitsPerIteration bit keys begin middle bucket + countIn bitsPerIteration bit keys middle stop bucket := by
  unfold countIn
  rw [← Library.range'_sub_append hb hs, List.countP_append]

private theorem countIn_succ {begin stop : ℕ} (h : begin ≤ stop) (bucket : ℕ) :
    countIn bitsPerIteration bit keys begin (stop + 1) bucket =
      countIn bitsPerIteration bit keys begin stop bucket +
        if bucketOf bitsPerIteration bit (keys stop) = bucket then 1 else 0 := by
  rw [countIn_append h (Nat.le_succ stop)]
  congr 1
  have hone : stop + 1 - stop = 1 := Nat.add_sub_cancel_left stop 1
  unfold countIn
  rw [hone]
  simp [List.countP_cons]

private theorem countBuckets_eq (chunk : ℕ × ℕ) (bucket : ℕ) :
    countBuckets bitsPerIteration bit keys chunk bucket = countIn bitsPerIteration bit keys chunk.1 chunk.2 bucket := by
  unfold countBuckets countIn
  generalize List.range' chunk.1 (chunk.2 - chunk.1) = l
  have hfold : ∀ buckets : ℕ → ℕ, l.foldl (fun buckets i =>
      Function.update buckets (bucketOf bitsPerIteration bit (keys i))
        (buckets (bucketOf bitsPerIteration bit (keys i)) + 1)) buckets bucket =
      buckets bucket + l.countP fun i => bucketOf bitsPerIteration bit (keys i) = bucket := by
    induction l with
    | nil => exact fun _ => rfl
    | cons i l ih =>
      intro buckets
      rw [List.foldl_cons, ih, List.countP_cons]
      by_cases hi : bucketOf bitsPerIteration bit (keys i) = bucket
      · subst hi
        simp only [Function.update_self, decide_true, if_true]
        omega
      · rw [Function.update_of_ne (Ne.symm hi)]
        simp [hi]
  rw [hfold, Nat.zero_add]

private theorem sum_column {begin stop : ℕ} {chunks : List (ℕ × ℕ)} (h : Chains begin chunks stop) (bucket : ℕ) :
    begin ≤ stop ∧
      (column bitsPerIteration bit keys chunks bucket).sum = countIn bitsPerIteration bit keys begin stop bucket := by
  induction chunks generalizing begin with
  | nil =>
    obtain rfl : begin = stop := h
    refine ⟨le_rfl, ?_⟩
    unfold countIn
    rw [Nat.sub_self]
    rfl
  | cons chunk chunks ih =>
    obtain ⟨rfl, hle, h⟩ := h
    obtain ⟨hle', hsum⟩ := ih h
    refine ⟨hle.trans hle', ?_⟩
    unfold column at hsum ⊢
    rw [List.map_cons, List.sum_cons, hsum, countBuckets_eq, ← countIn_append hle hle']

private theorem countP_lt_succ (f : ℕ → ℕ) (l : List ℕ) (bucket : ℕ) :
    l.countP (fun i => f i < bucket + 1) = l.countP (fun i => f i < bucket) + l.countP fun i => f i = bucket := by
  induction l with
  | nil => rfl
  | cons i l ih =>
    simp only [List.countP_cons, decide_eq_true_eq]
    split_ifs <;> omega

private theorem sum_smaller (keys : ℕ → ℕ) (count bucket : ℕ) :
    ((List.range bucket).map fun i => countIn bitsPerIteration bit keys 0 count i).sum =
      (List.range count).countP fun i => bucketOf bitsPerIteration bit (keys i) < bucket := by
  induction bucket with
  | zero => simp
  | succ bucket ih =>
    rw [List.range_succ, List.map_append, List.sum_append, ih, List.map_singleton, List.sum_singleton, countP_lt_succ]
    unfold countIn
    rw [Nat.sub_zero, ← List.range_eq_range']

private theorem bucketOf_lt (bitsPerIteration bit key : ℕ) : bucketOf bitsPerIteration bit key < 1 <<< bitsPerIteration := by
  rw [bucketOf_eq, Nat.one_shiftLeft]
  exact Nat.mod_lt _ (Nat.two_pow_pos _)

/-- Where a bucket of a thread starts: after the smaller buckets, and after what earlier threads have in it. -/
theorem startOf_eq (bit : ℕ) (keys : ℕ → ℕ) {count bucket : ℕ} {chunks₁ chunks₂ : List (ℕ × ℕ)} {chunk : ℕ × ℕ}
    (h : Chains 0 (chunks₁ ++ chunk :: chunks₂) count) (hbucket : bucket < 1 <<< bitsPerIteration) :
    startOf bitsPerIteration bit keys (chunks₁ ++ chunk :: chunks₂) chunks₁.length bucket =
      countIn bitsPerIteration bit keys 0 chunk.1 bucket +
        (List.range count).countP fun i => bucketOf bitsPerIteration bit (keys i) < bucket := by
  have hthreads : (prefixSums 0 (column bitsPerIteration bit keys (chunks₁ ++ chunk :: chunks₂) bucket)).1.getD
      chunks₁.length 0 = countIn bitsPerIteration bit keys 0 chunk.1 bucket := by
    have hgetD := prefixSums_getD (column bitsPerIteration bit keys chunks₁ bucket)
      (column bitsPerIteration bit keys chunks₂ bucket) (countBuckets bitsPerIteration bit keys chunk bucket)
    have hlength : (column bitsPerIteration bit keys chunks₁ bucket).length = chunks₁.length := by simp [column]
    rw [hlength, (sum_column h.split.1 bucket).2] at hgetD
    rw [← hgetD]
    unfold column
    rw [List.map_append, List.map_cons]
  have htotal : ∀ i, (prefixSums 0 (column bitsPerIteration bit keys (chunks₁ ++ chunk :: chunks₂) i)).2 =
      countIn bitsPerIteration bit keys 0 count i := by
    intro i
    rw [prefixSums_sum, Nat.zero_add, (sum_column h i).2]
  unfold startOf
  rw [hthreads]
  congr 1
  simp only [htotal]
  obtain ⟨k, hk⟩ := Nat.exists_eq_add_of_lt hbucket
  have hrange : List.range (1 <<< bitsPerIteration) = List.range bucket ++ bucket :: List.range' (bucket + 1) k := by
    have happend : List.range' 0 bucket ++ List.range' (0 + bucket) (k + 1) = List.range' 0 (bucket + (k + 1)) :=
      List.range'_append_1
    rw [Nat.zero_add] at happend
    rw [hk, List.range_eq_range', List.range_eq_range', ← List.range'_succ, happend, Nat.add_assoc]
  have hgetD := prefixSums_getD ((List.range bucket).map fun i => countIn bitsPerIteration bit keys 0 count i)
    ((List.range' (bucket + 1) k).map fun i => countIn bitsPerIteration bit keys 0 count i)
    (countIn bitsPerIteration bit keys 0 count bucket)
  rw [List.length_map, List.length_range] at hgetD
  rw [hrange, List.map_append, List.map_cons, hgetD, sum_smaller]

/-! ### One iteration -/

variable {a copy copy' : Arrays V} {count : ℕ}

/-- Where the element at `i` is moved to. -/
def target (bitsPerIteration bit : ℕ) (keys : ℕ → ℕ) (count i : ℕ) : ℕ :=
  countIn bitsPerIteration bit keys 0 i (bucketOf bitsPerIteration bit (keys i)) +
    (List.range count).countP fun k => bucketOf bitsPerIteration bit (keys k) < bucketOf bitsPerIteration bit (keys i)

@[simp] theorem length_elements (a : Arrays V) (count : ℕ) : (a.elements count).length = count := by
  simp [Arrays.elements]

private theorem elements_getElem? (a : Arrays V) {i : ℕ} (hi : i < count) :
    (a.elements count)[i]? = some (a.keys i, a.values i) := by
  simp [Arrays.elements, hi]

private theorem target_eq_place (a : Arrays V) {i : ℕ} (hi : i < count) :
    target bitsPerIteration bit a.keys count i =
      place (fun x => bucketOf bitsPerIteration bit x.1) (a.elements count) i (a.keys i, a.values i) := by
  have htake : (a.elements count).take i = (List.range i).map fun k => (a.keys k, a.values k) := by
    unfold Arrays.elements
    rw [← List.map_take, List.take_range, Nat.min_eq_left (Nat.le_of_lt hi)]
  unfold target place
  rw [htake, Nat.add_comm]
  unfold Arrays.elements countIn
  rw [List.countP_map, List.countP_map, Nat.sub_zero, ← List.range_eq_range']
  rfl

private theorem target_inj (a : Arrays V) {i j : ℕ} (hi : i < count) (hj : j < count)
    (h : target bitsPerIteration bit a.keys count i = target bitsPerIteration bit a.keys count j) : i = j := by
  rw [target_eq_place a hi, target_eq_place a hj] at h
  exact Library.place_inj (elements_getElem? a hi) (elements_getElem? a hj) h

/-- What a thread knows: its buckets are at the targets of its next elements, and the elements before are moved. -/
def Moving (bitsPerIteration bit count : ℕ) (a : Arrays V) (chunks : List (ℕ × ℕ)) (m : Mover) (copy : Arrays V) : Prop :=
  ∃ chunk, chunks[m.thread]? = some chunk ∧ m.stop = chunk.2 ∧ chunk.1 ≤ m.next ∧ m.next ≤ m.stop ∧
    (∀ bucket < 1 <<< bitsPerIteration, m.buckets bucket = countIn bitsPerIteration bit a.keys 0 m.next bucket +
      (List.range count).countP fun i => bucketOf bitsPerIteration bit (a.keys i) < bucket) ∧
    ∀ i, chunk.1 ≤ i → i < m.next → copy.keys (target bitsPerIteration bit a.keys count i) = a.keys i ∧
      copy.values (target bitsPerIteration bit a.keys count i) = a.values i

/-- What a thread may do to the copy: it writes to the target of one of its elements. -/
def Writes (bitsPerIteration bit count : ℕ) (a : Arrays V) (chunks : List (ℕ × ℕ)) (thread : ℕ) (copy copy' : Arrays V) :
    Prop :=
  ∃ chunk i, chunks[thread]? = some chunk ∧ chunk.1 ≤ i ∧ i < chunk.2 ∧
    ∀ p, p ≠ target bitsPerIteration bit a.keys count i → copy'.keys p = copy.keys p ∧ copy'.values p = copy.values p

variable {chunks : List (ℕ × ℕ)}

private theorem moving_movers (hchunks : Chains 0 chunks count) :
    ∀ m ∈ movers bitsPerIteration bit a.keys chunks, Moving bitsPerIteration bit count a chunks m copy := by
  intro m hm
  obtain ⟨⟨chunk, k⟩, hp, rfl⟩ := List.mem_map.1 hm
  have hk : chunks[k]? = some chunk := List.mk_mem_zipIdx_iff_getElem?.1 hp
  obtain ⟨hlt, hget⟩ := List.getElem?_eq_some_iff.1 hk
  have hsplit : chunks = chunks.take k ++ chunk :: chunks.drop (k + 1) := by
    rw [← hget, ← List.drop_eq_getElem_cons hlt, List.take_append_drop]
  have hlength : (chunks.take k).length = k := by
    rw [List.length_take]
    exact Nat.min_eq_left (Nat.le_of_lt hlt)
  have hbounds := hchunks.mem_bounds (List.mem_of_getElem? hk)
  refine ⟨chunk, hk, rfl, Nat.le_refl _, hbounds.2.1, fun bucket hbucket => ?_, fun i hi hi' => ?_⟩
  · have hstart := startOf_eq bit a.keys (hsplit ▸ hchunks) hbucket
    rw [hlength, ← hsplit] at hstart
    exact hstart
  · exact absurd hi (Nat.not_le.2 hi')

private theorem moving_step (hchunks : Chains 0 chunks count) {m m' : Mover}
    (hstep : Moves bitsPerIteration bit a (m, copy) (m', copy')) (hm : Moving bitsPerIteration bit count a chunks m copy) :
    m'.thread = m.thread ∧ Moving bitsPerIteration bit count a chunks m' copy' ∧
      Writes bitsPerIteration bit count a chunks m.thread copy copy' := by
  cases hstep with | element _ _ hlt =>
  obtain ⟨chunk, hk, hstop, hb, hs, hbuckets, hmoved⟩ := hm
  have hbounds := hchunks.mem_bounds (List.mem_of_getElem? hk)
  have hwrite : m.buckets (bucketOf bitsPerIteration bit (a.keys m.next)) =
      target bitsPerIteration bit a.keys count m.next := hbuckets _ (bucketOf_lt _ _ _)
  refine ⟨rfl, ⟨chunk, hk, hstop, hb.trans (Nat.le_succ _), hlt, fun bucket hbucket => ?_, fun i hi hi' => ?_⟩,
    ⟨chunk, m.next, hk, hb, hstop ▸ hlt, fun p hp => ?_⟩⟩
  · show Function.update m.buckets _ _ bucket = countIn bitsPerIteration bit a.keys 0 (m.next + 1) bucket + _
    rw [countIn_succ (Nat.zero_le _)]
    by_cases he : bucketOf bitsPerIteration bit (a.keys m.next) = bucket
    · subst he
      rw [Function.update_self, hbuckets _ hbucket, if_pos rfl]
      omega
    · rw [Function.update_of_ne (Ne.symm he), if_neg he, hbuckets _ hbucket, Nat.add_zero]
  · show Function.update copy.keys _ _ _ = _ ∧ Function.update copy.values _ _ _ = _
    rw [hwrite]
    by_cases he : i = m.next
    · subst he
      rw [Function.update_self, Function.update_self]
      exact ⟨rfl, rfl⟩
    · have hlt' : i < m.next := by
        have : i < m.next + 1 := hi'
        omega
      have hne : target bitsPerIteration bit a.keys count i ≠ target bitsPerIteration bit a.keys count m.next :=
        fun heq => he (target_inj a (by omega) (by omega) heq)
      rw [Function.update_of_ne hne, Function.update_of_ne hne]
      exact hmoved i hi hlt'
  · show Function.update copy.keys _ _ p = _ ∧ Function.update copy.values _ _ p = _
    rw [hwrite, Function.update_of_ne hp, Function.update_of_ne hp]
    exact ⟨rfl, rfl⟩

/-- A thread does not write to the targets of the others. -/
private theorem moving_stable (hchunks : Chains 0 chunks count) {thread : ℕ} {m : Mover} (hne : m.thread ≠ thread)
    (hwrites : Writes bitsPerIteration bit count a chunks thread copy copy')
    (hm : Moving bitsPerIteration bit count a chunks m copy) : Moving bitsPerIteration bit count a chunks m copy' := by
  obtain ⟨chunk, hk, hstop, hb, hs, hbuckets, hmoved⟩ := hm
  obtain ⟨chunk', j, hk', hj, hj', hframe⟩ := hwrites
  have hbounds := hchunks.mem_bounds (List.mem_of_getElem? hk)
  have hbounds' := hchunks.mem_bounds (List.mem_of_getElem? hk')
  refine ⟨chunk, hk, hstop, hb, hs, hbuckets, fun i hi hi' => ?_⟩
  have hapart : ∀ {k k' : ℕ} {c c' : ℕ × ℕ}, chunks[k]? = some c → chunks[k']? = some c' → k < k' → c.2 ≤ c'.1 := by
    intro k k' c c' hc hc' hlt
    obtain ⟨hltk, hget⟩ := List.getElem?_eq_some_iff.1 hc
    have hsplit : chunks = chunks.take k ++ c :: chunks.drop (k + 1) := by
      rw [← hget, ← List.drop_eq_getElem_cons hltk, List.take_append_drop]
    have hafter := (hsplit ▸ hchunks).split.2.2
    refine (hafter.mem_bounds (List.mem_iff_getElem?.2 ⟨k' - (k + 1), ?_⟩)).1
    rw [List.getElem?_drop, ← hc']
    congr 1
    omega
  have hij : i ≠ j := by
    rintro rfl
    rcases Nat.lt_or_gt_of_ne hne with hlt | hlt
    · have := hapart hk hk' hlt
      omega
    · have := hapart hk' hk hlt
      omega
  have htarget : target bitsPerIteration bit a.keys count i ≠ target bitsPerIteration bit a.keys count j :=
    fun heq => hij (target_inj a (by omega) (by omega) heq)
  obtain ⟨hkeys, hvalues⟩ := hframe _ htarget
  rw [hkeys, hvalues]
  exact hmoved i hi hi'

/-- Whatever the division of the array and the order of the steps are, an iteration is a stable pass. -/
theorem Iteration.eq_stablePass (h : Iteration bitsPerIteration bit count a copy') :
    copy'.elements count = stablePass (2 ^ bitsPerIteration) (fun x => bucketOf bitsPerIteration bit x.1)
      (a.elements count) := by
  obtain ⟨chunks, copy, ms, hchunks, hrun, hdone⟩ := h
  have hnames : (movers bitsPerIteration bit a.keys chunks).map Mover.thread = List.range chunks.length := by
    unfold movers
    rw [List.map_map, List.range_eq_range', ← List.zipIdx_map_snd 0 chunks]
    rfl
  have hsame : ms.map Mover.thread = List.range chunks.length := by
    refine hrun.invariant (fun c => c.1.map Mover.thread = List.range chunks.length) ?_ hnames
    intro ls₁ ls₂ l l' s s' hstep hmap
    cases hstep with | element _ _ _ =>
    rw [← hmap, List.map_append, List.map_append, List.map_cons, List.map_cons]
  have hmoving := (hrun.rely_guarantee Mover.thread (Moving bitsPerIteration bit count a chunks) (fun _ => True)
    (Writes bitsPerIteration bit count a chunks)
    (fun m m' s s' hstep _ hm => by
      obtain ⟨h1, h2, h3⟩ := moving_step hchunks hstep hm
      exact ⟨h1, trivial, h2, h3⟩)
    (fun thread m s s' hne hwrites hm => moving_stable hchunks hne hwrites hm)
    (by rw [hnames]; exact List.nodup_range) trivial (moving_movers hchunks)).2
  have hbuckets : ∀ x ∈ a.elements count, bucketOf bitsPerIteration bit x.1 < 2 ^ bitsPerIteration := fun x _ => by
    rw [← Nat.one_shiftLeft]
    exact bucketOf_lt _ _ _
  have hplaced : ∀ i x, (a.elements count)[i]? = some x →
      (copy'.keys (place (fun x => bucketOf bitsPerIteration bit x.1) (a.elements count) i x),
        copy'.values (place (fun x => bucketOf bitsPerIteration bit x.1) (a.elements count) i x)) = x := by
    intro i x hx
    have hi : i < count := by
      have := (List.getElem?_eq_some_iff.1 hx).1
      rwa [length_elements] at this
    obtain rfl : (a.keys i, a.values i) = x := Option.some.inj ((elements_getElem? a hi).symm.trans hx)
    rw [← target_eq_place a hi]
    -- the thread of the chunk with this element has moved it
    obtain ⟨k, chunk, hk, hb, hs⟩ := hchunks.exists_mem (Nat.zero_le i) hi
    have hmem : k ∈ ms.map Mover.thread := by
      rw [hsame]
      exact List.mem_range.2 (List.getElem?_eq_some_iff.1 hk).1
    obtain ⟨m, hm, rfl⟩ := List.mem_map.1 hmem
    obtain ⟨chunk', hk', hstop, -, -, -, hmoved⟩ := hmoving m hm
    obtain rfl : chunk' = chunk := Option.some.inj (hk'.symm.trans hk)
    obtain ⟨hkeys, hvalues⟩ := hmoved i hb (by rw [hdone m hm, hstop]; exact hs)
    rw [hkeys, hvalues]
  have hpass := Library.map_eq_stablePass (fun p => (copy'.keys p, copy'.values p)) hbuckets hplaced
  rw [length_elements] at hpass
  exact hpass

/-! ### All iterations -/

/-- All iterations are one pass for each digit. -/
theorem Sorts.eq_digitSort (hbits : 0 < bitsPerIteration) {bitCount : ℕ} {a' : Arrays V}
    (h : Sorts bitsPerIteration count bitCount 0 a a') :
    a'.elements count = digitSort (2 ^ bitsPerIteration) Prod.fst ((bitCount + bitsPerIteration - 1) / bitsPerIteration)
      (a.elements count) := by
  have hloop : ∀ {bit : ℕ} {b b' : Arrays V}, Sorts bitsPerIteration count bitCount bit b b' → ∀ k,
      bit = bitsPerIteration * k → bit < bitCount + bitsPerIteration →
      b.elements count = digitSort (2 ^ bitsPerIteration) Prod.fst k (a.elements count) →
      b'.elements count = digitSort (2 ^ bitsPerIteration) Prod.fst
        ((bitCount + bitsPerIteration - 1) / bitsPerIteration) (a.elements count) := by
    intro bit b b' h
    induction h with
    | done b hle =>
      rintro k rfl hlt hb
      have hk : (bitCount + bitsPerIteration - 1) / bitsPerIteration = k := by
        rw [Nat.div_eq_iff hbits]
        have hmul := Nat.mul_comm bitsPerIteration k
        omega
      rw [hb, hk]
    | iteration hlt hiteration _ ih =>
      rintro k rfl hlt' hb
      refine ih (k + 1) (Nat.mul_succ _ _).symm (by omega) ?_
      rw [hiteration.eq_stablePass, hb, Library.digitSort_succ]
      congr 1
      funext x
      rw [bucketOf_eq, Nat.pow_mul]
  exact hloop h 0 (Nat.mul_zero _).symm (by omega) rfl

/-- A sort by one thread. -/
theorem exists_sorts (hbits : 0 < bitsPerIteration) (count bitCount : ℕ) (a : Arrays V) :
    ∃ a', Sorts bitsPerIteration count bitCount 0 a a' := by
  have hiteration : ∀ bit (a : Arrays V), ∃ copy', Iteration bitsPerIteration bit count a copy' := by
    intro bit a
    have hmove : ∀ k (m : Mover) copy, m.stop = m.next + k →
        ∃ m' copy', Relation.ReflTransGen (Moves bitsPerIteration bit a) (m, copy) (m', copy') ∧ m'.next = m'.stop := by
      intro k
      induction k with
      | zero => exact fun m copy hm => ⟨m, copy, .refl, hm.symm⟩
      | succ k ih =>
        intro m copy hm
        have hlt : m.next < m.stop := by omega
        have hstop : m.stop = m.next + 1 + k := by omega
        have hstep : Moves bitsPerIteration bit a (m, copy) _ := .element m copy hlt
        obtain ⟨m', copy', hrest, hdone⟩ := ih { m with
          next := m.next + 1
          buckets := Function.update m.buckets (bucketOf bitsPerIteration bit (a.keys m.next))
            (m.buckets (bucketOf bitsPerIteration bit (a.keys m.next)) + 1) } _ hstop
        exact ⟨m', copy', .head hstep hrest, hdone⟩
    obtain ⟨m', copy', hrun, hdone⟩ := hmove count ⟨0, 0, count, startOf bitsPerIteration bit a.keys [(0, count)] 0⟩ a
      (Nat.zero_add _).symm
    refine ⟨copy', [(0, count)], a, [m'], ⟨rfl, Nat.zero_le _, rfl⟩, Library.Threads.Run.of_thread [] [] hrun, ?_⟩
    intro m hm
    obtain rfl := List.mem_singleton.1 hm
    exact hdone
  have hloop : ∀ k bit (a : Arrays V), bitCount ≤ bit + k → ∃ a', Sorts bitsPerIteration count bitCount bit a a' := by
    intro k
    induction k with
    | zero => exact fun bit a hle => ⟨a, .done a hle⟩
    | succ k ih =>
      intro bit a hle
      by_cases hlt : bit < bitCount
      · obtain ⟨copy, hcopy⟩ := hiteration bit a
        obtain ⟨a', ha'⟩ := ih (bit + bitsPerIteration) copy (by omega)
        exact ⟨a', .iteration hlt hcopy ha'⟩
      · exact ⟨a, .done a (by omega)⟩
  exact hloop bitCount 0 a (by omega)

/-- The sort orders by the keys, and elements with the same key keep their order. -/
theorem Sorts.keys_sorted (hbits : 0 < bitsPerIteration) {bitCount : ℕ} {a' : Arrays V}
    (hkeys : ∀ i < count, a.keys i < 2 ^ bitCount) (h : Sorts bitsPerIteration count bitCount 0 a a') :
    (a'.elements count).Perm (a.elements count) ∧ ((a'.elements count).Pairwise fun x y => x.1 ≤ y.1) ∧
      ∀ k, ((a'.elements count).filter fun x => x.1 = k) = (a.elements count).filter fun x => x.1 = k := by
  rw [h.eq_digitSort hbits]
  set passes := (bitCount + bitsPerIteration - 1) / bitsPerIteration with hpasses
  have hpow : 2 ^ bitCount ≤ (2 ^ bitsPerIteration) ^ passes := by
    rw [← Nat.pow_mul]
    refine Nat.pow_le_pow_right (Nat.succ_pos 1) ?_
    have hmod := Nat.div_add_mod (bitCount + bitsPerIteration - 1) bitsPerIteration
    have hlt := Nat.mod_lt (bitCount + bitsPerIteration - 1) hbits
    rw [← hpasses] at hmod
    omega
  have hperm := Library.digitSort_perm (Nat.two_pow_pos bitsPerIteration) Prod.fst passes (a.elements count)
  refine ⟨hperm, ?_, fun k => Library.digitSort_filter (Nat.two_pow_pos _) Prod.fst passes k _⟩
  have hall : (a.elements count).Pairwise fun _ _ => True := List.pairwise_of_forall fun _ _ => trivial
  refine (Library.digitSort_pairwise (Nat.two_pow_pos bitsPerIteration) Prod.fst passes hall).imp_of_mem ?_
  intro x y hx hy hxy
  have hsmall : ∀ z ∈ digitSort (2 ^ bitsPerIteration) Prod.fst passes (a.elements count),
      z.1 % (2 ^ bitsPerIteration) ^ passes = z.1 := by
    intro z hz
    obtain ⟨i, hi, rfl⟩ := List.mem_map.1 (hperm.mem_iff.1 hz)
    exact Nat.mod_eq_of_lt ((hkeys i (List.mem_range.1 hi)).trans_le hpow)
  rw [hsmall x hx, hsmall y hy] at hxy
  omega

/-- Three keys in descending order. -/
theorem keys_sorted_three : ∃ a', Sorts 10 3 10 0 ⟨fun i => 5 - i, id⟩ a' ∧
    (a'.elements 3).Perm [(5, 0), (4, 1), (3, 2)] ∧ (a'.elements 3).Pairwise fun x y => x.1 ≤ y.1 := by
  obtain ⟨a', h⟩ := exists_sorts (Nat.succ_pos 9) 3 10 (⟨fun i => 5 - i, id⟩ : Arrays ℕ)
  obtain ⟨hperm, hsorted, -⟩ := h.keys_sorted (Nat.succ_pos 9) fun i _ => by
    show 5 - i < 2 ^ 10
    omega
  exact ⟨a', h, hperm, hsorted⟩

end Bouncer.RadixSort
