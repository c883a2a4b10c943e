import Bouncer.Datastructure.Structs
import Bouncer.Library.Fallible

/-!
# UV channels

A mesh has UV channels, each with one entry for every vertex.  `setUVChannel` sets the channel at an index, and fills the
indices below it with empty channels if there are none.  The channels are stored one after the other, and are cut into
pieces of one size again.

So they are the same again exactly if no channel is empty, and the positions at which they are cut are those at which they
were, in spite of being reduced modulo `2 ^ 32` (`splitChannels_eq_iff`).
-/

namespace Bouncer

variable {T : Type}

/-- `channels.resize`. -/
def resizeChannels (channels : List (List T)) (n : ℕ) : List (List T) :=
  channels.take n ++ List.replicate (n - channels.length) []

def setUVChannel (channels : List (List T)) (channel : ℕ) (uvs : List T) : List (List T) :=
  if uvs ≠ [] then (resizeChannels channels (max channels.length (channel + 1))).set channel uvs else channels

/-- The channels after a sequence of calls. -/
def setUVChannels (calls : List (ℕ × List T)) : List (List T) :=
  calls.foldl (fun channels call => setUVChannel channels call.1 call.2) []

inductive SplitFault where
  | divisionByZero
  | readOutside
  deriving DecidableEq

/-- The channels of a mesh that is read, with `count` for `uv_channels_count`. -/
def splitChannels (serialisedChannels : List T) (count : ℤ) : Except SplitFault (List (List T)) :=
  let nChannels := (count % 2 ^ 32).toNat
  if nChannels = 0 then .error .divisionByZero
  else
    let vecPerChannel := serialisedChannels.length / nChannels % 2 ^ 32
    (List.range nChannels).mapM fun i =>
      let offset := i * vecPerChannel % 2 ^ 32
      if offset + vecPerChannel ≤ serialisedChannels.length then
        .ok ((serialisedChannels.drop offset).take vecPerChannel)
      else .error .readOutside

/-- Every channel below one that is set is set, too. -/
def Contiguous (calls : List (ℕ × List T)) : Prop :=
  ∀ call ∈ calls, call.2 ≠ [] → ∀ channel < call.1, ∃ other ∈ calls, other.1 = channel ∧ other.2 ≠ []

/-- At the position at which a channel is cut out, which is reduced modulo `2 ^ 32`, the same entries are found. -/
def Splits (n : ℕ) (channels : List (List T)) : Prop :=
  channels.length < 2 ^ 32 ∧ ∀ i (hi : i < channels.length),
    n < 2 ^ 32 ∧ (channels.flatten.drop (i * n % 2 ^ 32)).take n = channels[i]

/-! ### Setting channels -/

variable {uvs : List T}

private theorem length_setUVChannel (h : uvs ≠ []) (channels : List (List T)) (channel : ℕ) :
    (setUVChannel channels channel uvs).length = max channels.length (channel + 1) := by
  unfold setUVChannel resizeChannels
  rw [if_pos h, List.length_set, List.length_append, List.length_take, List.length_replicate]
  omega

private theorem getElem?_setUVChannel (h : uvs ≠ []) (channels : List (List T)) (channel i : ℕ) :
    (setUVChannel channels channel uvs)[i]? =
      if i = channel then some uvs
      else if i < channels.length then channels[i]? else if i < channel then some [] else none := by
  have hlength := length_setUVChannel h channels channel
  unfold setUVChannel resizeChannels at hlength ⊢
  rw [if_pos h] at hlength ⊢
  rw [List.take_of_length_le (le_max_left _ _)] at hlength ⊢
  by_cases hi : i = channel
  · subst hi
    rw [if_pos rfl, List.getElem?_set_self]
    rw [List.length_set] at hlength
    omega
  · rw [if_neg hi, List.getElem?_set_ne (Ne.symm hi), List.getElem?_append]
    by_cases hold : i < channels.length
    · rw [if_pos hold, if_pos hold]
    · rw [if_neg hold, if_neg hold, List.getElem?_replicate]
      congr 1
      exact propext ⟨fun hlt => by omega, fun hlt => by omega⟩

/-- What the calls have done: there is a channel up to the last index that was set, and those that were set are the ones
that are not empty. -/
structure Channels (calls : List (ℕ × List T)) (channels : List (List T)) : Prop where
  lt_length_iff : ∀ i, i < channels.length ↔ ∃ call ∈ calls, call.2 ≠ [] ∧ i ≤ call.1
  set_iff : ∀ i, (∃ uvs, channels[i]? = some uvs ∧ uvs ≠ []) ↔ ∃ call ∈ calls, call.1 = i ∧ call.2 ≠ []
  mem : ∀ uvs ∈ channels, uvs = [] ∨ ∃ call ∈ calls, call.2 = uvs

variable {channels : List (List T)}

theorem Channels.setUVChannel {calls : List (ℕ × List T)} (h : Channels calls channels)
    (call : ℕ × List T) : Channels (calls ++ [call]) (setUVChannel channels call.1 call.2) := by
  by_cases huvs : call.2 = []
  · have hsame : Bouncer.setUVChannel channels call.1 call.2 = channels := if_neg (not_not_intro huvs)
    rw [hsame]
    constructor
    · intro i
      rw [h.lt_length_iff]
      simp [huvs, or_and_right, exists_or]
    · intro i
      rw [h.set_iff]
      simp [huvs, or_and_right, exists_or]
    · intro uvs hmem
      refine (h.mem uvs hmem).imp_right ?_
      rintro ⟨other, hother, hother'⟩
      exact ⟨other, List.mem_append_left _ hother, hother'⟩
  · have hget := getElem?_setUVChannel huvs channels call.1
    have hlength := length_setUVChannel huvs channels call.1
    constructor
    · intro i
      rw [hlength, lt_max_iff, h.lt_length_iff]
      simp [huvs, or_and_right, exists_or]
    · intro i
      rw [hget]
      by_cases hi : i = call.1
      · rw [if_pos hi]
        exact iff_of_true ⟨_, rfl, huvs⟩ ⟨call, List.mem_append_right _ (List.mem_singleton.2 rfl), hi.symm, huvs⟩
      · have hrest : (∃ other ∈ calls ++ [call], other.1 = i ∧ other.2 ≠ []) ↔
            ∃ other ∈ calls, other.1 = i ∧ other.2 ≠ [] := by
          simp [or_and_right, exists_or, Ne.symm hi]
        rw [if_neg hi, hrest, ← h.set_iff]
        by_cases hold : i < channels.length
        · rw [if_pos hold]
        · rw [if_neg hold, List.getElem?_eq_none (not_lt.1 hold)]
          split <;> simp
    · intro uvs hmem
      obtain ⟨i, hi, hgeti⟩ := List.mem_iff_getElem.1 hmem
      have hgeti : (Bouncer.setUVChannel channels call.1 call.2)[i]? = some uvs := by
        rw [List.getElem?_eq_getElem hi, hgeti]
      rw [hget] at hgeti
      split at hgeti
      · exact .inr ⟨call, List.mem_append_right _ (List.mem_singleton.2 rfl), Option.some.inj hgeti⟩
      · split at hgeti
        · refine (h.mem uvs (List.mem_of_getElem? hgeti)).imp_right ?_
          rintro ⟨other, hother, hother'⟩
          exact ⟨other, List.mem_append_left _ hother, hother'⟩
        · split at hgeti
          · exact .inl (Option.some.inj hgeti).symm
          · exact nomatch hgeti

theorem channels_setUVChannels (calls : List (ℕ × List T)) : Channels calls (setUVChannels calls) := by
  induction calls using List.reverseRecOn with
  | nil => exact ⟨fun i => by simp [setUVChannels], fun i => by simp [setUVChannels], fun _ h => nomatch h⟩
  | append_singleton calls call ih =>
    have hstep : setUVChannels (calls ++ [call]) = Bouncer.setUVChannel (setUVChannels calls) call.1 call.2 := by
      rw [setUVChannels, List.foldl_concat]
      rfl
    rw [hstep]
    exact ih.setUVChannel call

variable {n : ℕ}

section Calls

variable {calls : List (ℕ × List T)} {channels : List (List T)}

theorem Channels.contiguous_iff (h : Channels calls channels) : Contiguous calls ↔ ∀ uvs ∈ channels, uvs ≠ [] := by
  constructor
  · intro hcontiguous uvs hmem
    obtain ⟨i, hi, hget⟩ := List.mem_iff_getElem.1 hmem
    obtain ⟨call, hcall, huvs, hle⟩ := (h.lt_length_iff i).1 hi
    have hset : ∃ other ∈ calls, other.1 = i ∧ other.2 ≠ [] := by
      rcases hle.eq_or_lt with rfl | hlt
      · exact ⟨call, hcall, rfl, huvs⟩
      · exact hcontiguous call hcall huvs i hlt
    obtain ⟨uvs', hget', hne⟩ := (h.set_iff i).2 hset
    rw [List.getElem?_eq_getElem hi, hget] at hget'
    exact Option.some.inj hget' ▸ hne
  · intro hne call hcall huvs channel hlt
    have hi : channel < channels.length := (h.lt_length_iff channel).2 ⟨call, hcall, huvs, hlt.le⟩
    exact (h.set_iff channel).1 ⟨_, List.getElem?_eq_getElem hi, hne _ (List.getElem_mem hi)⟩

/-- Without entries there are no channels: the last one is not empty. -/
theorem Channels.eq_nil_of_flatten (h : Channels calls channels) (hflatten : channels.flatten = []) : channels = [] := by
  by_contra hne
  have hpos : 0 < channels.length := List.length_pos_iff.2 hne
  obtain ⟨call, hcall, huvs, -⟩ := (h.lt_length_iff 0).1 hpos
  obtain ⟨uvs, hget, hne'⟩ := (h.set_iff call.1).2 ⟨call, hcall, rfl, huvs⟩
  exact hne' (List.flatten_eq_nil_iff.1 hflatten uvs (List.mem_of_getElem? hget))

theorem Channels.length_eq (h : Channels calls channels) (hcalls : ∀ call ∈ calls, call.2.length = n)
    (hmem : uvs ∈ channels) (hne : uvs ≠ []) : uvs.length = n := by
  obtain ⟨call, hcall, rfl⟩ := (h.mem uvs hmem).resolve_left hne
  exact hcalls call hcall

end Calls

/-! ### Cutting channels -/

theorem mapM_ok_iff {α β ε : Type} {f : α → Except ε β} {xs : List α} {ys : List β} :
    xs.mapM f = .ok ys ↔ List.Forall₂ (fun x y => f x = .ok y) xs ys := by
  constructor
  · exact Library.Fallible.forall₂_of_mapM
  · intro h
    induction h with
    | nil => rfl
    | cons hx _ ih =>
      rw [List.mapM_cons, hx, ih]
      rfl

private theorem mapM_range_ok_iff {β ε : Type} {f : ℕ → Except ε β} {ys : List β} :
    (List.range n).mapM f = .ok ys ↔ n = ys.length ∧ ∀ i (hi : i < ys.length), f i = .ok ys[i] := by
  rw [mapM_ok_iff, List.forall₂_iff_get]
  constructor
  · rintro ⟨hlength, h⟩
    rw [List.length_range] at hlength
    refine ⟨hlength, fun i hi => ?_⟩
    have hi' : i < (List.range n).length := by rwa [List.length_range, hlength]
    have hfi := h i hi' hi
    rwa [List.get_eq_getElem, List.getElem_range, List.get_eq_getElem] at hfi
  · rintro ⟨hlength, h⟩
    refine ⟨by rwa [List.length_range], fun i _ hi => ?_⟩
    rw [List.get_eq_getElem, List.getElem_range, List.get_eq_getElem]
    exact h i hi

/-- The pieces are inside, if there is a number of pieces at all. -/
theorem exists_splitChannels (serialisedChannels : List T) {count : ℤ} (hcount : (count % 2 ^ 32).toNat ≠ 0) :
    ∃ channels, splitChannels serialisedChannels count = .ok channels := by
  unfold splitChannels
  dsimp only
  rw [if_neg hcount]
  refine Library.Fallible.exists_mapM_iff.2 fun i hi => ?_
  have hi := List.mem_range.1 hi
  generalize (count % 2 ^ 32).toNat = nChannels at hcount hi ⊢
  have hvec : serialisedChannels.length / nChannels % 2 ^ 32 ≤ serialisedChannels.length / nChannels := Nat.mod_le _ _
  have hoffset := Nat.mod_le (i * (serialisedChannels.length / nChannels % 2 ^ 32)) (2 ^ 32)
  have hend : (i + 1) * (serialisedChannels.length / nChannels % 2 ^ 32) ≤ serialisedChannels.length :=
    calc (i + 1) * (serialisedChannels.length / nChannels % 2 ^ 32)
        ≤ nChannels * (serialisedChannels.length / nChannels) := Nat.mul_le_mul hi hvec
      _ ≤ serialisedChannels.length := Nat.mul_div_le _ _
  rw [Nat.succ_mul] at hend
  exact ⟨_, if_pos (by omega)⟩

private theorem splitChannels_ok_iff {serialisedChannels : List T} {count : ℤ} :
    splitChannels serialisedChannels count = .ok channels ↔
      0 < channels.length ∧ (count % 2 ^ 32).toNat = channels.length ∧
      ∀ i (hi : i < channels.length),
        i * (serialisedChannels.length / channels.length % 2 ^ 32) % 2 ^ 32 +
            serialisedChannels.length / channels.length % 2 ^ 32 ≤ serialisedChannels.length ∧
          (serialisedChannels.drop (i * (serialisedChannels.length / channels.length % 2 ^ 32) % 2 ^ 32)).take
            (serialisedChannels.length / channels.length % 2 ^ 32) = channels[i] := by
  unfold splitChannels
  dsimp only
  generalize (count % 2 ^ 32).toNat = nChannels
  by_cases hzero : nChannels = 0
  · rw [if_pos hzero]
    refine iff_of_false nofun ?_
    rintro ⟨hpos, hcount, -⟩
    omega
  · rw [if_neg hzero, mapM_range_ok_iff]
    constructor
    · rintro ⟨rfl, h⟩
      refine ⟨by omega, rfl, fun i hi => ?_⟩
      have hi' := h i hi
      split at hi'
      · next hle => exact ⟨hle, Except.ok.inj hi'⟩
      · exact nomatch hi'
    · rintro ⟨-, rfl, h⟩
      refine ⟨rfl, fun i hi => ?_⟩
      rw [if_pos (h i hi).1, (h i hi).2]

/-- The cast to `int32_t`, and back to `uint32_t`. -/
theorem bmod_emod (m : ℕ) : ((m : ℤ).bmod (2 ^ 32) % 2 ^ 32).toNat = m % 2 ^ 32 := by
  have h : (m : ℤ).bmod (2 ^ 32) % 2 ^ 32 = (m : ℤ) % 2 ^ 32 := Int.bmod_emod
  rw [h]
  omega

private theorem take_drop_flatten (h : ∀ uvs ∈ channels, uvs.length = n) {i : ℕ}
    (hi : i < channels.length) : (channels.flatten.drop (i * n)).take n = channels[i] := by
  induction channels generalizing i with
  | nil => exact absurd hi (Nat.not_lt_zero i)
  | cons uvs channels ih =>
    have hlength : uvs.length = n := h uvs List.mem_cons_self
    rw [List.flatten_cons]
    cases i with
    | zero => rw [Nat.zero_mul, List.drop_zero, List.take_left' hlength, List.getElem_cons_zero]
    | succ i =>
      have hskip : (i + 1) * n = uvs.length + i * n := by rw [hlength, Nat.succ_mul, Nat.add_comm]
      rw [hskip, ← List.drop_drop, List.drop_left' rfl, List.getElem_cons_succ]
      exact ih (fun uvs' hmem => h uvs' (List.mem_cons_of_mem _ hmem)) (Nat.lt_of_succ_lt_succ hi)

/-- As long as the last position is below `2 ^ 32`, all channels are cut out where they are. -/
theorem splits_of_le (h : ∀ uvs ∈ channels, uvs.length = n) (hn : 0 < n)
    (hle : channels.length * n < 2 ^ 32) : Splits n channels := by
  have hlength : channels.length ≤ channels.length * n := Nat.le_mul_of_pos_right _ hn
  refine ⟨by omega, fun i hi => ?_⟩
  have hone : n ≤ channels.length * n := Nat.le_mul_of_pos_left n (Nat.zero_lt_of_lt hi)
  have hposition : i * n ≤ channels.length * n := Nat.mul_le_mul_right n hi.le
  rw [Nat.mod_eq_of_lt (by omega)]
  exact ⟨by omega, take_drop_flatten h hi⟩

theorem splits_nil (n : ℕ) : Splits n ([] : List (List T)) := by
  refine ⟨?_, fun i hi => absurd hi (Nat.not_lt_zero i)⟩
  rw [List.length_nil]
  norm_num

/-- Channels of `n` entries, or none, are the same after being stored and read exactly if no channel is empty, and
each is found where it is cut out. -/
theorem splitChannels_eq_iff (hn : ∀ uvs ∈ channels, uvs ≠ [] → uvs.length = n)
    (hsome : channels.flatten ≠ []) :
    splitChannels channels.flatten ((channels.length : ℤ).bmod (2 ^ 32)) = .ok channels ↔
      (∀ uvs ∈ channels, uvs ≠ []) ∧ Splits n channels := by
  obtain ⟨first, hfirst, hne⟩ : ∃ uvs ∈ channels, uvs ≠ [] := by
    by_contra hall
    exact hsome (List.flatten_eq_nil_iff.2 fun uvs hmem => by_contra fun hne => hall ⟨uvs, hmem, hne⟩)
  have hlength : first.length = n := hn first hfirst hne
  have hnpos : 0 < n := hlength ▸ List.length_pos_iff.2 hne
  have hpos : 0 < channels.length := List.length_pos_of_mem hfirst
  rw [splitChannels_ok_iff, bmod_emod]
  constructor
  · rintro ⟨-, hcount, hcut⟩
    have hlt : channels.length < 2 ^ 32 := hcount ▸ Nat.mod_lt _ (by decide)
    -- all pieces have one size, which is that of a channel that is not empty
    have hsizes : ∀ i (hi : i < channels.length),
        channels[i].length = channels.flatten.length / channels.length % 2 ^ 32 := by
      intro i hi
      have := (hcut i hi).1
      rw [← (hcut i hi).2, List.length_take, List.length_drop]
      omega
    obtain ⟨j, hj, rfl⟩ := List.mem_iff_getElem.1 hfirst
    have hsize : channels.flatten.length / channels.length % 2 ^ 32 = n := (hsizes j hj).symm.trans hlength
    refine ⟨?_, hlt, ?_⟩
    · intro uvs hmem
      obtain ⟨i, hi, rfl⟩ := List.mem_iff_getElem.1 hmem
      apply List.length_pos_iff.1
      rw [hsizes i hi, hsize]
      exact hnpos
    · intro i hi
      have hi' := (hcut i hi).2
      rw [hsize] at hi'
      exact ⟨hsize ▸ Nat.mod_lt _ (by decide), hi'⟩
  · rintro ⟨hall, hlt, hcut⟩
    have htotal : channels.flatten.length = channels.length * n := by
      rw [List.length_flatten, List.eq_replicate_of_mem (a := n) (l := channels.map List.length) ?_, List.sum_replicate]
      · simp
      · intro size hsize
        obtain ⟨uvs, hmem, rfl⟩ := List.mem_map.1 hsize
        exact hn uvs hmem (hall uvs hmem)
    have hsize : channels.flatten.length / channels.length % 2 ^ 32 = n := by
      rw [htotal, Nat.mul_div_cancel_left _ hpos]
      exact Nat.mod_eq_of_lt (hcut 0 hpos).1
    refine ⟨hpos, Nat.mod_eq_of_lt hlt, ?_⟩
    intro i hi
    rw [hsize]
    refine ⟨?_, (hcut i hi).2⟩
    have hmod : i * n % 2 ^ 32 ≤ i * n := Nat.mod_le _ _
    have hnext : (i + 1) * n ≤ channels.length * n := Nat.mul_le_mul_right n hi
    rw [htotal]
    rw [Nat.succ_mul] at hnext
    omega

end Bouncer
