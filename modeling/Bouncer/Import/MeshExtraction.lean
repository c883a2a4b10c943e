import Bouncer.Import.MeshBuilder

/-!
# Extracting meshes more than once

`RepoMeshBuilder` has its meshes by their formats, and a pointer to the one that was used last.  `extractMeshes` releases the
meshes and forgets them, but not this pointer.  The next face of the same format is added to the mesh that was released.

Of calls for faces of one format, all do what they are to do exactly if no face is added after an extraction of others, and the
vertices of each extraction can be counted (`survives_iff`).
-/

namespace Bouncer.RepoMeshBuilder

open Library.Fallible (bind_eq_ok)

variable {R : Type}

/-- The instances of `mesh_data_t` in the order of their allocation, with their formats.  One that was deleted is `none`. -/
abbrev Heap (R : Type) := List (Option (BitVec 32 × MeshData R))

structure Builder (R : Type) where
  heap : Heap R
  meshes : AList fun _ : BitVec 32 => ℕ
  currentMesh : Option ℕ

def Builder.new : Builder R := ⟨[], ∅, none⟩

/-- A call throws, or reads an instance that was deleted. -/
inductive Fault where
  | released
  | failed (failure : Failure)

/-- The order in which the entries of an `unordered_map` are iterated. -/
structure Iteration where
  order : List ℕ → List ℕ
  perm : ∀ pointers, (order pointers).Perm pointers

def deref (heap : Heap R) (p : ℕ) : Except Fault (BitVec 32 × MeshData R) :=
  match heap[p]? with
  | some (some meshData) => .ok meshData
  | _ => .error .released

/-- The current mesh, if it has this format. -/
def Builder.cached (b : Builder R) (format : BitVec 32) : Except Fault (Option ℕ) :=
  match b.currentMesh with
  | none => .ok none
  | some p => (deref b.heap p).map fun meshData => if meshData.1 = format then some p else none

/-- Look the mesh up, or make it. -/
def Builder.find (b : Builder R) (format : BitVec 32) : Builder R × ℕ :=
  match b.meshes.lookup format with
  | some p => ({ b with currentMesh := some p }, p)
  | none =>
    (⟨b.heap ++ [some (format, MeshData.empty)], b.meshes.insert format b.heap.length, some b.heap.length⟩, b.heap.length)

def Builder.startOrContinueMeshByFormat (b : Builder R) (format : BitVec 32) : Except Fault (Builder R × ℕ) :=
  (b.cached format).map fun cached => match cached with
    | some p => (b, p)
    | none => b.find format

section Calls

variable [ExactReal R] (rounding : Rounding R) (offset : RepoVector3D R)

def Builder.addFace (b : Builder R) (bf : Face R) : Except Fault (Builder R) :=
  if bf.getSize = 0 then .error (.failed .geometryProcessing)
  else do
    let r ← b.startOrContinueMeshByFormat bf.getFormat
    let meshData ← deref r.1.heap r.2
    if bf.hasUvs ∧ ¬ bf.hasNormals then .error (.failed .geometryProcessing)
    else return { r.1 with heap := r.1.heap.set r.2 (some (meshData.1, meshData.2.addFace offset bf)) }

/-- The loop of `extractMeshes`.  A mesh without vertices is skipped, and not deleted. -/
def extractAll (m : RepoMatrix R) : Heap R → List ℕ → Except Fault (Heap R × List (MeshGeometry R))
  | heap, [] => .ok (heap, [])
  | heap, p :: ps => do
    let meshData ← deref heap p
    if meshData.2.vertexMap.vertices.length = 0 then extractAll m heap ps
    else do
      let node ← (meshData.2.extract rounding m).mapError .failed
      let rest ← extractAll m (heap.set p none) ps
      return (rest.1, node :: rest.2)

def Builder.extractMeshes (I : Iteration) (b : Builder R) (m : RepoMatrix R) :
    Except Fault (Builder R × List (MeshGeometry R)) := do
  let r ← extractAll rounding m b.heap (I.order (b.meshes.entries.map Sigma.snd))
  return ({ b with heap := r.1, meshes := ∅ }, r.2)

end Calls

/-! ### Runs -/

inductive Call (R : Type) where
  | addFace (bf : Face R)
  | extractMeshes (m : RepoMatrix R)

section Runs

variable [ExactReal R] (I : Iteration) (rounding : Rounding R) (offset : RepoVector3D R)

/-- What the extractions give, unless a call fails. -/
def Builder.run : Builder R → List (Call R) → Except Fault (List (List (MeshGeometry R)))
  | _, [] => .ok []
  | b, .addFace bf :: calls => do
    let b ← b.addFace offset bf
    run b calls
  | b, .extractMeshes m :: calls => do
    let r ← b.extractMeshes rounding I m
    let rest ← run r.1 calls
    return r.2 :: rest

/-- The extractions, each with the faces that were added since the one before it. -/
def batches : List (Face R) → List (Call R) → List (RepoMatrix R × List (Face R))
  | _, [] => []
  | faces, .addFace bf :: calls => batches (faces ++ [bf]) calls
  | faces, .extractMeshes m :: calls => (m, faces) :: batches [] calls

/-- The faces of the meshes are drawn as those that were added. -/
def Shows (nodes : List (MeshGeometry R)) (batch : RepoMatrix R × List (Face R)) : Prop :=
  (nodes.flatMap fun node => node.faces.map (RepoMeshBuilder.appearance node)) =
    batch.2.map (Face.appearance rounding offset batch.1)

/-- No call fails, and each extraction gives the faces that were added since the one before it. -/
def SurvivesFrom (b : Builder R) (faces : List (Face R)) (calls : List (Call R)) : Prop :=
  ∃ results, b.run I rounding offset calls = .ok results ∧ List.Forall₂ (Shows rounding offset) results (batches faces calls)

def Survives (calls : List (Call R)) : Prop := SurvivesFrom I rounding offset Builder.new [] calls

end Runs

inductive Kind where
  | add
  | extract
  deriving DecidableEq

def Call.kind : Call R → Kind
  | .addFace _ => .add
  | .extractMeshes _ => .extract

/-- The vertices of the faces of each extraction can be counted with an `int`. -/
def Counted (batches : List (RepoMatrix R × List (Face R))) : Prop :=
  ∀ batch ∈ batches, (batch.2.map Face.getSize).sum < 2 ^ 31

/-- A face of one to three vertices, with a UV and a normal for each of them, or without UVs. -/
structure Face.Addable (bf : Face R) : Prop where
  size_pos : 0 < bf.getSize
  uvs : bf.uvs = [] ∨ (bf.getSize = 3 ∧ bf.uvs.length = 3)

/-- A face of this vertex format can be added. -/
structure Face.Of (size : ℕ) (hasUvs : Bool) (bf : Face R) : Prop where
  addable : bf.Addable
  size : bf.getSize = size
  hasUvs : bf.hasUvs = hasUvs

/-- The calls are for faces of one format, and `operator*` does not exit for the matrices. -/
structure OneFormat [ExactReal R] (rounding : Rounding R) (size : ℕ) (hasUvs : Bool) (calls : List (Call R)) : Prop where
  face : ∀ bf, .addFace bf ∈ calls → bf.Of size hasUvs
  matrix : ∀ m, .extractMeshes m ∈ calls → Usable rounding m

theorem OneFormat.tail [ExactReal R] {rounding : Rounding R} {size : ℕ} {hasUvs : Bool} {call : Call R} {calls : List (Call R)}
    (h : OneFormat rounding size hasUvs (call :: calls)) : OneFormat rounding size hasUvs calls where
  face bf hbf := h.face bf (List.mem_cons_of_mem _ hbf)
  matrix m hm := h.matrix m (List.mem_cons_of_mem _ hm)

variable {bf : Face R}

theorem Face.Addable.complete (h : bf.Addable) : bf.Complete := by
  intro huvs
  rcases h.uvs with hnone | ⟨hsize, hthree⟩
  · rw [Face.hasUvs_eq_false_iff.2 hnone] at huvs
    cases huvs
  · rw [hsize, hthree]

theorem Face.Addable.not_refused (h : bf.Addable) : ¬ (bf.hasUvs ∧ ¬ bf.hasNormals) := by
  rintro ⟨huvs, hnormals⟩
  rcases h.uvs with hnone | ⟨hsize, -⟩
  · rw [Face.hasUvs_eq_false_iff.2 hnone] at huvs
    cases huvs
  · exact hnormals (decide_eq_true hsize)

/-- The format of a face of this size. -/
def formatOf (size : ℕ) : BitVec 32 := (1 : BitVec 32) ||| BitVec.ofNat 32 size <<< 8

theorem Face.Of.format {size : ℕ} {hasUvs : Bool} (h : bf.Of size hasUvs) : bf.getFormat = formatOf size := by
  rw [getFormat_eq, h.size]
  rfl

/-! ### One call -/

variable {meshData : MeshData R}

section Steps

variable [ExactReal R] {I : Iteration} {rounding : Rounding R} {offset : RepoVector3D R} {size : ℕ} {hasUvs : Bool} {bf : Face R}
  {b : Builder R} {faces : List (Face R)} {m : RepoMatrix R}

/-- There is one mesh, of the faces that were added, and it is the current one. -/
structure Collecting (offset : RepoVector3D R) (size : ℕ) (hasUvs : Bool) (faces : List (Face R)) (b : Builder R)
    (meshData : MeshData R) : Prop where
  heap : b.heap = [some (formatOf size, meshData)]
  meshes : b.meshes.entries.map Sigma.snd = [0]
  currentMesh : b.currentMesh = some 0
  collected : Collected offset size hasUvs faces meshData
  ne_nil : faces ≠ []
  face : ∀ bf ∈ faces, bf.Of size hasUvs

/-- The mesh was released, and is still the current one. -/
structure Released (b : Builder R) : Prop where
  heap : b.heap = [none]
  meshes : b.meshes = ∅
  currentMesh : b.currentMesh = some 0

private theorem addFace_new (offset : RepoVector3D R) (h : bf.Of size hasUvs) :
    ∃ b meshData, Builder.new.addFace offset bf = .ok b ∧ Collecting offset size hasUvs [bf] b meshData := by
  have hempty : Collected offset size hasUvs [] MeshData.empty := collected_empty size hasUvs
  have hcollected := hempty.addFace h.addable.complete h.size h.hasUvs
  refine ⟨⟨[some (formatOf size, MeshData.empty.addFace offset bf)], AList.insert (formatOf size) 0 ∅, some 0⟩, _, ?_,
    ⟨rfl, rfl, rfl, hcollected, List.cons_ne_nil _ _, ?_⟩⟩
  · unfold Builder.addFace
    rw [if_neg h.addable.size_pos.ne', h.format]
    show (if bf.hasUvs ∧ ¬ bf.hasNormals then _ else _) = _
    rw [if_neg h.addable.not_refused]
    rfl
  · intro bf' hbf'
    rwa [List.mem_singleton.1 hbf']

theorem Collecting.addFace (hb : Collecting offset size hasUvs faces b meshData)
    (h : bf.Of size hasUvs) :
    ∃ b' meshData', b.addFace offset bf = .ok b' ∧ Collecting offset size hasUvs (faces ++ [bf]) b' meshData' := by
  have hcollected := hb.collected.addFace h.addable.complete h.size h.hasUvs
  refine ⟨{ b with heap := [some (formatOf size, meshData.addFace offset bf)] }, _, ?_,
    ⟨rfl, hb.meshes, hb.currentMesh, hcollected, by simp, ?_⟩⟩
  · have hcached : b.cached (formatOf size) = .ok (some 0) := by
      unfold Builder.cached
      rw [hb.currentMesh, hb.heap]
      show Except.ok (if formatOf size = formatOf size then some 0 else none) = _
      rw [if_pos rfl]
    unfold Builder.addFace Builder.startOrContinueMeshByFormat
    rw [if_neg h.addable.size_pos.ne', h.format, hcached]
    show (deref b.heap 0 >>= _) = _
    rw [hb.heap]
    show (if bf.hasUvs ∧ ¬ bf.hasNormals then _ else _) = _
    rw [if_neg h.addable.not_refused]
    rfl
  · intro bf' hbf'
    rcases List.mem_append.1 hbf' with hold | hnew
    · exact hb.face bf' hold
    · rwa [List.mem_singleton.1 hnew]

private theorem Released.addFace (hb : Released b) (offset : RepoVector3D R) (h : bf.Of size hasUvs) :
    b.addFace offset bf = .error .released := by
  unfold Builder.addFace Builder.startOrContinueMeshByFormat Builder.cached
  rw [if_neg h.addable.size_pos.ne', hb.currentMesh, hb.heap]
  rfl

private theorem order_nil (I : Iteration) : I.order [] = [] := (I.perm []).eq_nil

private theorem order_singleton (I : Iteration) (p : ℕ) : I.order [p] = [p] := List.perm_singleton.1 (I.perm [p])

section CollectingBuilder

variable (hb : Collecting offset size hasUvs faces b meshData)
include hb

theorem Collecting.size_pos : 0 < size := by
  obtain ⟨bf, hbf⟩ := List.exists_mem_of_ne_nil _ hb.ne_nil
  have h := hb.face bf hbf
  rw [← h.size]
  exact h.addable.size_pos

theorem Collecting.sum_getSize :
    (faces.map Face.getSize).sum = size * faces.length := by
  have hsame : ∀ n ∈ faces.map Face.getSize, n = size := by
    intro n hn
    obtain ⟨bf, hbf, rfl⟩ := List.mem_map.1 hn
    exact (hb.face bf hbf).size
  rw [List.eq_replicate_of_mem hsame, List.sum_replicate, List.length_map, smul_eq_mul, Nat.mul_comm]

theorem Collecting.length_vertices :
    0 < meshData.vertexMap.vertices.length := by
  rw [hb.collected.length]
  exact Nat.mul_pos hb.size_pos (List.length_pos_iff.2 hb.ne_nil)

private theorem Collecting.extractMeshes
    (I : Iteration) (rounding : Rounding R) (hm : Usable rounding m) (hcount : (faces.map Face.getSize).sum < 2 ^ 31) :
    ∃ b' nodes, b.extractMeshes rounding I m = .ok (b', nodes) ∧ Released b' ∧ Shows rounding offset nodes (m, faces) := by
  have hpos := hb.size_pos
  have hlength := hb.length_vertices
  have hextract : meshData.extract rounding m = .ok (extracted rounding m meshData) :=
    hb.collected.extract hm.vertices (.inl hm.normals) (by rwa [← hb.sum_getSize])
  refine ⟨{ b with heap := [none], meshes := ∅ }, [extracted rounding m meshData], ?_, ⟨rfl, rfl, hb.currentMesh⟩, ?_⟩
  · unfold Builder.extractMeshes
    rw [hb.heap, hb.meshes, order_singleton]
    show ((if meshData.vertexMap.vertices.length = 0 then _ else _) >>= _) = _
    rw [if_neg (by omega), hextract]
    rfl
  · show [extracted rounding m meshData].flatMap _ = _
    rw [List.flatMap_singleton]
    exact hb.collected.appearance (fun bf hbf => (hb.face bf hbf).size) (fun bf hbf => (hb.face bf hbf).hasUvs) hb.ne_nil hpos

theorem Collecting.not_extractMeshes
    (I : Iteration) (rounding : Rounding R) (m : RepoMatrix R) (hcount : ¬ (faces.map Face.getSize).sum < 2 ^ 31) :
    ∃ e, b.extractMeshes rounding I m = .error e := by
  have hpos := hb.length_vertices
  have hextract : ∃ e, meshData.extract rounding m = .error e := by
    cases h : meshData.extract rounding m with
    | error e => exact ⟨e, rfl⟩
    | ok node =>
      have hlt := (extract_ok h).2.1
      rw [hb.collected.length, ← hb.sum_getSize] at hlt
      exact absurd hlt hcount
  obtain ⟨e, he⟩ := hextract
  refine ⟨.failed e, ?_⟩
  unfold Builder.extractMeshes
  rw [hb.heap, hb.meshes, order_singleton]
  show ((if meshData.vertexMap.vertices.length = 0 then _ else _) >>= _) = _
  rw [if_neg (by omega), he]
  rfl

end CollectingBuilder

private theorem extractMeshes_new : Builder.new.extractMeshes rounding I m = .ok (Builder.new, []) := by
  unfold Builder.extractMeshes
  show extractAll rounding m [] (I.order []) >>= _ = _
  rw [order_nil]
  rfl

theorem Released.extractMeshes (hb : Released b) (I : Iteration) (rounding : Rounding R) (m : RepoMatrix R) :
    ∃ b', b.extractMeshes rounding I m = .ok (b', []) ∧ Released b' := by
  refine ⟨{ b with meshes := ∅ }, ?_, ⟨hb.heap, rfl, hb.currentMesh⟩⟩
  unfold Builder.extractMeshes
  rw [hb.meshes]
  show extractAll rounding m b.heap (I.order []) >>= _ = _
  rw [order_nil]
  rfl

end Steps

/-! ### Whole runs -/

section Exact

variable [ExactReal R] {I : Iteration} {rounding : Rounding R} {offset : RepoVector3D R} {size : ℕ} {hasUvs : Bool} {bf : Face R}
  {b b' : Builder R} {faces : List (Face R)} {m : RepoMatrix R} {calls : List (Call R)}

private theorem survivesFrom_addFace (h : b.addFace offset bf = .ok b') :
    SurvivesFrom I rounding offset b faces (.addFace bf :: calls) ↔ SurvivesFrom I rounding offset b' (faces ++ [bf]) calls := by
  unfold SurvivesFrom
  rw [Builder.run, h]
  rfl

private theorem not_survivesFrom_addFace {e : Fault} (h : b.addFace offset bf = .error e) :
    ¬ SurvivesFrom I rounding offset b faces (.addFace bf :: calls) := by
  rintro ⟨results, hrun, -⟩
  unfold Builder.run at hrun
  rw [h] at hrun
  cases hrun

private theorem survivesFrom_extractMeshes {nodes : List (MeshGeometry R)} (h : b.extractMeshes rounding I m = .ok (b', nodes))
    (hshows : Shows rounding offset nodes (m, faces)) :
    SurvivesFrom I rounding offset b faces (.extractMeshes m :: calls) ↔ SurvivesFrom I rounding offset b' [] calls := by
  unfold SurvivesFrom
  constructor
  · rintro ⟨results, hrun, hall⟩
    rw [Builder.run, h] at hrun
    have hrun' : (b'.run I rounding offset calls >>= fun rest => .ok (nodes :: rest)) = .ok results := hrun
    obtain ⟨rest, hrest, hresults⟩ := bind_eq_ok.1 hrun'
    cases hresults
    exact ⟨rest, hrest, (List.forall₂_cons.1 hall).2⟩
  · rintro ⟨rest, hrest, hall⟩
    refine ⟨nodes :: rest, ?_, .cons hshows hall⟩
    rw [Builder.run, h]
    show (b'.run I rounding offset calls >>= _) = _
    rw [hrest]
    rfl

private theorem not_survivesFrom_extractMeshes {e : Fault} (h : b.extractMeshes rounding I m = .error e) :
    ¬ SurvivesFrom I rounding offset b faces (.extractMeshes m :: calls) := by
  rintro ⟨results, hrun, -⟩
  rw [Builder.run, h] at hrun
  cases hrun

private theorem shows_nil : Shows rounding offset [] (m, []) := rfl

omit [ExactReal R] in
private theorem counted_of_not_add (h : ¬ [Kind.add].Sublist (calls.map Call.kind)) : Counted (batches [] calls) := by
  induction calls with
  | nil => exact fun _ hbatch => absurd hbatch List.not_mem_nil
  | cons call calls ih =>
    cases call with
    | addFace bf => exact absurd (by simp [Call.kind]) h
    | extractMeshes m =>
      intro batch hbatch
      rcases List.mem_cons.1 hbatch with rfl | hbatch
      · exact Nat.two_pow_pos 31
      · exact ih (fun hadd => h (hadd.cons _)) batch hbatch

private theorem Released.survivesFrom_iff (hb : Released b) (hcalls : OneFormat rounding size hasUvs calls) :
    SurvivesFrom I rounding offset b [] calls ↔ ¬ [Kind.add].Sublist (calls.map Call.kind) := by
  induction calls generalizing b with
  | nil => exact ⟨fun _ => by simp, fun _ => ⟨[], rfl, .nil⟩⟩
  | cons call calls ih =>
    cases call with
    | addFace bf =>
      have hfail := hb.addFace offset (hcalls.face bf List.mem_cons_self)
      have hadd : [Kind.add].Sublist ((Call.addFace bf :: calls).map Call.kind) := by simp [Call.kind]
      exact iff_of_false (not_survivesFrom_addFace hfail) (not_not.2 hadd)
    | extractMeshes m =>
      obtain ⟨b', hextract, hb'⟩ := hb.extractMeshes I rounding m
      have hkinds : [Kind.add].Sublist ((Call.extractMeshes m :: calls).map Call.kind) ↔
          [Kind.add].Sublist (calls.map Call.kind) := by
        simp [Call.kind]
      rw [survivesFrom_extractMeshes hextract shows_nil, ih hb' hcalls.tail, hkinds]

omit [ExactReal R] in
private theorem counted_cons {batch : RepoMatrix R × List (Face R)} {rest : List (RepoMatrix R × List (Face R))} :
    Counted (batch :: rest) ↔ (batch.2.map Face.getSize).sum < 2 ^ 31 ∧ Counted rest := List.forall_mem_cons

/-- Once there are faces, none may be added after their extraction. -/
theorem Collecting.survivesFrom_iff (hb : Collecting offset size hasUvs faces b meshData)
    (hcalls : OneFormat rounding size hasUvs calls) : SurvivesFrom I rounding offset b faces calls ↔
      ¬ [Kind.extract, Kind.add].Sublist (calls.map Call.kind) ∧ Counted (batches faces calls) := by
  induction calls generalizing b faces meshData with
  | nil =>
    have hnone : Counted (batches faces ([] : List (Call R))) := fun _ hbatch => absurd hbatch List.not_mem_nil
    exact ⟨fun _ => ⟨by simp, hnone⟩, fun _ => ⟨[], rfl, .nil⟩⟩
  | cons call calls ih =>
    cases call with
    | addFace bf =>
      obtain ⟨b', meshData', hadd, hb'⟩ := hb.addFace (hcalls.face bf List.mem_cons_self)
      have hkinds : [Kind.extract, Kind.add].Sublist ((Call.addFace bf :: calls).map Call.kind) ↔
          [Kind.extract, Kind.add].Sublist (calls.map Call.kind) := by
        rw [List.map_cons, List.cons_sublist_cons']
        simp [Call.kind]
      rw [survivesFrom_addFace hadd, ih hb' hcalls.tail, hkinds]
      rfl
    | extractMeshes m =>
      have hkinds : [Kind.extract, Kind.add].Sublist ((Call.extractMeshes m :: calls).map Call.kind) ↔
          [Kind.add].Sublist (calls.map Call.kind) := List.cons_sublist_cons
      rw [hkinds, show batches faces (.extractMeshes m :: calls) = (m, faces) :: batches [] calls from rfl, counted_cons]
      by_cases hcount : (faces.map Face.getSize).sum < 2 ^ 31
      · obtain ⟨b', nodes, hextract, hb', hshows⟩ :=
          hb.extractMeshes I rounding (hcalls.matrix m List.mem_cons_self) hcount
        rw [survivesFrom_extractMeshes hextract hshows, hb'.survivesFrom_iff hcalls.tail]
        exact ⟨fun h => ⟨h, hcount, counted_of_not_add h⟩, fun h => h.1⟩
      · obtain ⟨e, hfail⟩ := hb.not_extractMeshes I rounding m hcount
        exact iff_of_false (not_survivesFrom_extractMeshes hfail) fun h => hcount h.2.1

/-- Calls for faces of one format do what they are to do exactly if no face is added after an extraction of others, and the
vertices of each extraction can be counted. -/
theorem survives_iff (I : Iteration) (rounding : Rounding R) (offset : RepoVector3D R)
    (hcalls : OneFormat rounding size hasUvs calls) :
    Survives I rounding offset calls ↔
      ¬ [Kind.add, Kind.extract, Kind.add].Sublist (calls.map Call.kind) ∧ Counted (batches [] calls) := by
  unfold Survives
  induction calls with
  | nil =>
    have hnone : Counted (batches [] ([] : List (Call R))) := fun _ hbatch => absurd hbatch List.not_mem_nil
    exact ⟨fun _ => ⟨by simp, hnone⟩, fun _ => ⟨[], rfl, .nil⟩⟩
  | cons call calls ih =>
    cases call with
    | addFace bf =>
      obtain ⟨b', meshData', hadd, hb'⟩ := addFace_new offset (hcalls.face bf List.mem_cons_self)
      have hkinds : [Kind.add, Kind.extract, Kind.add].Sublist ((Call.addFace bf :: calls).map Call.kind) ↔
          [Kind.extract, Kind.add].Sublist (calls.map Call.kind) := List.cons_sublist_cons
      rw [survivesFrom_addFace hadd, List.nil_append, hb'.survivesFrom_iff hcalls.tail, hkinds]
      rfl
    | extractMeshes m =>
      have hkinds : [Kind.add, Kind.extract, Kind.add].Sublist ((Call.extractMeshes m :: calls).map Call.kind) ↔
          [Kind.add, Kind.extract, Kind.add].Sublist (calls.map Call.kind) := by
        rw [List.map_cons, List.cons_sublist_cons']
        simp [Call.kind]
      rw [survivesFrom_extractMeshes extractMeshes_new shows_nil, ih hcalls.tail, hkinds,
        show batches [] (.extractMeshes m :: calls) = (m, []) :: batches [] calls from rfl, counted_cons]
      exact ⟨fun h => ⟨h.1, Nat.two_pow_pos 31, h.2⟩, fun h => ⟨h.1, h.2.2⟩⟩

end Exact

section Examples

/-- The order of insertion. -/
def insertionIteration : Iteration := ⟨id, fun _ => List.Perm.refl _⟩

private theorem of_triangleFace : (triangleFace unitUvs).Of 3 true := ⟨⟨by decide, .inr ⟨rfl, rfl⟩⟩, rfl, rfl⟩

private theorem usable_scale_one : Usable .exact (RepoMatrix.scale (1 : ℝ)) := usable_of_affine (affine_scale 1) determinant_scale_one

private theorem oneFormat_of_mem {calls : List (Call ℝ)} (h : ∀ call ∈ calls, call = .addFace (triangleFace unitUvs) ∨
    call = .extractMeshes (RepoMatrix.scale 1)) : OneFormat .exact 3 true calls where
  face := by
    intro bf hbf
    rcases h _ hbf with heq | heq
    · cases heq
      exact of_triangleFace
    · cases heq
  matrix := by
    intro m hm
    rcases h _ hm with heq | heq
    · cases heq
    · cases heq
      exact usable_scale_one

/-- Two triangles that are extracted, and a second extraction. -/
noncomputable def extractedTwice : List (Call ℝ) :=
  [.addFace (triangleFace unitUvs), .addFace (triangleFace unitUvs), .extractMeshes (RepoMatrix.scale 1),
    .extractMeshes (RepoMatrix.scale 1)]

theorem survives_iff_extractedTwice : Survives insertionIteration .exact 0 extractedTwice ↔
    ¬ [Kind.add, Kind.extract, Kind.add].Sublist (extractedTwice.map Call.kind) ∧ Counted (batches [] extractedTwice) :=
  survives_iff insertionIteration .exact 0 (oneFormat_of_mem (by simp [extractedTwice]))

/-- A triangle, an extraction, and the triangle again. -/
noncomputable def addedAgain : List (Call ℝ) :=
  [.addFace (triangleFace unitUvs), .extractMeshes (RepoMatrix.scale 1), .addFace (triangleFace unitUvs)]

/-- The second triangle is added to the mesh that was released. -/
theorem not_survives_addedAgain : OneFormat .exact 3 true addedAgain ∧
    Builder.new.run insertionIteration .exact 0 addedAgain = .error .released ∧
    ¬ Survives insertionIteration .exact 0 addedAgain := by
  obtain ⟨b, meshData, hadd, hb⟩ := addFace_new (0 : RepoVector3D ℝ) of_triangleFace
  obtain ⟨b', nodes, hextract, hb', -⟩ := hb.extractMeshes insertionIteration .exact usable_scale_one (by decide)
  have hrun : Builder.new.run insertionIteration .exact 0 addedAgain = .error .released := by
    unfold addedAgain
    rw [Builder.run, hadd]
    show b.run insertionIteration .exact 0 _ = _
    rw [Builder.run, hextract]
    show (b'.run insertionIteration .exact 0 [.addFace (triangleFace unitUvs)] >>= _) = _
    rw [Builder.run, hb'.addFace 0 of_triangleFace]
    rfl
  refine ⟨oneFormat_of_mem (by simp [addedAgain]), hrun, ?_⟩
  rintro ⟨results, hresults, -⟩
  rw [hrun] at hresults
  cases hresults

end Examples

end Bouncer.RepoMeshBuilder
