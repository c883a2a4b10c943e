import Bouncer.Core.MeshGeometry
import Bouncer.Library.InternBy
import Bouncer.Library.Pointwise

/-!
# Duplicate vertices

`MeshNode::removeDuplicateVertices` goes through the corners of the faces.  The vertex of a corner, with its normal and UV, is
looked up among the new vertices by its hash, and appended if it is not there.  The corner gets its new index.

The index is a `uint32_t`, whose last value stands for a vertex that was not found.  With fewer than `2 ^ 32` vertices that are
different, each corner keeps its vertex, the new vertices are different, each of them is used, and there is nothing left to remove
(`removeDuplicateVertices_canonical`).  With more the index rolls over, and a corner gets the vertex of another one
(`not_removeDuplicateVertices_canonical`).
-/

namespace Bouncer

open Library (SameAs SameOrEq internBy internBy_cases internAllBy internAllBy_cons internAllBy_flatten internGroups
  internGroups_cons pairwise_internBy pairwise_internAllBy prefix_internGroups prefix_internAllBy mem_internAllBy
  forall₂_internGroups internGroups_again forall₂_comp exists_left_of_forall₂)
open Library.Fallible (bind_eq_ok)

variable {R : Type}

structure Vertex (R : Type) where
  position : RepoVector3D R
  normal : Option (RepoVector3D R)
  uv : Option (RepoVector2D R)

/-- `std::hash<float>`: what is equal has the same hash. -/
structure FloatHash (R : Type) [BEq R] where
  hasher : R → BitVec 64
  hasher_eq : ∀ x y : R, (x == y) = true → hasher x = hasher y

/-- The order in which `equal_range` of an `unordered_multimap`, filled by these insertions, gives the values of a key. -/
structure EqualRange where
  range : List (BitVec 64 × ℕ) → BitVec 64 → List ℕ
  mem_range : ∀ map key i, i ∈ range map key ↔ (key, i) ∈ map

namespace Vertex

section Comparison

variable [BEq R]

def samePosition (v w : RepoVector3D R) : Bool := v.x == w.x && v.y == w.y && v.z == w.z

def sameUV (v w : RepoVector2D R) : Bool := v.x == w.x && v.y == w.y

/-- `==` of two `std::optional`s. -/
def sameOptional {T : Type} (same : T → T → Bool) : Option T → Option T → Bool
  | some v, some w => same v w
  | none, none => true
  | _, _ => false

/-- The default `operator==`. -/
def same (v w : Vertex R) : Bool :=
  samePosition v.position w.position && sameOptional samePosition v.normal w.normal && sameOptional sameUV v.uv w.uv

end Comparison

def goldenRatio : BitVec 64 := 0x9e3779b9

def hashCombine [BEq R] (H : FloatHash R) (seed : BitVec 64) (v : R) : BitVec 64 :=
  seed ^^^ (H.hasher v + goldenRatio + (seed <<< 6) + (seed >>> 2))

def hash [BEq R] (H : FloatHash R) (v : Vertex R) : BitVec 64 :=
  let hash := [v.position.x, v.position.y, v.position.z].foldl (hashCombine H) 0
  let hash := match v.normal with
    | some normal => [normal.x, normal.y, normal.z].foldl (hashCombine H) hash
    | none => hash
  match v.uv with
  | some uv => [uv.x, uv.y].foldl (hashCombine H) hash
  | none => hash

end Vertex

namespace MeshNode

open Vertex (same)

/-- How `removeDuplicateVertices` fails: it throws, or it reads behind the end of an array. -/
inductive DuplicatesFailure where
  | repoGeometryProcessingException (message : String)
  | outOfRange

/-- The new vertices, and the map from their hashes, as it was filled. -/
structure NewVertices (R : Type) where
  newVertices : List (Vertex R)
  map : List (BitVec 64 × ℕ)

/-- `-1` as a `uint32_t`. -/
def notFound : ℕ := 2 ^ 32 - 1

section Definitions

variable [BEq R] (H : FloatHash R) (E : EqualRange)

/-- The new index of a vertex, as the loop over the matching entries leaves it. -/
def NewVertices.matching (s : NewVertices R) (v : Vertex R) : ℕ :=
  match (E.range s.map (v.hash H)).find? fun i => s.newVertices[i]?.any (same · v) with
  | some i => i % 2 ^ 32
  | none => notFound

def NewVertices.assign (s : NewVertices R) (v : Vertex R) : NewVertices R × ℕ :=
  if s.matching H E v = notFound then
    let index := s.newVertices.length % 2 ^ 32
    (⟨s.newVertices ++ [v], s.map ++ [(v.hash H, index)]⟩, index)
  else (s, s.matching H E v)

/-- An attribute of a vertex, if the mesh uses it. -/
def vertexAttribute {T : Type} (used : Bool) (values : List T) (i : ℕ) : Option (Option T) :=
  if used then values[i]?.map some else some none

end Definitions

end MeshNode

namespace MeshGeometry

open MeshNode
open Vertex (same)

def useNormals (mesh : MeshGeometry R) : Bool := mesh.normals.length != 0

def useUvs (mesh : MeshGeometry R) : Bool := mesh.channels.length != 0

def uvs (mesh : MeshGeometry R) : List (RepoVector2D R) := mesh.channels.headD []

/-- The vertex that an index stands for. -/
def vertex (mesh : MeshGeometry R) (index : ℕ) : Option (Vertex R) := do
  let position ← mesh.vertices[index]?
  let normal ← vertexAttribute mesh.useNormals mesh.normals index
  let uv ← vertexAttribute mesh.useUvs mesh.uvs index
  return ⟨position, normal, uv⟩

section Loops

variable [BEq R] (H : FloatHash R) (E : EqualRange) (mesh : MeshGeometry R)

def assignIndex (s : NewVertices R) (index : ℕ) : Except DuplicatesFailure (NewVertices R × ℕ) :=
  match mesh.vertex index with
  | some v => .ok (s.assign H E v)
  | none => .error .outOfRange

/-- The loop over the corners of a face.  The face keeps its size. -/
def assignIndices : NewVertices R → (indices : List ℕ) →
    Except DuplicatesFailure (NewVertices R × { new : List ℕ // new.length = indices.length })
  | s, [] => .ok (s, ⟨[], rfl⟩)
  | s, index :: indices => do
    let r ← assignIndex H E mesh s index
    let rs ← assignIndices r.1 indices
    return (rs.1, ⟨r.2 :: rs.2.1, congrArg (· + 1) rs.2.2⟩)

def assignFace (s : NewVertices R) (f : RepoFace) : Except DuplicatesFailure (NewVertices R × RepoFace) := do
  let r ← assignIndices H E mesh s f.indices
  return (r.1, ⟨r.2.1, le_of_eq_of_le r.2.2 f.sides_le⟩)

def assignFaces : NewVertices R → List RepoFace → Except DuplicatesFailure (NewVertices R × List RepoFace)
  | s, [] => .ok (s, [])
  | s, f :: faces => do
    let r ← assignFace H E mesh s f
    let rs ← assignFaces r.1 faces
    return (rs.1, r.2 :: rs.2)

end Loops

/-- The arrays that are filled from the new vertices. -/
def rebuild (mesh : MeshGeometry R) (newVertices : List (Vertex R)) (faces : List RepoFace) : MeshGeometry R where
  vertices := newVertices.map Vertex.position
  normals := newVertices.filterMap Vertex.normal
  channels := if mesh.useUvs then mesh.channels.set 0 (newVertices.filterMap Vertex.uv) else mesh.channels
  faces := faces

def removeDuplicateVertices [BEq R] (H : FloatHash R) (E : EqualRange) (mesh : MeshGeometry R) :
    Except DuplicatesFailure (MeshGeometry R) :=
  if mesh.channels.length > 1 then
    .error (.repoGeometryProcessingException "removeDuplicateVertices currently only supports one uv channel.")
  else do
    let r ← assignFaces H E mesh ⟨[], []⟩ mesh.faces
    return mesh.rebuild r.1.newVertices r.2

/-! ### What is promised -/

/-- At most one UV channel, normals and UVs for all vertices or for none, and faces that index the vertices. -/
structure Indexed (mesh : MeshGeometry R) : Prop where
  channels_le : mesh.channels.length ≤ 1
  normals : mesh.normals = [] ∨ mesh.normals.length = mesh.vertices.length
  channel : ∀ channel ∈ mesh.channels, channel.length = mesh.vertices.length
  index_lt : ∀ f ∈ mesh.faces, ∀ i ∈ f.indices, i < mesh.vertices.length

/-- The vertices of the corners, face by face. -/
def cornerVertices (mesh : MeshGeometry R) : List (List (Vertex R)) :=
  mesh.faces.map fun f => f.indices.filterMap mesh.vertex

section Promise

variable [BEq R]

/-- The vertices of corners, without those that are the same as an earlier one. -/
def different (mesh : MeshGeometry R) : List (Vertex R) := (internAllBy same [] mesh.cornerVertices.flatten).1

/-- Each corner of a face keeps its vertex. -/
def KeepsCorners (mesh new : MeshGeometry R) : Prop :=
  List.Forall₂ (fun f f' : RepoFace => List.Forall₂ (fun i i' => ∃ v w, mesh.vertex i = some v ∧ new.vertex i' = some w ∧
    SameOrEq same w v) f.indices f'.indices) mesh.faces new.faces

/-- What removing the duplicates of a mesh gives. -/
structure Canonical (H : FloatHash R) (E : EqualRange) (mesh new : MeshGeometry R) : Prop where
  corners : KeepsCorners mesh new
  different : ∀ i j, i < j → j < new.vertices.length →
    ∃ v w, new.vertex i = some v ∧ new.vertex j = some w ∧ same v w = false
  used : ∀ i < new.vertices.length, ∃ f ∈ new.faces, i ∈ f.indices
  normals : new.normals.length = if mesh.useNormals then new.vertices.length else 0
  channels : new.channels.length = mesh.channels.length
  channel : ∀ channel ∈ new.channels, channel.length = new.vertices.length
  again : new.removeDuplicateVertices H E = .ok new

end Promise

end MeshGeometry

/-! ### The comparison and the hash -/

variable {T : Type}

namespace Vertex

section Comparison

variable [BEq R]

private theorem samePosition_iff {v w : RepoVector3D R} :
    samePosition v w = true ↔ (v.x == w.x) = true ∧ (v.y == w.y) = true ∧ (v.z == w.z) = true := by
  simp only [samePosition, Bool.and_eq_true, and_assoc]

private theorem sameUV_iff {v w : RepoVector2D R} : sameUV v w = true ↔ (v.x == w.x) = true ∧ (v.y == w.y) = true := by
  simp only [sameUV, Bool.and_eq_true]

private theorem same_iff {v w : Vertex R} : same v w = true ↔ samePosition v.position w.position = true ∧
    sameOptional samePosition v.normal w.normal = true ∧ sameOptional sameUV v.uv w.uv = true := by
  simp only [same, Bool.and_eq_true, and_assoc]

private theorem sameOptional_cases {same : T → T → Bool} {v w : Option T} (h : sameOptional same v w = true) :
    (v = none ∧ w = none) ∨ ∃ x y, v = some x ∧ w = some y ∧ same x y = true := by
  cases v with
  | none =>
    cases w with
    | none => exact Or.inl ⟨rfl, rfl⟩
    | some y => exact absurd h Bool.false_ne_true
  | some x =>
    cases w with
    | none => exact absurd h Bool.false_ne_true
    | some y => exact Or.inr ⟨x, y, rfl, rfl, h⟩

private theorem sameAs_sameOptional {same : T → T → Bool} (h : SameAs same) : SameAs (sameOptional same) where
  symm := by
    intro v w hvw
    rcases sameOptional_cases hvw with ⟨rfl, rfl⟩ | ⟨x, y, rfl, rfl, hxy⟩
    · rfl
    · exact h.symm hxy
  trans := by
    intro u v w huv hvw
    rcases sameOptional_cases huv with ⟨rfl, rfl⟩ | ⟨x, y, rfl, rfl, hxy⟩
    · exact hvw
    · rcases sameOptional_cases hvw with ⟨⟨⟩, -⟩ | ⟨y', z, hy, rfl, hyz⟩
      obtain rfl := Option.some.inj hy
      exact h.trans hxy hyz

variable [PartialEquivBEq R]

private theorem sameAs_samePosition : SameAs (samePosition (R := R)) where
  symm := by
    intro v w h
    obtain ⟨hx, hy, hz⟩ := samePosition_iff.1 h
    exact samePosition_iff.2 ⟨BEq.symm hx, BEq.symm hy, BEq.symm hz⟩
  trans := by
    intro u v w huv hvw
    obtain ⟨hx, hy, hz⟩ := samePosition_iff.1 huv
    obtain ⟨hx', hy', hz'⟩ := samePosition_iff.1 hvw
    exact samePosition_iff.2 ⟨BEq.trans hx hx', BEq.trans hy hy', BEq.trans hz hz'⟩

private theorem sameAs_sameUV : SameAs (sameUV (R := R)) where
  symm := by
    intro v w h
    obtain ⟨hx, hy⟩ := sameUV_iff.1 h
    exact sameUV_iff.2 ⟨BEq.symm hx, BEq.symm hy⟩
  trans := by
    intro u v w huv hvw
    obtain ⟨hx, hy⟩ := sameUV_iff.1 huv
    obtain ⟨hx', hy'⟩ := sameUV_iff.1 hvw
    exact sameUV_iff.2 ⟨BEq.trans hx hx', BEq.trans hy hy'⟩

private theorem sameAs_same : SameAs (same (R := R)) where
  symm := by
    intro v w h
    obtain ⟨hp, hn, ht⟩ := same_iff.1 h
    exact same_iff.2 ⟨sameAs_samePosition.symm hp, (sameAs_sameOptional sameAs_samePosition).symm hn,
      (sameAs_sameOptional sameAs_sameUV).symm ht⟩
  trans := by
    intro u v w huv hvw
    obtain ⟨hp, hn, ht⟩ := same_iff.1 huv
    obtain ⟨hp', hn', ht'⟩ := same_iff.1 hvw
    exact same_iff.2 ⟨sameAs_samePosition.trans hp hp', (sameAs_sameOptional sameAs_samePosition).trans hn hn',
      (sameAs_sameOptional sameAs_sameUV).trans ht ht'⟩

end Comparison

private theorem hashCombine_congr [BEq R] (H : FloatHash R) {x y : R} (h : (x == y) = true) (seed : BitVec 64) :
    hashCombine H seed x = hashCombine H seed y := by
  unfold hashCombine
  rw [H.hasher_eq x y h]

private theorem hash_congr [BEq R] (H : FloatHash R) {v w : Vertex R} (h : same v w = true) : v.hash H = w.hash H := by
  obtain ⟨hp, hn, ht⟩ := same_iff.1 h
  obtain ⟨hx, hy, hz⟩ := samePosition_iff.1 hp
  obtain ⟨position, normal, uv⟩ := v
  obtain ⟨position', normal', uv'⟩ := w
  dsimp only at hx hy hz hn ht
  unfold hash
  simp only [List.foldl_cons, List.foldl_nil, hashCombine_congr H hx, hashCombine_congr H hy, hashCombine_congr H hz]
  rcases sameOptional_cases hn with ⟨rfl, rfl⟩ | ⟨n, n', rfl, rfl, hnormal⟩ <;>
    rcases sameOptional_cases ht with ⟨rfl, rfl⟩ | ⟨t, t', rfl, rfl, huv⟩
  · rfl
  · obtain ⟨htx, hty⟩ := sameUV_iff.1 huv
    simp only [hashCombine_congr H htx, hashCombine_congr H hty]
  · obtain ⟨hnx, hny, hnz⟩ := samePosition_iff.1 hnormal
    simp only [hashCombine_congr H hnx, hashCombine_congr H hny, hashCombine_congr H hnz]
  · obtain ⟨hnx, hny, hnz⟩ := samePosition_iff.1 hnormal
    obtain ⟨htx, hty⟩ := sameUV_iff.1 huv
    simp only [hashCombine_congr H hnx, hashCombine_congr H hny, hashCombine_congr H hnz, hashCombine_congr H htx,
      hashCombine_congr H hty]

end Vertex

variable {v : Vertex R}

namespace MeshNode

open Vertex (same sameAs_same hash_congr)

/-! ### One corner -/

section Assign

variable [BEq R]

/-- The new vertices are those of a table, and the map has their hashes. -/
structure NewVertices.Spells (H : FloatHash R) (s : NewVertices R) (table : List (Vertex R)) : Prop where
  newVertices : s.newVertices = table
  mem_map : ∀ hash i, (hash, i) ∈ s.map ↔ ∃ v, table[i]? = some v ∧ v.hash H = hash
  different : table.Pairwise fun v w => same v w = false

variable {H : FloatHash R} {E : EqualRange} {s : NewVertices R} {table : List (Vertex R)}

theorem NewVertices.spells_nil : NewVertices.Spells H ⟨[], []⟩ [] where
  newVertices := rfl
  mem_map := by simp
  different := .nil

/-- What the loop over the matching entries finds is an entry that is the same. -/
theorem NewVertices.Spells.matching_cases (hs : s.Spells H table) (v : Vertex R) :
    (∃ i, ∃ hi : i < table.length, same table[i] v = true ∧ s.matching H E v = i % 2 ^ 32) ∨
    ((∀ w ∈ table, same w v = false) ∧ s.matching H E v = notFound) := by
  unfold NewVertices.matching
  cases hfind : (E.range s.map (v.hash H)).find? fun i => s.newVertices[i]?.any (same · v) with
  | some i =>
    left
    have hsame := List.find?_some hfind
    rw [hs.newVertices, Option.any_eq_true] at hsame
    obtain ⟨w, hw, hsame⟩ := hsame
    obtain ⟨hi, rfl⟩ := List.getElem?_eq_some_iff.1 hw
    exact ⟨i, hi, hsame, rfl⟩
  | none =>
    refine Or.inr ⟨?_, rfl⟩
    intro w hw
    obtain ⟨i, hi, rfl⟩ := List.mem_iff_getElem.1 hw
    refine Bool.eq_false_iff.2 ?_
    intro hsame
    have hentry := List.getElem?_eq_getElem hi
    -- an entry that is the same has the hash, and would have been found
    have hrange : i ∈ E.range s.map (v.hash H) :=
      (E.mem_range _ _ _).2 ((hs.mem_map _ _).2 ⟨table[i], hentry, hash_congr H hsame⟩)
    have hnot := List.find?_eq_none.1 hfind i hrange
    rw [hs.newVertices, hentry, Option.any_some, hsame] at hnot
    exact hnot rfl

/-- The vertex is appended. -/
theorem NewVertices.Spells.append (hs : s.Spells H table) (hnew : ∀ w ∈ table, same w v = false)
    (hroom : table.length < 2 ^ 32) :
    NewVertices.Spells H ⟨s.newVertices ++ [v], s.map ++ [(v.hash H, s.newVertices.length % 2 ^ 32)]⟩ (table ++ [v]) where
  newVertices := by rw [hs.newVertices]
  mem_map := by
    intro hash i
    rw [List.mem_append, hs.mem_map, List.mem_singleton, Prod.mk.injEq, hs.newVertices, Nat.mod_eq_of_lt hroom]
    constructor
    · intro h
      rcases h with ⟨w, hw, hhash⟩ | ⟨rfl, rfl⟩
      · exact ⟨w, Library.getElem?_of_prefix (List.prefix_append _ _) hw, hhash⟩
      · exact ⟨v, List.getElem?_concat_length, rfl⟩
    · intro h
      obtain ⟨w, hw, hhash⟩ := h
      by_cases hi : i < table.length
      · rw [List.getElem?_append_left hi] at hw
        exact Or.inl ⟨w, hw, hhash⟩
      · obtain ⟨hlen, hget⟩ := List.getElem?_eq_some_iff.1 hw
        rw [List.length_append, List.length_singleton] at hlen
        obtain rfl : i = table.length := by omega
        rw [List.getElem?_concat_length, Option.some.injEq] at hw
        exact Or.inr ⟨by rw [← hhash, hw], rfl⟩
  different := by
    refine List.pairwise_append.2 ⟨hs.different, List.pairwise_singleton _ _, ?_⟩
    intro w hw w' hw'
    rw [List.mem_singleton.1 hw']
    exact hnew w hw

variable [PartialEquivBEq R]

/-- As long as there is room for one more index, a corner is given the index that it has in the table. -/
theorem NewVertices.Spells.assign (hs : s.Spells H table) (v : Vertex R) (hroom : table.length < 2 ^ 32) :
    (s.assign H E v).1.Spells H (internBy same table v).1 ∧ (s.assign H E v).2 = (internBy same table v).2 := by
  unfold NewVertices.assign
  rcases internBy_cases same table v with ⟨i, hi, hsame, hfirst, hintern⟩ | ⟨hnew, hintern⟩
  · rcases hs.matching_cases v (E := E) with ⟨j, hj, hsame', hmatching⟩ | ⟨hnone, -⟩
    · -- there is only one entry that is the same
      have hij : i = j := by
        rcases lt_trichotomy i j with hlt | heq | hlt
        · have hne := List.pairwise_iff_getElem.1 hs.different i j hi hj hlt
          rw [sameAs_same.trans hsame (sameAs_same.symm hsame')] at hne
          cases hne
        · exact heq
        · rw [hfirst j hlt] at hsame'
          exact absurd hsame' Bool.false_ne_true
      subst hij
      have hfound : s.matching H E v = i := by
        rw [hmatching]
        exact Nat.mod_eq_of_lt (by omega)
      have hne : i ≠ notFound := by
        unfold notFound
        omega
      rw [hfound, if_neg hne, hintern]
      exact ⟨hs, rfl⟩
    · rw [hnone _ (List.getElem_mem hi)] at hsame
      exact absurd hsame Bool.false_ne_true
  · rcases hs.matching_cases v (E := E) with ⟨j, hj, hsame, -⟩ | ⟨-, hmatching⟩
    · rw [hnew _ (List.getElem_mem hj)] at hsame
      exact absurd hsame Bool.false_ne_true
    · rw [hmatching, if_pos rfl, hintern]
      refine ⟨hs.append hnew hroom, ?_⟩
      rw [hs.newVertices]
      exact Nat.mod_eq_of_lt hroom

end Assign

end MeshNode

namespace MeshGeometry

open MeshNode
open Vertex (same sameAs_same)

/-! ### All corners -/

section Runs

variable [BEq R] [PartialEquivBEq R] {H : FloatHash R} {E : EqualRange} {mesh : MeshGeometry R} {s : NewVertices R}
  {table : List (Vertex R)}

private theorem assignIndices_eq_ok (hs : s.Spells H table) {indices : List ℕ} {vs : List (Vertex R)}
    (hvs : List.Forall₂ (fun i v => mesh.vertex i = some v) indices vs)
    (hroom : (internAllBy same table vs).1.length < 2 ^ 32) :
    ∃ r, assignIndices H E mesh s indices = .ok r ∧ r.1.Spells H (internAllBy same table vs).1 ∧
      r.2.1 = (internAllBy same table vs).2 := by
  induction hvs generalizing s table with
  | nil => exact ⟨(s, ⟨[], rfl⟩), rfl, hs, rfl⟩
  | @cons i v indices vs hv _ ih =>
    rw [internAllBy_cons] at hroom ⊢
    dsimp only at hroom ⊢
    have hlonger := (prefix_internAllBy same (internBy same table v).1 vs).length_le
    have hlong := (Library.prefix_internBy same table v).length_le
    obtain ⟨hspells, hindex⟩ := hs.assign v (E := E) (by omega)
    obtain ⟨r, hr, hrspells, hrindices⟩ := ih hspells hroom
    refine ⟨(r.1, ⟨(s.assign H E v).2 :: r.2.1, congrArg (· + 1) r.2.2⟩), ?_, hrspells, congrArg₂ _ hindex hrindices⟩
    have hassign : assignIndex H E mesh s i = .ok (s.assign H E v) := by
      unfold assignIndex
      rw [hv]
    show (assignIndex H E mesh s i >>= fun r => assignIndices H E mesh r.1 indices >>= _) = _
    rw [hassign]
    show (assignIndices H E mesh (s.assign H E v).1 indices >>= _) = _
    rw [hr]
    rfl

private theorem assignFaces_eq_ok (hs : s.Spells H table) {faces : List RepoFace} {vss : List (List (Vertex R))}
    (hvss : List.Forall₂ (fun f vs => List.Forall₂ (fun i v => mesh.vertex i = some v) f.indices vs) faces vss)
    (hroom : (internGroups same table vss).1.length < 2 ^ 32) :
    ∃ r, assignFaces H E mesh s faces = .ok r ∧ r.1.Spells H (internGroups same table vss).1 ∧
      r.2.map RepoFace.indices = (internGroups same table vss).2 := by
  induction hvss generalizing s table with
  | nil => exact ⟨(s, []), rfl, hs, rfl⟩
  | @cons f vs faces vss hvs _ ih =>
    rw [internGroups_cons] at hroom ⊢
    dsimp only at hroom ⊢
    have hlonger := (prefix_internGroups same (internAllBy same table vs).1 vss).length_le
    obtain ⟨r, hr, hspells, hindices⟩ := assignIndices_eq_ok hs hvs (E := E) (by omega)
    obtain ⟨rs, hrs, hrspells, hrindices⟩ := ih hspells hroom
    refine ⟨(rs.1, ⟨r.2.1, le_of_eq_of_le r.2.2 f.sides_le⟩ :: rs.2), ?_, hrspells, congrArg₂ _ hindices hrindices⟩
    have hface : assignFace H E mesh s f = .ok (r.1, ⟨r.2.1, le_of_eq_of_le r.2.2 f.sides_le⟩) := by
      unfold assignFace
      rw [hr]
      rfl
    show (assignFace H E mesh s f >>= fun r => assignFaces H E mesh r.1 faces >>= _) = _
    rw [hface]
    show (assignFaces H E mesh r.1 faces >>= _) = _
    rw [hrs]
    rfl

end Runs

/-! ### The vertices of a mesh -/

variable {i : ℕ}

section Vertices

variable {mesh : MeshGeometry R}

private theorem vertexAttribute_of_lt (used : Bool) (values : List T) (h : used = true → i < values.length) :
    ∃ value, vertexAttribute used values i = some value ∧ value.isSome = used := by
  unfold vertexAttribute
  cases used with
  | true =>
    have hi := h rfl
    exact ⟨some values[i], by simp [hi], rfl⟩
  | false => exact ⟨none, rfl, rfl⟩

theorem Indexed.length_uvs (h : mesh.Indexed) (huvs : mesh.useUvs = true) : mesh.uvs.length = mesh.vertices.length := by
  unfold useUvs at huvs
  unfold uvs
  cases hchannels : mesh.channels with
  | nil => simp [hchannels] at huvs
  | cons channel channels =>
    have hmem : channel ∈ mesh.channels := by simp [hchannels]
    exact h.channel channel hmem

theorem Indexed.length_normals (h : mesh.Indexed) (hnormals : mesh.useNormals = true) :
    mesh.normals.length = mesh.vertices.length := by
  rcases h.normals with hnil | hlen
  · simp [useNormals, hnil] at hnormals
  · exact hlen

private theorem Indexed.vertex_of_lt (h : mesh.Indexed) (hi : i < mesh.vertices.length) :
    ∃ v, mesh.vertex i = some v ∧ v.normal.isSome = mesh.useNormals ∧ v.uv.isSome = mesh.useUvs := by
  obtain ⟨normal, hnormal, hn⟩ := vertexAttribute_of_lt mesh.useNormals mesh.normals (i := i)
    fun hused => by rwa [h.length_normals hused]
  obtain ⟨uv, huv, ht⟩ := vertexAttribute_of_lt mesh.useUvs mesh.uvs (i := i)
    fun hused => by rwa [h.length_uvs hused]
  refine ⟨⟨mesh.vertices[i], normal, uv⟩, ?_, hn, ht⟩
  unfold vertex
  rw [List.getElem?_eq_getElem hi, hnormal, huv]
  rfl

theorem Indexed.forall₂_vertices (h : mesh.Indexed) : List.Forall₂
    (fun f vs => List.Forall₂ (fun i v => mesh.vertex i = some v) f.indices vs) mesh.faces mesh.cornerVertices := by
  have hindices : ∀ indices : List ℕ, (∀ i ∈ indices, i < mesh.vertices.length) →
      List.Forall₂ (fun i v => mesh.vertex i = some v) indices (indices.filterMap mesh.vertex) := by
    intro indices hlt
    induction indices with
    | nil => exact .nil
    | cons i indices ih =>
      obtain ⟨v, hv, -⟩ := h.vertex_of_lt (hlt i List.mem_cons_self)
      rw [List.filterMap_cons_some hv]
      exact .cons hv (ih fun j hj => hlt j (List.mem_cons_of_mem _ hj))
  unfold cornerVertices
  rw [List.forall₂_map_right_iff, List.forall₂_same]
  intro f hf
  exact hindices f.indices (h.index_lt f hf)

theorem Indexed.mem_cornerVertices (h : mesh.Indexed) (hv : v ∈ mesh.cornerVertices.flatten) :
    v.normal.isSome = mesh.useNormals ∧ v.uv.isSome = mesh.useUvs := by
  obtain ⟨vs, hvs, hv⟩ := List.mem_flatten.1 hv
  obtain ⟨f, hf, rfl⟩ := List.mem_map.1 hvs
  obtain ⟨i, hi, hv⟩ := List.mem_filterMap.1 hv
  obtain ⟨v', hv', hattributes⟩ := h.vertex_of_lt (h.index_lt f hf i hi)
  rw [hv, Option.some.injEq] at hv'
  rwa [hv']

/-! ### The arrays that are filled again -/

/-- The vertices have the attributes that a mesh uses. -/
def Uses (mesh : MeshGeometry R) (table : List (Vertex R)) : Prop :=
  ∀ v ∈ table, v.normal.isSome = mesh.useNormals ∧ v.uv.isSome = mesh.useUvs

private theorem map_some_filterMap {α β : Type} {f : α → Option β} {xs : List α} (h : ∀ x ∈ xs, (f x).isSome = true) :
    (xs.filterMap f).map some = xs.map f := by
  induction xs with
  | nil => rfl
  | cons x xs ih =>
    obtain ⟨y, hy⟩ := Option.isSome_iff_exists.1 (h x List.mem_cons_self)
    rw [List.filterMap_cons_some hy, List.map_cons, List.map_cons, ih fun x hx => h x (List.mem_cons_of_mem _ hx), hy]

private theorem length_filterMap {α β : Type} {f : α → Option β} {xs : List α} {used : Bool} (h : ∀ x ∈ xs, (f x).isSome = used) :
    (xs.filterMap f).length = if used then xs.length else 0 := by
  cases used with
  | true => simpa using congrArg List.length (map_some_filterMap h)
  | false =>
    have hnone : xs.filterMap f = [] := List.filterMap_eq_nil_iff.2 fun x hx => by simpa using h x hx
    rw [hnone]
    rfl

private theorem vertexAttribute_filterMap {f : Vertex R → Option T} {used : Bool} {table : List (Vertex R)}
    (h : ∀ v ∈ table, (f v).isSome = used) (hv : table[i]? = some v) :
    vertexAttribute used (table.filterMap f) i = some (f v) := by
  cases used with
  | true =>
    show (table.filterMap f)[i]?.map some = some (f v)
    rw [← List.getElem?_map, map_some_filterMap h, List.getElem?_map, hv]
    rfl
  | false =>
    have hnone := h v (List.mem_of_getElem? hv)
    rw [Option.isSome_eq_false_iff, Option.isNone_iff_eq_none] at hnone
    rw [hnone]
    rfl

section Rebuild

variable {table : List (Vertex R)} {faces : List RepoFace}

private theorem channels_rebuild (h : mesh.channels.length ≤ 1) (table : List (Vertex R)) (faces : List RepoFace) :
    (mesh.rebuild table faces).channels = if mesh.useUvs then [table.filterMap Vertex.uv] else [] := by
  unfold rebuild useUvs
  match hchannels : mesh.channels with
  | [] => rfl
  | [channel] => rfl
  | _ :: _ :: _ =>
    rw [hchannels] at h
    simp only [List.length_cons] at h
    omega

private theorem useUvs_rebuild (h : mesh.channels.length ≤ 1) : (mesh.rebuild table faces).useUvs = mesh.useUvs := by
  have hchannels := channels_rebuild h table faces
  unfold useUvs at hchannels ⊢
  rw [hchannels]
  split_ifs with hused
  · rw [hused]
    rfl
  · rw [Bool.not_eq_true] at hused
    rw [hused]
    rfl

private theorem length_normals_rebuild (h : mesh.Uses table) (faces : List RepoFace) :
    (mesh.rebuild table faces).normals.length = if mesh.useNormals then table.length else 0 :=
  length_filterMap fun v hv => (h v hv).1

@[simp] theorem length_vertices_rebuild : (mesh.rebuild table faces).vertices.length = table.length := List.length_map _

private theorem useNormals_rebuild (h : mesh.Uses table) (hne : table ≠ []) :
    (mesh.rebuild table faces).useNormals = mesh.useNormals := by
  have hpos := List.length_pos_iff.2 hne
  have hlen := length_normals_rebuild h faces
  unfold useNormals at hlen ⊢
  rw [hlen]
  split_ifs with hused
  · rw [hused, bne_iff_ne]
    omega
  · rw [Bool.not_eq_true] at hused
    rw [hused]
    rfl

/-- The vertices of the rebuilt mesh are those that it was built from. -/
theorem vertex_rebuild (hchannels : mesh.channels.length ≤ 1) (h : mesh.Uses table) (i : ℕ) :
    (mesh.rebuild table faces).vertex i = table[i]? := by
  have hposition : (mesh.rebuild table faces).vertices[i]? = table[i]?.map Vertex.position := List.getElem?_map
  unfold vertex
  rw [hposition]
  cases hv : table[i]? with
  | none => rfl
  | some v =>
    have hmem := List.mem_of_getElem? hv
    have hnormal : vertexAttribute (mesh.rebuild table faces).useNormals (mesh.rebuild table faces).normals i =
        some v.normal := by
      rw [useNormals_rebuild h (List.ne_nil_of_mem hmem)]
      exact vertexAttribute_filterMap (fun v hv => (h v hv).1) hv
    have huv : vertexAttribute (mesh.rebuild table faces).useUvs (mesh.rebuild table faces).uvs i = some v.uv := by
      rw [useUvs_rebuild hchannels]
      unfold uvs
      rw [channels_rebuild hchannels]
      cases hused : mesh.useUvs with
      | true => exact vertexAttribute_filterMap (fun v hv => (h v hv).2.trans hused) hv
      | false =>
        have hnone := (h v hmem).2
        rw [hused, Option.isSome_eq_false_iff, Option.isNone_iff_eq_none] at hnone
        rw [hnone]
        rfl
    rw [hnormal, huv]
    rfl

private theorem rebuild_rebuild (h : mesh.channels.length ≤ 1) :
    (mesh.rebuild table faces).rebuild table faces = mesh.rebuild table faces := by
  have hlen : (mesh.rebuild table faces).channels.length ≤ 1 := by
    rw [channels_rebuild h]
    split_ifs
    · exact Nat.le_refl _
    · exact Nat.zero_le _
  have hchannels : ((mesh.rebuild table faces).rebuild table faces).channels = (mesh.rebuild table faces).channels := by
    rw [channels_rebuild hlen, useUvs_rebuild h, channels_rebuild h]
  exact congrArg (fun channels => (⟨⟨table.map Vertex.position, table.filterMap Vertex.normal, channels⟩, faces⟩ :
    MeshGeometry R)) hchannels

end Rebuild

end Vertices

/-! ### Removing the duplicates -/

section Removal

private theorem eq_of_map_indices {faces faces' : List RepoFace} (h : faces.map RepoFace.indices = faces'.map RepoFace.indices) :
    faces = faces' := by
  refine List.map_injective_iff.2 ?_ h
  intro f f' hf
  cases f
  cases f'
  cases hf
  rfl

variable [BEq R] {H : FloatHash R} {E : EqualRange} {mesh : MeshGeometry R} {faces : List RepoFace}

private theorem different_eq (mesh : MeshGeometry R) : mesh.different = (internGroups same [] mesh.cornerVertices).1 := by
  unfold different
  rw [internAllBy_flatten]

theorem Indexed.uses_different (h : mesh.Indexed) : mesh.Uses mesh.different := by
  intro v hv
  rcases mem_internAllBy hv with hnil | hmem
  · cases hnil
  · exact h.mem_cornerVertices hmem

private theorem pairwise_different (mesh : MeshGeometry R) : mesh.different.Pairwise fun v w => same v w = false :=
  pairwise_internAllBy .nil _

private theorem used_of_lt (hfaces : faces.map RepoFace.indices = (internGroups same [] mesh.cornerVertices).2) {i : ℕ}
    (hi : i < mesh.different.length) : ∃ f ∈ faces, i ∈ f.indices := by
  have hmem := Library.mem_indices_of_new same [] mesh.cornerVertices.flatten (Nat.zero_le i) hi
  rw [internAllBy_flatten, ← hfaces] at hmem
  obtain ⟨indices, hindices, hi⟩ := List.mem_flatten.1 hmem
  obtain ⟨f, hf, rfl⟩ := List.mem_map.1 hindices
  exact ⟨f, hf, hi⟩

private theorem Indexed.keepsCorners (h : mesh.Indexed)
    (hfaces : faces.map RepoFace.indices = (internGroups same [] mesh.cornerVertices).2) :
    mesh.KeepsCorners (mesh.rebuild mesh.different faces) := by
  have hstands := forall₂_internGroups same [] mesh.cornerVertices
  rw [← hfaces, List.forall₂_map_right_iff] at hstands
  refine forall₂_comp ?_ h.forall₂_vertices hstands
  intro f vs f' hvs hindices
  refine forall₂_comp ?_ hvs hindices
  intro i v i' hv hi'
  obtain ⟨w, hw, hsame⟩ := hi'
  rw [← different_eq] at hw
  exact ⟨v, w, hv, by rw [vertex_rebuild h.channels_le h.uses_different, hw], hsame⟩

theorem Indexed.rebuild (h : mesh.Indexed)
    (hfaces : faces.map RepoFace.indices = (internGroups same [] mesh.cornerVertices).2) :
    (mesh.rebuild mesh.different faces).Indexed where
  channels_le := by
    rw [channels_rebuild h.channels_le]
    split_ifs
    · exact Nat.le_refl _
    · exact Nat.zero_le _
  normals := by
    have hlen := length_normals_rebuild h.uses_different faces
    rw [length_vertices_rebuild]
    split_ifs at hlen
    · exact Or.inr hlen
    · exact Or.inl (List.length_eq_zero_iff.1 hlen)
  channel := by
    intro channel hchannel
    rw [channels_rebuild h.channels_le] at hchannel
    rw [length_vertices_rebuild]
    split_ifs at hchannel with hused
    · rw [List.mem_singleton.1 hchannel, length_filterMap fun v hv => (h.uses_different v hv).2, if_pos hused]
    · cases hchannel
  index_lt := by
    intro f hf i hi
    have hstands := Library.forall₂_internAllBy same [] mesh.cornerVertices.flatten
    have hmem : i ∈ (internAllBy same [] mesh.cornerVertices.flatten).2 := by
      rw [internAllBy_flatten, ← hfaces]
      exact List.mem_flatten.2 ⟨f.indices, List.mem_map.2 ⟨f, hf, rfl⟩, hi⟩
    obtain ⟨v, -, w, hw, -⟩ := exists_left_of_forall₂ hstands hmem
    rw [length_vertices_rebuild]
    exact (List.getElem?_eq_some_iff.1 hw).1

variable [PartialEquivBEq R]

private theorem Indexed.removeDuplicateVertices_eq_ok (h : mesh.Indexed) (hroom : mesh.different.length < 2 ^ 32) :
    ∃ faces, mesh.removeDuplicateVertices H E = .ok (mesh.rebuild mesh.different faces) ∧
      faces.map RepoFace.indices = (internGroups same [] mesh.cornerVertices).2 := by
  have hspells : NewVertices.Spells H ⟨[], []⟩ ([] : List (Vertex R)) := NewVertices.spells_nil
  rw [different_eq] at hroom ⊢
  obtain ⟨r, hr, hrspells, hindices⟩ := assignFaces_eq_ok hspells h.forall₂_vertices hroom (E := E)
  refine ⟨r.2, ?_, hindices⟩
  unfold removeDuplicateVertices
  rw [if_neg (not_lt.2 h.channels_le), hr, ← hrspells.newVertices]
  rfl

private theorem Indexed.internGroups_rebuild (h : mesh.Indexed)
    (hfaces : faces.map RepoFace.indices = (internGroups same [] mesh.cornerVertices).2) :
    internGroups same [] (mesh.rebuild mesh.different faces).cornerVertices = internGroups same [] mesh.cornerVertices := by
  have hvertices := (h.rebuild hfaces).forall₂_vertices
  refine internGroups_again sameAs_same .nil _ _ List.prefix_rfl ?_
  rw [← hfaces, List.forall₂_map_left_iff]
  refine hvertices.imp ?_
  intro f vs hvs
  refine hvs.imp ?_
  intro i v hv
  rwa [vertex_rebuild h.channels_le h.uses_different, different_eq] at hv

theorem Indexed.removeDuplicateVertices_again (h : mesh.Indexed) (hroom : mesh.different.length < 2 ^ 32)
    (hfaces : faces.map RepoFace.indices = (internGroups same [] mesh.cornerVertices).2) :
    (mesh.rebuild mesh.different faces).removeDuplicateVertices H E = .ok (mesh.rebuild mesh.different faces) := by
  have hagain := h.internGroups_rebuild hfaces
  have hdifferent : (mesh.rebuild mesh.different faces).different = mesh.different := by
    rw [different_eq, hagain, different_eq]
  obtain ⟨faces', hremoved, hfaces'⟩ := (h.rebuild hfaces).removeDuplicateVertices_eq_ok (H := H) (E := E)
    (by rwa [hdifferent])
  rw [hagain, ← hfaces] at hfaces'
  rw [hremoved, hdifferent, eq_of_map_indices hfaces']
  exact congrArg _ (rebuild_rebuild h.channels_le)

theorem Indexed.canonical (h : mesh.Indexed) (hroom : mesh.different.length < 2 ^ 32)
    (hfaces : faces.map RepoFace.indices = (internGroups same [] mesh.cornerVertices).2) :
    mesh.Canonical H E (mesh.rebuild mesh.different faces) where
  corners := h.keepsCorners hfaces
  different := by
    intro i j hij hj
    rw [length_vertices_rebuild] at hj
    have hi : i < mesh.different.length := by omega
    have hne := List.pairwise_iff_getElem.1 mesh.pairwise_different i j hi hj hij
    refine ⟨mesh.different[i], mesh.different[j], ?_, ?_, hne⟩
    · rw [vertex_rebuild h.channels_le h.uses_different, List.getElem?_eq_getElem hi]
    · rw [vertex_rebuild h.channels_le h.uses_different, List.getElem?_eq_getElem hj]
  used := by
    intro i hi
    rw [length_vertices_rebuild] at hi
    exact used_of_lt hfaces hi
  normals := by rw [length_normals_rebuild h.uses_different, length_vertices_rebuild]
  channels := by
    have hle := h.channels_le
    rw [channels_rebuild hle]
    cases hchannels : mesh.channels with
    | nil => simp [useUvs, hchannels]
    | cons channel channels =>
      rw [hchannels, List.length_cons] at hle
      obtain rfl : channels = [] := List.length_eq_zero_iff.1 (by omega)
      simp [useUvs, hchannels]
  channel := (h.rebuild hfaces).channel
  again := h.removeDuplicateVertices_again hroom hfaces

/-- Removing the duplicates keeps each corner, and leaves vertices that are different and used, so that there is nothing left to
remove. -/
theorem removeDuplicateVertices_canonical (H : FloatHash R) (E : EqualRange) (mesh : MeshGeometry R) (h : mesh.Indexed)
    (hroom : mesh.different.length < 2 ^ 32) :
    ∃ new, mesh.removeDuplicateVertices H E = .ok new ∧ mesh.Canonical H E new := by
  obtain ⟨faces, hremoved, hfaces⟩ := h.removeDuplicateVertices_eq_ok hroom (H := H) (E := E)
  exact ⟨_, hremoved, h.canonical hroom hfaces⟩

end Removal

section Numbers

/-- Numbers for coordinates, with themselves as hashes. -/
def numberHash : FloatHash ℕ where
  hasher n := BitVec.ofNat 64 n
  hasher_eq := by
    intro x y h
    rw [eq_of_beq h]

/-- The values of a key in the order of their insertion. -/
def insertionOrder : EqualRange where
  range map key := (map.filter fun entry => entry.1 == key).map Prod.snd
  mem_range := by
    intro map key i
    simp [List.mem_map, List.mem_filter]

/-- Two triangles of a square, with vertices of their own, normals and UVs. -/
def square : MeshGeometry ℕ where
  vertices := [⟨0, 0, 0⟩, ⟨1, 0, 0⟩, ⟨0, 1, 0⟩, ⟨1, 0, 0⟩, ⟨1, 1, 0⟩, ⟨0, 1, 0⟩]
  normals := [⟨0, 0, 1⟩, ⟨0, 0, 1⟩, ⟨0, 0, 1⟩, ⟨0, 0, 1⟩, ⟨0, 0, 1⟩, ⟨0, 0, 1⟩]
  channels := [[⟨0, 0⟩, ⟨1, 0⟩, ⟨0, 1⟩, ⟨1, 0⟩, ⟨1, 1⟩, ⟨0, 1⟩]]
  faces := [.triangle 0 1 2, .triangle 3 4 5]

theorem removeDuplicateVertices_canonical_square :
    ∃ new, square.removeDuplicateVertices numberHash insertionOrder = .ok new ∧
      square.Canonical numberHash insertionOrder new :=
  removeDuplicateVertices_canonical numberHash insertionOrder square
    { channels_le := by decide
      normals := by decide
      channel := by decide
      index_lt := by decide } (by decide)

/-! ### Too many vertices -/

def point (i : ℕ) : RepoFace := ⟨[i], by simp⟩

/-- Vertices on a grid, a point for each of them, and one more point for the last. -/
def grid (n : ℕ) : MeshGeometry ℕ where
  vertices := (List.range n).map fun i => ⟨i / 2 ^ 16, i % 2 ^ 16, 0⟩
  normals := []
  channels := []
  faces := (List.range (n - 1)).map point ++ [point (n - 1), point (n - 1)]

def gridVertex (i : ℕ) : Vertex ℕ := ⟨⟨i / 2 ^ 16, i % 2 ^ 16, 0⟩, none, none⟩

private theorem same_gridVertex {i j : ℕ} : same (gridVertex i) (gridVertex j) = true ↔ i = j := by
  simp only [Vertex.same_iff, Vertex.samePosition_iff, gridVertex, Vertex.sameOptional, beq_iff_eq, and_true]
  constructor
  · intro h
    obtain ⟨hdiv, hmod⟩ := h
    rw [← Nat.div_add_mod i (2 ^ 16), hdiv, hmod, Nat.div_add_mod]
  · intro h
    exact ⟨by rw [h], by rw [h]⟩

private theorem vertex_grid {n i : ℕ} (hi : i < n) : (grid n).vertex i = some (gridVertex i) := by
  have hposition : (grid n).vertices[i]? = some ⟨i / 2 ^ 16, i % 2 ^ 16, 0⟩ := by
    show ((List.range n).map _)[i]? = _
    rw [List.getElem?_map, List.getElem?_range hi]
    rfl
  unfold vertex
  rw [hposition]
  rfl

variable {n : ℕ}

private theorem indexed_grid (hn : 0 < n) : (grid n).Indexed where
  channels_le := Nat.zero_le _
  normals := Or.inl rfl
  channel := by
    intro channel hchannel
    cases hchannel
  index_lt := by
    intro f hf i hi
    have hlen : (grid n).vertices.length = n := by simp [grid]
    rw [hlen]
    rcases List.mem_append.1 hf with hf | hf
    · obtain ⟨j, hj, rfl⟩ := List.mem_map.1 hf
      rw [List.mem_singleton.1 hi]
      have hlt := List.mem_range.1 hj
      omega
    · have hpoint : f = point (n - 1) := by simpa using hf
      rw [hpoint] at hi
      rw [List.mem_singleton.1 hi]
      omega

private theorem internBy_gridVertex (k : ℕ) : internBy same ((List.range k).map gridVertex) (gridVertex k) =
    ((List.range (k + 1)).map gridVertex, k) := by
  rcases internBy_cases same ((List.range k).map gridVertex) (gridVertex k) with ⟨i, hi, hsame, -⟩ | ⟨-, hintern⟩
  · rw [List.length_map, List.length_range] at hi
    rw [List.getElem_map, List.getElem_range, same_gridVertex] at hsame
    omega
  · rw [hintern, List.range_succ, List.map_append, List.length_map, List.length_range]
    rfl

private theorem internGroups_gridVertex (k : ℕ) : internGroups same [] ((List.range k).map fun i => [gridVertex i]) =
    ((List.range k).map gridVertex, (List.range k).map fun i => [i]) := by
  induction k with
  | zero => rfl
  | succ k ih =>
    have hlast : internGroups same ((List.range k).map gridVertex) [[gridVertex k]] =
        ((List.range (k + 1)).map gridVertex, [[k]]) := by
      rw [internGroups_cons, internAllBy_cons, internBy_gridVertex]
      rfl
    rw [List.range_succ, List.map_append, List.map_append, Library.internGroups_append, ih, List.map_singleton,
      List.map_singleton, List.map_append, hlast, List.range_succ, List.map_append]
    rfl

private theorem assignFaces_append [BEq R] {H : FloatHash R} {E : EqualRange} {mesh : MeshGeometry R} {s : NewVertices R}
    {faces faces' : List RepoFace} {r rs : NewVertices R × List RepoFace} (h : assignFaces H E mesh s faces = .ok r)
    (h' : assignFaces H E mesh r.1 faces' = .ok rs) :
    assignFaces H E mesh s (faces ++ faces') = .ok (rs.1, r.2 ++ rs.2) := by
  induction faces generalizing s r with
  | nil =>
    cases h
    exact h'
  | cons f faces ih =>
    obtain ⟨q, hq, h⟩ := bind_eq_ok.1 h
    obtain ⟨qs, hqs, h⟩ := bind_eq_ok.1 h
    cases h
    show (assignFace H E mesh s f >>= fun r => assignFaces H E mesh r.1 (faces ++ faces') >>= _) = _
    rw [hq]
    show (assignFaces H E mesh q.1 (faces ++ faces') >>= _) = _
    rw [ih hqs h']
    rfl

private theorem assignFace_point [BEq R] {H : FloatHash R} {E : EqualRange} {mesh : MeshGeometry R} {s : NewVertices R}
    (hv : mesh.vertex i = some v) :
    assignFace H E mesh s (point i) = .ok ((s.assign H E v).1, point (s.assign H E v).2) := by
  have hassign : assignIndex H E mesh s i = .ok (s.assign H E v) := by
    unfold assignIndex
    rw [hv]
  show (assignIndex H E mesh s i >>= _) >>= _ = _
  rw [hassign]
  rfl

private theorem assign_full (hn : n = 2 ^ 32) {s : NewVertices ℕ}
    (hs : s.Spells numberHash ((List.range n).map gridVertex)) :
    (s.assign numberHash insertionOrder (gridVertex (n - 1))).2 = 0 ∧
      (s.assign numberHash insertionOrder (gridVertex (n - 1))).1.newVertices =
        (List.range n).map gridVertex ++ [gridVertex (n - 1)] := by
  have hmatching : s.matching numberHash insertionOrder (gridVertex (n - 1)) = notFound := by
    rcases hs.matching_cases (gridVertex (n - 1)) (E := insertionOrder) with ⟨i, hi, hsame, hmatching⟩ | ⟨-, hmatching⟩
    · rw [List.getElem_map, List.getElem_range, same_gridVertex] at hsame
      rw [hmatching, hsame]
      unfold notFound
      omega
    · exact hmatching
  have hlen : s.newVertices.length % 2 ^ 32 = 0 := by
    rw [hs.newVertices, List.length_map, List.length_range, hn, Nat.mod_self]
  unfold NewVertices.assign
  rw [if_pos hmatching, hlen, hs.newVertices]
  exact ⟨rfl, rfl⟩

/-- The last point of the grid is given the first vertex. -/
theorem removeDuplicateVertices_grid (hn : n = 2 ^ 32) :
    ∃ faces, (grid n).removeDuplicateVertices numberHash insertionOrder =
      .ok ((grid n).rebuild ((List.range n).map gridVertex ++ [gridVertex (n - 1)]) (faces ++ [point 0])) := by
  have hspells : NewVertices.Spells numberHash ⟨[], []⟩ ([] : List (Vertex ℕ)) := NewVertices.spells_nil
  have hvertices : List.Forall₂ (fun (f : RepoFace) vs => List.Forall₂ (fun i v => (grid n).vertex i = some v) f.indices vs)
      ((List.range (n - 1)).map point) ((List.range (n - 1)).map fun i => [gridVertex i]) := by
    rw [List.forall₂_map_left_iff, List.forall₂_map_right_iff, List.forall₂_same]
    intro i hi
    have hlt := List.mem_range.1 hi
    exact .cons (vertex_grid (by omega)) .nil
  have hroom : (internGroups same [] ((List.range (n - 1)).map fun i => [gridVertex i])).1.length < 2 ^ 32 := by
    rw [internGroups_gridVertex, List.length_map, List.length_range]
    omega
  obtain ⟨r, hr, hrspells, -⟩ := assignFaces_eq_ok hspells hvertices hroom (E := insertionOrder)
  rw [internGroups_gridVertex] at hrspells
  -- the last vertex gets the last index, and is not found with it
  obtain ⟨hfull, -⟩ := hrspells.assign (gridVertex (n - 1)) (E := insertionOrder)
    (by rw [List.length_map, List.length_range]; omega)
  rw [internBy_gridVertex, Nat.sub_add_cancel (by omega)] at hfull
  obtain ⟨hindex, htable⟩ := assign_full hn hfull
  have hvertex : (grid n).vertex (n - 1) = some (gridVertex (n - 1)) := vertex_grid (by omega)
  have hlast : ∀ s, assignFaces numberHash insertionOrder (grid n) s [point (n - 1), point (n - 1)] =
      .ok (((s.assign numberHash insertionOrder (gridVertex (n - 1))).1.assign numberHash insertionOrder
        (gridVertex (n - 1))).1, [point (s.assign numberHash insertionOrder (gridVertex (n - 1))).2,
        point ((s.assign numberHash insertionOrder (gridVertex (n - 1))).1.assign numberHash insertionOrder
          (gridVertex (n - 1))).2]) := by
    intro s
    simp only [assignFaces, assignFace_point hvertex]
    rfl
  have hall := assignFaces_append hr (hlast r.1)
  rw [hindex] at hall
  refine ⟨r.2 ++ [point (r.1.assign numberHash insertionOrder (gridVertex (n - 1))).2], ?_⟩
  unfold removeDuplicateVertices
  rw [if_neg (by simp [grid])]
  show (assignFaces numberHash insertionOrder (grid n) ⟨[], []⟩
    ((List.range (n - 1)).map point ++ [point (n - 1), point (n - 1)]) >>= _) = _
  rw [hall, ← htable, List.append_assoc]
  rfl

private theorem not_keepsCorners_grid (hn : n = 2 ^ 32) (faces : List RepoFace) : ¬ (grid n).KeepsCorners
    ((grid n).rebuild ((List.range n).map gridVertex ++ [gridVertex (n - 1)]) (faces ++ [point 0])) := by
  intro h
  have hfaces : (grid n).faces = (List.range (n - 1)).map point ++ [point (n - 1)] ++ [point (n - 1)] := by
    simp [grid]
  unfold KeepsCorners at h
  rw [hfaces] at h
  have hreverse := List.forall₂_reverse_iff.2 (show List.Forall₂ _ _ (faces ++ [point 0]) from h)
  simp only [List.reverse_append, List.reverse_singleton, List.singleton_append] at hreverse
  obtain ⟨hlast, -⟩ := List.forall₂_cons.1 hreverse
  obtain ⟨⟨v, w, hv, hw, hsame⟩, -⟩ := List.forall₂_cons.1 hlast
  rw [vertex_grid (by omega), Option.some.injEq] at hv
  have huses : (grid n).Uses ((List.range n).map gridVertex ++ [gridVertex (n - 1)]) := by
    intro v hv
    rw [← List.map_singleton, ← List.map_append] at hv
    obtain ⟨i, -, rfl⟩ := List.mem_map.1 hv
    exact ⟨rfl, rfl⟩
  rw [vertex_rebuild (Nat.zero_le _) huses, List.getElem?_append_left (by simp; omega), List.getElem?_map,
    List.getElem?_range (by omega), Option.map_some, Option.some.injEq] at hw
  rw [← hv, ← hw] at hsame
  have hne : 0 ≠ n - 1 := by omega
  rcases hsame with heq | hsame
  · refine hne (same_gridVertex.1 ?_)
    rw [← heq]
    exact same_gridVertex.2 rfl
  · exact hne (same_gridVertex.1 hsame)

/-- With `2 ^ 32` vertices that are different a corner gets the vertex of another one. -/
theorem not_removeDuplicateVertices_canonical : (grid (2 ^ 32)).Indexed ∧
    ¬ ∃ new, (grid (2 ^ 32)).removeDuplicateVertices numberHash insertionOrder = .ok new ∧
      (grid (2 ^ 32)).Canonical numberHash insertionOrder new := by
  obtain ⟨n, hn⟩ : ∃ n, n = 2 ^ 32 := ⟨_, rfl⟩
  rw [← hn]
  refine ⟨indexed_grid (by omega), ?_⟩
  rintro ⟨new, hnew, hcanonical⟩
  obtain ⟨faces, hfaces⟩ := removeDuplicateVertices_grid hn
  rw [hfaces] at hnew
  cases hnew
  exact not_keepsCorners_grid hn faces hcanonical.corners

end Numbers

end MeshGeometry

end Bouncer
