import Bouncer.Datastructure.Structs

/-!
# Vertex buffers

The buffers of a mesh that are indexed by its vertices: positions, normals if there are any, and UV channels.  `corner`
is what they say about one vertex.  Appending the buffers of a mesh to others of the same format keeps the corners of
both (`corner_append_left`, `corner_append_right`).
-/

namespace Bouncer

variable {R : Type*}

structure VertexBuffers (R : Type*) where
  vertices : List (RepoVector3D R)
  normals : List (RepoVector3D R)
  channels : List (List (RepoVector2D R))

namespace VertexBuffers

/-- Position, normal and UVs of a vertex. -/
def corner (b : VertexBuffers R) (i : ℕ) : Option (RepoVector3D R) × Option (RepoVector3D R) × List (Option (RepoVector2D R)) :=
  (b.vertices[i]?, b.normals[i]?, b.channels.map fun channel => channel[i]?)

/-- There is a normal for each vertex or for none, and `n` UV channels with one entry for each vertex. -/
structure Format (b : VertexBuffers R) (hasNormals : Bool) (n : ℕ) : Prop where
  normals : b.normals.length = if hasNormals then b.vertices.length else 0
  channels : b.channels.length = n
  channel : ∀ channel ∈ b.channels, channel.length = b.vertices.length

def append (b b' : VertexBuffers R) : VertexBuffers R :=
  ⟨b.vertices ++ b'.vertices, b.normals ++ b'.normals, List.zipWith (· ++ ·) b.channels b'.channels⟩

variable {b b' : VertexBuffers R} {hasNormals : Bool} {n : ℕ}

theorem Format.append (h : b.Format hasNormals n) (h' : b'.Format hasNormals n) : (b.append b').Format hasNormals n where
  normals := by
    have hn := h.normals
    have hn' := h'.normals
    cases hasNormals <;> simp_all [VertexBuffers.append]
  channels := by simp [VertexBuffers.append, h.channels, h'.channels]
  channel := by
    intro channel hchannel
    obtain ⟨i, hi, rfl⟩ := List.mem_iff_getElem.1 hchannel
    simp only [VertexBuffers.append, List.length_zipWith] at hi
    have hleft := h.channel _ (List.getElem_mem (Nat.lt_of_lt_of_le hi (Nat.min_le_left _ _)))
    have hright := h'.channel _ (List.getElem_mem (Nat.lt_of_lt_of_le hi (Nat.min_le_right _ _)))
    simp only [VertexBuffers.append, List.getElem_zipWith, List.length_append, hleft, hright]

private theorem zipWith_eq_map {α β γ : Type*} {f : α → β → γ} {g : α → γ} {l : List α} {l' : List β}
    (h : l.length = l'.length) (hf : ∀ x ∈ l, ∀ y ∈ l', f x y = g x) : List.zipWith f l l' = l.map g := by
  induction l generalizing l' with
  | nil => rfl
  | cons x l ih =>
    cases l' with
    | nil => exact absurd h (Nat.succ_ne_zero _)
    | cons y l' =>
      rw [List.zipWith_cons_cons, List.map_cons, hf x List.mem_cons_self y List.mem_cons_self]
      exact congrArg _ (ih (Nat.succ.inj h)
        fun x' hx' y' hy' => hf x' (List.mem_cons_of_mem _ hx') y' (List.mem_cons_of_mem _ hy'))

/-- The corners that were there stay as they are. -/
theorem corner_append_left (h : b.Format hasNormals n) (h' : b'.Format hasNormals n) {i : ℕ}
    (hi : i < b.vertices.length) : (b.append b').corner i = b.corner i := by
  have hn := h.normals
  have hn' := h'.normals
  unfold corner append
  refine Prod.ext (List.getElem?_append_left hi) (Prod.ext ?_ ?_)
  · cases hasNormals with
    | true => exact List.getElem?_append_left (by simpa [hn] using hi)
    | false =>
      simp only [Bool.false_eq_true, if_false, List.length_eq_zero_iff] at hn hn'
      simp [hn, hn']
  · dsimp only
    rw [List.map_zipWith]
    refine zipWith_eq_map (h.channels.trans h'.channels.symm) ?_
    intro x hx x' _
    exact List.getElem?_append_left (by rwa [h.channel x hx])

/-- The new corners follow those that were there. -/
theorem corner_append_right (h : b.Format hasNormals n) (h' : b'.Format hasNormals n) (i : ℕ) :
    (b.append b').corner (b.vertices.length + i) = b'.corner i := by
  have hn := h.normals
  have hn' := h'.normals
  have hskip : ∀ {α : Type _} {l l' : List α}, l.length = b.vertices.length →
      (l ++ l')[b.vertices.length + i]? = l'[i]? := by
    intro α l l' hl
    rw [List.getElem?_append_right (by omega), hl, Nat.add_sub_cancel_left]
  unfold corner append
  refine Prod.ext (hskip rfl) (Prod.ext ?_ ?_)
  · cases hasNormals with
    | true => exact hskip (by simpa using hn)
    | false =>
      simp only [Bool.false_eq_true, if_false, List.length_eq_zero_iff] at hn hn'
      simp [hn, hn']
  · dsimp only
    rw [List.map_zipWith, List.zipWith_comm]
    refine zipWith_eq_map (h'.channels.trans h.channels.symm) ?_
    intro x' _ x hx
    exact hskip (h.channel x hx)

end VertexBuffers

end Bouncer
