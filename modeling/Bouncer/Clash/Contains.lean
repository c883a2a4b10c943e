import Bouncer.Clash.Mesh
import Mathlib.Tactic.FinCases

/-!
# The containment test

`geometry::contains` casts a ray from one vertex after the other and counts what it hits of the closed mesh.  A ray that
lies in the plane of a triangle tells nothing, so the test goes on with another, random one.  After twelve such rays
from one vertex it raises.

A ray is always in the plane of a triangle whose corners are on one line with the start of the ray
(`intersects_degenerate`), so a vertex on a triangle without area makes the test raise (`contains_raises`).
-/

namespace Bouncer.Clash

variable {R : Type*}

/-- What `geometry::intersects` says about a ray and a triangle. -/
inductive RayHit where
  | degenerate
  | miss
  | hit (edges : ℕ)

/-- The components by their index. -/
def component (v : RepoVector3D R) : Fin 3 → R := ![v.x, v.y, v.z]

section Ray

variable [ExactReal R]

/-- The dominant axis of a direction. -/
def dominantAxis (dir : Fin 3 → R) : Fin 3 :=
  let kz : Fin 3 := if |dir 1| > |dir 0| then 1 else 0
  if |dir 2| > |dir kz| then 2 else kz

def intersects (origin direction : RepoVector3D R) (triangle : RepoTriangle R) : RayHit :=
  let dir := component direction
  let kz := dominantAxis dir
  let kx := if dir kz < 0 then kz + 2 else kz + 1
  let ky := if dir kz < 0 then kz + 1 else kz + 2
  let Sx := dir kx / dir kz
  let Sy := dir ky / dir kz
  let Sz := 1 / dir kz
  let v0 := component (triangle.a - origin)
  let v1 := component (triangle.b - origin)
  let v2 := component (triangle.c - origin)
  let Ax := v0 kx - Sx * v0 kz
  let Ay := v0 ky - Sy * v0 kz
  let Bx := v1 kx - Sx * v1 kz
  let By := v1 ky - Sy * v1 kz
  let Cx := v2 kx - Sx * v2 kz
  let Cy := v2 ky - Sy * v2 kz
  let U := Cx * By - Cy * Bx
  let V := Ax * Cy - Ay * Cx
  let W := Bx * Ay - By * Ax
  let th := max (max (max |Ax| |Ay|) (max |Bx| |By|)) (max |Cx| |Cy|) * (12 / 10 ^ 7)
  if |U| < th ∧ |V| < th ∧ |W| < th then .degenerate
  else
    let det := U + V + W
    if (U < 0 ∨ V < 0 ∨ W < 0) ∧ (U > 0 ∨ V > 0 ∨ W > 0) then .miss
    else
      let T := U * (Sz * v0 kz) + V * (Sz * v1 kz) + W * (Sz * v2 kz)
      -- without a determinant the distance is not a number, which is not counted
      if det = 0 ∨ T / det < 0 then .miss else .hit ([U, V, W].countP fun x => decide (x = 0))

/-- The counters of `PrimitiveIntersector`. -/
structure Features where
  numFaces : ℕ
  numEdges : ℕ
  numVertices : ℕ

namespace Features

def reset : Features := ⟨0, 0, 0⟩

def count (features : Features) : ℕ → Except String Features
  | 0 => .ok { features with numFaces := features.numFaces + 1 }
  | 1 => .ok { features with numEdges := features.numEdges + 1 }
  | 2 => .ok { features with numVertices := features.numVertices + 1 }
  | _ => .error "Ray-triangle intersection reported invalid number of edges hit."

def numFeatures (features : Features) : ℕ := features.numFaces + features.numEdges / 2 + features.numVertices / 3

end Features

/-- The triangles that a ray meets one after the other, up to the first degenerate test. -/
def traverse (origin direction : RepoVector3D R) : List (RepoTriangle R) → Features → Except String (Option Features)
  | [], features => .ok (some features)
  | triangle :: rest, features =>
    match intersects origin direction triangle with
    | .degenerate => .ok none
    | .miss => traverse origin direction rest features
    | .hit edges => (features.count edges).bind (traverse origin direction rest)

/-- The loop over the rays from one vertex, for at most `n` rays.  It ends with the counters, the last direction and the
number of directions that have been drawn. -/
def castRays (cast : RepoVector3D R → Except String (Option Features)) (random : ℕ → RepoVector3D R) :
    ℕ → RepoVector3D R → ℕ → Except String (Features × RepoVector3D R × ℕ)
  | 0, _, _ => .error "Degenerate ray-triangle retry limit exceeded"
  | n + 1, d, drawn => (cast d).bind fun
    | some features => .ok (features, d, drawn)
    | none => castRays cast random n (random drawn) (drawn + 1)

def DEGEN_RETRY_LIMIT : ℕ := 10

/-- The loop of `contains` over the vertices. -/
def containsAll (cast : RepoVector3D R → RepoVector3D R → Except String (Option Features))
    (random : ℕ → RepoVector3D R) : List (RepoVector3D R) → RepoVector3D R → ℕ → Except String Bool
  | [], _, _ => .ok true
  -- the limit is checked before the counter is increased, and the first ray is not a retry
  | p :: rest, d, drawn => (castRays (cast p) random (DEGEN_RETRY_LIMIT + 2) d drawn).bind fun
    | (features, d, drawn) =>
      if features.numFeatures % 2 = 0 then .ok false else containsAll cast random rest d drawn

def encapsulates (node : BvhNode R) (bmin bmax : RepoVector3D R) : Bool :=
  decide (node.bounds 0 ≤ bmin.x ∧ bmax.x ≤ node.bounds 1 ∧ node.bounds 2 ≤ bmin.y ∧ bmax.y ≤ node.bounds 3 ∧
    node.bounds 4 ≤ bmin.z ∧ bmax.z ≤ node.bounds 5)

theorem encapsulates_eq_true_iff {node : BvhNode R} {bmin bmax : RepoVector3D R} :
    encapsulates node bmin bmax = true ↔
      (node.boundingBoxProxy.min.x ≤ bmin.x ∧ bmax.x ≤ node.boundingBoxProxy.max.x) ∧
      (node.boundingBoxProxy.min.y ≤ bmin.y ∧ bmax.y ≤ node.boundingBoxProxy.max.y) ∧
      (node.boundingBoxProxy.min.z ≤ bmin.z ∧ bmax.z ≤ node.boundingBoxProxy.max.z) := by
  rw [encapsulates, decide_eq_true_iff, and_assoc, and_assoc]
  rfl

/-- `geometry::contains`.  Which triangles of the mesh a ray is tested with, and in which order, is up to the vendored
`SingleRayTraverser`. -/
def contains (visits : MeshView R → RepoVector3D R → RepoVector3D R → List ℕ) (random : ℕ → RepoVector3D R)
    (vertices : List (RepoVector3D R)) (indices : List ℕ) (bounds : RepoBounds R) (mesh : MeshView R)
    (offset : RepoVector3D R) : Except String Bool :=
  if encapsulates (mesh.getBvh.nodes 0) (bounds.bmin + offset) (bounds.bmax + offset) then
    containsAll (fun p d => traverse p d ((visits mesh p d).map mesh.getTriangle) .reset) random
      (indices.map fun i => vertices.getD i 0 + offset) (random 0) 1
  else .ok false

/-! ### Rays that tell nothing -/

section Degenerate

variable {origin direction : RepoVector3D R} {triangle : RepoTriangle R}

theorem abs_le_dominantAxis (dir : Fin 3 → R) (i : Fin 3) : |dir i| ≤ |dir (dominantAxis dir)| := by
  unfold dominantAxis
  have h01 : |dir 0| ≤ |dir (if |dir 1| > |dir 0| then 1 else 0)| ∧
      |dir 1| ≤ |dir (if |dir 1| > |dir 0| then 1 else 0)| := by
    split_ifs with h
    · exact ⟨h.le, le_rfl⟩
    · exact ⟨le_rfl, not_lt.1 h⟩
  dsimp only
  split_ifs at h01 ⊢ with h1 h2 h2 <;> fin_cases i
  all_goals
    first
    | exact le_rfl
    | exact h01.1
    | exact h01.2
    | exact not_lt.1 ‹_›
    | exact h01.1.trans (le_of_lt ‹_›)
    | exact h01.2.trans (le_of_lt ‹_›)

/-- A hit on a triangle is on at most two of its edges. -/
theorem edges_le_two {edges : ℕ} (h : intersects origin direction triangle = .hit edges) : edges ≤ 2 := by
  unfold intersects at h
  extract_lets dir kz kx ky Sx Sy Sz v0 v1 v2 Ax Ay Bx By Cx Cy U V W th at h
  clear_value U V W th
  split_ifs at h with h1 h2 h3
  cases h
  -- with all three at zero there would be no determinant
  have hdet : U + V + W ≠ 0 := fun h0 => h3 (.inl h0)
  have hlt : [U, V, W].countP (fun x => decide (x = 0)) < [U, V, W].length := by
    refine lt_of_le_of_ne List.countP_le_length fun heq => hdet ?_
    rw [List.countP_eq_length] at heq
    have hU : U = 0 := by simpa using heq U (by simp)
    have hV : V = 0 := by simpa using heq V (by simp)
    have hW : W = 0 := by simpa using heq W (by simp)
    simp [hU, hV, hW]
  exact Nat.le_of_lt_succ hlt

private theorem component_mul (v : RepoVector3D R) (t : R) (i : Fin 3) : component (v * t) i = component v i * t := by
  fin_cases i <;> rfl

theorem dominantAxis_ne_zero {d : RepoVector3D R} (hd : d ≠ 0) :
    component d (dominantAxis (component d)) ≠ 0 := by
  intro h0
  have hle := abs_le_dominantAxis (component d)
  rw [h0, abs_zero] at hle
  have hx : component d 0 = 0 := abs_nonpos_iff.1 (hle 0)
  have hy : component d 1 = 0 := abs_nonpos_iff.1 (hle 1)
  have hz : component d 2 = 0 := abs_nonpos_iff.1 (hle 2)
  exact hd (RepoVector3D.ext hx hy hz)

private theorem crossProduct_eq_zero {e d : RepoVector3D R} {t : R} (h : ∀ i, component e i = t * component d i) :
    e.crossProduct d = 0 := by
  have hx : e.x = t * d.x := h 0
  have hy : e.y = t * d.y := h 1
  have hz : e.z = t * d.z := h 2
  ext
  · show e.y * d.z - e.z * d.y = 0
    rw [hy, hz]
    ring
  · show e.z * d.x - e.x * d.z = 0
    rw [hx, hz]
    ring
  · show e.x * d.y - e.y * d.x = 0
    rw [hx, hy]
    ring

private theorem fin_three_cases (kz i : Fin 3) : i = kz ∨ i = kz + 1 ∨ i = kz + 2 := by
  revert kz i
  decide

/-- A triangle whose corners are on one line with the start of the ray degenerates the test, unless the ray itself is on
this line. -/
theorem intersects_degenerate {e : RepoVector3D R} {α β γ : R} (hpar : e.crossProduct direction ≠ 0)
    (hone : ¬ (α = 0 ∧ β = 0 ∧ γ = 0)) (ha : triangle.a - origin = e * α) (hb : triangle.b - origin = e * β)
    (hc : triangle.c - origin = e * γ) :
    intersects origin direction triangle = .degenerate := by
  have hdir : direction ≠ 0 := by
    rintro rfl
    refine hpar ?_
    ext <;> simp [RepoVector3D.crossProduct]
  have hkz := dominantAxis_ne_zero hdir
  unfold intersects
  extract_lets dir kz kx ky Sx Sy Sz v0 v1 v2 Ax Ay Bx By Cx Cy U V W th
  -- the direction of the line in ray space
  let p := component e kx - Sx * component e kz
  let q := component e ky - Sy * component e kz
  have hAx : Ax = p * α := by
    simp only [Ax, v0, p, ha, component_mul]
    ring
  have hAy : Ay = q * α := by
    simp only [Ay, v0, q, ha, component_mul]
    ring
  have hBx : Bx = p * β := by
    simp only [Bx, v1, p, hb, component_mul]
    ring
  have hBy : By = q * β := by
    simp only [By, v1, q, hb, component_mul]
    ring
  have hCx : Cx = p * γ := by
    simp only [Cx, v2, p, hc, component_mul]
    ring
  have hCy : Cy = q * γ := by
    simp only [Cy, v2, q, hc, component_mul]
    ring
  have hU : U = 0 := by
    simp only [U, hBx, hBy, hCx, hCy]
    ring
  have hV : V = 0 := by
    simp only [V, hAx, hAy, hCx, hCy]
    ring
  have hW : W = 0 := by
    simp only [W, hAx, hAy, hBx, hBy]
    ring
  have hpq : ¬ (p = 0 ∧ q = 0) := by
    rintro ⟨hp, hq⟩
    refine hpar (crossProduct_eq_zero (t := component e kz / dir kz) fun i => ?_)
    have hx : component e kx = component e kz / dir kz * dir kx := by
      have : component e kx = Sx * component e kz := sub_eq_zero.1 hp
      rw [this]
      ring
    have hy : component e ky = component e kz / dir kz * dir ky := by
      have : component e ky = Sy * component e kz := sub_eq_zero.1 hq
      rw [this]
      ring
    have hz : component e kz = component e kz / dir kz * dir kz := (div_mul_cancel₀ _ hkz).symm
    have hi : i = kz ∨ i = kx ∨ i = ky := by
      have hcases := fin_three_cases kz i
      simp only [kx, ky]
      split_ifs
      · exact hcases.imp_right Or.symm
      · exact hcases
    rcases hi with rfl | rfl | rfl
    · exact hz
    · exact hx
    · exact hy
  have hth : th = max (max (max |Ax| |Ay|) (max |Bx| |By|)) (max |Cx| |Cy|) * (12 / 10 ^ 7) := rfl
  clear_value U V W th Ax Ay Bx By Cx Cy p q
  have hpos : 0 < th := by
    rw [hth]
    refine mul_pos ?_ (by norm_num)
    by_contra hle
    rw [not_lt] at hle
    simp only [max_le_iff, abs_nonpos_iff, hAx, hAy, hBx, hBy, hCx, hCy, mul_eq_zero] at hle
    obtain ⟨⟨⟨hpa, hqa⟩, hpb, hqb⟩, hpc, hqc⟩ := hle
    by_cases hp : p = 0
    · have hq : q ≠ 0 := fun hq => hpq ⟨hp, hq⟩
      exact hone ⟨hqa.resolve_left hq, hqb.resolve_left hq, hqc.resolve_left hq⟩
    · exact hone ⟨hpa.resolve_left hp, hpb.resolve_left hp, hpc.resolve_left hp⟩
  rw [hU, hV, hW]
  simp [hpos]

private theorem traverse_eq_none {triangles : List (RepoTriangle R)} {features : Features}
    (h : ∃ triangle ∈ triangles, intersects origin direction triangle = .degenerate) :
    traverse origin direction triangles features = .ok none := by
  induction triangles generalizing features with
  | nil => simp at h
  | cons triangle rest ih =>
    rw [traverse]
    cases hhit : intersects origin direction triangle with
    | degenerate => rfl
    | miss =>
      refine ih ?_
      simpa [hhit] using h
    | hit edges =>
      have hrest : ∃ triangle ∈ rest, intersects origin direction triangle = .degenerate := by
        simpa [hhit] using h
      have hle := edges_le_two hhit
      have hcount : ∃ counted, features.count edges = .ok counted := by
        match edges, hle with
        | 0, _ => exact ⟨_, rfl⟩
        | 1, _ => exact ⟨_, rfl⟩
        | 2, _ => exact ⟨_, rfl⟩
      obtain ⟨counted, hcount⟩ := hcount
      show (features.count edges).bind (traverse origin direction rest) = .ok none
      rw [hcount]
      exact ih hrest

end Degenerate

omit [ExactReal R] in
private theorem castRays_error {cast : RepoVector3D R → Except String (Option Features)} {random : ℕ → RepoVector3D R}
    {n drawn : ℕ} {d : RepoVector3D R} (hd : cast d = .ok none) (h : ∀ k, cast (random k) = .ok none) :
    castRays cast random n d drawn = .error "Degenerate ray-triangle retry limit exceeded" := by
  induction n generalizing d drawn with
  | zero => rfl
  | succ n ih =>
    rw [castRays, hd]
    exact ih (h drawn)

/-- The test raises when each ray from the first vertex degenerates. -/
theorem contains_raises {visits : MeshView R → RepoVector3D R → RepoVector3D R → List ℕ} {random : ℕ → RepoVector3D R}
    {vertices : List (RepoVector3D R)} {indices : List ℕ} {bounds : RepoBounds R} {mesh : MeshView R}
    {offset : RepoVector3D R} {i : ℕ}
    (hbounds : encapsulates (mesh.getBvh.nodes 0) (bounds.bmin + offset) (bounds.bmax + offset) = true)
    (h : ∀ k, ∃ j ∈ visits mesh (vertices.getD i 0 + offset) (random k),
      intersects (vertices.getD i 0 + offset) (random k) (mesh.getTriangle j) = .degenerate) :
    contains visits random vertices (i :: indices) bounds mesh offset =
      .error "Degenerate ray-triangle retry limit exceeded" := by
  have hcast : ∀ k, traverse (vertices.getD i 0 + offset) (random k)
      ((visits mesh (vertices.getD i 0 + offset) (random k)).map mesh.getTriangle) .reset = .ok none := by
    intro k
    obtain ⟨j, hj, hdegenerate⟩ := h k
    exact traverse_eq_none ⟨_, List.mem_map_of_mem hj, hdegenerate⟩
  rw [contains, if_pos hbounds, List.map_cons, containsAll, castRays_error (hcast 0) hcast]
  rfl

end Ray

end Bouncer.Clash
