import Bouncer.Bvh.Refit
import Mathlib.Data.List.GetD

/-!
# Exact bounds

Boxes are ordered by inclusion, and `extend` is their supremum.  The bounds of a hierarchy are exact if the box of every
node is the least one with room for the boxes of the primitives below it.  Then the boxes are those that a refit gives
them (`Exact.fits`), so a refit changes nothing (`Exact.refit_eq_self`).
-/

namespace Bouncer

variable {R : Type*} [LinearOrder R]

namespace BoundingBox

instance : LE (BoundingBox R) where
  le b c := (c.min.x ≤ b.min.x ∧ c.min.y ≤ b.min.y ∧ c.min.z ≤ b.min.z) ∧
    (b.max.x ≤ c.max.x ∧ b.max.y ≤ c.max.y ∧ b.max.z ≤ c.max.z)

private theorem le_def {b c : BoundingBox R} :
    b ≤ c ↔ (c.min.x ≤ b.min.x ∧ c.min.y ≤ b.min.y ∧ c.min.z ≤ b.min.z) ∧
      (b.max.x ≤ c.max.x ∧ b.max.y ≤ c.max.y ∧ b.max.z ≤ c.max.z) := Iff.rfl

/-- Boxes by inclusion. -/
instance : SemilatticeSup (BoundingBox R) where
  le_refl _ := ⟨⟨le_rfl, le_rfl, le_rfl⟩, ⟨le_rfl, le_rfl, le_rfl⟩⟩
  le_trans b c d hbc hcd := by
    rw [le_def] at *
    exact ⟨⟨hcd.1.1.trans hbc.1.1, hcd.1.2.1.trans hbc.1.2.1, hcd.1.2.2.trans hbc.1.2.2⟩,
      ⟨hbc.2.1.trans hcd.2.1, hbc.2.2.1.trans hcd.2.2.1, hbc.2.2.2.trans hcd.2.2.2⟩⟩
  le_antisymm b c hbc hcb := by
    rw [le_def] at hbc hcb
    have hmin : b.min = c.min :=
      RepoVector3D.ext (le_antisymm hcb.1.1 hbc.1.1) (le_antisymm hcb.1.2.1 hbc.1.2.1) (le_antisymm hcb.1.2.2 hbc.1.2.2)
    have hmax : b.max = c.max :=
      RepoVector3D.ext (le_antisymm hbc.2.1 hcb.2.1) (le_antisymm hbc.2.2.1 hcb.2.2.1) (le_antisymm hbc.2.2.2 hcb.2.2.2)
    cases b
    cases c
    cases hmin
    cases hmax
    rfl
  sup := extend
  le_sup_left b c := ⟨⟨min_le_left _ _, min_le_left _ _, min_le_left _ _⟩, ⟨le_max_left _ _, le_max_left _ _, le_max_left _ _⟩⟩
  le_sup_right b c :=
    ⟨⟨min_le_right _ _, min_le_right _ _, min_le_right _ _⟩, ⟨le_max_right _ _, le_max_right _ _, le_max_right _ _⟩⟩
  sup_le b c d hbd hcd :=
    ⟨⟨le_min hbd.1.1 hcd.1.1, le_min hbd.1.2.1 hcd.1.2.1, le_min hbd.1.2.2 hcd.1.2.2⟩,
      ⟨max_le hbd.2.1 hcd.2.1, max_le hbd.2.2.1 hcd.2.2.1, max_le hbd.2.2.2 hcd.2.2.2⟩⟩

private theorem extend_eq_sup (b c : BoundingBox R) : b.extend c = b ⊔ c := rfl

theorem le_foldl_extend (b : BoundingBox R) (cs : List (BoundingBox R)) : b ≤ cs.foldl extend b := by
  induction cs generalizing b with
  | nil => exact le_rfl
  | cons c cs ih => exact le_sup_left.trans (ih (b ⊔ c))

/-- A union that starts with more. -/
theorem foldl_extend_eq_sup {b e : BoundingBox R} (h : e ≤ b) (cs : List (BoundingBox R)) :
    cs.foldl extend b = b ⊔ cs.foldl extend e := by
  induction cs generalizing b e with
  | nil => exact (sup_eq_left.2 h).symm
  | cons c cs ih =>
    have hc : c ≤ cs.foldl extend (e ⊔ c) := le_sup_right.trans (le_foldl_extend _ cs)
    rw [List.foldl_cons, List.foldl_cons, extend_eq_sup, extend_eq_sup, ih (sup_le_sup_right h c), sup_assoc,
      sup_eq_right.2 hc]

/-- The union of boxes is the least box with room for them, if it starts with one that has no more room than they. -/
theorem isLUB_foldl_extend {e : BoundingBox R} {cs : List (BoundingBox R)} (hne : cs ≠ []) (he : ∀ c ∈ cs, e ≤ c) :
    IsLUB {c | c ∈ cs} (cs.foldl extend e) := by
  induction cs generalizing e with
  | nil => exact absurd rfl hne
  | cons c cs ih =>
    have hec : e.extend c = c := sup_eq_right.2 (he c List.mem_cons_self)
    rw [List.foldl_cons, hec]
    constructor
    · intro d hd
      rcases List.mem_cons.1 hd with rfl | hd
      · exact le_foldl_extend d cs
      · have hne' : cs ≠ [] := List.ne_nil_of_mem hd
        have hlub := ih hne' fun c' hc' => he c' (List.mem_cons_of_mem _ hc')
        rw [foldl_extend_eq_sup (he c List.mem_cons_self)]
        exact (hlub.1 hd).trans le_sup_right
    · intro u hu
      have hc : c ≤ u := hu List.mem_cons_self
      rw [foldl_extend_eq_sup (he c List.mem_cons_self)]
      refine sup_le hc ?_
      by_cases hnil : cs = []
      · rw [hnil]
        exact (he c List.mem_cons_self).trans hc
      · exact (ih hnil fun c' hc' => he c' (List.mem_cons_of_mem _ hc')).2 fun d hd => hu (List.mem_cons_of_mem _ hd)

end BoundingBox

namespace Bvh

variable (b : Bvh R) {n : ℕ}

/-- The primitives below a node. -/
def Below (i : ℕ) : Set ℕ := {k | ∃ j, b.AncestorOrSelf i j ∧ (b.nodes j).isLeaf = true ∧ k ∈ b.leafPrimitives j}

/-- The box of each node is the bounds of the primitives below it. -/
def Exact (boxOf : ℕ → BoundingBox R) : Prop :=
  ∀ i, b.AncestorOrSelf 0 i → IsLUB (boxOf '' b.Below i) (b.nodes i).boundingBoxProxy

variable {b}

omit [LinearOrder R] in
private theorem below_leaf {i : ℕ} (h : (b.nodes i).isLeaf = true) : b.Below i = {k | k ∈ b.leafPrimitives i} := by
  ext k
  constructor
  · rintro ⟨j, hij, -, hk⟩
    rwa [eq_of_ancestorOrSelf_leaf hij h] at hk
  · exact fun hk => ⟨i, .refl, h, hk⟩

omit [LinearOrder R] in
private theorem below_inner {i : ℕ} (h : (b.nodes i).isLeaf = false) :
    b.Below i = b.Below (b.nodes i).firstChildOrPrimitive ∪ b.Below ((b.nodes i).firstChildOrPrimitive + 1) := by
  ext k
  constructor
  · rintro ⟨j, hij, hleaf, hk⟩
    rcases Relation.ReflTransGen.cases_head hij with rfl | ⟨c, ⟨-, rfl | rfl⟩, hcj⟩
    · rw [h] at hleaf
      exact absurd hleaf (by simp)
    · exact Or.inl ⟨j, hcj, hleaf, hk⟩
    · exact Or.inr ⟨j, hcj, hleaf, hk⟩
  · rintro (⟨j, hcj, hleaf, hk⟩ | ⟨j, hcj, hleaf, hk⟩)
    · exact ⟨j, .head ⟨h, Or.inl rfl⟩ hcj, hleaf, hk⟩
    · exact ⟨j, .head ⟨h, Or.inr rfl⟩ hcj, hleaf, hk⟩

omit [LinearOrder R] in
private theorem leafPrimitives_ne_nil {i : ℕ} (h : (b.nodes i).isLeaf = true) : b.leafPrimitives i ≠ [] := by
  have hcount : (b.nodes i).primitiveCount ≠ 0 := by simpa [BvhNode.isLeaf] using h
  simpa [leafPrimitives] using hcount

/-- Exact bounds are those that a refit gives to the nodes. -/
theorem Exact.fits {boxOf : ℕ → BoundingBox R} (h : b.Exact boxOf) {e : BoundingBox R} (he : ∀ k, e ≤ boxOf k) :
    b.Fits fun i => ((b.leafPrimitives i).map boxOf).foldl BoundingBox.extend e := by
  intro i hi
  have hbox := h i hi
  by_cases hleaf : (b.nodes i).isLeaf = true
  · rw [if_pos hleaf]
    have hne : (b.leafPrimitives i).map boxOf ≠ [] := mt List.map_eq_nil_iff.1 (leafPrimitives_ne_nil hleaf)
    have hunion : IsLUB {c | c ∈ (b.leafPrimitives i).map boxOf}
        (((b.leafPrimitives i).map boxOf).foldl BoundingBox.extend e) := by
      refine BoundingBox.isLUB_foldl_extend hne fun c hc => ?_
      obtain ⟨k, -, rfl⟩ := List.mem_map.1 hc
      exact he k
    have hset : boxOf '' b.Below i = {c | c ∈ (b.leafPrimitives i).map boxOf} := by
      rw [below_leaf hleaf]
      ext c
      simp
    rw [hset] at hbox
    exact hbox.unique hunion
  · have hinner : (b.nodes i).isLeaf = false := by simpa using hleaf
    rw [if_neg hleaf]
    have hleft := h _ (hi.tail ⟨hinner, Or.inl rfl⟩)
    have hright := h _ (hi.tail ⟨hinner, Or.inr rfl⟩)
    rw [below_inner hinner, Set.image_union] at hbox
    exact hbox.unique (hleft.union hright)

/-- A hierarchy with exact bounds is not changed by a refit. -/
theorem Exact.refit_eq_self {boxOf : ℕ → BoundingBox R} (h : b.Exact boxOf) (hb : b.WellFormed n) {e : BoundingBox R}
    (he : ∀ k, e ≤ boxOf k) :
    (b.refit fun i => ((b.leafPrimitives i).map boxOf).foldl BoundingBox.extend e) = b :=
  Bvh.refit_eq_self hb (h.fits he)

theorem Exact.congr {boxOf boxOf' : ℕ → BoundingBox R} (h : b.Exact boxOf) (hb : b.WellFormed n)
    (hboxes : ∀ k < n, boxOf k = boxOf' k) : b.Exact boxOf' := by
  obtain ⟨t, ht⟩ := hb
  intro i hi
  have himage : boxOf '' b.Below i = boxOf' '' b.Below i := by
    refine Set.image_congr fun k hk => hboxes k ?_
    obtain ⟨j, hij, hleaf, hkj⟩ := hk
    exact ht.lt_iff.2 ⟨j, ht.leafNode_iff.1 ⟨hi.trans hij, hleaf⟩, hkj⟩
  rw [← himage]
  exact h i hi

end Bvh

namespace SweepSahBuilder

variable [Field R]

/-- The boxes that the builder gives to the nodes are the bounds of the primitives below them. -/
def Exact (builder : SweepSahBuilder R) : Prop :=
  ∀ boundingBoxes, boundingBoxes ≠ [] → (∀ box ∈ boundingBoxes, BoundingBox.empty ≤ box) →
    (builder.build boundingBoxes).Exact fun k => boundingBoxes.getD k .empty

theorem single_exact : (single R).Exact := by
  intro boundingBoxes hne hempty i hi
  have hlength : boundingBoxes.length ≠ 0 := by simpa using hne
  have hleaf : (((single R).build boundingBoxes).nodes i).isLeaf = true := decide_eq_true hlength
  have hboxes : (List.range boundingBoxes.length).map (fun k => boundingBoxes.getD k .empty) = boundingBoxes := by
    refine List.ext_getElem (by simp) fun k hk _ => ?_
    rw [List.getElem_map, List.getElem_range, List.getD_eq_getElem]
  have hset : (fun k => boundingBoxes.getD k .empty) '' ((single R).build boundingBoxes).Below i =
      {box | box ∈ boundingBoxes} := by
    rw [Bvh.below_leaf hleaf]
    ext box
    rw [single_leafPrimitives]
    conv_rhs => rw [← hboxes]
    simp
  have hbox : (((single R).build boundingBoxes).nodes i).boundingBoxProxy =
      boundingBoxes.foldl BoundingBox.extend .empty := by
    show leafBox boundingBoxes (List.range boundingBoxes.length) = _
    unfold leafBox
    conv_rhs => rw [← hboxes]
    rw [List.foldl_map]
  rw [hset, hbox]
  exact BoundingBox.isLUB_foldl_extend hne hempty

end SweepSahBuilder

end Bouncer
