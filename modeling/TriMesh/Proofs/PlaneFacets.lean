import TriMesh.Proofs.Reals
import TriMesh.Proofs.Surfaces

/-! # Triangles in the plane

Sides of triangles, and on which side of its sides a triangle lies.

* A triangle that is not flat lies on exactly one side of each of its sides, to the left of it in the
  direction in which a counter-clockwise triangle walks it (`isLeftOf_iff`).
* Turned clockwise (`downward`), it walks a side exactly in the direction to the right of which it lies
  (`mem_edges_downward_iff`), so the directed edges of clockwise triangles are counted by the
  triangles on one side of them (`count_edges_downward`). -/

namespace TriMesh

namespace Facet

/-- The three corners. -/
def corners {β : Type} (f : Facet β) : List β := [f.a, f.b, f.c]

/-- The points are the ends of a side, whichever comes first. -/
def HasSide {β : Type} (f : Facet β) (p q : β) : Prop := (p, q) ∈ f.edges ∨ (q, p) ∈ f.edges

instance {β : Type} [DecidableEq β] (f : Facet β) (p q : β) : Decidable (f.HasSide p q) :=
  inferInstanceAs (Decidable (_ ∨ _))

section plane
variable {α : Type} [Scalar α]

/-- Twice the signed area, positive if the corners run counter-clockwise. -/
def area (f : Facet (Vec2 α)) : α := (f.b - f.a).perpDot (f.c - f.a)

/-- Some corner lies to the left of the line from `p` to `q`. -/
def IsLeftOf (f : Facet (Vec2 α)) (p q : Vec2 α) : Prop :=
  ∃ r ∈ f.corners, 0 < (q - p).perpDot (r - p)

instance (f : Facet (Vec2 α)) (p q : Vec2 α) : Decidable (f.IsLeftOf p q) :=
  inferInstanceAs (Decidable (∃ r ∈ f.corners, 0 < (q - p).perpDot (r - p)))

/-- The triangle, turned over if its corners run counter-clockwise. -/
def downward (f : Facet (Vec2 α)) : Facet (Vec2 α) := if 0 < f.area then f.flip else f

end plane

section sides
variable {β : Type} {f g : Facet β} {p q r : β}

theorem hasSide_comm : f.HasSide p q ↔ f.HasSide q p := or_comm

theorem perm_corners_flip : f.flip.corners.Perm f.corners := (List.Perm.swap _ _ _).cons _

theorem perm_corners_rotate : f.rotate.corners.Perm f.corners :=
  @List.perm_append_comm _ [f.b, f.c] [f.a]

theorem Similar.perm_corners (h : f.Similar g) : f.corners.Perm g.corners := by
  rcases h with rfl | rfl | rfl
  · exact List.Perm.refl _
  · exact perm_corners_rotate
  · exact perm_corners_rotate.trans perm_corners_rotate

theorem hasSide_flip : f.flip.HasSide p q ↔ f.HasSide p q := by
  simp only [HasSide, edges, flip, List.mem_cons, List.not_mem_nil, or_false, Prod.mk.injEq]
  tauto

/-- A directed edge and the corner across from it make up the facet. -/
theorem exists_similar_of_mem_edges (h : (p, q) ∈ f.edges) : ∃ r, f.Similar ⟨p, q, r⟩ := by
  simp only [edges, List.mem_cons, List.not_mem_nil, or_false, Prod.mk.injEq] at h
  rcases h with ⟨rfl, rfl⟩ | ⟨rfl, rfl⟩ | ⟨rfl, rfl⟩
  · exact ⟨f.c, Or.inl rfl⟩
  · exact ⟨f.a, Or.inr (Or.inr rfl)⟩
  · exact ⟨f.b, Or.inr (Or.inl rfl)⟩

theorem Similar.mem_edges (h : f.Similar ⟨p, q, r⟩) : (p, q) ∈ f.edges :=
  h.perm_edges.mem_iff.mpr List.mem_cons_self

theorem IsProper.nodup_edges (h : f.IsProper) : f.edges.Nodup := by
  obtain ⟨hab, hbc, hca⟩ := h
  simp [edges, hab, hbc, hca, hca.symm]

/-- The ends of a side differ unless the facet has collapsed. -/
theorem HasSide.ne (hs : f.HasSide p q) (hf : f.IsProper) : p ≠ q := by
  obtain ⟨hab, hbc, hca⟩ := hf
  simp only [HasSide, edges, List.mem_cons, List.not_mem_nil, or_false, Prod.mk.injEq] at hs
  rcases hs with (⟨rfl, rfl⟩ | ⟨rfl, rfl⟩ | ⟨rfl, rfl⟩) | (⟨rfl, rfl⟩ | ⟨rfl, rfl⟩ | ⟨rfl, rfl⟩)
  · exact hab
  · exact hbc
  · exact hca
  · exact hab.symm
  · exact hbc.symm
  · exact hca.symm

end sides

/-! ### Left and right -/

section real
variable {f g : Facet (Vec2 ℝ)} {p q r : Vec2 ℝ}

theorem area_flip : f.flip.area = -f.area := by
  simp only [area, flip, Vec2.perpDot_eq, Vec2.sub_x, Vec2.sub_y]
  ring

theorem area_rotate : f.rotate.area = f.area := by
  simp only [area, rotate, Vec2.perpDot_eq, Vec2.sub_x, Vec2.sub_y]
  ring

theorem area_swap (p q r : Vec2 ℝ) :
    (⟨p, q, r⟩ : Facet (Vec2 ℝ)).area = -(⟨q, p, r⟩ : Facet (Vec2 ℝ)).area := by
  simp only [area, Vec2.perpDot_eq, Vec2.sub_x, Vec2.sub_y]
  ring

theorem Similar.area_eq (h : f.Similar g) : f.area = g.area := by
  rcases h with rfl | rfl | rfl
  · rfl
  · exact area_rotate
  · exact area_rotate.trans area_rotate

theorem isLeftOf_flip : f.flip.IsLeftOf p q ↔ f.IsLeftOf p q :=
  exists_congr fun _ => and_congr_left' perm_corners_flip.mem_iff

theorem Similar.isLeftOf_iff (h : f.Similar g) : f.IsLeftOf p q ↔ g.IsLeftOf p q :=
  exists_congr fun _ => and_congr_left' h.perm_corners.mem_iff

theorem isProper_of_area_ne_zero (h : f.area ≠ 0) : f.IsProper := by
  simp only [area, Vec2.perpDot_eq, Vec2.sub_x, Vec2.sub_y] at h
  refine ⟨fun hab => h ?_, fun hbc => h ?_, fun hca => h ?_⟩
  · rw [hab]
    ring
  · rw [hbc]
    ring
  · rw [hca]
    ring

/-- Of the corners of a triangle only the one across from a side is off the line of that side. -/
theorem isLeftOf_mk :
    ((⟨p, q, r⟩ : Facet (Vec2 ℝ)).IsLeftOf p q ↔ 0 < (⟨p, q, r⟩ : Facet (Vec2 ℝ)).area) ∧
      ((⟨p, q, r⟩ : Facet (Vec2 ℝ)).IsLeftOf q p ↔ (⟨p, q, r⟩ : Facet (Vec2 ℝ)).area < 0) := by
  have hline (u v : Vec2 ℝ) : (v - u).perpDot (u - u) = 0 ∧ (v - u).perpDot (v - u) = 0 := by
    simp only [Vec2.perpDot_eq, Vec2.sub_x, Vec2.sub_y]
    constructor <;> ring
  have hback : (p - q).perpDot (r - q) = -(q - p).perpDot (r - p) := by
    simp only [Vec2.perpDot_eq, Vec2.sub_x, Vec2.sub_y]
    ring
  obtain ⟨h1, h2⟩ := hline p q
  obtain ⟨h3, h4⟩ := hline q p
  simp only [IsLeftOf, corners, List.mem_cons, List.not_mem_nil, or_false, exists_eq_or_imp,
    exists_eq_left, area, h1, h2, h3, h4, hback, lt_irrefl, false_or, neg_pos, and_self]

/-- A triangle lies to the left of the directed edges that it walks if it is counter-clockwise, and to
the right of them if it is clockwise. -/
theorem isLeftOf_iff (h : (p, q) ∈ f.edges) :
    (f.IsLeftOf p q ↔ 0 < f.area) ∧ (f.IsLeftOf q p ↔ f.area < 0) := by
  obtain ⟨r, hr⟩ := exists_similar_of_mem_edges h
  rw [hr.isLeftOf_iff, hr.isLeftOf_iff, hr.area_eq]
  exact isLeftOf_mk

/-- A triangle that is not flat does not lie on both sides of a line along one of its sides, and lies on
one of them. -/
theorem isLeftOf_comm (hs : f.HasSide p q) (ha : f.area ≠ 0) :
    f.IsLeftOf p q ↔ ¬f.IsLeftOf q p := by
  rcases hs with h | h
  · rw [(isLeftOf_iff h).1, (isLeftOf_iff h).2, not_lt, ha.symm.le_iff_lt]
  · rw [(isLeftOf_iff h).1, (isLeftOf_iff h).2, not_lt, ha.le_iff_lt]

/-! ### Clockwise triangles -/

theorem area_downward (h : f.area ≠ 0) : f.downward.area < 0 := by
  unfold downward
  split
  · rename_i hpos
    rw [area_flip]
    exact neg_neg_of_pos hpos
  · rename_i hpos
    exact lt_of_le_of_ne (not_lt.mp hpos) h

theorem perm_corners_downward : f.downward.corners.Perm f.corners := by
  unfold downward
  split
  · exact perm_corners_flip
  · exact List.Perm.refl _

theorem hasSide_downward : f.downward.HasSide p q ↔ f.HasSide p q := by
  unfold downward
  split
  · exact hasSide_flip
  · exact Iff.rfl

theorem isLeftOf_downward : f.downward.IsLeftOf p q ↔ f.IsLeftOf p q := by
  unfold downward
  split
  · exact isLeftOf_flip
  · exact Iff.rfl

/-- A clockwise triangle walks a side in the direction to the right of which it lies. -/
theorem mem_edges_downward_iff (ha : f.area ≠ 0) :
    (p, q) ∈ f.downward.edges ↔ f.HasSide p q ∧ f.IsLeftOf q p := by
  have hneg := area_downward ha
  rw [← hasSide_downward, ← isLeftOf_downward]
  constructor
  · intro h
    exact ⟨Or.inl h, (isLeftOf_iff h).2.mpr hneg⟩
  · rintro ⟨h | h, hl⟩
    · exact h
    · exact absurd ((isLeftOf_iff h).1.mp hl) hneg.not_gt

/-- How often clockwise triangles walk a directed edge. -/
theorem count_edges_downward {fs : Surface (Vec2 ℝ)} (ha : ∀ f ∈ fs, f.area ≠ 0) :
    (Surface.edges (fs.map downward)).count (p, q) =
      fs.countP fun f => f.HasSide p q ∧ f.IsLeftOf q p := by
  induction fs with
  | nil => rfl
  | cons f fs ih =>
      have hf := ha f List.mem_cons_self
      have hnodup : (f.downward.edges : Multiset (Vec2 ℝ × Vec2 ℝ)).Nodup :=
        (isProper_of_area_ne_zero (area_downward hf).ne).nodup_edges
      rw [List.map_cons, Surface.edges_cons, Multiset.count_add,
        ih fun g hg => ha g (List.mem_cons_of_mem f hg), Multiset.count_eq_of_nodup hnodup,
        List.countP_cons, add_comm]
      congr 1
      refine if_congr ?_ rfl rfl
      rw [decide_eq_true_iff, Multiset.mem_coe, mem_edges_downward_iff hf]

end real

end Facet

end TriMesh
