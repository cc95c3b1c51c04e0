import TriMesh.Proofs.PlaneFacets
import TriMesh.Proofs.ExtrusionParts

/-! # Outward normals

The normal of a boundary edge, read with exact scalars, when the points of the triangulation keep a
distance above the matching tolerance (`Triangulation.IsSpread`).

* Points of the triangulation are then close only if they are equal, so that a triangle has a third
  corner at an edge exactly if the edge is one of its sides (`thirdCorner_of_hasSide`,
  `hasSide_of_thirdCorner`).
* An edge that is a side of some triangle gets a normal, and the normal points away from a triangle on
  that side (`exists_edgeNormal`). -/

namespace TriMesh

/-- The triangles by the positions of their corners. -/
def Triangulation.facets {α : Type} (t : Triangulation α) : Surface (Vec2 α) :=
  t.triangles.filterMap (Triangle.facet? t.points)

theorem Triangulation.corners?_eq {α : Type} (t : Triangulation α) (i : Triangle) :
    t.corners? i = (i.facet? t.points).map fun f => (f.a, f.b, f.c) := by
  simp only [corners?, Triangle.facet?, Option.bind_eq_bind, Option.pure_def]
  cases t.points[i.a]? <;> cases t.points[i.b]? <;> cases t.points[i.c]? <;> rfl

theorem Triangulation.mem_points {α : Type} {t : Triangulation α} {f : Facet (Vec2 α)}
    (hf : f ∈ t.facets) : ∀ x ∈ f.corners, x ∈ t.points := by
  obtain ⟨i, _, hi⟩ := List.mem_filterMap.mp hf
  simp only [Triangle.facet?, Option.bind_eq_bind, Option.pure_def, Option.bind_eq_some_iff,
    Option.some.injEq] at hi
  obtain ⟨a, ha, b, hb, c, hc, rfl⟩ := hi
  intro x hx
  simp only [Facet.corners, List.mem_cons, List.not_mem_nil, or_false] at hx
  rcases hx with rfl | rfl | rfl
  · exact Array.mem_of_getElem? ha
  · exact Array.mem_of_getElem? hb
  · exact Array.mem_of_getElem? hc

/-- Different points are farther apart than a tolerance. -/
def Triangulation.IsSpread {α : Type} [Scalar α] (t : Triangulation α) (tolerance : α) : Prop :=
  ∀ i j (hi : i < t.points.size) (hj : j < t.points.size), i ≠ j →
    tolerance < t.points[i].distance t.points[j]

namespace Extrusion

/-! ### Matching points -/

theorem pointMatch_extent_nonneg (edges : List (Edge ℝ)) :
    0 ≤ Tolerance.pointMatch (extent edges) := by
  have hextent : 0 ≤ extent edges := by
    cases edges with
    | nil => exact le_rfl
    | cons e es => exact Real.sqrt_nonneg _
  have hfactor : (0 : ℝ) ≤ Tolerance.pointMatchFactor := by
    simp only [Tolerance.pointMatchFactor, Scalar.real_ratio]
    positivity
  exact mul_nonneg hextent hfactor

theorem distance_self (p : Vec2 ℝ) : p.distance p = 0 := by
  simp [Vec2.distance, Vec2.length, Vec2.dot_eq]

section spread
variable {t : Triangulation ℝ} {tolerance : ℝ} (htol : 0 ≤ tolerance) (ht : t.IsSpread tolerance)
include htol ht

/-- Points of a spread triangulation are close only if they are equal. -/
theorem close_iff {p q : Vec2 ℝ} (hp : p ∈ t.points) (hq : q ∈ t.points) :
    close tolerance p q = true ↔ p = q := by
  obtain ⟨i, hi, rfl⟩ := Array.mem_iff_getElem.mp hp
  obtain ⟨j, hj, rfl⟩ := Array.mem_iff_getElem.mp hq
  simp only [close, decide_eq_true_iff]
  constructor
  · intro h
    by_contra hne
    have hij : i ≠ j := fun hij => hne (by subst hij; rfl)
    exact absurd h (ht i j hi hj hij).not_ge
  · intro h
    rw [h, distance_self]
    exact htol

end spread

/-! ### Third corners -/

section corners
variable {f : Facet (Vec2 ℝ)} {p q : Vec2 ℝ} {tolerance : ℝ}

/-- The place of a corner among the three. -/
theorem findIdx?_corners (hf : f.IsProper)
    (hp : ∀ x ∈ f.corners, close tolerance x p = true ↔ x = p) :
    (f.a = p → f.corners.findIdx? (close tolerance · p) = some 0) ∧
      (f.b = p → f.corners.findIdx? (close tolerance · p) = some 1) ∧
      (f.c = p → f.corners.findIdx? (close tolerance · p) = some 2) := by
  obtain ⟨hab, hbc, hca⟩ := hf
  have ha := hp f.a (by simp [Facet.corners])
  have hb := hp f.b (by simp [Facet.corners])
  have hc := hp f.c (by simp [Facet.corners])
  simp only [Facet.corners, List.findIdx?_cons, List.findIdx?_nil]
  refine ⟨fun h => ?_, fun h => ?_, fun h => ?_⟩
  · rw [if_pos (ha.mpr h)]
  · have hna : ¬close tolerance f.a p = true := fun hx => hab ((ha.mp hx).trans h.symm)
    rw [if_neg hna, if_pos (hb.mpr h)]
    rfl
  · have hna : ¬close tolerance f.a p = true := fun hx => hca (h.trans (ha.mp hx).symm)
    have hnb : ¬close tolerance f.b p = true := fun hx => hbc ((hb.mp hx).trans h.symm)
    rw [if_neg hna, if_neg hnb, if_pos (hc.mpr h)]
    rfl

theorem mem_corners_of_findIdx? (hp : ∀ x ∈ f.corners, close tolerance x p = true ↔ x = p) {i : ℕ}
    (h : f.corners.findIdx? (close tolerance · p) = some i) : p ∈ f.corners := by
  have hsome : (f.corners.findIdx? (close tolerance · p)).isSome := by
    rw [h]
    rfl
  rw [List.findIdx?_isSome, List.any_eq_true] at hsome
  obtain ⟨x, hx, hclose⟩ := hsome
  exact (hp x hx).mp hclose ▸ hx

variable (hp : ∀ x ∈ f.corners, close tolerance x p = true ↔ x = p)
  (hq : ∀ x ∈ f.corners, close tolerance x q = true ↔ x = q)
include hp hq

/-- A third corner exists only at a side. -/
theorem hasSide_of_thirdCorner (hpq : p ≠ q) {r : Vec2 ℝ}
    (h : thirdCorner (f.a, f.b, f.c) p q tolerance = some r) : f.HasSide p q := by
  simp only [thirdCorner, Option.bind_eq_bind, Option.bind_eq_some_iff] at h
  obtain ⟨i, hi, j, hj, _⟩ := h
  have hpc := mem_corners_of_findIdx? hp hi
  have hqc := mem_corners_of_findIdx? hq hj
  simp only [Facet.corners, List.mem_cons, List.not_mem_nil, or_false] at hpc hqc
  simp only [Facet.HasSide, Facet.edges, List.mem_cons, List.not_mem_nil, or_false, Prod.mk.injEq]
  rcases hpc with rfl | rfl | rfl <;> rcases hqc with rfl | rfl | rfl <;> first
    | exact absurd rfl hpq
    | simp

/-- At a side the third corner is the one across from it. -/
theorem thirdCorner_of_hasSide (hf : f.IsProper) (hs : f.HasSide p q) :
    ∃ r, thirdCorner (f.a, f.b, f.c) p q tolerance = some r ∧
      (f.Similar ⟨p, q, r⟩ ∨ f.Similar ⟨q, p, r⟩) := by
  obtain ⟨hpa, hpb, hpc⟩ := findIdx?_corners hf hp
  obtain ⟨hqa, hqb, hqc⟩ := findIdx?_corners hf hq
  unfold Facet.corners at hpa hpb hpc hqa hqb hqc
  simp only [Facet.HasSide, Facet.edges, List.mem_cons, List.not_mem_nil, or_false,
    Prod.mk.injEq] at hs
  unfold thirdCorner
  rcases hs with (⟨rfl, rfl⟩ | ⟨rfl, rfl⟩ | ⟨rfl, rfl⟩) | (⟨rfl, rfl⟩ | ⟨rfl, rfl⟩ | ⟨rfl, rfl⟩)
  · refine ⟨f.c, ?_, Or.inl (Or.inl rfl)⟩
    simp [hpa rfl, hqb rfl]
  · refine ⟨f.a, ?_, Or.inl (Or.inr (Or.inr rfl))⟩
    simp [hpb rfl, hqc rfl]
  · refine ⟨f.b, ?_, Or.inl (Or.inr (Or.inl rfl))⟩
    simp [hpc rfl, hqa rfl]
  · refine ⟨f.c, ?_, Or.inr (Or.inl rfl)⟩
    simp [hpb rfl, hqa rfl]
  · refine ⟨f.a, ?_, Or.inr (Or.inr (Or.inr rfl))⟩
    simp [hpc rfl, hqb rfl]
  · refine ⟨f.b, ?_, Or.inr (Or.inr (Or.inl rfl))⟩
    simp [hpa rfl, hqc rfl]

end corners

/-! ### Normals -/

theorem opposite_eq {α : Type} [Scalar α] (t : Triangulation α) (e : Edge α) (tolerance : α) :
    opposite t e tolerance =
      t.facets.findSome? fun f => thirdCorner (f.a, f.b, f.c) e.start e.stop tolerance := by
  unfold opposite Triangulation.facets
  induction t.triangles with
  | nil => rfl
  | cons i is ih =>
      rw [List.findSome?_cons, ih, t.corners?_eq, List.filterMap_cons]
      cases i.facet? t.points with
      | none => rfl
      | some f => rfl

theorem sub_ne_zero_of_ne {p q : Vec2 ℝ} (h : p ≠ q) : (p - q).x ≠ 0 ∨ (p - q).y ≠ 0 := by
  by_contra hzero
  simp only [Vec2.sub_x, Vec2.sub_y, not_or, not_not, sub_eq_zero] at hzero
  exact h (Vec2.ext hzero.1 hzero.2)

/-- Any vector but zero has a unit vector, a positive multiple of it. -/
theorem exists_tryNormalize {v : Vec2 ℝ} (h : v.x ≠ 0 ∨ v.y ≠ 0) :
    ∃ k : ℝ, 0 < k ∧ v.tryNormalize = some (v * k) := by
  have hdot : 0 < v.dot v := by
    rw [Vec2.dot_eq]
    rcases h with h | h
    · nlinarith [mul_self_pos.mpr h, mul_self_nonneg v.y]
    · nlinarith [mul_self_pos.mpr h, mul_self_nonneg v.x]
  have hlength : 0 < 1 / v.length := one_div_pos.mpr (Real.sqrt_pos.mpr hdot)
  exact ⟨1 / v.length, hlength, if_pos ⟨rfl, hlength⟩⟩

/-- The vector across an edge to its left, `k` times as long as the edge. -/
def leftward {α : Type} [Scalar α] (e : Edge α) (k : α) : Vec2 α :=
  ⟨((e.start - e.stop) * k).y, -((e.start - e.stop) * k).x⟩

/-- Seen from a point, the start of the edge lies to the left by the area on the other side. -/
theorem dot_leftward (e : Edge ℝ) (r : Vec2 ℝ) (k m : ℝ) :
    ((e.start - r) * m).dot (leftward e k) =
        -(k * m * (⟨e.start, e.stop, r⟩ : Facet (Vec2 ℝ)).area) ∧
      ((e.start - r) * m).dot (-leftward e k) =
        k * m * (⟨e.start, e.stop, r⟩ : Facet (Vec2 ℝ)).area := by
  simp only [Facet.area, leftward, Vec2.dot_eq, Vec2.perpDot_eq, Vec2.mul_x, Vec2.mul_y, Vec2.sub_x,
    Vec2.sub_y, Vec2.neg_x, Vec2.neg_y]
  constructor
  · ring
  · ring

theorem cross_leftward {e : Edge ℝ} (he : e.start ≠ e.stop) {k : ℝ} (hk : 0 < k) :
    0 < ((e.stop.extend 0 - e.start.extend 0).cross ((leftward e k).extend 0)).z ∧
      ((e.stop.extend 0 - e.start.extend 0).cross ((-leftward e k).extend 0)).z < 0 := by
  have hsq : 0 < k * ((e.start - e.stop).x ^ 2 + (e.start - e.stop).y ^ 2) := by
    rcases sub_ne_zero_of_ne he with h | h
    · positivity
    · positivity
  simp only [leftward, Vec3.cross_z, Vec2.extend, Vec3.sub_x, Vec3.sub_y, Vec2.mul_x, Vec2.mul_y,
    Vec2.sub_x, Vec2.sub_y, Vec2.neg_x, Vec2.neg_y] at hsq ⊢
  constructor
  · linarith
  · linarith

/-- The normal of an edge whose third corner is off the line of the edge: it exists, and it points to
the left of the edge exactly if that corner lies to the right. -/
theorem edgeNormal_of_opposite {t : Triangulation ℝ} {tolerance : ℝ} {e : Edge ℝ} {r : Vec2 ℝ}
    (hr : opposite t e tolerance = some r) (ha : (⟨e.start, e.stop, r⟩ : Facet (Vec2 ℝ)).area ≠ 0) :
    ∃ n, edgeNormal t tolerance e = some n ∧
      (0 < ((e.stop.extend 0 - e.start.extend 0).cross n).z ↔
        (⟨e.start, e.stop, r⟩ : Facet (Vec2 ℝ)).area < 0) := by
  obtain ⟨hab, _, hca⟩ := Facet.isProper_of_area_ne_zero ha
  obtain ⟨k, hk, halong⟩ := exists_tryNormalize (sub_ne_zero_of_ne hab)
  obtain ⟨m, hm, haway⟩ := exists_tryNormalize (sub_ne_zero_of_ne hca.symm)
  obtain ⟨hs, hs'⟩ := dot_leftward e r k m
  obtain ⟨hleft, hright⟩ := cross_leftward hab hk
  generalize (⟨e.start, e.stop, r⟩ : Facet (Vec2 ℝ)).area = area at *
  have hn : edgeNormal t tolerance e =
      if k * m * area < -(k * m * area) ∧ 0 ≤ -(k * m * area) then some ((leftward e k).extend 0)
      else if -(k * m * area) < k * m * area ∧ 0 ≤ k * m * area then
        some ((-leftward e k).extend 0)
      else none := by
    rw [← hs, ← hs']
    simp only [edgeNormal, halong, haway, hr, Option.bind_eq_bind, Option.bind_some]
    rfl
  rcases lt_or_gt_of_ne ha with hneg | hpos
  · have hprod := mul_neg_of_pos_of_neg (mul_pos hk hm) hneg
    refine ⟨(leftward e k).extend 0, ?_, iff_of_true hleft hneg⟩
    rw [hn, if_pos ⟨by linarith, by linarith⟩]
  · have hprod := mul_pos (mul_pos hk hm) hpos
    refine ⟨(-leftward e k).extend 0, ?_, iff_of_false hright.not_gt hpos.not_gt⟩
    rw [hn, if_neg fun h => by linarith [h.1], if_pos ⟨by linarith, hprod.le⟩]

section spread
variable {t : Triangulation ℝ} {tolerance : ℝ} (htol : 0 ≤ tolerance) (ht : t.IsSpread tolerance)
  (ha : ∀ f ∈ t.facets, f.area ≠ 0) {e : Edge ℝ} (hstart : e.start ∈ t.points)
  (hstop : e.stop ∈ t.points) (hside : ∃ f ∈ t.facets, f.HasSide e.start e.stop)
include htol ht ha hstart hstop hside

/-- The corner across from a side of some triangle is one of a triangle with that side. -/
theorem exists_opposite :
    ∃ r, opposite t e tolerance = some r ∧ ∃ f ∈ t.facets,
      f.Similar ⟨e.start, e.stop, r⟩ ∨ f.Similar ⟨e.stop, e.start, r⟩ := by
  have hclose {f : Facet (Vec2 ℝ)} (hf : f ∈ t.facets) {p : Vec2 ℝ} (hp : p ∈ t.points) :
      ∀ x ∈ f.corners, close tolerance x p = true ↔ x = p :=
    fun x hx => close_iff htol ht (Triangulation.mem_points hf x hx) hp
  have hthird {f : Facet (Vec2 ℝ)} (hf : f ∈ t.facets) (hs : f.HasSide e.start e.stop) :=
    thirdCorner_of_hasSide (hclose hf hstart) (hclose hf hstop)
      (Facet.isProper_of_area_ne_zero (ha f hf)) hs
  obtain ⟨f, hf, hs⟩ := hside
  have hne : e.start ≠ e.stop := hs.ne (Facet.isProper_of_area_ne_zero (ha f hf))
  rw [opposite_eq]
  obtain ⟨r, hr⟩ : ∃ r, t.facets.findSome? (fun f =>
      thirdCorner (f.a, f.b, f.c) e.start e.stop tolerance) = some r := by
    obtain ⟨r, hr, _⟩ := hthird hf hs
    rw [← Option.isSome_iff_exists, List.findSome?_isSome_iff]
    exact ⟨f, hf, by rw [hr]; rfl⟩
  -- the triangle that was found first need not be `f`, but it has the side too
  obtain ⟨g, hg, hgr⟩ := List.exists_of_findSome?_eq_some hr
  have hgs := hasSide_of_thirdCorner (hclose hg hstart) (hclose hg hstop) hne hgr
  obtain ⟨r', hr', hsim⟩ := hthird hg hgs
  obtain rfl : r = r' := Option.some.inj (hgr.symm.trans hr')
  exact ⟨r, hr, g, hg, hsim⟩

/-- An edge that is a side of some triangle has a normal, and it points to the left of the edge exactly
if a triangle with that side lies to the right. -/
theorem exists_edgeNormal :
    ∃ n, edgeNormal t tolerance e = some n ∧ ∃ f ∈ t.facets, f.HasSide e.start e.stop ∧
      (0 < ((e.stop.extend 0 - e.start.extend 0).cross n).z ↔ f.IsLeftOf e.stop e.start) := by
  obtain ⟨r, hr, f, hf, hsim⟩ := exists_opposite htol ht ha hstart hstop hside
  rcases hsim with hsim | hsim
  · have harea := hsim.area_eq
    obtain ⟨n, hn, hleft⟩ := edgeNormal_of_opposite hr (harea ▸ ha f hf)
    refine ⟨n, hn, f, hf, Or.inl hsim.mem_edges, ?_⟩
    rw [hleft, ← harea, (Facet.isLeftOf_iff hsim.mem_edges).2]
  · have harea : (⟨e.start, e.stop, r⟩ : Facet (Vec2 ℝ)).area = -f.area := by
      rw [Facet.area_swap, hsim.area_eq]
    obtain ⟨n, hn, hleft⟩ := edgeNormal_of_opposite hr (harea ▸ neg_ne_zero.mpr (ha f hf))
    refine ⟨n, hn, f, hf, Or.inr hsim.mem_edges, ?_⟩
    rw [hleft, harea, neg_lt_zero, (Facet.isLeftOf_iff hsim.mem_edges).1]

end spread

end Extrusion

end TriMesh
