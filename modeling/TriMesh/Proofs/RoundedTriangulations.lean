import TriMesh.Proofs.ComplexPlane
import TriMesh.Proofs.EdgeNormals
import TriMesh.Proofs.ThirdCorners

/-! # Rounded triangulations

A triangulator that gives its points back rounded changes no normal, as long as it rounds within the
matching tolerance.  Scalars are exact.

* `Triangulation.IsRounding`: every point has moved by at most the tolerance, from places that are more
  than twice the tolerance apart, and no third corner is within the tolerance of the line of its edge.
* A moved corner matches the end of an edge exactly if it came from there (`close_moved`), so that the
  searches stop at the same triangle and at the same corners, and find a third corner that has moved by
  at most the tolerance (`rel_opposite`).
* A corner that is farther from a line than it moves stays on its side (`isOutward_iff_of_moved`), and a
  normal is known by that side. -/

namespace TriMesh

/-! ### Rounding -/

/-- The triangles that name no missing point. -/
def Triangulation.inRange {α : Type} (t : Triangulation α) : List Triangle :=
  t.triangles.filter fun i => (t.corners? i).isSome

theorem Triangulation.facets_eq {α : Type} (t : Triangulation α) :
    t.facets = t.inRange.filterMap (Triangle.facet? t.points) := by
  unfold facets inRange
  rw [List.filterMap_filter]
  refine List.filterMap_congr fun i _ => ?_
  rw [t.corners?_eq, Option.isSome_map]
  cases i.facet? t.points with
  | none => rfl
  | some f => rfl

/-- The line through the ends of the edge stays farther than a distance from the point. -/
def Edge.LineAvoids {α : Type} [Scalar α] (e : Edge α) (p : Vec2 α) (distance : α) : Prop :=
  ∀ s : α, distance < p.distance (e.start + (e.stop - e.start) * s)

/-- The same triangles over points that have moved within the matching tolerance of some edges. -/
structure Triangulation.IsRounding (t t' : Triangulation ℝ) (edges : List (Edge ℝ)) : Prop where
  /-- The triangles that name points are the same. -/
  inRange : t'.inRange = t.inRange
  /-- There are as many points. -/
  size : t'.points.size = t.points.size
  /-- The ends of the edges were points of the triangulation. -/
  ends : ∀ e ∈ edges, e.start ∈ t.points ∧ e.stop ∈ t.points
  /-- Different points were farther apart than twice the tolerance. -/
  spread : t.IsSpread (2 * Tolerance.pointMatch (Extrusion.extent edges))
  /-- Every point has moved by at most the tolerance. -/
  moved : ∀ (i : ℕ) (p p' : Vec2 ℝ), t.points[i]? = some p → t'.points[i]? = some p' →
    p'.distance p ≤ Tolerance.pointMatch (Extrusion.extent edges)
  /-- The third corner of a triangle with an edge was farther than the tolerance from its line. -/
  apart : ∀ e ∈ edges, ∀ f ∈ t.facets, ∀ r,
    f.Similar ⟨e.start, e.stop, r⟩ ∨ f.Similar ⟨e.stop, e.start, r⟩ →
      e.LineAvoids r (Tolerance.pointMatch (Extrusion.extent edges))

namespace Extrusion

/-! ### Matching moved points -/

theorem isSpread_mono {t : Triangulation ℝ} {d d' : ℝ} (h : d ≤ d') (ht : t.IsSpread d') :
    t.IsSpread d :=
  fun i j hi hj hij => h.trans_lt (ht i j hi hj hij)

theorem distance_le_add (p q r : Vec2 ℝ) : p.distance r ≤ p.distance q + q.distance r := by
  simp only [Vec2.distance_eq_norm]
  exact norm_sub_le_norm_sub_add_norm_sub _ _ _

theorem distance_comm (p q : Vec2 ℝ) : p.distance q = q.distance p := by
  simp only [Vec2.distance_eq_norm]
  exact norm_sub_rev _ _

/-- A point that has moved within the tolerance still matches the place it came from, and no other. -/
theorem close_moved {t : Triangulation ℝ} {tolerance : ℝ} (htol : 0 ≤ tolerance)
    (ht : t.IsSpread (2 * tolerance)) {x x' p : Vec2 ℝ} (hx : x ∈ t.points) (hp : p ∈ t.points)
    (hmoved : x'.distance x ≤ tolerance) : close tolerance x' p = true ↔ x = p := by
  constructor
  · intro h
    by_contra hne
    have hfar := mt (close_iff (by linarith) ht hx hp).mp hne
    have htri := distance_le_add x x' p
    simp only [close, decide_eq_true_iff, not_le] at h hfar
    rw [distance_comm x x'] at htri
    linarith
  · rintro rfl
    exact decide_eq_true hmoved

/-- Corner by corner the second triangle has moved by at most the tolerance. -/
def IsMoved (tolerance : ℝ) (f f' : Facet (Vec2 ℝ)) : Prop :=
  List.Forall₂ (fun x x' => x'.distance x ≤ tolerance) f.corners f'.corners

theorem findIdx?_of_forall₂ {β γ : Type} {P : β → Bool} {Q : γ → Bool} {l : List β} {m : List γ}
    (h : List.Forall₂ (fun b c => P b = Q c) l m) : l.findIdx? P = m.findIdx? Q := by
  induction h with
  | nil => rfl
  | cons hbc _ ih => rw [List.findIdx?_cons, List.findIdx?_cons, hbc, ih]

theorem rel_getElem? {β γ : Type} {R : β → γ → Prop} {l : List β} {m : List γ}
    (h : List.Forall₂ R l m) (i : ℕ) : Option.Rel R l[i]? m[i]? := by
  induction h generalizing i with
  | nil => exact .none
  | cons hbc _ ih =>
      cases i with
      | zero => exact .some hbc
      | succ i => exact ih i

section moved
variable {t : Triangulation ℝ} {tolerance : ℝ} (htol : 0 ≤ tolerance)
  (ht : t.IsSpread (2 * tolerance)) {f f' : Facet (Vec2 ℝ)} (hf : f ∈ t.facets)
  (hmoved : IsMoved tolerance f f')
include htol ht hf hmoved

/-- The search for a point stops at the same corner. -/
theorem findIdx?_moved {p : Vec2 ℝ} (hp : p ∈ t.points) :
    f'.corners.findIdx? (close tolerance · p) = f.corners.findIdx? (close tolerance · p) := by
  refine (findIdx?_of_forall₂ ?_).symm
  have hpoints := List.forall₂_and_left f.corners f'.corners |>.mpr
    ⟨Triangulation.mem_points hf, hmoved⟩
  refine hpoints.imp fun x x' hx => ?_
  rw [Bool.eq_iff_iff, close_moved htol ht hx.1 hp hx.2,
    close_iff htol (isSpread_mono (by linarith) ht) hx.1 hp]

/-- Both triangles have a third corner, which has moved by at most the tolerance, or both have none. -/
theorem rel_thirdCorner {p q : Vec2 ℝ} (hp : p ∈ t.points) (hq : q ∈ t.points) :
    Option.Rel (fun r r' => r'.distance r ≤ tolerance)
      (thirdCorner (f.a, f.b, f.c) p q tolerance) (thirdCorner (f'.a, f'.b, f'.c) p q tolerance) := by
  have hthird (g : Facet (Vec2 ℝ)) : thirdCorner (g.a, g.b, g.c) p q tolerance =
      (g.corners.findIdx? (close tolerance · p)).bind fun i =>
        (g.corners.findIdx? (close tolerance · q)).bind fun j =>
          if i = j then none else g.corners[3 - i - j]? := rfl
  rw [hthird, hthird, findIdx?_moved htol ht hf hmoved hp, findIdx?_moved htol ht hf hmoved hq]
  cases f.corners.findIdx? (close tolerance · p) with
  | none => exact .none
  | some i =>
      cases f.corners.findIdx? (close tolerance · q) with
      | none => exact .none
      | some j =>
          simp only [Option.bind_some]
          split
          · exact .none
          · -- the places that are not searched for are left over in both
            exact rel_getElem? hmoved _

end moved

/-- On a spread triangulation the corners beside a third corner are the ends of the edge. -/
theorem similar_of_thirdCorner {t : Triangulation ℝ} {tolerance : ℝ} (htol : 0 ≤ tolerance)
    (ht : t.IsSpread tolerance) {f : Facet (Vec2 ℝ)} (hf : f ∈ t.facets) {p q r : Vec2 ℝ}
    (hp : p ∈ t.points) (hq : q ∈ t.points)
    (h : thirdCorner (f.a, f.b, f.c) p q tolerance = some r) :
    f.Similar ⟨p, q, r⟩ ∨ f.Similar ⟨q, p, r⟩ := by
  obtain ⟨x, y, hxp, hyq, hsim⟩ := exists_similar_of_thirdCorner h
  have hpoint {z : Vec2 ℝ} (hz : z ∈ [x, y, r]) : z ∈ t.points :=
    Triangulation.mem_points hf z ((perm_corners_of_similar hsim).mem_iff.mp hz)
  obtain rfl := (close_iff htol ht (hpoint (by simp)) hp).mp hxp
  obtain rfl := (close_iff htol ht (hpoint (by simp)) hq).mp hyq
  exact hsim

/-! ### Third corners of moved triangulations -/

theorem rel_facet? {β γ : Type} {R : β → γ → Prop} {places : Array β} {places' : Array γ}
    (h : ∀ k : ℕ, Option.Rel R places[k]? places'[k]?) (i : Triangle) :
    Option.Rel (fun f f' => List.Forall₂ R f.corners f'.corners) (i.facet? places)
      (i.facet? places') := by
  have ha := h i.a
  have hb := h i.b
  have hc := h i.c
  unfold Triangle.facet?
  generalize places[i.a]? = a, places'[i.a]? = a' at *
  generalize places[i.b]? = b, places'[i.b]? = b' at *
  generalize places[i.c]? = c, places'[i.c]? = c' at *
  cases ha with
  | none => exact .none
  | some ha =>
      cases hb with
      | none => exact .none
      | some hb =>
          cases hc with
          | none => exact .none
          | some hc => exact .some (.cons ha (.cons hb (.cons hc .nil)))

section rounding
variable {t t' : Triangulation ℝ} {edges : List (Edge ℝ)} (h : t.IsRounding t' edges)
include h

theorem rel_points (k : ℕ) :
    Option.Rel (fun p p' => p'.distance p ≤ Tolerance.pointMatch (extent edges)) t.points[k]?
      t'.points[k]? := by
  by_cases hk : k < t.points.size
  · have hk' : k < t'.points.size := h.size ▸ hk
    have hp := Array.getElem?_eq_getElem hk
    have hp' := Array.getElem?_eq_getElem hk'
    rw [hp, hp']
    exact .some (h.moved k _ _ hp hp')
  · have hk' : ¬k < t'.points.size := h.size ▸ hk
    rw [Array.getElem?_eq_none (not_lt.mp hk), Array.getElem?_eq_none (not_lt.mp hk')]
    exact .none

/-- Triangle by triangle the corners have moved by at most the tolerance. -/
theorem forall₂_facets :
    List.Forall₂ (IsMoved (Tolerance.pointMatch (extent edges))) t.facets t'.facets := by
  rw [t.facets_eq, t'.facets_eq, h.inRange]
  refine List.rel_filterMap (R := Eq) ?_ (List.forall₂_eq_eq_eq ▸ rfl)
  rintro i _ rfl
  exact rel_facet? (rel_points h) i

/-- The third corner at an edge has moved by at most the tolerance, and stood farther from the line of
the edge. -/
theorem rel_opposite {e : Edge ℝ} (he : e ∈ edges) :
    Option.Rel (fun r r' => r'.distance r ≤ Tolerance.pointMatch (extent edges) ∧
        e.LineAvoids r (Tolerance.pointMatch (extent edges)))
      (opposite t e (Tolerance.pointMatch (extent edges)))
      (opposite t' e (Tolerance.pointMatch (extent edges))) := by
  have htol := pointMatch_extent_nonneg edges
  obtain ⟨hstart, hstop⟩ := h.ends e he
  rw [opposite_eq, opposite_eq]
  have hfacets := (List.forall₂_and_left t.facets t'.facets).mpr ⟨fun f hf => hf, forall₂_facets h⟩
  refine rel_findSome? (hfacets.imp fun f f' hff' => ?_)
  obtain ⟨hf, hmoved⟩ := hff'
  have hthird := rel_thirdCorner htol h.spread hf hmoved hstart hstop
  have hsimilar (r : Vec2 ℝ) := similar_of_thirdCorner (r := r) htol
    (isSpread_mono (by linarith) h.spread) hf hstart hstop
  revert hthird hsimilar
  generalize thirdCorner (f.a, f.b, f.c) e.start e.stop _ = found,
    thirdCorner (f'.a, f'.b, f'.c) e.start e.stop _ = found'
  intro hthird hsimilar
  cases hthird with
  | none => exact .none
  | some hr => exact .some ⟨hr, h.apart e he f hf _ (hsimilar _ rfl)⟩

end rounding

/-! ### Sides of a line -/

section sides
variable {e : Edge ℝ} {c : Vec2 ℝ} (hunit : c.x ^ 2 + c.y ^ 2 = 1)
include hunit

theorem abs_dot_le_distance (p q : Vec2 ℝ) : |c.dot (p - q)| ≤ p.distance q := by
  refine Real.abs_le_sqrt ?_
  have hsplit : (p - q).dot (p - q) = c.dot (p - q) ^ 2 + c.perpDot (p - q) ^ 2 := by
    simp only [Vec2.dot_eq, Vec2.perpDot_eq]
    linear_combination -((p - q).x ^ 2 + (p - q).y ^ 2) * hunit
  rw [hsplit]
  exact le_add_of_nonneg_right (sq_nonneg _)

omit hunit in
/-- A vector across an edge with a length, turned by a right angle, is a multiple of the edge. -/
theorem exists_mul_eq_of_across (he : e.start ≠ e.stop) (hacross : c.dot (e.stop - e.start) = 0) :
    ∃ k : ℝ, (e.stop - e.start).x * k = -c.y ∧ (e.stop - e.start).y * k = c.x := by
  rw [Vec2.dot_eq] at hacross
  have hne := sub_ne_zero_of_ne he.symm
  generalize e.stop - e.start = u at hacross hne
  have hsquare : u.x ^ 2 + u.y ^ 2 ≠ 0 := by
    rcases hne with hx | hy
    · positivity
    · positivity
  refine ⟨(c.x * u.y - c.y * u.x) / (u.x ^ 2 + u.y ^ 2), ?_, ?_⟩
  · field_simp
    linear_combination u.y * hacross
  · field_simp
    linear_combination -u.x * hacross

/-- The distance of a point from the line of an edge is measured across. -/
theorem lt_abs_dot_of_lineAvoids (he : e.start ≠ e.stop) (hacross : c.dot (e.stop - e.start) = 0)
    {r : Vec2 ℝ} {d : ℝ} (h : e.LineAvoids r d) : d < |c.dot (e.start - r)| := by
  obtain ⟨k, hx, hy⟩ := exists_mul_eq_of_across he hacross
  -- the foot of the perpendicular from `r` is as far along the line as `r` is in the direction of the line
  have hfoot := h (k * c.perpDot (r - e.start))
  refine hfoot.trans_le (le_of_eq ?_)
  rw [Vec2.distance, Vec2.length, Scalar.real_sqrt, ← Real.sqrt_sq_eq_abs]
  congr 1
  simp only [Vec2.dot_eq, Vec2.perpDot_eq, Vec2.sub_x, Vec2.sub_y, Vec2.add_x, Vec2.add_y, Vec2.mul_x,
    Vec2.mul_y] at hx hy ⊢
  rw [← mul_assoc, ← mul_assoc, hx, hy]
  linear_combination ((c.x * (r.y - e.start.y) - c.y * (r.x - e.start.x)) ^ 2 -
    (r.x - e.start.x) ^ 2 - (r.y - e.start.y) ^ 2) * hunit

/-- A corner that is farther from the line of an edge than it moves stays on its side. -/
theorem dot_pos_iff_of_moved (he : e.start ≠ e.stop) (hacross : c.dot (e.stop - e.start) = 0)
    {r r' : Vec2 ℝ} {d : ℝ} (hline : e.LineAvoids r d) (hmoved : r'.distance r ≤ d) :
    0 < c.dot (e.start - r') ↔ 0 < c.dot (e.start - r) := by
  have hfar := lt_abs.mp (lt_abs_dot_of_lineAvoids hunit he hacross hline)
  have hnear := abs_le.mp ((abs_dot_le_distance hunit r' r).trans hmoved)
  have hmove : c.dot (e.start - r') = c.dot (e.start - r) - c.dot (r' - r) := by
    simp only [Vec2.dot_eq, Vec2.sub_x, Vec2.sub_y]
    ring
  rw [hmove]
  rcases hfar with hfar | hfar
  · exact iff_of_true (by linarith) (by linarith)
  · exact iff_of_false (by linarith) (by linarith)

end sides

theorem isOutward_iff_of_moved {e : Edge ℝ} (he : e.start ≠ e.stop) {r r' : Vec2 ℝ} {d : ℝ}
    (hline : e.LineAvoids r d) (hmoved : r'.distance r ≤ d) {n : Vec3 ℝ} :
    IsOutward e r' n ↔ IsOutward e r n := by
  rw [isOutward_iff, isOutward_iff]
  exact exists_congr fun c => and_congr_right fun _ => and_congr_right fun hunit =>
    and_congr_right fun hacross => dot_pos_iff_of_moved hunit he hacross hline hmoved

/-- **Rounding within the tolerance changes no normal.**  The normals over the moved points, or the
error, are those over the points as they were. -/
theorem outwardNormals_rounding {t t' : Triangulation ℝ} {edges : List (Edge ℝ)}
    (h : t.IsRounding t' edges) : outwardNormals edges t' = outwardNormals edges t := by
  refine outwardNormals_congr fun e he => Option.ext fun n => ?_
  simp only [edgeNormal_eq_some_iff]
  refine and_congr_right fun hne => ?_
  have hthird := rel_opposite h he
  revert hthird
  generalize opposite t e _ = found, opposite t' e _ = found'
  intro hthird
  cases hthird with
  | none => simp
  | some hr =>
      simp only [Option.some.injEq, exists_eq_left']
      exact isOutward_iff_of_moved hne hr.2 hr.1

/-- The cut square with its points rounded, and a triangle that names a missing one. -/
noncomputable def roundedSquare : Triangulation ℝ :=
  ⟨#[⟨0, 1 / 1000000⟩, ⟨1, 0⟩, ⟨1 - 1 / 1000000, 1⟩, ⟨0, 1⟩], [⟨0, 1, 2⟩, ⟨4, 0, 1⟩, ⟨0, 3, 2⟩]⟩

theorem isRounding_roundedSquare : cutSquare.IsRounding roundedSquare (boundaryEdges [square]) := by
  have htol : 1 / 1000000 ≤ Tolerance.pointMatch (extent (boundaryEdges [square])) := by
    rw [pointMatch_square]
    have hsqrt : 1 ≤ Real.sqrt 2 := Real.one_le_sqrt.mpr one_le_two
    linarith
  constructor
  case inRange => rfl
  case size => rfl
  case ends => exact cutSquare_fills.ends
  case spread => exact isSpread_cutSquare pointMatch_square_lt
  case moved =>
    intro i p p' hp hp'
    refine le_trans ?_ htol
    match i with
    | 0 | 1 | 2 | 3 =>
        obtain rfl := Option.some.inj hp
        obtain rfl := Option.some.inj hp'
        rw [Vec2.distance, Vec2.length, Scalar.real_sqrt, Real.sqrt_le_iff]
        norm_num [Vec2.dot_eq, cutSquare, roundedSquare]
    | i + 4 => simp [cutSquare] at hp
  case apart =>
    have hone : Tolerance.pointMatch (extent (boundaryEdges [square])) < 1 := by
      linarith [pointMatch_square_lt]
    generalize Tolerance.pointMatch (extent (boundaryEdges [square])) = tolerance at hone
    rw [boundaryEdges_square, facets_cutSquare]
    intro e he f hf r hside s
    -- every third corner is one side of the square away from its edge
    refine hone.trans_le (Real.one_le_sqrt.mpr ?_)
    simp only [List.mem_cons, List.not_mem_nil, or_false] at he hf
    rcases he with rfl | rfl | rfl | rfl <;> rcases hf with rfl | rfl <;>
      simp [Facet.Similar, Facet.rotate] at hside <;> obtain rfl := hside <;>
      norm_num [Vec2.dot_eq] <;> nlinarith [sq_nonneg s, sq_nonneg (1 - s)]

/-- The edges of the square have the same normals over rounded points. -/
theorem outwardNormals_rounding_square :
    cutSquare.IsRounding roundedSquare (boundaryEdges [square]) ∧
      outwardNormals (boundaryEdges [square]) roundedSquare =
        outwardNormals (boundaryEdges [square]) cutSquare :=
  ⟨isRounding_roundedSquare, outwardNormals_rounding isRounding_roundedSquare⟩

end Extrusion

end TriMesh
