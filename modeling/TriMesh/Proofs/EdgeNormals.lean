import TriMesh.Proofs.OutwardNormals
import TriMesh.Proofs.ExtrusionOutcomes
import TriMesh.Proofs.TidyPaths

/-! # Normals of single edges

The normal of an edge for any triangulation and any tolerance, read with exact scalars.

* A normal is a unit vector in the plane and across the edge, and both ends of the edge lie on its side,
  seen from the third corner (`IsOutward`).  There is at most one (`IsOutward.unique`), and it is given
  for every edge with a length whose third corner is off the line of the edge
  (`edgeNormal_eq_some_iff`).
* The third corner is that of the first triangle that matches both ends (`IsOpposite`); matching is
  symmetric in the ends even where one end is close to several corners, so an edge and its reverse have
  the same normal or both have none (`edgeNormal_reverse`).
* An edge without length has no normal, so that a path that repeats its closing point cannot be extruded
  over any triangulation (`mesh_ne_ok_of_repeatsClosing`). -/

namespace TriMesh

/-- The edge walked the other way. -/
def Edge.reverse {α : Type} (e : Edge α) : Edge α := ⟨e.stop, e.start⟩

/-- The edges of a path by its last point. -/
theorem Path.edges_concat {α : Type} (first : Vec2 α) (rest : Path α) (last : Vec2 α) :
    Path.edges (first :: rest ++ [last]) =
      List.zipWith Edge.mk (first :: rest) (rest ++ [last]) ++ [⟨last, first⟩] := by
  simp only [Path.edges, List.cons_append]
  rw [← List.cons_append, List.zipWith_append (by simp)]
  rfl

namespace Extrusion

/-! ### Third corners -/

section corners
variable {α : Type} [Scalar α]

/-- The third corner of the first triangle that matches both ends of the edge with different
corners. -/
def IsOpposite (t : Triangulation α) (e : Edge α) (tolerance : α) (r : Vec2 α) : Prop :=
  ∃ before i after corners, t.triangles = before ++ i :: after ∧ t.corners? i = some corners ∧
    thirdCorner corners e.start e.stop tolerance = some r ∧
    ∀ j ∈ before, ∀ others, t.corners? j = some others →
      thirdCorner others e.start e.stop tolerance = none

theorem opposite_eq_some_iff {t : Triangulation α} {e : Edge α} {tolerance : α} {r : Vec2 α} :
    opposite t e tolerance = some r ↔ IsOpposite t e tolerance r := by
  simp only [opposite, List.findSome?_eq_some_iff, Option.bind_eq_bind, Option.bind_eq_some_iff,
    Option.bind_eq_none_iff]
  constructor
  · rintro ⟨before, i, after, hsplit, ⟨corners, hcorners, hthird⟩, hbefore⟩
    exact ⟨before, i, after, corners, hsplit, hcorners, hthird, hbefore⟩
  · rintro ⟨before, i, after, corners, hsplit, hcorners, hthird, hbefore⟩
    exact ⟨before, i, after, hsplit, ⟨corners, hcorners, hthird⟩, hbefore⟩

theorem thirdCorner_comm (corners : Vec2 α × Vec2 α × Vec2 α) (p q : Vec2 α) (tolerance : α) :
    thirdCorner corners p q tolerance = thirdCorner corners q p tolerance := by
  simp only [thirdCorner]
  generalize [corners.1, corners.2.1, corners.2.2] = list
  cases list.findIdx? (close tolerance · p) with
  | none => cases list.findIdx? (close tolerance · q) <;> rfl
  | some i =>
      cases list.findIdx? (close tolerance · q) with
      | none => rfl
      | some j =>
          simp only [Option.bind_eq_bind, Option.bind_some, eq_comm (a := i), Nat.sub_right_comm 3 i]

theorem isOpposite_reverse {t : Triangulation α} {e : Edge α} {tolerance : α} {r : Vec2 α} :
    IsOpposite t e.reverse tolerance r ↔ IsOpposite t e tolerance r := by
  simp only [IsOpposite, Edge.reverse, thirdCorner_comm _ e.stop]

end corners

/-! ### Outward vectors -/

/-- A unit vector in the plane and across the edge, away from `r`. -/
structure IsOutward (e : Edge ℝ) (r : Vec2 ℝ) (n : Vec3 ℝ) : Prop where
  /-- It has length one. -/
  unit : n.length = 1
  /-- It lies in the plane. -/
  flat : n.z = 0
  /-- It is perpendicular to the edge. -/
  across : n.dot ((e.stop - e.start).extend 0) = 0
  /-- It points from `r` to the side of the start. -/
  start : 0 < n.dot ((e.start - r).extend 0)
  /-- It points from `r` to the side of the end. -/
  stop : 0 < n.dot ((e.stop - r).extend 0)

theorem length_eq_one_iff {n : Vec3 ℝ} (hz : n.z = 0) : n.length = 1 ↔ n.x ^ 2 + n.y ^ 2 = 1 := by
  simp only [Vec3.length, Scalar.real_sqrt, Real.sqrt_eq_one, Vec3.dot_eq, hz]
  constructor <;> intro h <;> linarith

theorem dot_extend {n : Vec3 ℝ} (hz : n.z = 0) (v : Vec2 ℝ) :
    n.dot (v.extend 0) = n.x * v.x + n.y * v.y := by
  simp only [Vec3.dot_eq, Vec2.extend, hz]
  ring

namespace IsOutward

variable {e : Edge ℝ} {r : Vec2 ℝ} {m n : Vec3 ℝ}

theorem reverse {e : Edge ℝ} (h : IsOutward e r n) : IsOutward e.reverse r n := by
  refine ⟨h.unit, h.flat, ?_, h.stop, h.start⟩
  have hacross := h.across
  rw [dot_extend h.flat] at hacross ⊢
  simp only [Edge.reverse, Vec2.sub_x, Vec2.sub_y] at hacross ⊢
  linarith

/-- Across an edge with a length there is one unit vector on each side. -/
theorem unique (he : e.start ≠ e.stop) (hm : IsOutward e r m) (hn : IsOutward e r n) : m = n := by
  have hm1 := (length_eq_one_iff hm.flat).mp hm.unit
  have hn1 := (length_eq_one_iff hn.flat).mp hn.unit
  have hma := hm.across
  have hna := hn.across
  have hms := hm.start
  have hns := hn.start
  rw [dot_extend hm.flat] at hma hms
  rw [dot_extend hn.flat] at hna hns
  have hparallel : m.x * n.y - m.y * n.x = 0 := by
    rcases sub_ne_zero_of_ne he.symm with hx | hy
    · apply mul_left_cancel₀ hx
      linear_combination n.y * hma - m.y * hna
    · apply mul_left_cancel₀ hy
      linear_combination m.x * hna - n.x * hma
  -- so one is a multiple of the other, by a factor that is positive and of square one
  obtain ⟨c, hx, hy⟩ : ∃ c, m.x = c * n.x ∧ m.y = c * n.y := by
    refine ⟨m.x * n.x + m.y * n.y, ?_, ?_⟩
    · linear_combination -m.x * hn1 + n.y * hparallel
    · linear_combination -m.y * hn1 - n.x * hparallel
  have hpos : 0 < c := by
    refine (mul_pos_iff_of_pos_right hns).mp ?_
    calc 0 < m.x * (e.start - r).x + m.y * (e.start - r).y := hms
      _ = c * (n.x * (e.start - r).x + n.y * (e.start - r).y) := by
          rw [hx, hy]
          ring
  have hone : c = 1 := by
    rw [← pow_eq_one_iff_of_nonneg hpos.le two_ne_zero]
    rw [hx, hy] at hm1
    linear_combination hm1 - c ^ 2 * hn1
  refine Vec3.ext ?_ ?_ ?_
  · rw [hx, hone, one_mul]
  · rw [hy, hone, one_mul]
  · rw [hm.flat, hn.flat]

end IsOutward

/-! ### The normal of an edge -/

/-- A unit vector is a positive multiple of the vector that it comes from. -/
theorem of_tryNormalize {v u : Vec2 ℝ} (h : v.tryNormalize = some u) :
    ∃ k : ℝ, 0 < k ∧ u = v * k ∧ u.x ^ 2 + u.y ^ 2 = 1 := by
  simp only [Vec2.tryNormalize, Scalar.real_isFinite, true_and] at h
  split at h
  · rename_i hpos
    obtain rfl := Option.some.inj h
    refine ⟨1 / v.length, hpos, rfl, ?_⟩
    have hlength : 0 < v.length := one_div_pos.mp hpos
    have hsquare : v.length ^ 2 = v.x * v.x + v.y * v.y :=
      Real.sq_sqrt (add_nonneg (mul_self_nonneg v.x) (mul_self_nonneg v.y))
    simp only [Vec2.mul_x, Vec2.mul_y]
    field_simp
    linarith
  · cases h

variable {t : Triangulation ℝ} {tolerance : ℝ} {e : Edge ℝ} {r : Vec2 ℝ} {n : Vec3 ℝ}

theorem isOutward_extend {c : Vec2 ℝ} (hunit : c.x ^ 2 + c.y ^ 2 = 1)
    (hacross : c.dot (e.stop - e.start) = 0) (haway : 0 < c.dot (e.start - r)) :
    IsOutward e r (c.extend 0) := by
  have hflat : (c.extend (0 : ℝ)).z = 0 := rfl
  have hstop : c.dot (e.stop - r) = c.dot (e.stop - e.start) + c.dot (e.start - r) := by
    simp only [Vec2.dot_eq, Vec2.sub_x, Vec2.sub_y]
    ring
  refine ⟨(length_eq_one_iff hflat).mpr hunit, hflat, ?_, ?_, ?_⟩
  · exact (dot_extend hflat _).trans hacross
  · exact haway.trans_eq (dot_extend hflat _).symm
  · refine lt_of_lt_of_eq ?_ (dot_extend hflat _).symm
    change 0 < c.dot (e.stop - r)
    rw [hstop, hacross, zero_add]
    exact haway

/-- Ways outward are unit vectors of the plane. -/
theorem isOutward_iff :
    IsOutward e r n ↔ ∃ c : Vec2 ℝ, n = c.extend 0 ∧ c.x ^ 2 + c.y ^ 2 = 1 ∧
      c.dot (e.stop - e.start) = 0 ∧ 0 < c.dot (e.start - r) := by
  constructor
  · intro h
    have hacross := h.across
    have hstart := h.start
    rw [dot_extend h.flat] at hacross hstart
    exact ⟨⟨n.x, n.y⟩, Vec3.ext rfl rfl h.flat, (length_eq_one_iff h.flat).mp h.unit, hacross, hstart⟩
  · rintro ⟨c, rfl, hunit, hacross, hstart⟩
    exact isOutward_extend hunit hacross hstart

/-- What is given as the normal of an edge points outward. -/
theorem isOutward_of_edgeNormal (h : edgeNormal t tolerance e = some n) :
    e.start ≠ e.stop ∧ ∃ r, opposite t e tolerance = some r ∧ IsOutward e r n := by
  simp only [edgeNormal, Option.bind_eq_bind, Option.bind_eq_some_iff] at h
  obtain ⟨along, halong, r, hr, away, haway, hn⟩ := h
  obtain ⟨k, hk, rfl, hunit⟩ := of_tryNormalize halong
  obtain ⟨m, hm, rfl, _⟩ := of_tryNormalize haway
  have hne : e.start ≠ e.stop := by
    intro heq
    simp [heq] at hunit
  refine ⟨hne, r, hr, ?_⟩
  have hside (c : Vec2 ℝ) (hc : 0 < ((e.start - r) * m).dot c) : 0 < c.dot (e.start - r) := by
    have hscale : ((e.start - r) * m).dot c = c.dot (e.start - r) * m := by
      simp only [Vec2.dot_eq, Vec2.mul_x, Vec2.mul_y]
      ring
    rw [hscale] at hc
    exact (mul_pos_iff_of_pos_right hm).mp hc
  have hneg (c : Vec2 ℝ) : ((e.start - r) * m).dot (-c) = -((e.start - r) * m).dot c := by
    simp only [Vec2.dot_eq, Vec2.neg_x, Vec2.neg_y]
    ring
  rw [hneg] at hn
  split at hn
  · rename_i hs
    obtain rfl := Option.some.inj hn
    refine isOutward_extend ?_ ?_ (hside _ (by linarith [hs.1]))
    · linear_combination hunit
    · simp only [Vec2.dot_eq, Vec2.mul_x, Vec2.mul_y, Vec2.sub_x, Vec2.sub_y]
      ring
  · split at hn
    · rename_i _ hs
      obtain rfl := Option.some.inj hn
      refine isOutward_extend ?_ ?_ (hside _ (by rw [hneg]; linarith [hs.1]))
      · simp only [Vec2.neg_x, Vec2.neg_y]
        linear_combination hunit
      · simp only [Vec2.dot_eq, Vec2.mul_x, Vec2.mul_y, Vec2.sub_x, Vec2.sub_y, Vec2.neg_x, Vec2.neg_y]
        ring
    · cases hn

/-- There is a way outward only from a corner off the line of the edge. -/
theorem IsOutward.area_ne_zero (h : IsOutward e r n) (he : e.start ≠ e.stop) :
    (⟨e.start, e.stop, r⟩ : Facet (Vec2 ℝ)).area ≠ 0 := by
  intro harea
  have hacross := h.across
  have hstart := h.start
  rw [dot_extend h.flat] at hacross hstart
  simp only [Facet.area, Vec2.perpDot_eq] at harea
  have hzero : n.x * (r - e.start).x + n.y * (r - e.start).y = 0 := by
    rcases sub_ne_zero_of_ne he.symm with hx | hy
    · apply mul_left_cancel₀ hx
      linear_combination (r - e.start).x * hacross + n.y * harea
    · apply mul_left_cancel₀ hy
      linear_combination (r - e.start).y * hacross - n.x * harea
  simp only [Vec2.sub_x, Vec2.sub_y] at hstart hzero
  linarith

/-- The normal of an edge is the vector that points outward from the third corner. -/
theorem edgeNormal_eq_some_iff :
    edgeNormal t tolerance e = some n ↔
      e.start ≠ e.stop ∧ ∃ r, opposite t e tolerance = some r ∧ IsOutward e r n := by
  constructor
  · exact isOutward_of_edgeNormal
  · rintro ⟨he, r, hr, hn⟩
    obtain ⟨m, hm, _⟩ := edgeNormal_of_opposite hr (hn.area_ne_zero he)
    obtain ⟨_, r', hr', hm'⟩ := isOutward_of_edgeNormal hm
    obtain rfl : r = r' := Option.some.inj (hr.symm.trans hr')
    rw [hm, hm'.unique he hn]

/-- The reverse of an edge has the same normal, or none if the edge has none. -/
theorem edgeNormal_reverse (t : Triangulation ℝ) (tolerance : ℝ) (e : Edge ℝ) :
    edgeNormal t tolerance e.reverse = edgeNormal t tolerance e := by
  apply Option.ext
  intro n
  simp only [edgeNormal_eq_some_iff, opposite_eq_some_iff, isOpposite_reverse]
  constructor
  · rintro ⟨he, r, hr, hn⟩
    exact ⟨he.symm, r, hr, hn.reverse⟩
  · rintro ⟨he, r, hr, hn⟩
    exact ⟨he.symm, r, hr, hn.reverse⟩

/-! ### Edges without length -/

theorem edgeNormal_eq_none_of_eq {t : Triangulation ℝ} {tolerance : ℝ} {e : Edge ℝ}
    (h : e.start = e.stop) : edgeNormal t tolerance e = none := by
  cases hn : edgeNormal t tolerance e with
  | none => rfl
  | some n => exact absurd h (edgeNormal_eq_some_iff.mp hn).1

/-- A closing point that is left over makes an edge without length. -/
theorem exists_edge_of_isClosed {path : Path ℝ} (h : path.IsClosed) :
    ∃ d ∈ path.edges, d.start = d.stop := by
  obtain ⟨first, rest, last, rfl, heq⟩ := h
  refine ⟨⟨last, first⟩, ?_, ((Vec2.beq_iff first last).mp heq).symm⟩
  rw [Path.edges_concat]
  exact List.mem_append_right _ List.mem_cons_self

/-- A path that repeats its closing point cannot be extruded, whatever the triangulator answers. -/
theorem mesh_ne_ok_of_repeatsClosing {e : Extrusion ℝ} {path : Path ℝ} (hpath : path ∈ e.paths)
    (h : path.RepeatsClosing) (triangulate : Triangulator ℝ) (s : SubMesh ℝ) :
    e.mesh triangulate ≠ .ok s := by
  intro hs
  obtain ⟨t, ht⟩ := (exists_mesh_iff e triangulate).mp ⟨s, hs⟩
  have hclosed := (Path.isClosed_dropClosing_iff h.three_le).mpr h
  have hmem : path.dropClosing ∈ tidy e.paths := mem_tidy_iff.mpr ⟨h.three_le, path, hpath, rfl⟩
  obtain ⟨d, hd, heq⟩ := exists_edge_of_isClosed hclosed
  obtain ⟨n, hn⟩ := ht.normals d (List.mem_flatMap_of_mem hmem hd)
  rw [normal?, edgeNormal_eq_none_of_eq heq] at hn
  cases hn

end Extrusion

end TriMesh
