import TriMesh.Proofs.BoxCorners
import TriMesh.Proofs.Outlines
import TriMesh.Proofs.SweptFacets
import TriMesh.MeshSpec

/-! # Closed solids

The surfaces of boxes, camera boxes, spheres, cylinders, cones and full tubes are closed, read with
exact scalars and for any counts (`MeshSpec.solid_isClosed`).

* The swept solids have the edges of an outline: a sphere runs from pole to pole, a cylinder and a
  cone begin and end at the centers of their caps, a full tube goes round its wall once.
* The boxes are one closed surface over eight corners, put in their places. -/

namespace TriMesh

/-! ### Bands and fans -/

theorem Lattice.properEdges_facets (l : Lattice ℝ) :
    l.mesh.facets.properEdges = ∑ ring ∈ Finset.range l.ringCount,
      ((l.link ring).facets l.sweep l.segmentCount).properEdges := by
  rw [facets_mesh, Surface.properEdges_flatMap_range]

/-- Turned over, the bands of a lattice are walked down. -/
theorem Lattice.properEdges_map_flip (l : Lattice ℝ) :
    Surface.properEdges (l.mesh.facets.map Facet.flip) = ∑ ring ∈ Finset.range l.ringCount,
      ((l.link ring).reverse.facets l.sweep l.segmentCount).properEdges := by
  rw [facets_mesh, List.map_flatMap, Surface.properEdges_flatMap_range]
  exact Finset.sum_congr rfl fun ring _ => Link.properEdges_map_flip _ _ _

namespace CapFan

variable {radius : ℝ} (hr : 0 < radius) (z : ℝ) (segments : ℕ)
include hr

theorem properEdges_up :
    (mesh radius z segments true).facets.properEdges =
      ((⟨⟨radius, z⟩, ⟨0, z⟩, false⟩ : Link ℝ).facets Scalar.tau
        (clampSegments segments)).properEdges := by
  have hn := three_le_clampSegments segments
  have : NeZero (clampSegments segments) := ⟨by omega⟩
  have hne : (⟨radius, z⟩ : Vec2 ℝ) ≠ ⟨0, z⟩ := fun h => hr.ne' (congrArg Vec2.x h)
  rw [facets_mesh_up, Link.properEdges_facets, Link.properEdges_onUpper hne hr.le le_rfl (by omega),
    if_pos rfl, add_zero]

theorem properEdges_down :
    (mesh radius z segments false).facets.properEdges =
      ((⟨⟨0, z⟩, ⟨radius, z⟩, false⟩ : Link ℝ).facets Scalar.tau
        (clampSegments segments)).properEdges := by
  have hn := three_le_clampSegments segments
  have : NeZero (clampSegments segments) := ⟨by omega⟩
  have hne : (⟨0, z⟩ : Vec2 ℝ) ≠ ⟨radius, z⟩ := fun h => hr.ne (congrArg Vec2.x h)
  rw [facets_mesh_down, Link.properEdges_facets,
    Link.properEdges_onLower hne le_rfl hr.le (by omega), if_pos rfl, zero_add]
  apply Surface.properEdges_of_similar
  rw [List.forall₂_map_left_iff, List.forall₂_map_right_iff, List.forall₂_same]
  exact fun c _ => Or.inr (Or.inl rfl)

end CapFan

/-! ### Rings at even heights -/

theorem clampRings_cast_pos (n : ℕ) : (0 : ℝ) < clampRings n := Nat.cast_pos.mpr (one_le_clampRings n)

section ringHeight
variable {height : ℝ} {rings : ℕ}

theorem ringHeight_zero : ringHeight height rings 0 = -height / Scalar.two := by
  simp only [ringHeight, Scalar.real_two]
  ring

theorem ringHeight_last (hR : 1 ≤ rings) :
    ringHeight height rings rings = height / Scalar.two := by
  have h : (rings : ℝ) ≠ 0 := Nat.cast_ne_zero.mpr (by omega)
  simp only [ringHeight, Scalar.real_two]
  field_simp
  ring

theorem ringHeight_injective (hR : 1 ≤ rings) (hh : 0 < height) :
    Function.Injective (ringHeight height rings) := by
  intro i j hij
  have h : (rings : ℝ) ≠ 0 := Nat.cast_ne_zero.mpr (by omega)
  simp only [ringHeight, sub_left_inj] at hij
  field_simp at hij
  exact_mod_cast hij

end ringHeight

theorem ringHeight_succ (height : ℝ) (rings ring : ℕ) :
    ringHeight height rings (ring + 1) = ringHeight height rings ring + height / rings := by
  simp only [ringHeight]
  push_cast
  ring

/-! ### Spheres -/

namespace Sphere

variable (s : Sphere ℝ)

/-- The angle of a ring is between those of the poles. -/
theorem ringAngle_mem {ring : ℕ} (h : ring ≤ s.lattice.ringCount) :
    s.ringAngle ring ∈ Set.Icc 0 Real.pi := by
  have hR : (0 : ℝ) < s.lattice.ringCount := clampRings_cast_pos _
  have hle : (ring : ℝ) ≤ s.lattice.ringCount := Nat.cast_le.mpr h
  have hangle : s.ringAngle ring = Real.pi * (ring / s.lattice.ringCount) := by
    simp only [ringAngle, Scalar.real_pi, Lattice.ringCount, lattice]
    ring
  rw [hangle]
  have hpi := Real.pi_pos
  refine ⟨by positivity, mul_le_of_le_one_right hpi.le ((div_le_one hR).mpr hle)⟩

theorem ringAngle_injective : Function.Injective s.ringAngle := by
  intro i j hij
  have hR := (clampRings_cast_pos s.rings.toNat).ne'
  have hstep : Real.pi / (clampRings s.rings.toNat : ℝ) ≠ 0 := div_ne_zero Real.pi_ne_zero hR
  exact_mod_cast mul_right_cancel₀ hstep hij

theorem ringAngle_last : s.ringAngle s.lattice.ringCount = Real.pi := by
  have hR := (clampRings_cast_pos s.rings.toNat).ne'
  simp only [ringAngle, Scalar.real_pi, Lattice.ringCount, lattice]
  field_simp

/-- The half circle from pole to pole. -/
noncomputable def outline (hr : 0 < s.radius) : Outline where
  size := s.lattice.ringCount
  point := s.lattice.profile
  rising _ := false
  nonneg i hi := by
    obtain ⟨h0, h1⟩ := s.ringAngle_mem hi
    exact mul_nonneg hr.le (Real.sin_nonneg_of_nonneg_of_le_pi h0 h1)
  eq_of_point_eq i j hij hj h := by
    have hcos : Real.cos (s.ringAngle i) = Real.cos (s.ringAngle j) :=
      mul_left_cancel₀ (neg_ne_zero.mpr hr.ne') (congrArg Vec2.y h)
    have hangle := Real.injOn_cos (s.ringAngle_mem (hij.le.trans hj)) (s.ringAngle_mem hj) hcos
    exact absurd (s.ringAngle_injective hangle) hij.ne
  ends := by
    refine Or.inr ⟨?_, ?_⟩
    · simp [Lattice.profile, lattice, ringAngle]
    · have h := s.ringAngle_last
      simp only [Lattice.profile, lattice, Lattice.ringCount] at h ⊢
      rw [h]
      simp

theorem isClosed_facets (hr : 0 < s.radius) : s.mesh.facets.IsClosed :=
  (s.outline hr).isClosed (three_le_clampSegments _) s.lattice.properEdges_facets

end Sphere

/-! ### Cylinders -/

namespace Cylinder

/-- The center of the lower disc, the wall from bottom to top, the center of the upper disc. -/
def outlinePoint {α : Type} [Scalar α] (c : Cylinder α) : ℕ → Vec2 α
  | 0 => ⟨0, -c.height / Scalar.two⟩
  | ring + 1 =>
    if ring ≤ c.wall.ringCount then c.wall.profile ring else ⟨0, c.height / Scalar.two⟩

variable (c : Cylinder ℝ)

theorem outlinePoint_wall {ring : ℕ} (h : ring ≤ c.wall.ringCount) :
    c.outlinePoint (ring + 1) = c.wall.profile ring := if_pos h

theorem outlinePoint_last : c.outlinePoint (c.wall.ringCount + 2) = ⟨0, c.height / Scalar.two⟩ :=
  if_neg (by omega)

variable {c} (hr : 0 < c.radius) (hh : 0 < c.height)

include hr hh in
theorem outlinePoint_ne {i j : ℕ} (hij : i < j) (hj : j ≤ c.wall.ringCount + 2) :
    c.outlinePoint i ≠ c.outlinePoint j := by
  intro h
  obtain ⟨k, rfl⟩ : ∃ k, j = k + 1 := ⟨j - 1, by omega⟩
  cases i with
  | zero =>
      by_cases hk : k ≤ c.wall.ringCount
      · rw [outlinePoint_wall c hk] at h
        exact hr.ne (congrArg Vec2.x h)
      · obtain rfl : k = c.wall.ringCount + 1 := by omega
        rw [outlinePoint_last] at h
        have hy : -c.height / Scalar.two = c.height / Scalar.two := congrArg Vec2.y h
        rw [Scalar.real_two] at hy
        linarith
  | succ m =>
      rw [outlinePoint_wall c (by omega)] at h
      by_cases hk : k ≤ c.wall.ringCount
      · rw [outlinePoint_wall c hk] at h
        have hm := ringHeight_injective (one_le_clampRings _) hh (congrArg Vec2.y h)
        omega
      · obtain rfl : k = c.wall.ringCount + 1 := by omega
        rw [outlinePoint_last] at h
        exact hr.ne' (congrArg Vec2.x h)

/-- The outline of the cylinder. -/
noncomputable def outline : Outline where
  size := c.wall.ringCount + 2
  point := c.outlinePoint
  rising _ := false
  nonneg i _ := by
    cases i with
    | zero => exact le_rfl
    | succ ring =>
        simp only [outlinePoint]
        split
        · exact hr.le
        · exact le_rfl
  eq_of_point_eq _ _ hij hj h := absurd h (outlinePoint_ne hr hh hij hj)
  ends := by
    rw [outlinePoint_last]
    exact Or.inr ⟨rfl, rfl⟩

theorem properEdges_facets :
    c.mesh.facets.properEdges = (outline hr hh).sweptEdges c.wall.segmentCount := by
  have hwall := c.wall.mesh_complete
  have hup := CapFan.mesh_complete c.radius (c.height / Scalar.two) c.segments.toNat true
  have hR := one_le_clampRings c.rings.toNat
  have hband {ring : ℕ} (h : ring < c.wall.ringCount) :
      (outline hr hh).link (ring + 1) = c.wall.link ring :=
    Outline.link_eq (outlinePoint_wall c h.le) (outlinePoint_wall c (Nat.succ_le_of_lt h)) rfl
  have hfirst : (outline hr hh).link 0 =
      ⟨⟨0, -c.height / Scalar.two⟩, ⟨c.radius, -c.height / Scalar.two⟩, false⟩ := by
    have hone : c.outlinePoint 1 = ⟨c.radius, -c.height / Scalar.two⟩ :=
      (outlinePoint_wall c (Nat.zero_le _)).trans (Vec2.ext rfl ringHeight_zero)
    exact Outline.link_eq rfl hone rfl
  have hlast : (outline hr hh).link (c.wall.ringCount + 1) =
      ⟨⟨c.radius, c.height / Scalar.two⟩, ⟨0, c.height / Scalar.two⟩, false⟩ := by
    have htop : c.outlinePoint (c.wall.ringCount + 1) = ⟨c.radius, c.height / Scalar.two⟩ :=
      (outlinePoint_wall c le_rfl).trans (Vec2.ext rfl (ringHeight_last hR))
    exact Outline.link_eq htop c.outlinePoint_last rfl
  unfold mesh Outline.sweptEdges
  rw [(hwall.append hup).facets_append, hwall.facets_append, Surface.properEdges_append,
    Surface.properEdges_append, Lattice.properEdges_facets, CapFan.properEdges_up hr,
    CapFan.properEdges_down hr]
  change _ = ∑ i ∈ Finset.range (c.wall.ringCount + 2), _
  rw [Finset.sum_range_succ, Finset.sum_range_succ', hfirst, hlast, add_right_comm]
  congr 2
  refine Finset.sum_congr rfl fun ring hring => ?_
  rw [hband (Finset.mem_range.mp hring)]
  rfl

include hr hh in
theorem isClosed_facets : c.mesh.facets.IsClosed :=
  (outline hr hh).isClosed (three_le_clampSegments _) (properEdges_facets hr hh)

end Cylinder

/-! ### Cones -/

namespace Cone

/-- The center of the disc, then the wall up to the apex. -/
def outlinePoint {α : Type} [Scalar α] (c : Cone α) : ℕ → Vec2 α
  | 0 => ⟨0, -c.height / Scalar.two⟩
  | ring + 1 => c.wall.profile ring

variable (c : Cone ℝ)

/-- New normals leave the triangles where they are. -/
theorem facets_mesh : c.mesh.facets = c.parts.facets := rfl

theorem radius_zero : (c.wall.profile 0).x = c.radius := by
  simp [Lattice.profile, wall]

theorem radius_last : (c.wall.profile c.wall.ringCount).x = 0 := by
  have hR := (clampRings_cast_pos c.rings.toNat).ne'
  simp only [Lattice.profile, wall, Lattice.ringCount]
  rw [div_self hR, sub_self, mul_zero]

variable {c} (hr : 0 < c.radius) (hh : 0 < c.height)

include hr in
theorem radius_nonneg {ring : ℕ} (h : ring ≤ c.wall.ringCount) : 0 ≤ (c.wall.profile ring).x := by
  have hR := clampRings_cast_pos c.rings.toNat
  have hle : (ring : ℝ) ≤ clampRings c.rings.toNat := Nat.cast_le.mpr h
  exact mul_nonneg hr.le (sub_nonneg.mpr ((div_le_one hR).mpr hle))

include hr hh in
theorem outlinePoint_ne {i j : ℕ} (hij : i < j) : c.outlinePoint i ≠ c.outlinePoint j := by
  intro h
  have hinj := ringHeight_injective (one_le_clampRings c.rings.toNat) hh
  obtain ⟨k, rfl⟩ : ∃ k, j = k + 1 := ⟨j - 1, by omega⟩
  cases i with
  | zero =>
      obtain rfl : 0 = k := hinj (ringHeight_zero.trans (congrArg Vec2.y h))
      exact hr.ne ((congrArg Vec2.x h).trans c.radius_zero)
  | succ m =>
      have hm : m = k := hinj (congrArg Vec2.y h)
      omega

/-- The outline of the cone. -/
noncomputable def outline : Outline where
  size := c.wall.ringCount + 1
  point := c.outlinePoint
  rising _ := false
  nonneg i hi := by
    cases i with
    | zero => exact le_rfl
    | succ ring => exact radius_nonneg hr (Nat.le_of_succ_le_succ hi)
  eq_of_point_eq _ _ hij _ h := absurd h (outlinePoint_ne hr hh hij)
  ends := Or.inr ⟨rfl, c.radius_last⟩

theorem properEdges_facets :
    c.mesh.facets.properEdges = (outline hr hh).sweptEdges c.wall.segmentCount := by
  have hfirst : (outline hr hh).link 0 =
      ⟨⟨0, -c.height / Scalar.two⟩, ⟨c.radius, -c.height / Scalar.two⟩, false⟩ :=
    Outline.link_eq rfl (Vec2.ext c.radius_zero ringHeight_zero) rfl
  rw [facets_mesh]
  unfold parts Outline.sweptEdges
  rw [c.wall.mesh_complete.facets_append, Surface.properEdges_append, Lattice.properEdges_facets,
    CapFan.properEdges_down hr]
  change _ = ∑ i ∈ Finset.range (c.wall.ringCount + 1), _
  rw [Finset.sum_range_succ', hfirst]
  rfl

include hr hh in
theorem isClosed_facets : c.mesh.facets.IsClosed :=
  (outline hr hh).isClosed (three_le_clampSegments _) (properEdges_facets hr hh)

end Cone

/-! ### Tubes -/

namespace Tube

variable (t : Tube ℝ)

/-- Up the outer wall, down the inner wall, and back to the first point. -/
noncomputable def outlinePoint (i : ℕ) : Vec2 ℝ :=
  if i ≤ t.ringCount then ⟨t.outerRadius, ringHeight t.height t.ringCount i⟩
  else if i ≤ 2 * t.ringCount + 1 then
    ⟨t.innerRadius, ringHeight t.height t.ringCount (2 * t.ringCount + 1 - i)⟩
  else ⟨t.outerRadius, ringHeight t.height t.ringCount 0⟩

theorem outlinePoint_outer {ring : ℕ} (h : ring ≤ t.ringCount) :
    t.outlinePoint ring = ⟨t.outerRadius, ringHeight t.height t.ringCount ring⟩ := if_pos h

theorem outlinePoint_inner (ring : ℕ) {i : ℕ} (h : ring + i = 2 * t.ringCount + 1)
    (hr : ring ≤ t.ringCount) :
    t.outlinePoint i = ⟨t.innerRadius, ringHeight t.height t.ringCount ring⟩ := by
  obtain rfl : ring = 2 * t.ringCount + 1 - i := by omega
  exact (if_neg (by omega)).trans (if_pos (by omega))

theorem outlinePoint_last : t.outlinePoint (2 * t.ringCount + 2) = t.outlinePoint 0 :=
  ((if_neg (by omega)).trans (if_neg (by omega))).trans (if_pos (Nat.zero_le _)).symm

/-- On its way the outline meets the outer wall, the inner wall or its first point again. -/
theorem outlinePoint_cases {i : ℕ} (h : i ≤ 2 * t.ringCount + 2) :
    (i ≤ t.ringCount ∧ t.outlinePoint i = ⟨t.outerRadius, ringHeight t.height t.ringCount i⟩) ∨
      (∃ ring ≤ t.ringCount, ring + i = 2 * t.ringCount + 1 ∧
        t.outlinePoint i = ⟨t.innerRadius, ringHeight t.height t.ringCount ring⟩) ∨
      (i = 2 * t.ringCount + 2 ∧
        t.outlinePoint i = ⟨t.outerRadius, ringHeight t.height t.ringCount 0⟩) := by
  by_cases h0 : i ≤ t.ringCount
  · exact Or.inl ⟨h0, t.outlinePoint_outer h0⟩
  · by_cases h1 : i ≤ 2 * t.ringCount + 1
    · have hi : 2 * t.ringCount + 1 - i + i = 2 * t.ringCount + 1 := by omega
      exact Or.inr (Or.inl ⟨_, by omega, hi, t.outlinePoint_inner _ hi (by omega)⟩)
    · exact Or.inr (Or.inr ⟨by omega, (if_neg h0).trans (if_neg h1)⟩)

variable {t} (hi : 0 < t.innerRadius) (ho : t.innerRadius < t.outerRadius) (hh : 0 < t.height)

include ho hh in
theorem outlinePoint_eq {i j : ℕ} (hij : i < j) (hj : j ≤ 2 * t.ringCount + 2)
    (h : t.outlinePoint i = t.outlinePoint j) : i = 0 ∧ j = 2 * t.ringCount + 2 := by
  have hinj := ringHeight_injective (one_le_clampRings t.rings.toNat) hh
  have hwalls {a b : ℝ} : (⟨t.outerRadius, a⟩ : Vec2 ℝ) ≠ ⟨t.innerRadius, b⟩ :=
    fun h => ho.ne' (congrArg Vec2.x h)
  rcases t.outlinePoint_cases (hij.le.trans hj) with ⟨_, hp⟩ | ⟨ring, _, hp', hp⟩ | ⟨_, _⟩
  · rcases t.outlinePoint_cases hj with ⟨_, hq⟩ | ⟨_, _, _, hq⟩ | ⟨hlast, hq⟩
    · have heq : i = j := hinj (congrArg Vec2.y ((hp.symm.trans h).trans hq))
      omega
    · exact absurd ((hp.symm.trans h).trans hq) hwalls
    · exact ⟨hinj (congrArg Vec2.y ((hp.symm.trans h).trans hq)), hlast⟩
  · rcases t.outlinePoint_cases hj with ⟨_, _⟩ | ⟨ring', _, hq', hq⟩ | ⟨_, hq⟩
    · omega
    · have heq : ring = ring' := hinj (congrArg Vec2.y ((hp.symm.trans h).trans hq))
      omega
    · exact absurd ((hp.symm.trans h).trans hq).symm hwalls
  · omega

/-- The outline of the tube. -/
noncomputable def outline : Outline where
  size := 2 * t.ringCount + 2
  point := t.outlinePoint
  rising i := decide (t.ringCount ≤ i ∧ i ≤ 2 * t.ringCount)
  nonneg i hsize := by
    rcases t.outlinePoint_cases hsize with ⟨_, hp⟩ | ⟨_, _, _, hp⟩ | ⟨_, hp⟩
    · exact hp ▸ (hi.trans ho).le
    · exact hp ▸ hi.le
    · exact hp ▸ (hi.trans ho).le
  eq_of_point_eq i j hij hj h := by
    have hR : 1 ≤ t.ringCount := one_le_clampRings t.rings.toNat
    obtain ⟨h0, hlast⟩ := outlinePoint_eq ho hh hij hj h
    exact ⟨h0, hlast, by omega⟩
  ends := Or.inl t.outlinePoint_last.symm

variable (t) in
theorem ringHeight_bottom : ringHeight t.height t.ringCount 0 = -t.halfHeight := by
  rw [ringHeight_zero, halfHeight, Scalar.real_two, neg_div]

variable (t) in
theorem ringHeight_top : ringHeight t.height t.ringCount t.ringCount = t.halfHeight :=
  ringHeight_last (one_le_clampRings t.rings.toNat)

/-- The links of the outline: the outer wall, the upper end, the inner wall downward, the lower end. -/
theorem outline_link_outer {ring : ℕ} (h : ring < t.ringCount) :
    (outline hi ho hh).link ring = (t.wall t.outerRadius .radial).link ring :=
  Outline.link_eq (t.outlinePoint_outer h.le) (t.outlinePoint_outer h) (decide_eq_false (by omega))

theorem outline_link_upper :
    (outline hi ho hh).link t.ringCount = t.across t.halfHeight := by
  rw [across, ← ringHeight_top]
  exact Outline.link_eq (t.outlinePoint_outer le_rfl) (t.outlinePoint_inner _ (by omega) le_rfl)
    (decide_eq_true (by omega))

theorem outline_link_inner {ring i : ℕ} (h : ring + i = t.ringCount - 1) (hR : 1 ≤ t.ringCount) :
    (outline hi ho hh).link (t.ringCount + 1 + i) =
      ((t.wall t.innerRadius .radialInward).link ring).reverse :=
  Outline.link_eq (t.outlinePoint_inner (ring + 1) (by omega) (by omega))
    (t.outlinePoint_inner ring (by omega) (by omega)) (decide_eq_true (by omega))

theorem outline_link_lower :
    (outline hi ho hh).link (2 * t.ringCount + 1) = (t.across (-t.halfHeight)).reverse := by
  rw [across, ← ringHeight_bottom]
  exact Outline.link_eq (t.outlinePoint_inner 0 (by omega) (by omega))
    (t.outlinePoint_last.trans (t.outlinePoint_outer (Nat.zero_le _))) (decide_eq_false (by omega))

theorem lt_fullArc_of_isCut (hcut : t.isCut) : t.arc < fullArc := by
  have heps : (0 : ℝ) < Tolerance.epsilon := by
    simp only [Tolerance.epsilon, Scalar.real_ratio]
    positivity
  unfold isCut at hcut
  linarith

variable (harc : t.arc = fullArc)
include harc

theorem not_isCut : ¬t.isCut := fun hcut => (lt_fullArc_of_isCut hcut).ne harc

include hi ho in
/-- Both walls and both ends, in the order in which the outline meets them. -/
theorem properEdges_parts :
    t.mesh.facets.properEdges =
      ∑ ring ∈ Finset.range t.ringCount,
          (((t.wall t.outerRadius .radial).link ring).facets t.arc t.segmentCount).properEdges +
        ((t.across t.halfHeight).facets t.arc t.segmentCount).properEdges +
        ∑ ring ∈ Finset.range t.ringCount,
          (((t.wall t.innerRadius .radialInward).link ring).reverse.facets t.arc
            t.segmentCount).properEdges +
        ((t.across (-t.halfHeight)).reverse.facets t.arc t.segmentCount).properEdges := by
  have hstep := sin_step_pos (harc ▸ Real.two_pi_pos.trans_eq Scalar.real_tau.symm) harc.le
  have hwhole : t.cutFaces = [] := if_neg (not_isCut harc)
  have hnone : Surface.properEdges ([] : Surface (Vec3 ℝ)) = 0 := rfl
  rw [facets_mesh, hwhole, List.flatMap_nil, Surface.properEdges_append, Surface.properEdges_append,
    Surface.properEdges_append, Surface.properEdges_append, hnone, Lattice.properEdges_facets,
    Lattice.properEdges_map_flip, properEdges_endRing_up hi ho hstep, properEdges_endRing_down hi ho hstep,
    add_zero, ← add_assoc, ← add_assoc]
  exact congrArg (· + _) (add_right_comm _ _ _)

theorem properEdges_facets :
    t.mesh.facets.properEdges = (outline hi ho hh).sweptEdges t.segmentCount := by
  have hR : 1 ≤ t.ringCount := one_le_clampRings t.rings.toNat
  have hsize : 2 * t.ringCount + 2 = t.ringCount + 1 + t.ringCount + 1 := by omega
  unfold Outline.sweptEdges
  change _ = ∑ i ∈ Finset.range (2 * t.ringCount + 2), _
  -- cut the outline at its four corners; the inner wall is met from top to bottom
  rw [properEdges_parts hi ho harc, hsize, Finset.sum_range_succ, Finset.sum_range_add,
    Finset.sum_range_succ, show t.ringCount + 1 + t.ringCount = 2 * t.ringCount + 1 by omega,
    outline_link_upper, outline_link_lower, ← Finset.sum_range_reflect (fun ring =>
      (((t.wall t.innerRadius .radialInward).link ring).reverse.facets t.arc
        t.segmentCount).properEdges), harc]
  congr 2
  · refine congrArg (· + _) (Finset.sum_congr rfl fun ring hring => ?_)
    rw [outline_link_outer hi ho hh (Finset.mem_range.mp hring)]
    rfl
  · refine Finset.sum_congr rfl fun i hring => ?_
    rw [outline_link_inner hi ho hh (Nat.sub_add_cancel ?_) hR]
    · rfl
    · exact Nat.le_sub_one_of_lt (Finset.mem_range.mp hring)

include hi ho hh in
/-- A full tube is closed. -/
theorem isClosed_facets : t.mesh.facets.IsClosed :=
  (outline hi ho hh).isClosed (three_le_clampSegments _) (properEdges_facets hi ho hh harc)

end Tube

/-! ### Boxes -/

theorem Box.isClosed_facets {b : Box ℝ} (hx : 0 < b.sides.x) (hy : 0 < b.sides.y)
    (hz : 0 < b.sides.z) : b.mesh.facets.IsClosed := by
  rw [b.facets_mesh]
  have hhalf : (0 : ℝ) < Scalar.half := by norm_num
  exact BoxFace.isClosed_placed (mul_pos hx hhalf) (mul_pos hy hhalf) (mul_pos hz hhalf)

theorem Camera.isClosed_facets {c : Camera ℝ} (hs : 0 < c.scale) : c.mesh.facets.IsClosed := by
  rw [c.facets_mesh]
  exact BoxFace.isClosed_placed hs hs hs

/-! ### Specifications -/

namespace MeshSpec

/-- The specification describes a solid: all lengths are positive, and a tube has a wall and goes all
the way round.  A plane is no solid; for an extrusion it depends on the triangulator. -/
def IsSolid : MeshSpec ℝ → Prop
  | .plane _ => False
  | .box b => 0 < b.sides.x ∧ 0 < b.sides.y ∧ 0 < b.sides.z
  | .camera c => 0 < c.scale
  | .sphere s => 0 < s.radius
  | .cylinder c => 0 < c.radius ∧ 0 < c.height
  | .cone c => 0 < c.radius ∧ 0 < c.height
  | .tube t =>
      0 < t.innerRadius ∧ t.innerRadius < t.outerRadius ∧ 0 < t.height ∧ t.arc = Tube.fullArc
  | .extrudedPolyline _ => False

/-- **Solids have closed surfaces.**  Every triangle is a facet, and when vertices at equal positions
are one corner, every directed edge of the facets with three different corners occurs once, and its
reverse once, whatever the counts are. -/
theorem solid_isClosed {spec : MeshSpec ℝ} (h : spec.IsSolid) (triangulate : Triangulator ℝ) :
    ∃ s, spec.submesh triangulate = .ok s ∧ 3 * s.facets.length = s.indexCount ∧
      s.facets.IsClosed := by
  have hclosed : ∃ s, spec.submesh triangulate = .ok s ∧ s.facets.IsClosed := by
    cases spec with
    | plane _ => exact h.elim
    | box b => exact ⟨_, rfl, Box.isClosed_facets h.1 h.2.1 h.2.2⟩
    | camera c => exact ⟨_, rfl, Camera.isClosed_facets h⟩
    | sphere s => exact ⟨_, rfl, s.isClosed_facets h⟩
    | cylinder c => exact ⟨_, rfl, Cylinder.isClosed_facets h.1 h.2⟩
    | cone c => exact ⟨_, rfl, Cone.isClosed_facets h.1 h.2⟩
    | tube t => exact ⟨_, rfl, Tube.isClosed_facets h.1 h.2.1 h.2.2.1 h.2.2.2⟩
    | extrudedPolyline _ => exact h.elim
  obtain ⟨s, hs, hc⟩ := hclosed
  exact ⟨s, hs, (submesh_complete hs).toIndexed.three_mul_length_facets, hc⟩

/-- A tube of the coarsest resolution is a solid. -/
theorem coarse_tube_isClosed :
    (tube ⟨1, 2, 1, 0, 0, Tube.fullArc⟩ : MeshSpec ℝ).IsSolid ∧
      ∃ s, (tube ⟨1, 2, 1, 0, 0, Tube.fullArc⟩ : MeshSpec ℝ).submesh (fun _ => .ok {}) = .ok s ∧
        3 * s.facets.length = s.indexCount ∧ s.facets.IsClosed := by
  have h : (tube ⟨1, 2, 1, 0, 0, Tube.fullArc⟩ : MeshSpec ℝ).IsSolid :=
    ⟨one_pos, one_lt_two, one_pos, rfl⟩
  exact ⟨h, solid_isClosed h _⟩

end MeshSpec

end TriMesh
