import TriMesh.Proofs.Reals
import TriMesh.Proofs.LatticeTilings
import TriMesh.Proofs.PlaneLayers

/-! # Lattices that face outward

Which way the triangles of a lattice face, with exact scalars.

* Measured along the direction away from the axis, in either of its two columns, the face vector of a triangle
  is the radius of the ring on which it has two corners, times the height of the band, times the sine of the
  step from column to column (`dot_radialAt_lowerFacet`, `dot_radialAt_upperFacet`).  How the radius changes
  from ring to ring does not matter.
* So on rising rings, with steps of less than half a turn, a triangle faces away from the axis unless it stands
  on a ring of radius zero, and there it has collapsed (`SubMesh.addLattice_faces_outward`). -/

namespace TriMesh

/-- The direction away from the axis at an angle. -/
def radialAt {α : Type} [Scalar α] (angle : α) : Vec3 α := ⟨Scalar.sin angle, Scalar.cos angle, 0⟩

namespace Facet

theorem spaceArea_eq_zero_iff {f : Facet (Vec3 ℝ)} : f.spaceArea = 0 ↔ f.faceVector = 0 := by
  rw [spaceArea, Scalar.real_two, div_eq_zero_iff, or_iff_left two_ne_zero]
  constructor
  · intro h
    by_contra hne
    exact (Vec3.length_pos hne).ne' h
  · intro h
    rw [h, Vec3.length, Vec3.dot_eq]
    simp

/-- A facet with two equal corners spans no area. -/
theorem faceVector_of_not_isProper {f : Facet (Vec3 ℝ)} (h : ¬f.IsProper) : f.faceVector = 0 := by
  obtain ⟨a, b, c⟩ := f
  have hequal : a = b ∨ b = c ∨ c = a := by
    simp only [IsProper, not_and_or, not_not] at h
    exact h
  rcases hequal with rfl | rfl | rfl <;> refine Vec3.ext ?_ ?_ ?_ <;>
    simp only [faceVector, SubMesh.faceVector, Vec3.cross_x, Vec3.cross_y, Vec3.cross_z, Vec3.sub_x,
      Vec3.sub_y, Vec3.sub_z, Vec3.zero_x, Vec3.zero_y, Vec3.zero_z] <;>
    ring

end Facet

namespace Lattice

/-! ### Facets between two columns -/

section facets
variable (l : Lattice ℝ) (ring seg : ℕ)

/-- How far both triangles of a cell face away from the axis, for each unit of the radius on which they
stand. -/
noncomputable def rise : ℝ :=
  (l.height (ring + 1) - l.height ring) * Real.sin (l.sweep / l.segmentCount)

theorem dot_radialAt_lowerFacet {col : ℕ} (hcol : col = seg ∨ col = seg + 1) :
    (lowerFacet l.position ring seg).faceVector.dot (radialAt (columnAngle l.sweep l.segmentCount col)) =
      l.radius ring * l.rise ring := by
  have hstep := Real.sin_sub (columnAngle l.sweep l.segmentCount (seg + 1))
    (columnAngle l.sweep l.segmentCount seg)
  rw [columnAngle_succ_sub] at hstep
  rw [rise, hstep]
  rcases hcol with rfl | rfl <;>
    simp only [lowerFacet, position, onCircle, Facet.faceVector, SubMesh.faceVector, radialAt, Vec3.dot_eq,
      Vec3.cross_x, Vec3.cross_y, Vec3.cross_z, Vec3.sub_x, Vec3.sub_y, Vec3.sub_z, Scalar.real_sin,
      Scalar.real_cos] <;>
    ring

theorem dot_radialAt_upperFacet {col : ℕ} (hcol : col = seg ∨ col = seg + 1) :
    (upperFacet l.position ring seg).faceVector.dot (radialAt (columnAngle l.sweep l.segmentCount col)) =
      l.radius (ring + 1) * l.rise ring := by
  have hstep := Real.sin_sub (columnAngle l.sweep l.segmentCount (seg + 1))
    (columnAngle l.sweep l.segmentCount seg)
  rw [columnAngle_succ_sub] at hstep
  rw [rise, hstep]
  rcases hcol with rfl | rfl <;>
    simp only [upperFacet, position, onCircle, Facet.faceVector, SubMesh.faceVector, radialAt, Vec3.dot_eq,
      Vec3.cross_x, Vec3.cross_y, Vec3.cross_z, Vec3.sub_x, Vec3.sub_y, Vec3.sub_z, Scalar.real_sin,
      Scalar.real_cos] <;>
    ring

end facets

/-- The facet has two corners on one ring and one on a neighbouring ring, all in the columns `seg` and
`seg + 1`. -/
def StandsOn {α : Type} [Scalar α] (l : Lattice α) (ring seg : ℕ) (f : Facet (Vec3 α)) : Prop :=
  ∃ other ≤ l.ringCount, (other = ring + 1 ∨ ring = other + 1) ∧ ∃ col, (col = seg ∨ col = seg + 1) ∧
    f.corners.Perm [l.position ring seg, l.position ring (seg + 1), l.position other col]

section outward
variable {l : Lattice ℝ} {ring seg : ℕ}

theorem standsOn_lowerFacet (hring : ring < l.ringCount) :
    l.StandsOn ring seg (lowerFacet l.position ring seg) :=
  ⟨ring + 1, hring, Or.inl rfl, seg, Or.inl rfl, List.reverse_perm [_, _, _]⟩

theorem standsOn_upperFacet (hring : ring < l.ringCount) :
    l.StandsOn (ring + 1) seg (upperFacet l.position ring seg) := by
  refine ⟨ring, hring.le, Or.inr rfl, seg + 1, Or.inr rfl, ?_⟩
  exact (List.reverse_perm [_, _, _]).trans ((List.Perm.swap _ _ _).cons _)

/-- A ring of radius zero is one point, so what stands on it has collapsed. -/
theorem position_of_axis (h : l.radius ring = 0) (seg seg' : ℕ) : l.position ring seg = l.position ring seg' := by
  simp only [position, onCircle, h, zero_mul]

theorem faceVector_lowerFacet_of_axis (h : l.radius ring = 0) (seg : ℕ) :
    (lowerFacet l.position ring seg).faceVector = 0 :=
  Facet.faceVector_of_not_isProper fun hproper => hproper.2.1 (position_of_axis h (seg + 1) seg)

theorem faceVector_upperFacet_of_axis (h : l.radius (ring + 1) = 0) (seg : ℕ) :
    (upperFacet l.position ring seg).faceVector = 0 :=
  Facet.faceVector_of_not_isProper fun hproper => hproper.2.2 (position_of_axis h seg (seg + 1))

theorem rise_pos (hheight : StrictMonoOn l.height (Set.Iic l.ringCount))
    (hstep : 0 < l.sweep / l.segmentCount) (hhalf : l.sweep / l.segmentCount < Real.pi)
    (hring : ring < l.ringCount) : 0 < l.rise ring := by
  have hrising := hheight (Set.mem_Iic.mpr hring.le) (Set.mem_Iic.mpr hring) (Nat.lt_succ_self ring)
  exact mul_pos (sub_pos.mpr hrising) (Real.sin_pos_of_pos_of_lt_pi hstep hhalf)

/-- A facet that faces out in proportion to the radius of a ring, and collapses with it. -/
theorem flat_or_outward {f : Facet (Vec3 ℝ)} {band : ℕ} (hradius : 0 ≤ l.radius ring)
    (hrise : 0 < l.rise band) (hflat : l.radius ring = 0 → f.faceVector = 0)
    (hdot : ∀ col, col = seg ∨ col = seg + 1 →
      f.faceVector.dot (radialAt (columnAngle l.sweep l.segmentCount col)) = l.radius ring * l.rise band) :
    (f.spaceArea = 0 ↔ l.radius ring = 0) ∧
      (f.spaceArea ≠ 0 → ∀ col, col = seg ∨ col = seg + 1 →
        0 < f.faceVector.dot (radialAt (columnAngle l.sweep l.segmentCount col))) := by
  have hiff : f.spaceArea = 0 ↔ l.radius ring = 0 := by
    rw [Facet.spaceArea_eq_zero_iff]
    refine ⟨fun h => ?_, hflat⟩
    have hzero : l.radius ring * l.rise band = 0 := by
      rw [← hdot seg (Or.inl rfl), h, Vec3.dot_eq, Vec3.zero_x, Vec3.zero_y, Vec3.zero_z]
      ring
    exact (mul_eq_zero.mp hzero).resolve_right hrise.ne'
  refine ⟨hiff, fun harea col hcol => ?_⟩
  rw [hdot col hcol]
  exact mul_pos (hradius.lt_of_ne' (hiff.not.mp harea)) hrise

end outward

end Lattice

/-- **A lattice faces away from its axis.**  On rings that rise, of any radii, and with steps of less than
half a turn, a triangle is flat only if it has two corners on a ring of radius zero; otherwise it faces away
from the axis in both of its columns. -/
theorem SubMesh.addLattice_faces_outward {l : Lattice ℝ} (hradius : ∀ ring ≤ l.ringCount, 0 ≤ l.radius ring)
    (hheight : StrictMonoOn l.height (Set.Iic l.ringCount)) (hstep : 0 < l.sweep / l.segmentCount)
    (hhalf : l.sweep / l.segmentCount < Real.pi) (s : SubMesh ℝ) :
    let t := (s.addLattice l).1
    ∃ ts : List Triangle, t.indices = s.indices ++ Triangle.flatten ts ∧
      ∀ i ∈ ts, ∃ f, i.facet? t.vertices = some f ∧
        ∃ ring ≤ l.ringCount, ∃ seg < l.segmentCount, l.StandsOn ring seg f ∧
          (f.spaceArea = 0 ↔ l.radius ring = 0) ∧
          (f.spaceArea ≠ 0 → ∀ col, col = seg ∨ col = seg + 1 →
            0 < f.faceVector.dot (radialAt (Lattice.columnAngle l.sweep l.segmentCount col))) := by
  intro t
  refine ⟨_, s.indices_addLattice l, fun i hi => ?_⟩
  obtain ⟨j, hj, rfl⟩ := List.mem_map.mp hi
  have hplaced := Lattice.map_facet?_triangles fun ring hring seg hseg => l.getElem?_vertices hring hseg
  obtain ⟨f, hf, hfacet⟩ := List.mem_map.mp (hplaced ▸ List.mem_map_of_mem hj)
  have hfound : (j.shift s.vertexCount).facet? t.vertices = some f :=
    (Triangle.facet?_append_shift _ _ _).trans hfacet.symm
  obtain ⟨ring, hring, seg, hseg, hcases⟩ := Lattice.mem_facetsOver.mp hf
  have hrise := Lattice.rise_pos hheight hstep hhalf hring
  rcases hcases with rfl | rfl
  · refine ⟨_, hfound, ring, hring.le, seg, hseg, Lattice.standsOn_lowerFacet hring, ?_⟩
    exact Lattice.flat_or_outward (hradius ring hring.le) hrise (Lattice.faceVector_lowerFacet_of_axis · seg)
      fun col hcol => l.dot_radialAt_lowerFacet ring seg hcol
  · refine ⟨_, hfound, ring + 1, hring, seg, hseg, Lattice.standsOn_upperFacet hring, ?_⟩
    exact Lattice.flat_or_outward (hradius _ hring) hrise (Lattice.faceVector_upperFacet_of_axis · seg)
      fun col hcol => l.dot_radialAt_upperFacet ring seg hcol

/-- Half a turn of the coarsest lattice that tapers to a point: every triangle at the point is flat, every
other one faces out. -/
theorem SubMesh.addLattice_taper_faces_outward :
    let l : Lattice ℝ := ⟨1, 3, Real.pi, fun ring => 1 - ring, fun ring => ring, .radial⟩
    (∀ ring ≤ l.ringCount, 0 ≤ l.radius ring) ∧ StrictMonoOn l.height (Set.Iic l.ringCount) ∧
      0 < l.sweep / l.segmentCount ∧ l.sweep / l.segmentCount < Real.pi ∧
      let t := ((SubMesh.empty : SubMesh ℝ).addLattice l).1
      ∃ ts : List Triangle, t.indices = (SubMesh.empty : SubMesh ℝ).indices ++ Triangle.flatten ts ∧
        ∀ i ∈ ts, ∃ f, i.facet? t.vertices = some f ∧
          ∃ ring ≤ l.ringCount, ∃ seg < l.segmentCount, l.StandsOn ring seg f ∧
            (f.spaceArea = 0 ↔ l.radius ring = 0) ∧
            (f.spaceArea ≠ 0 → ∀ col, col = seg ∨ col = seg + 1 →
              0 < f.faceVector.dot (radialAt (Lattice.columnAngle l.sweep l.segmentCount col))) := by
  intro l
  have hcount : l.ringCount = 1 := rfl
  have hsegments : (l.segmentCount : ℝ) = 3 := by
    have hthree : l.segmentCount = 3 := rfl
    rw [hthree, Nat.cast_ofNat]
  have hradius : ∀ ring ≤ l.ringCount, 0 ≤ l.radius ring := by
    intro ring hring
    have hle : (ring : ℝ) ≤ 1 := Nat.cast_le_one.mpr (hcount ▸ hring)
    exact sub_nonneg.mpr hle
  have hheight : StrictMonoOn l.height (Set.Iic l.ringCount) :=
    fun _ _ _ _ hlt => Nat.cast_lt.mpr hlt
  have hpi := Real.pi_pos
  have hstep : 0 < l.sweep / l.segmentCount := by
    rw [hsegments]
    positivity
  have hhalf : l.sweep / l.segmentCount < Real.pi := by
    rw [hsegments]
    exact div_lt_self hpi (by norm_num)
  exact ⟨hradius, hheight, hstep, hhalf, SubMesh.addLattice_faces_outward hradius hheight hstep hhalf _⟩

end TriMesh
