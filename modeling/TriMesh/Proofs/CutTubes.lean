import TriMesh.Proofs.ClosedSolids
import TriMesh.Proofs.OutwardLattices
import TriMesh.Proofs.TubeStitching

/-! # Cut tubes

Where the surface of a tube that stops short of a full turn is closed, with exact scalars.

* Both halves of a cut face span the same area and face along the sweep as they are listed, so the face where
  the sweep begins is turned over and the one where it ends is not (`facets_cutFace_start`,
  `facets_cutFace_stop`).
* With that the tube has the edges of the stitching of its nodes, put in their places
  (`edges_mesh_of_isCut`).  On walls off the axis and over less than a full turn different nodes have different
  places (`nodePlace_injOn`).
* So what the stitching says of nodes holds in space: the surface is closed in one band only, as the cut faces
  pass each line of a wall in one edge and the wall in one for each band (`mesh_isBalanced_iff_of_isCut`). -/

namespace TriMesh

open Grid

/-! ### Cut faces -/

/-- The way the sweep goes at an angle. -/
def tangentAt {α : Type} [Scalar α] (angle : α) : Vec3 α := ⟨Scalar.cos angle, -Scalar.sin angle, 0⟩

theorem dot_tangentAt (angle s s' : ℝ) : (tangentAt angle * s).dot (tangentAt angle * s') = s * s' := by
  simp only [tangentAt, Vec3.dot_eq, Vec3.mul_x, Vec3.mul_y, Vec3.mul_z, Scalar.real_sin, Scalar.real_cos]
  linear_combination s * s' * Real.sin_sq_add_cos_sq angle

namespace Tube

/-- The corners of a cut face, around its perimeter. -/
def cutCorners {α : Type} [Scalar α] (t : Tube α) (angle : α) : Quad (Vec3 α) :=
  ⟨Lattice.onCircle t.outerRadius angle (-t.halfHeight), Lattice.onCircle t.outerRadius angle t.halfHeight,
    Lattice.onCircle t.innerRadius angle t.halfHeight, Lattice.onCircle t.innerRadius angle (-t.halfHeight)⟩

section places
variable (t : Tube ℝ)

theorem faceVector_of_mem_cutCorners (angle : ℝ) :
    ∀ f ∈ (t.cutCorners angle).facets,
      f.faceVector = tangentAt angle * (t.height * (t.outerRadius - t.innerRadius)) := by
  intro f hf
  simp only [Quad.facets, List.mem_cons, List.not_mem_nil, or_false] at hf
  rcases hf with rfl | rfl <;> refine Vec3.ext ?_ ?_ ?_ <;>
    simp only [cutCorners, Facet.faceVector, SubMesh.faceVector, tangentAt, halfHeight, Lattice.onCircle,
      Vec3.cross_x, Vec3.cross_y, Vec3.cross_z, Vec3.sub_x, Vec3.sub_y, Vec3.sub_z, Vec3.mul_x, Vec3.mul_y,
      Vec3.mul_z, Scalar.real_sin, Scalar.real_cos, Scalar.real_two] <;>
    ring

theorem cutFace_eq (angle sign : ℝ) :
    t.cutFace angle sign =
      (t.cutCorners angle).mesh ⟨⟨0, 0⟩, ⟨0, 1⟩, ⟨1, 1⟩, ⟨1, 0⟩⟩ (tangentAt angle * sign) := by
  have hlower (radius : ℝ) : (radialAt angle : Vec3 ℝ) * radius - (Vec3.unitZ : Vec3 ℝ) * t.halfHeight =
      Lattice.onCircle radius angle (-t.halfHeight) := by
    refine Vec3.ext ?_ ?_ ?_ <;> simp [radialAt, Vec3.unitZ, Lattice.onCircle, mul_comm]
  have hupper (radius : ℝ) : (radialAt angle : Vec3 ℝ) * radius + (Vec3.unitZ : Vec3 ℝ) * t.halfHeight =
      Lattice.onCircle radius angle t.halfHeight := by
    refine Vec3.ext ?_ ?_ ?_ <;> simp [radialAt, Vec3.unitZ, Lattice.onCircle, mul_comm]
  unfold cutCorners
  rw [← hlower, ← hlower, ← hupper, ← hupper]
  rfl

theorem facets_cutFace (angle sign : ℝ) :
    (t.cutFace angle sign).facets = (t.cutCorners angle).facets.map (·.turned (tangentAt angle * sign)) := by
  rw [cutFace_eq, Quad.facets_mesh]

section thick
variable {t} (ho : t.innerRadius < t.outerRadius) (hh : 0 < t.height) (angle : ℝ)
include ho hh

/-- Both halves of a cut face go straight along the sweep, as they are listed. -/
theorem exists_area_of_mem_cutCorners {f : Facet (Vec3 ℝ)} (hf : f ∈ (t.cutCorners angle).facets) :
    ∃ area : ℝ, 0 < area ∧ f.faceVector = tangentAt angle * area :=
  ⟨_, mul_pos hh (sub_pos.mpr ho), t.faceVector_of_mem_cutCorners angle f hf⟩

theorem dot_of_mem_cutCorners (sign : ℝ) {f : Facet (Vec3 ℝ)} (hf : f ∈ (t.cutCorners angle).facets) :
    ∃ area > 0, f.faceVector.dot (tangentAt angle * sign) = area * sign := by
  obtain ⟨area, harea, hface⟩ := exists_area_of_mem_cutCorners ho hh angle hf
  exact ⟨area, harea, by rw [hface, dot_tangentAt]⟩

/-- The cut face at the end of the sweep faces along it. -/
theorem facets_cutFace_stop : (t.cutFace angle 1).facets = (t.cutCorners angle).facets := by
  rw [facets_cutFace]
  refine (List.map_congr_left fun f hf => ?_).trans (List.map_id _)
  obtain ⟨area, harea, hdot⟩ := dot_of_mem_cutCorners ho hh angle 1 hf
  exact if_pos (hdot ▸ (mul_pos harea one_pos).le)

/-- The cut face at the start of the sweep faces against it. -/
theorem facets_cutFace_start : (t.cutFace angle (-1)).facets = (t.cutCorners angle).facets.map Facet.flip := by
  rw [facets_cutFace]
  apply List.map_congr_left
  intro f hf
  obtain ⟨area, harea, hdot⟩ := dot_of_mem_cutCorners ho hh angle (-1) hf
  exact if_neg (hdot ▸ (mul_neg_of_pos_of_neg harea (neg_lt_zero.mpr one_pos)).not_ge)

end thick

/-! ### Places -/

/-- The distance of a wall from the axis. -/
def wallRadius (outer : Bool) : ℝ := if outer then t.outerRadius else t.innerRadius

/-- The place of a node. -/
noncomputable def nodePlace (n : WallNode) : Vec3 ℝ :=
  Lattice.onCircle (t.wallRadius n.outer) (Lattice.columnAngle t.arc t.segmentCount n.col)
    (ringHeight t.height t.ringCount n.ring)

theorem facets_wall (outer : Bool) (normal : LatticeNormal ℝ) :
    (t.wall (t.wallRadius outer) normal).mesh.facets =
      (wallFacets t.ringCount t.segmentCount outer).map (Facet.map t.nodePlace) := by
  unfold wallFacets
  rw [Lattice.facets_mesh_eq_facetsOver, Lattice.map_facetsOver]
  rfl

theorem edges_listedRing (ring : ℕ) :
    Surface.edges (t.listedRing (ringHeight t.height t.ringCount ring)) =
      Surface.edges ((endFacets t.segmentCount ring).map (Facet.map t.nodePlace)) := by
  unfold endFacets listedRing
  rw [Lattice.map_facetsOver, Surface.edges_pairs, add_comm]
  unfold Lattice.facetsOver
  rw [List.range_one, List.flatMap_singleton, Surface.edges_pairs]
  congr 1
  apply Surface.edges_of_similar
  rw [List.forall₂_map_left_iff, List.forall₂_map_right_iff, List.forall₂_same]
  exact fun c _ => Or.inr (Or.inr rfl)

theorem facets_cutCorners (col : ℕ) :
    (t.cutCorners (Lattice.columnAngle t.arc t.segmentCount col)).facets =
      (cutFacets t.ringCount col).map (Facet.map t.nodePlace) := by
  unfold cutCorners
  rw [← ringHeight_bottom, ← ringHeight_top]
  rfl

theorem edges_mesh_of_isCut (hi : 0 < t.innerRadius) (ho : t.innerRadius < t.outerRadius) (hh : 0 < t.height)
    (hstep : 0 < Real.sin (t.arc / t.segmentCount)) (hcut : t.isCut) :
    Surface.edges t.mesh.facets =
      Surface.edges ((stitching t.ringCount t.segmentCount).map (Facet.map t.nodePlace)) := by
  have hcuts : t.cutFaces = [t.cutFace 0 (-1), t.cutFace t.arc 1] := if_pos hcut
  have houter : (t.wall t.outerRadius .radial).mesh.facets = _ := t.facets_wall true .radial
  have hinner : (t.wall t.innerRadius .radialInward).mesh.facets = _ := t.facets_wall false .radialInward
  have htop := t.edges_listedRing t.ringCount
  have hbottom := t.edges_listedRing 0
  rw [ringHeight_top] at htop
  rw [ringHeight_bottom] at hbottom
  have hstart := t.facets_cutCorners 0
  have hstop := t.facets_cutCorners t.segmentCount
  rw [Lattice.columnAngle_zero] at hstart
  rw [Lattice.columnAngle_last _ t.segmentCount_ne_zero] at hstop
  rw [facets_mesh, hcuts, List.flatMap_cons, List.flatMap_cons, List.flatMap_nil, facets_endRing_up hi ho hstep,
    facets_endRing_down hi ho hstep, facets_cutFace_start ho hh, facets_cutFace_stop ho hh]
  unfold stitching
  simp only [List.map_append, Surface.map_map_flip, Surface.edges_append, Surface.edges_map_flip, Surface.edges_nil,
    houter, hinner, htop, hbottom, hstart, hstop]
  abel

/-! ### Lines in space -/

/-- The edge runs up or down one of the four lines where the walls end at the cuts. -/
def AlongCut (e : Vec3 ℝ × Vec3 ℝ) : Prop :=
  ∃ radius angle, (radius = t.innerRadius ∨ radius = t.outerRadius) ∧ (angle = 0 ∨ angle = t.arc) ∧
    (∃ z, e.1 = Lattice.onCircle radius angle z) ∧ ∃ z, e.2 = Lattice.onCircle radius angle z

theorem alongCut_iff_exists {e : Vec3 ℝ × Vec3 ℝ} :
    t.AlongCut e ↔ ∃ outer col, (col = 0 ∨ col = t.segmentCount) ∧
      let line := Lattice.onCircle (t.wallRadius outer) (Lattice.columnAngle t.arc t.segmentCount col)
      (∃ z, e.1 = line z) ∧ ∃ z, e.2 = line z := by
  have hfirst := Lattice.columnAngle_zero t.arc t.segmentCount
  have hlast := Lattice.columnAngle_last t.arc t.segmentCount_ne_zero
  constructor
  · rintro ⟨radius, angle, hradius, hangle, hends⟩
    obtain ⟨outer, rfl⟩ : ∃ outer, t.wallRadius outer = radius :=
      hradius.elim (fun h => ⟨false, h.symm⟩) fun h => ⟨true, h.symm⟩
    obtain ⟨col, hcol, rfl⟩ : ∃ col, (col = 0 ∨ col = t.segmentCount) ∧
        Lattice.columnAngle t.arc t.segmentCount col = angle :=
      hangle.elim (fun h => ⟨0, Or.inl rfl, hfirst.trans h.symm⟩)
        fun h => ⟨t.segmentCount, Or.inr rfl, hlast.trans h.symm⟩
    exact ⟨outer, col, hcol, hends⟩
  · rintro ⟨outer, col, hcol, hends⟩
    refine ⟨_, _, ?_, ?_, hends⟩
    · cases outer with
      | false => exact Or.inl rfl
      | true => exact Or.inr rfl
    · rcases hcol with rfl | rfl
      · exact Or.inl hfirst
      · exact Or.inr hlast

end places

section cut
variable {t : Tube ℝ} (hi : 0 < t.innerRadius) (ho : t.innerRadius < t.outerRadius) (harc : 0 < t.arc)
  (hcut : t.isCut)

include hi ho in
theorem wallRadius_pos (outer : Bool) : 0 < t.wallRadius outer := by
  cases outer with
  | false => exact hi
  | true => exact hi.trans ho

include ho in
theorem wallRadius_injective : Function.Injective t.wallRadius := by
  intro outer outer' h
  cases outer <;> cases outer' <;> first | rfl | exact absurd h ho.ne | exact absurd h ho.ne'

include harc in
theorem columnAngle_injective : Function.Injective (Lattice.columnAngle t.arc t.segmentCount) := by
  intro c d h
  have hne : t.arc / t.segmentCount ≠ 0 :=
    div_ne_zero harc.ne' (Nat.cast_ne_zero.mpr t.segmentCount_ne_zero)
  exact Nat.cast_injective (mul_right_cancel₀ hne h)

include harc hcut in
theorem columnAngle_mem {c : ℕ} (hc : c ≤ t.segmentCount) :
    Lattice.columnAngle t.arc t.segmentCount c ∈ Set.Ico 0 (2 * Real.pi) := by
  have hn : (0 : ℝ) < t.segmentCount := Nat.cast_pos.mpr (Nat.pos_of_ne_zero t.segmentCount_ne_zero)
  have hstep : 0 < t.arc / t.segmentCount := div_pos harc hn
  refine ⟨mul_nonneg (Nat.cast_nonneg c) hstep.le, ?_⟩
  calc Lattice.columnAngle t.arc t.segmentCount c
      ≤ Lattice.columnAngle t.arc t.segmentCount t.segmentCount :=
        mul_le_mul_of_nonneg_right (Nat.cast_le.mpr hc) hstep.le
    _ = t.arc := Lattice.columnAngle_last _ t.segmentCount_ne_zero
    _ < fullArc := lt_fullArc_of_isCut hcut
    _ = 2 * Real.pi := Scalar.real_tau

section injective
include hi ho harc hcut

/-- The line on which the place of a node lies tells its wall and its column. -/
theorem exists_nodePlace_eq_iff {n : WallNode} (hn : n.col ≤ t.segmentCount) {outer : Bool} {col : ℕ}
    (hcol : col ≤ t.segmentCount) :
    (∃ z, t.nodePlace n =
      Lattice.onCircle (t.wallRadius outer) (Lattice.columnAngle t.arc t.segmentCount col) z) ↔
      n.outer = outer ∧ n.col = col := by
  constructor
  · rintro ⟨z, hz⟩
    obtain ⟨hwall, hangle, -⟩ := (Lattice.onCircle_eq_iff (wallRadius_pos hi ho n.outer)
      (wallRadius_pos hi ho outer) (columnAngle_mem harc hcut hn) (columnAngle_mem harc hcut hcol)).mp hz
    exact ⟨wallRadius_injective ho hwall, columnAngle_injective harc hangle⟩
  · rintro ⟨rfl, rfl⟩
    exact ⟨_, rfl⟩

/-- Different nodes have different places. -/
theorem nodePlace_injOn (hh : 0 < t.height) : Set.InjOn t.nodePlace {n | n.col ≤ t.segmentCount} := by
  intro n hn m hm h
  obtain ⟨houter, hcol⟩ := (exists_nodePlace_eq_iff hi ho harc hcut hn hm).mp ⟨_, h⟩
  have hring : n.ring = m.ring := ringHeight_injective (one_le_clampRings _) hh (congrArg Vec3.z h)
  obtain ⟨outer, ring, col⟩ := n
  exact WallNode.mk.injEq .. ▸ ⟨houter, hring, hcol⟩

theorem alongCut_iff {e : WallNode × WallNode} (he : e.1.col ≤ t.segmentCount ∧ e.2.col ≤ t.segmentCount) :
    t.AlongCut (Prod.map t.nodePlace t.nodePlace e) ↔ OnCutLine t.segmentCount e := by
  rw [alongCut_iff_exists]
  refine exists₂_congr fun outer col => and_congr_right fun hcol => ?_
  have hle : col ≤ t.segmentCount := by omega
  exact and_congr (exists_nodePlace_eq_iff hi ho harc hcut he.1 hle)
    (exists_nodePlace_eq_iff hi ho harc hcut he.2 hle)

end injective

end cut

/-- **A cut tube is closed only in one band.**  Its surface is closed exactly if both walls have a single band;
otherwise the edges without their reverses are those along the four lines where the walls end at the cuts. -/
theorem mesh_isBalanced_iff_of_isCut {t : Tube ℝ} (hi : 0 < t.innerRadius) (ho : t.innerRadius < t.outerRadius)
    (hh : 0 < t.height) (harc : 0 < t.arc) (hcut : t.isCut) :
    let es := Surface.edges t.mesh.facets
    3 * t.mesh.facets.length = t.mesh.indexCount ∧
      (t.mesh.facets.IsBalanced ↔ t.ringCount = 1) ∧
      (1 < t.ringCount → ∀ e ∈ es, es.count e ≠ es.count e.swap ↔ t.AlongCut e) := by
  intro es
  have hrings : 1 ≤ t.ringCount := one_le_clampRings _
  have hsegments : 1 ≤ t.segmentCount := Nat.pos_of_ne_zero t.segmentCount_ne_zero
  have hedges := t.edges_mesh_of_isCut hi ho hh (sin_step_pos harc (lt_fullArc_of_isCut hcut).le) hcut
  have hcount {d : WallNode × WallNode} (hd : d.1.col ≤ t.segmentCount ∧ d.2.col ≤ t.segmentCount) :
      es.count (Prod.map t.nodePlace t.nodePlace d) =
        (Surface.edges (stitching t.ringCount t.segmentCount)).count d := by
    rw [show es = _ from hedges]
    exact Surface.count_edges_map col_le_of_mem_edges (nodePlace_injOn hi ho harc hcut hh) hd
  have hunmatched (hmany : 1 < t.ringCount) : ∀ e ∈ es, es.count e ≠ es.count e.swap ↔ t.AlongCut e := by
    intro e he
    rw [show es = _ from hedges, Surface.edges_map] at he
    obtain ⟨d, hd, rfl⟩ := Multiset.mem_map.mp he
    have hcols := col_le_of_mem_edges d hd
    have hswap : (Prod.map t.nodePlace t.nodePlace d).swap = Prod.map t.nodePlace t.nodePlace d.swap := rfl
    rw [hswap, hcount hcols, hcount hcols.symm, alongCut_iff hi ho harc hcut hcols]
    exact count_ne_count_swap_iff hsegments hmany hd
  refine ⟨t.mesh_complete.toIndexed.three_mul_length_facets, ⟨fun hclosed => ?_, fun hone => ?_⟩, hunmatched⟩
  · by_contra hne
    have hmany : 1 < t.ringCount := by omega
    have hplumb := plumb_mem_edges hrings hsegments
    have hcols := col_le_of_mem_edges _ hplumb
    have hmem : Prod.map t.nodePlace t.nodePlace (plumb t.ringCount true 0) ∈ es := by
      rw [show es = _ from hedges, Surface.edges_map]
      exact Multiset.mem_map_of_mem _ hplumb
    have hcut : t.AlongCut (Prod.map t.nodePlace t.nodePlace (plumb t.ringCount true 0)) :=
      (alongCut_iff hi ho harc hcut hcols).mpr ⟨true, 0, Or.inl rfl, ⟨rfl, rfl⟩, rfl, rfl⟩
    exact (hunmatched hmany _ hmem).mpr hcut (hclosed _ _)
  · rw [Surface.isBalanced_iff, hedges, hone, ← Surface.isBalanced_iff]
    exact (isBalanced_stitching hsegments).map _

/-- Part of a tube in two bands. -/
theorem two_band_tube_not_isBalanced :
    let t : Tube ℝ := ⟨1, 2, 1, 2, 3, 1⟩
    let es := Surface.edges t.mesh.facets
    (0 < t.innerRadius ∧ t.innerRadius < t.outerRadius ∧ 0 < t.height ∧ 0 < t.arc ∧ t.isCut) ∧
      3 * t.mesh.facets.length = t.mesh.indexCount ∧ ¬t.mesh.facets.IsBalanced ∧
      ∀ e ∈ es, es.count e ≠ es.count e.swap ↔ t.AlongCut e := by
  intro t es
  have htwo : t.ringCount = 2 := rfl
  have hcut : t.isCut := by
    have hpi := Real.two_le_pi
    unfold isCut fullArc
    rw [Scalar.real_tau]
    simp only [t, Tolerance.epsilon, Scalar.real_ratio]
    norm_num
    linarith
  obtain ⟨hcount, hclosed, hunmatched⟩ :=
    mesh_isBalanced_iff_of_isCut (t := t) one_pos one_lt_two one_pos one_pos hcut
  refine ⟨⟨one_pos, one_lt_two, one_pos, one_pos, hcut⟩, hcount, ?_, hunmatched (by omega)⟩
  rw [hclosed]
  omega

end Tube

end TriMesh
