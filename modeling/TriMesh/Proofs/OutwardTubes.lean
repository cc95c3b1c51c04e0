import TriMesh.Proofs.CutTubes

/-! # Tubes that face away from their material

Which way the triangles of a tube face, and which normals their corners have, with exact scalars.

* A submesh whose triangles face along their normals (`SubMesh.FacesAlongNormals`) stays so when another one is put
  behind it.  Where the normals are a function of the positions only the facets matter.
* The facets of a wall face away from the axis in both of their columns (`Tube.faces_wall`), by the measure of a
  lattice; those of the inner wall are turned over and face the axis.
* End rings face up and down (`Tube.faces_endRing_up`, `Tube.faces_endRing_down`), and cut faces straight out of
  the sweep (`Tube.faces_cutFace_start`, `Tube.faces_cutFace_stop`).
* The tube is these sides one after the other (`Tube.facets_mesh_eq_all`), so all of it faces away from the material
  and along its normals (`Tube.mesh_faces_away`). -/

namespace TriMesh

/-! ### Normals at the corners -/

namespace SubMesh

variable {s t : SubMesh ℝ} {textured : Bool}

/-- Every triangle has its corners and a normal at each of them, and faces along all three normals. -/
def FacesAlongNormals (s : SubMesh ℝ) : Prop :=
  ∀ i ∈ s.triangles, ∃ f ns, i.facet? s.vertices = some f ∧ i.facet? s.normals = some ns ∧
    ∀ n ∈ ns.corners, 0 < f.faceVector.dot n

theorem FacesAlongNormals.append (hcomplete : s.Complete textured) (hs : s.FacesAlongNormals)
    (ht : t.FacesAlongNormals) : (s ++ t).FacesAlongNormals := by
  have hsize : s.normals.size = s.vertices.size := hcomplete.normals
  intro i hi
  rw [hcomplete.toIndexed.triangles_append, List.mem_append, List.mem_map] at hi
  rcases hi with hi | ⟨j, hj, rfl⟩
  · have hbelow := hcomplete.toIndexed.below i hi
    obtain ⟨f, ns, hf, hns, hfaces⟩ := hs i hi
    exact ⟨f, ns, (Triangle.facet?_append_of_below hbelow _).trans hf,
      (Triangle.facet?_append_of_below (hsize ▸ hbelow) _).trans hns, hfaces⟩
  · obtain ⟨f, ns, hf, hns, hfaces⟩ := ht j hj
    refine ⟨f, ns, (Triangle.facet?_append_shift _ _ j).trans hf, ?_, hfaces⟩
    rw [vertexCount, ← hsize]
    exact (Triangle.facet?_append_shift _ _ j).trans hns

/-- Parts put behind a submesh one by one keep their normals. -/
theorem FacesAlongNormals.foldl_append {ps : List (SubMesh ℝ)} (hcomplete : s.Complete textured)
    (hs : s.FacesAlongNormals) (hparts : ∀ p ∈ ps, p.Complete textured ∧ p.FacesAlongNormals) :
    (ps.foldl (· ++ ·) s).FacesAlongNormals := by
  induction ps generalizing s with
  | nil => exact hs
  | cons p ps ih =>
      obtain ⟨⟨hp, hfaces⟩, hparts⟩ := List.forall_mem_cons.mp hparts
      exact ih (hcomplete.append hp) (hs.append hcomplete hfaces) hparts

/-- Where the normals are a function of the positions it is enough to look at the facets. -/
theorem facesAlongNormals_of_map (hcomplete : s.Complete textured) {normal : Vec3 ℝ → Vec3 ℝ}
    (hnormals : s.normals = s.vertices.map normal)
    (hfaces : ∀ f ∈ s.facets, ∀ p ∈ f.corners, 0 < f.faceVector.dot (normal p)) : s.FacesAlongNormals := by
  intro i hi
  obtain ⟨f, hf⟩ := Triangle.exists_facet? (hcomplete.toIndexed.below i hi)
  have hns : i.facet? s.normals = some (f.map normal) := by
    rw [hnormals, Triangle.facet?_map, hf, Option.map_some]
  have hmem : f ∈ s.facets := List.mem_filterMap.mpr ⟨i, hi, hf⟩
  refine ⟨f, f.map normal, hf, hns, fun n hn => ?_⟩
  obtain ⟨p, hp, rfl⟩ : ∃ p ∈ f.corners, normal p = n := List.mem_map.mp hn
  exact hfaces f hmem p hp

theorem facesAlongNormals_of_replicate (hcomplete : s.Complete textured) {k : ℕ} {n : Vec3 ℝ}
    (hnormals : s.normals = Array.replicate k n) (hfaces : ∀ f ∈ s.facets, 0 < f.faceVector.dot n) :
    s.FacesAlongNormals := by
  have hk : k = s.vertices.size := by
    rw [← show s.normals.size = s.vertices.size from hcomplete.normals, hnormals, Array.size_replicate]
  have hmap : s.normals = s.vertices.map fun _ => n := by
    rw [hnormals, hk, Array.map_const']
  exact facesAlongNormals_of_map hcomplete hmap fun f hf _ _ => hfaces f hf

end SubMesh

theorem Facet.forall_mem_corners_flip {β : Type} {f : Facet β} {P : β → Prop} (h : ∀ p ∈ f.corners, P p) :
    ∀ p ∈ f.flip.corners, P p := fun p hp => h p (perm_corners_flip.mem_iff.mp hp)

/-! ### Walls -/

theorem dot_self_radialAt (angle : ℝ) : (radialAt angle).dot (radialAt angle) = 1 := by
  simp only [radialAt, Vec3.dot_eq, Scalar.real_sin, Scalar.real_cos]
  linear_combination Real.sin_sq_add_cos_sq angle

/-- Away from the axis the normals of a radial lattice are the directions away from it. -/
theorem LatticeNormal.radial_at_onCircle {radius : ℝ} (hr : 0 < radius) (angle z : ℝ) :
    LatticeNormal.radial.at (Lattice.onCircle radius angle z) = radialAt angle := by
  have hflat : (⟨radius * Real.sin angle, radius * Real.cos angle, 0⟩ : Vec3 ℝ) = radialAt angle * radius :=
    Vec3.ext (mul_comm _ _) (mul_comm _ _) (zero_mul radius).symm
  refine (congrArg Vec3.normalizeOrZero hflat).trans ?_
  exact Vec3.normalizeOrZero_mul_of_unit (dot_self_radialAt angle) hr

namespace Tube

/-- The corners of the facet are on two neighbouring columns of a wall. -/
def OnWall (t : Tube ℝ) (radius : ℝ) (seg : ℕ) (f : Facet (Vec3 ℝ)) : Prop :=
  ∀ p ∈ f.corners, ∃ col, (col = seg ∨ col = seg + 1) ∧ ∃ ring ≤ t.ringCount,
    p = Lattice.onCircle radius (Lattice.columnAngle t.arc t.segmentCount col)
      (ringHeight t.height t.ringCount ring)

/-- The facet faces away from the axis in both of its columns. -/
def FacesOut (t : Tube ℝ) (seg : ℕ) (f : Facet (Vec3 ℝ)) : Prop :=
  ∀ col, col = seg ∨ col = seg + 1 →
    0 < f.faceVector.dot (radialAt (Lattice.columnAngle t.arc t.segmentCount col))

/-- The facet faces the axis in both of its columns. -/
def FacesIn (t : Tube ℝ) (seg : ℕ) (f : Facet (Vec3 ℝ)) : Prop :=
  ∀ col, col = seg ∨ col = seg + 1 →
    f.faceVector.dot (radialAt (Lattice.columnAngle t.arc t.segmentCount col)) < 0

section faces
variable {t : Tube ℝ} {radius : ℝ} {seg : ℕ} {f : Facet (Vec3 ℝ)}

theorem OnWall.flip (h : t.OnWall radius seg f) : t.OnWall radius seg f.flip := Facet.forall_mem_corners_flip h

theorem FacesOut.flip (h : t.FacesOut seg f) : t.FacesIn seg f.flip := by
  intro col hcol
  rw [Facet.faceVector_flip, Vec3.neg_dot]
  exact neg_lt_zero.mpr (h col hcol)

/-- On a wall that faces out radial normals do too. -/
theorem OnWall.dot_radial (hr : 0 < radius) (hwall : t.OnWall radius seg f) (hout : t.FacesOut seg f) :
    ∀ p ∈ f.corners, 0 < f.faceVector.dot (LatticeNormal.radial.at p) := by
  intro p hp
  obtain ⟨col, hcol, ring, -, rfl⟩ := hwall p hp
  rw [LatticeNormal.radial_at_onCircle hr]
  exact hout col hcol

/-- On a wall that faces in the radial normals turned inward do too. -/
theorem OnWall.dot_radialInward (hr : 0 < radius) (hwall : t.OnWall radius seg f) (hin : t.FacesIn seg f) :
    ∀ p ∈ f.corners, 0 < f.faceVector.dot (LatticeNormal.radialInward.at p) := by
  intro p hp
  obtain ⟨col, hcol, ring, -, rfl⟩ := hwall p hp
  have hnormal : LatticeNormal.radialInward.at (Lattice.onCircle radius
      (Lattice.columnAngle t.arc t.segmentCount col) (ringHeight t.height t.ringCount ring)) = _ :=
    congrArg Neg.neg (LatticeNormal.radial_at_onCircle hr _ _)
  rw [hnormal, Vec3.dot_neg]
  exact neg_pos.mpr (hin col hcol)

/-- The facets of a wall, as a lattice lists them, face away from the axis. -/
theorem faces_wall (hr : 0 < radius) (hh : 0 < t.height) (hstep : 0 < Real.sin (t.arc / t.segmentCount))
    (normal : LatticeNormal ℝ) :
    ∀ f ∈ (t.wall radius normal).mesh.facets,
      ∃ seg < t.segmentCount, t.OnWall radius seg f ∧ t.FacesOut seg f := by
  intro f hf
  have hrise (ring : ℕ) : 0 < (t.wall radius normal).rise ring := by
    have hband : 0 < t.height / t.ringCount := div_pos hh (clampRings_cast_pos _)
    refine mul_pos ?_ hstep
    simp only [wall, ringHeight_succ, add_sub_cancel_left]
    exact hband
  rw [Lattice.facets_mesh_eq_facetsOver] at hf
  obtain ⟨ring, hring, seg, hseg, hcases⟩ := Lattice.mem_facetsOver.mp hf
  have hplace {row col : ℕ} (hrow : row ≤ t.ringCount) (hcol : col = seg ∨ col = seg + 1) :
      ∃ col', (col' = seg ∨ col' = seg + 1) ∧ ∃ ring' ≤ t.ringCount,
        (t.wall radius normal).position row col = Lattice.onCircle radius
          (Lattice.columnAngle t.arc t.segmentCount col') (ringHeight t.height t.ringCount ring') :=
    ⟨col, hcol, row, hrow, rfl⟩
  refine ⟨seg, hseg, ?_, ?_⟩
  · rcases hcases with rfl | rfl <;>
      simp only [OnWall, Facet.corners, Lattice.lowerFacet, Lattice.upperFacet, List.forall_mem_cons,
        List.not_mem_nil, IsEmpty.forall_iff, implies_true, and_true]
    · exact ⟨hplace hring (Or.inl rfl), hplace hring.le (Or.inr rfl), hplace hring.le (Or.inl rfl)⟩
    · exact ⟨hplace hring (Or.inr rfl), hplace hring.le (Or.inr rfl), hplace hring (Or.inl rfl)⟩
  · intro col hcol
    rcases hcases with rfl | rfl
    · exact ((t.wall radius normal).dot_radialAt_lowerFacet ring seg hcol).symm ▸ mul_pos hr (hrise ring)
    · exact ((t.wall radius normal).dot_radialAt_upperFacet ring seg hcol).symm ▸ mul_pos hr (hrise ring)

end faces

/-! ### Ends -/

section ends
variable {t : Tube ℝ} (hi : 0 < t.innerRadius) (ho : t.innerRadius < t.outerRadius)
  (hstep : 0 < Real.sin (t.arc / t.segmentCount)) (z : ℝ)

theorem z_of_mem_listedRing : ∀ f ∈ t.listedRing z, ∀ p ∈ f.corners, p.z = z := by
  intro f hf p hp
  obtain ⟨c, -, hf⟩ := List.mem_flatMap.mp hf
  simp only [List.mem_cons, List.not_mem_nil, or_false] at hf
  rcases hf with rfl | rfl <;> simp only [Facet.corners, List.mem_cons, List.not_mem_nil, or_false] at hp <;>
    rcases hp with rfl | rfl | rfl <;> rfl

include hi ho hstep

theorem z_neg_of_mem_listedRing : ∀ f ∈ t.listedRing z, f.faceVector.z < 0 := by
  intro f hf
  rw [← Vec3.dot_unitZ]
  exact faceVector_dot_unitZ_neg hi ho hstep z f hf

theorem faces_endRing_up :
    ∀ f ∈ (t.endRing z Vec3.unitZ).facets, (∀ p ∈ f.corners, p.z = z) ∧ 0 < f.faceVector.z := by
  rw [facets_endRing_up hi ho hstep]
  refine List.forall_mem_map.mpr fun f hf => ?_
  refine ⟨Facet.forall_mem_corners_flip (z_of_mem_listedRing z f hf), ?_⟩
  rw [Facet.faceVector_flip]
  exact neg_pos.mpr (z_neg_of_mem_listedRing hi ho hstep z f hf)

theorem faces_endRing_down :
    ∀ f ∈ (t.endRing z Vec3.negUnitZ).facets, (∀ p ∈ f.corners, p.z = z) ∧ f.faceVector.z < 0 := by
  rw [facets_endRing_down hi ho hstep]
  exact fun f hf => ⟨z_of_mem_listedRing z f hf, z_neg_of_mem_listedRing hi ho hstep z f hf⟩

end ends

/-! ### Cuts -/

/-- The corners of the facet are on the ends of both walls at an angle. -/
def OnCut (t : Tube ℝ) (angle : ℝ) (f : Facet (Vec3 ℝ)) : Prop :=
  ∀ p ∈ f.corners, ∃ radius z, (radius = t.innerRadius ∨ radius = t.outerRadius) ∧
    (z = -t.halfHeight ∨ z = t.halfHeight) ∧ p = Lattice.onCircle radius angle z

section cuts
variable {t : Tube ℝ} (ho : t.innerRadius < t.outerRadius) (hh : 0 < t.height) (angle : ℝ)

theorem onCut_of_mem_cutCorners : ∀ f ∈ (t.cutCorners angle).facets, t.OnCut angle f := by
  have hplace {radius z : ℝ} (hr : radius = t.innerRadius ∨ radius = t.outerRadius)
      (hz : z = -t.halfHeight ∨ z = t.halfHeight) : ∃ radius' z',
        (radius' = t.innerRadius ∨ radius' = t.outerRadius) ∧ (z' = -t.halfHeight ∨ z' = t.halfHeight) ∧
          Lattice.onCircle radius angle z = Lattice.onCircle radius' angle z' := ⟨radius, z, hr, hz, rfl⟩
  have hol := hplace (Or.inr rfl) (Or.inl rfl)
  have hou := hplace (Or.inr rfl) (Or.inr rfl)
  have hil := hplace (Or.inl rfl) (Or.inl rfl)
  have hiu := hplace (Or.inl rfl) (Or.inr rfl)
  simp only [Quad.facets, cutCorners, OnCut, Facet.corners, List.forall_mem_cons, List.not_mem_nil,
    IsEmpty.forall_iff, implies_true, and_true]
  exact ⟨⟨hol, hou, hiu⟩, hol, hiu, hil⟩

include ho hh

theorem faces_cutFace_stop : ∀ f ∈ (t.cutFace angle 1).facets,
    t.OnCut angle f ∧ ∃ area : ℝ, 0 < area ∧ f.faceVector = tangentAt angle * area := by
  rw [facets_cutFace_stop ho hh]
  exact fun f hf => ⟨onCut_of_mem_cutCorners angle f hf, exists_area_of_mem_cutCorners ho hh angle hf⟩

theorem faces_cutFace_start : ∀ f ∈ (t.cutFace angle (-1)).facets,
    t.OnCut angle f ∧ ∃ area : ℝ, 0 < area ∧ f.faceVector = tangentAt angle * (-area) := by
  rw [facets_cutFace_start ho hh]
  refine List.forall_mem_map.mpr fun f hf => ?_
  obtain ⟨area, harea, hface⟩ := exists_area_of_mem_cutCorners ho hh angle hf
  refine ⟨Facet.forall_mem_corners_flip (onCut_of_mem_cutCorners angle f hf), area, harea, ?_⟩
  rw [Facet.faceVector_flip, hface]
  exact Vec3.ext (mul_neg _ _).symm (mul_neg _ _).symm (mul_neg _ _).symm

end cuts

/-! ### The whole tube -/

/-- The triangles of a tube, sorted by the side on which they lie. -/
structure Sides (α : Type) where
  /-- On the outer wall. -/
  outer : Surface (Vec3 α)
  /-- On the inner wall. -/
  inner : Surface (Vec3 α)
  /-- On the upper end ring. -/
  top : Surface (Vec3 α)
  /-- On the lower end ring. -/
  bottom : Surface (Vec3 α)
  /-- On the cut where the sweep begins. -/
  start : Surface (Vec3 α)
  /-- On the cut where the sweep ends. -/
  stop : Surface (Vec3 α)

/-- The triangles of all sides, in the order in which a tube lists them. -/
def Sides.all {α : Type} (s : Sides α) : Surface (Vec3 α) :=
  s.outer ++ (s.inner ++ (s.top ++ (s.bottom ++ (s.start ++ s.stop))))

/-- The sides of a tube. -/
def sides {α : Type} [Scalar α] (t : Tube α) : Sides α where
  outer := (t.wall t.outerRadius .radial).mesh.facets
  inner := (t.wall t.innerRadius .radialInward).mesh.facets.map Facet.flip
  top := (t.endRing t.halfHeight Vec3.unitZ).facets
  bottom := (t.endRing (-t.halfHeight) Vec3.negUnitZ).facets
  start := if t.isCut then (t.cutFace 0 (-1)).facets else []
  stop := if t.isCut then (t.cutFace t.arc 1).facets else []

theorem facets_mesh_eq_all {α : Type} [Scalar α] (t : Tube α) : t.mesh.facets = t.sides.all := by
  have hcuts : t.cutFaces.flatMap SubMesh.facets = t.sides.start ++ t.sides.stop := by
    unfold cutFaces sides
    split
    · simp only [List.flatMap_cons, List.flatMap_nil, List.append_nil]
    · rfl
  rw [facets_mesh, hcuts]
  rfl

/-- The triangles of the sides are where they belong, and all face away from the material of the tube. -/
structure Sides.FaceAway (s : Sides ℝ) (t : Tube ℝ) : Prop where
  length_outer : s.outer.length = 2 * t.ringCount * t.segmentCount
  length_inner : s.inner.length = 2 * t.ringCount * t.segmentCount
  length_top : s.top.length = 2 * t.segmentCount
  length_bottom : s.bottom.length = 2 * t.segmentCount
  length_start : s.start.length = if t.isCut then 2 else 0
  length_stop : s.stop.length = if t.isCut then 2 else 0
  outer : ∀ f ∈ s.outer, ∃ seg < t.segmentCount, t.OnWall t.outerRadius seg f ∧ t.FacesOut seg f
  inner : ∀ f ∈ s.inner, ∃ seg < t.segmentCount, t.OnWall t.innerRadius seg f ∧ t.FacesIn seg f
  top : ∀ f ∈ s.top, (∀ p ∈ f.corners, p.z = t.halfHeight) ∧ 0 < f.faceVector.z
  bottom : ∀ f ∈ s.bottom, (∀ p ∈ f.corners, p.z = -t.halfHeight) ∧ f.faceVector.z < 0
  /-- Strictly against the sweep. -/
  start : ∀ f ∈ s.start, t.OnCut 0 f ∧ ∃ area : ℝ, 0 < area ∧ f.faceVector = tangentAt (0 : ℝ) * (-area)
  /-- Strictly along the sweep. -/
  stop : ∀ f ∈ s.stop, t.OnCut t.arc f ∧ ∃ area : ℝ, 0 < area ∧ f.faceVector = tangentAt t.arc * area

theorem length_facets_wall (t : Tube ℝ) (radius : ℝ) (normal : LatticeNormal ℝ) :
    (t.wall radius normal).mesh.facets.length = 2 * t.ringCount * t.segmentCount :=
  (t.wall radius normal).length_facets_mesh

theorem length_facets_endRing {α : Type} [Scalar α] (t : Tube α) (z : α) (facing : Vec3 α) :
    (t.endRing z facing).facets.length = 2 * t.segmentCount := by
  rw [facets_endRing, List.length_map, listedRing, length_pairs, List.length_range]

theorem length_facets_cutFace (t : Tube ℝ) (angle sign : ℝ) : (t.cutFace angle sign).facets.length = 2 := by
  rw [facets_cutFace, List.length_map]
  rfl

section whole
variable {t : Tube ℝ} (hi : 0 < t.innerRadius) (ho : t.innerRadius < t.outerRadius) (hh : 0 < t.height)
  (hstep : 0 < Real.sin (t.arc / t.segmentCount))
include hi ho hh hstep

theorem sides_faceAway : t.sides.FaceAway t where
  length_outer := t.length_facets_wall _ _
  length_inner := (List.length_map _).trans (t.length_facets_wall _ _)
  length_top := t.length_facets_endRing _ _
  length_bottom := t.length_facets_endRing _ _
  length_start := by
    unfold sides
    split
    · exact t.length_facets_cutFace _ _
    · rfl
  length_stop := by
    unfold sides
    split
    · exact t.length_facets_cutFace _ _
    · rfl
  outer := faces_wall (hi.trans ho) hh hstep .radial
  inner := by
    refine List.forall_mem_map.mpr fun f hf => ?_
    obtain ⟨seg, hseg, hwall, hout⟩ := faces_wall hi hh hstep .radialInward f hf
    exact ⟨seg, hseg, hwall.flip, hout.flip⟩
  top := faces_endRing_up hi ho hstep t.halfHeight
  bottom := faces_endRing_down hi ho hstep (-t.halfHeight)
  start := by
    unfold sides
    split
    · exact faces_cutFace_start ho hh 0
    · exact List.forall_mem_nil _
  stop := by
    unfold sides
    split
    · exact faces_cutFace_stop ho hh t.arc
    · exact List.forall_mem_nil _

theorem wall_facesAlongNormals : (t.wall t.outerRadius .radial).mesh.FacesAlongNormals := by
  refine SubMesh.facesAlongNormals_of_map (Lattice.mesh_complete _) rfl fun f hf => ?_
  obtain ⟨seg, -, hwall, hout⟩ := (sides_faceAway hi ho hh hstep).outer f hf
  exact hwall.dot_radial (hi.trans ho) hout

theorem reversedWall_facesAlongNormals :
    ((t.wall t.innerRadius .radialInward).mesh.reverseWindingFrom 0).FacesAlongNormals := by
  have hcomplete := (t.wall t.innerRadius .radialInward).mesh_complete
  refine SubMesh.facesAlongNormals_of_map hcomplete.reverseWinding rfl fun f hf => ?_
  rw [hcomplete.facets_reverseWinding] at hf
  obtain ⟨seg, -, hwall, hin⟩ := (sides_faceAway hi ho hh hstep).inner f hf
  exact hwall.dot_radialInward hi hin

theorem endRings_faceAlongNormals :
    (t.endRing t.halfHeight Vec3.unitZ).FacesAlongNormals ∧
      (t.endRing (-t.halfHeight) Vec3.negUnitZ).FacesAlongNormals := by
  have haway := sides_faceAway hi ho hh hstep
  constructor
  · refine SubMesh.facesAlongNormals_of_replicate (t.endRing_complete _ _) rfl fun f hf => ?_
    rw [Vec3.dot_unitZ]
    exact (haway.top f hf).2
  · refine SubMesh.facesAlongNormals_of_replicate (t.endRing_complete _ _) rfl fun f hf => ?_
    rw [Vec3.dot_negUnitZ]
    exact neg_pos.mpr (haway.bottom f hf).2

omit hi hstep in
theorem cutFaces_faceAlongNormals : ∀ p ∈ t.cutFaces, p.FacesAlongNormals := by
  unfold cutFaces
  split
  · simp only [List.forall_mem_cons]
    refine ⟨?_, ?_, List.forall_mem_nil _⟩
    · refine SubMesh.facesAlongNormals_of_replicate (Quad.mesh_complete _ _ _) rfl fun f hf => ?_
      obtain ⟨-, area, harea, hface⟩ := faces_cutFace_start ho hh 0 f hf
      rw [hface]
      exact (dot_tangentAt _ _ _).symm ▸ mul_pos_of_neg_of_neg (neg_lt_zero.mpr harea) (neg_lt_zero.mpr one_pos)
    · refine SubMesh.facesAlongNormals_of_replicate (Quad.mesh_complete _ _ _) rfl fun f hf => ?_
      obtain ⟨-, area, harea, hface⟩ := faces_cutFace_stop ho hh t.arc f hf
      rw [hface]
      exact (dot_tangentAt _ _ _).symm ▸ mul_pos harea one_pos
  · exact List.forall_mem_nil _

theorem mesh_facesAlongNormals : t.mesh.FacesAlongNormals := by
  have hparts : ∀ p ∈ t.laterParts, p.FacesAlongNormals := by
    simp only [laterParts, List.forall_mem_append, List.forall_mem_cons]
    have hrings := endRings_faceAlongNormals hi ho hh hstep
    exact ⟨⟨reversedWall_facesAlongNormals hi ho hh hstep, hrings.1, hrings.2, List.forall_mem_nil _⟩,
      cutFaces_faceAlongNormals ho hh⟩
  rw [mesh_eq_foldl]
  exact (wall_facesAlongNormals hi ho hh hstep).foldl_append (Lattice.mesh_complete _)
    fun p hp => ⟨t.complete_of_mem_laterParts p hp, hparts p hp⟩

end whole

/-- **A tube faces away from its material.**  Its walls face away from the axis and toward it, its end rings up and
down, and the cuts of a tube that stops short of a full turn out of the sweep; and every triangle faces along the
normals of its three corners. -/
theorem mesh_faces_away {t : Tube ℝ} (hi : 0 < t.innerRadius) (ho : t.innerRadius < t.outerRadius)
    (hh : 0 < t.height) (harc : 0 < t.arc) (hle : t.arc ≤ fullArc) :
    3 * t.mesh.facets.length = t.mesh.indexCount ∧ t.mesh.facets = t.sides.all ∧ t.sides.FaceAway t ∧
      t.mesh.FacesAlongNormals := by
  have hstep := sin_step_pos harc hle
  exact ⟨t.mesh_complete.toIndexed.three_mul_length_facets, t.facets_mesh_eq_all, sides_faceAway hi ho hh hstep,
    mesh_facesAlongNormals hi ho hh hstep⟩

/-- A full turn of the coarsest tube, whose steps are a third of a turn. -/
theorem coarse_tube_faces_away :
    let t : Tube ℝ := ⟨1, 2, 1, 1, 3, fullArc⟩
    (0 < t.innerRadius ∧ t.innerRadius < t.outerRadius ∧ 0 < t.height ∧ 0 < t.arc ∧ t.arc ≤ fullArc) ∧
      3 * t.mesh.facets.length = t.mesh.indexCount ∧ t.mesh.facets = t.sides.all ∧ t.sides.FaceAway t ∧
      t.mesh.FacesAlongNormals := by
  intro t
  have harc : 0 < t.arc := Real.two_pi_pos.trans_eq Scalar.real_tau.symm
  exact ⟨⟨one_pos, one_lt_two, one_pos, harc, le_rfl⟩,
    mesh_faces_away (t := t) one_pos one_lt_two one_pos harc le_rfl⟩

end Tube

end TriMesh
