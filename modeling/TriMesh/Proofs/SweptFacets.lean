import TriMesh.Proofs.Revolution
import TriMesh.Proofs.Generators
import TriMesh.Primitive.Cone
import TriMesh.Primitive.Tube

/-! # Facets of swept submeshes

The triangles of lattices, cap fans and end rings by the positions of their corners.

* A lattice is one link for each band between two rings, with falling diagonals (`facets_mesh`).
* A cap fan is the half of a link between a ring and the center of the cap that has not collapsed.
* The triangles of an end ring are turned to face along the axis or against it; on a tube thicker
  than nothing all of them are turned alike (`facets_endRing_up`, `facets_endRing_down`), and the ring
  is one link between the two walls (`properEdges_endRing_up`, `properEdges_endRing_down`). -/

namespace TriMesh

variable {α : Type} [Scalar α]

/-! ### Lattices -/

namespace Lattice

/-- Radius and height of a ring. -/
def profile (l : Lattice α) (ring : ℕ) : Vec2 α := ⟨l.radius ring, l.height ring⟩

/-- The band above a ring. -/
def link (l : Lattice α) (ring : ℕ) : Link α := ⟨l.profile ring, l.profile (ring + 1), false⟩

theorem getElem?_vertices (l : Lattice α) {ring seg : ℕ} (hr : ring ≤ l.ringCount)
    (hs : seg ≤ l.segmentCount) :
    l.mesh.vertices[node l.segmentCount ring seg]? =
      some (spot l.sweep l.segmentCount (l.profile ring) seg) := by
  have h := getElem?_nodes hr hs
  simp only [mesh, Array.getElem?_map, List.getElem?_toArray, h, Option.map_some]
  rfl

theorem facets_mesh (l : Lattice α) :
    l.mesh.facets =
      (List.range l.ringCount).flatMap fun ring => (l.link ring).facets l.sweep l.segmentCount := by
  unfold SubMesh.facets
  rw [triangles_mesh]
  unfold triangles Link.facets
  rw [List.filterMap_flatMap]
  apply List.flatMap_congr
  intro ring hr
  rw [List.mem_range] at hr
  rw [List.filterMap_flatMap]
  apply List.flatMap_congr
  intro seg hs
  rw [List.mem_range] at hs
  have h00 := l.getElem?_vertices hr.le hs.le
  have h01 := l.getElem?_vertices hr.le (Nat.succ_le_of_lt hs)
  have h10 := l.getElem?_vertices (Nat.succ_le_of_lt hr) hs.le
  have h11 := l.getElem?_vertices (Nat.succ_le_of_lt hr) (Nat.succ_le_of_lt hs)
  rw [cell_eq, List.filterMap_cons_some (Triangle.facet?_eq h10 h01 h00),
    List.filterMap_cons_some (Triangle.facet?_eq h11 h01 h10), List.filterMap_nil]
  rfl

end Lattice

/-! ### Cap fans -/

namespace CapFan

theorem getElem?_vertices (radius z : α) (segments : ℕ) (up : Bool) {seg : ℕ}
    (hs : seg ≤ clampSegments segments) :
    (mesh radius z segments up).vertices[seg]? =
      some (spot Scalar.tau (clampSegments segments) ⟨radius, z⟩ seg) := by
  have hlt : seg < clampSegments segments + 1 := Nat.lt_succ_of_le hs
  simp only [mesh]
  rw [Array.getElem?_push_lt (by simpa using hlt)]
  simp [spot]

theorem spot_center (sweep : ℝ) (columns : ℕ) (z : ℝ) (c : ℕ) :
    spot sweep columns ⟨0, z⟩ c = ⟨0, 0, z⟩ := by
  simp [spot, Lattice.onCircle]

theorem getElem?_center (radius z : α) (segments : ℕ) (up : Bool) :
    (mesh radius z segments up).vertices[clampSegments segments + 1]? = some ⟨0, 0, z⟩ := by
  simp only [mesh]
  rw [Array.getElem?_push, if_pos (by simp)]

theorem facets_mesh (radius z : α) (segments : ℕ) (up : Bool) :
    (mesh radius z segments up).facets =
      (List.range (clampSegments segments)).map fun seg =>
        let p := spot Scalar.tau (clampSegments segments) ⟨radius, z⟩
        if up then ⟨⟨0, 0, z⟩, p (seg + 1), p seg⟩ else ⟨⟨0, 0, z⟩, p seg, p (seg + 1)⟩ := by
  unfold SubMesh.facets
  rw [triangles_mesh]
  unfold triangles
  rw [List.filterMap_map, ← List.filterMap_eq_map]
  apply List.filterMap_congr
  intro seg hs
  rw [List.mem_range] at hs
  have hc := getElem?_center radius z segments up
  have h0 := getElem?_vertices radius z segments up hs.le
  have h1 := getElem?_vertices radius z segments up (Nat.succ_le_of_lt hs)
  cases up with
  | false => exact Triangle.facet?_eq hc h0 h1
  | true => exact Triangle.facet?_eq hc h1 h0

/-- A fan that faces up is what the link to its center sweeps out on its rim. -/
theorem facets_mesh_up (radius z : ℝ) (segments : ℕ) :
    (mesh radius z segments true).facets = (List.range (clampSegments segments)).map
      ((⟨⟨radius, z⟩, ⟨0, z⟩, false⟩ : Link ℝ).onLower Scalar.tau (clampSegments segments)) := by
  rw [facets_mesh]
  apply List.map_congr_left
  intro seg _
  simp only [Link.onLower, if_true, Bool.false_eq_true, if_false, spot_center]

/-- A fan that faces down is what the link from its center sweeps out on its rim. -/
theorem facets_mesh_down (radius z : ℝ) (segments : ℕ) :
    (mesh radius z segments false).facets = (List.range (clampSegments segments)).map fun seg =>
      ((⟨⟨0, z⟩, ⟨radius, z⟩, false⟩ : Link ℝ).onUpper Scalar.tau
        (clampSegments segments) seg).rotate := by
  rw [facets_mesh]
  apply List.map_congr_left
  intro seg _
  simp only [Link.onUpper, Bool.false_eq_true, if_false, spot_center, Facet.rotate]

end CapFan

/-! ### Facets turned to face a given way -/

/-- The facet, turned over if it faces against a direction. -/
def Facet.turned (f : Facet (Vec3 α)) (facing : Vec3 α) : Facet (Vec3 α) :=
  if 0 ≤ (SubMesh.faceVector f.a f.b f.c).dot facing then f else f.flip

theorem Vec3.dot_unitZ (v : Vec3 ℝ) : v.dot unitZ = v.z := by
  simp [dot_eq, unitZ]

theorem Vec3.dot_negUnitZ (v : Vec3 ℝ) : v.dot negUnitZ = -v.z := by
  simp [dot_eq, negUnitZ]

namespace Facet

variable {f : Facet (Vec3 ℝ)}

theorem turned_unitZ (h : (SubMesh.faceVector f.a f.b f.c).dot Vec3.unitZ < 0) :
    f.turned Vec3.unitZ = f.flip := if_neg h.not_ge

theorem turned_negUnitZ (h : (SubMesh.faceVector f.a f.b f.c).dot Vec3.unitZ < 0) :
    f.turned Vec3.negUnitZ = f := by
  refine if_pos ?_
  rw [Vec3.dot_unitZ] at h
  rw [Vec3.dot_negUnitZ]
  exact (neg_pos_of_neg h).le

end Facet

omit [Scalar α] in
theorem SubMesh.corners?_eq (s : SubMesh α) (t : Triangle) :
    s.corners? t = (t.facet? s.vertices).map fun f => (f.a, f.b, f.c) := by
  simp only [corners?, Triangle.facet?, Option.bind_eq_bind, Option.pure_def]
  cases s.vertices[t.a]? <;> cases s.vertices[t.b]? <;> cases s.vertices[t.c]? <;> rfl

theorem SubMesh.facet?_orient {s : SubMesh α} {t : Triangle} {f : Facet (Vec3 α)}
    (h : t.facet? s.vertices = some f) (facing : Vec3 α) :
    (s.orient t facing).facet? s.vertices = some (f.turned facing) := by
  unfold orient Facet.turned
  rw [s.corners?_eq, h]
  simp only [Option.map_some]
  split
  · exact h
  · rw [Triangle.facet?_flip, h]
    rfl

/-- The two halves of a quad, cut along the diagonal from its first corner. -/
def Quad.facets {β : Type} (q : Quad β) : Surface β :=
  [⟨q.first, q.second, q.third⟩, ⟨q.first, q.third, q.fourth⟩]

theorem Quad.facets_mesh (corners : Quad (Vec3 α)) (uvs : Quad (Vec2 α)) (facing : Vec3 α) :
    (corners.mesh uvs facing).facets = corners.facets.map (·.turned facing) := by
  let bare : SubMesh α := ⟨corners.toArray, Array.replicate 4 facing, uvs.toArray, #[]⟩
  have htriangles : (corners.mesh uvs facing).triangles =
      [bare.orient ⟨0, 1, 2⟩ facing, (bare.addFacing ⟨0, 1, 2⟩ facing).orient ⟨0, 2, 3⟩ facing] :=
    SubMesh.triangles_of_flatten rfl
  have hfirst := SubMesh.facet?_orient (s := bare) (t := ⟨0, 1, 2⟩)
    (f := ⟨corners.first, corners.second, corners.third⟩) rfl facing
  have hsecond := SubMesh.facet?_orient (s := bare.addFacing ⟨0, 1, 2⟩ facing) (t := ⟨0, 2, 3⟩)
    (f := ⟨corners.first, corners.third, corners.fourth⟩) rfl facing
  unfold SubMesh.facets
  rw [htriangles]
  exact (List.filterMap_cons_some hfirst).trans (congrArg (List.cons _) (List.filterMap_cons_some hsecond))

/-! ### End rings -/

namespace Tube

/-- The vertices of an end ring before it has triangles. -/
def ringVertices (t : Tube α) (z : α) (facing : Vec3 α) : SubMesh α :=
  { t.endRing z facing with indices := #[] }

theorem triangles_endRing (t : Tube α) (z : α) (facing : Vec3 α) :
    (t.endRing z facing).triangles =
      (ringTriangles t.segmentCount).map fun i => (t.ringVertices z facing).orient i facing :=
  SubMesh.triangles_of_flatten (by
    simp [endRing, ringVertices, SubMesh.addTriangles])

theorem getElem?_vertices (t : Tube α) (z : α) (facing : Vec3 α) {seg : ℕ}
    (hs : seg ≤ t.segmentCount) :
    (t.endRing z facing).vertices[2 * seg]? =
        some (spot t.arc t.segmentCount ⟨t.outerRadius, z⟩ seg) ∧
      (t.endRing z facing).vertices[2 * seg + 1]? =
        some (spot t.arc t.segmentCount ⟨t.innerRadius, z⟩ seg) := by
  have h := getElem?_pairs (spot t.arc t.segmentCount ⟨t.outerRadius, z⟩)
    (spot t.arc t.segmentCount ⟨t.innerRadius, z⟩) (Nat.lt_succ_of_le hs)
  simp only [endRing, SubMesh.addTriangles, List.getElem?_toArray]
  exact h

/-- The facets of an end ring as its triangles are listed, column by column. -/
def listedRing (t : Tube α) (z : α) : Surface (Vec3 α) :=
  (List.range t.segmentCount).flatMap fun seg =>
    let p := spot t.arc t.segmentCount ⟨t.outerRadius, z⟩
    let q := spot t.arc t.segmentCount ⟨t.innerRadius, z⟩
    [⟨p seg, p (seg + 1), q (seg + 1)⟩, ⟨p seg, q (seg + 1), q seg⟩]

theorem facets_endRing (t : Tube α) (z : α) (facing : Vec3 α) :
    (t.endRing z facing).facets = (t.listedRing z).map (·.turned facing) := by
  unfold SubMesh.facets listedRing
  rw [triangles_endRing]
  unfold ringTriangles
  rw [List.map_flatMap, List.map_flatMap, List.filterMap_flatMap]
  apply List.flatMap_congr
  intro seg hs
  rw [List.mem_range] at hs
  obtain ⟨hp0, hq0⟩ := t.getElem?_vertices z facing hs.le
  obtain ⟨hp1, hq1⟩ := t.getElem?_vertices z facing (Nat.succ_le_of_lt hs)
  have hfirst := SubMesh.facet?_orient (s := t.ringVertices z facing)
    (t := ⟨2 * seg, 2 * seg + 2, 2 * seg + 1 + 2⟩) (Triangle.facet?_eq hp0 hp1 hq1) facing
  have hsecond := SubMesh.facet?_orient (s := t.ringVertices z facing)
    (t := ⟨2 * seg, 2 * seg + 1 + 2, 2 * seg + 1⟩) (Triangle.facet?_eq hp0 hq1 hq0) facing
  exact (List.filterMap_cons_some hfirst).trans
    (congrArg (List.cons _) (List.filterMap_cons_some hsecond))

/-- The facets of a tube part by part. -/
theorem facets_mesh (t : Tube α) :
    t.mesh.facets = (t.wall t.outerRadius .radial).mesh.facets ++
      ((t.wall t.innerRadius .radialInward).mesh.facets.map Facet.flip ++
        ((t.endRing t.halfHeight Vec3.unitZ).facets ++ ((t.endRing (-t.halfHeight) Vec3.negUnitZ).facets ++
          t.cutFaces.flatMap SubMesh.facets))) := by
  have houter := (t.wall t.outerRadius .radial).mesh_complete
  have hinner := (t.wall t.innerRadius .radialInward).mesh_complete
  rw [mesh_eq_foldl, houter.facets_foldl_append fun p hp => (t.complete_of_mem_laterParts p hp).toIndexed,
    ← hinner.facets_reverseWinding]
  rfl

/-- The link from the outer to the inner wall at height `z`. -/
def across (t : Tube α) (z : α) : Link α := ⟨⟨t.outerRadius, z⟩, ⟨t.innerRadius, z⟩, true⟩

omit [Scalar α] in
theorem segmentCount_ne_zero (t : Tube α) : t.segmentCount ≠ 0 :=
  (Nat.zero_lt_of_lt (three_le_clampSegments _)).ne'

theorem sin_step_pos {t : Tube ℝ} (h : 0 < t.arc) (hle : t.arc ≤ fullArc) :
    0 < Real.sin (t.arc / t.segmentCount) :=
  TriMesh.sin_step_pos h (hle.trans_eq Scalar.real_tau) (three_le_clampSegments _)

section arc
variable {t : Tube ℝ} (hi : 0 < t.innerRadius) (ho : t.innerRadius < t.outerRadius)
  (hstep : 0 < Real.sin (t.arc / t.segmentCount)) (z : ℝ)
include hi ho hstep

/-- The triangles of an end ring are listed so that they face down. -/
theorem faceVector_dot_unitZ_neg :
    ∀ f ∈ t.listedRing z, (SubMesh.faceVector f.a f.b f.c).dot Vec3.unitZ < 0 := by
  intro f hf
  obtain ⟨c, -, hf⟩ := List.mem_flatMap.mp hf
  have h := Lattice.sin_mul_cos_columnAngle_sub t.arc t.segmentCount c
  -- twice the areas are the radius of the ring with two corners times this
  have hd : 0 < (t.outerRadius - t.innerRadius) * Real.sin (t.arc / t.segmentCount) :=
    mul_pos (sub_pos.mpr ho) hstep
  simp only [List.mem_cons, List.not_mem_nil, or_false] at hf
  rcases hf with rfl | rfl <;>
    simp only [spot, Lattice.onCircle, SubMesh.faceVector, Vec3.dot_eq, Vec3.cross_z, Vec3.unitZ,
      Vec3.sub_x, Vec3.sub_y, Scalar.real_sin, Scalar.real_cos]
  · linear_combination t.outerRadius * (t.outerRadius - t.innerRadius) * h +
      mul_pos (hi.trans ho) hd
  · linear_combination t.innerRadius * (t.outerRadius - t.innerRadius) * h + mul_pos hi hd

/-- The triangles of the upper end ring are all turned over. -/
theorem facets_endRing_up :
    (t.endRing z Vec3.unitZ).facets = (t.listedRing z).map Facet.flip := by
  rw [facets_endRing]
  apply List.map_congr_left
  exact fun f hf => Facet.turned_unitZ (faceVector_dot_unitZ_neg hi ho hstep z f hf)

/-- The triangles of the lower end ring stay as they are listed. -/
theorem facets_endRing_down : (t.endRing z Vec3.negUnitZ).facets = t.listedRing z := by
  rw [facets_endRing]
  refine (List.map_congr_left fun f hf => ?_).trans (List.map_id _)
  exact Facet.turned_negUnitZ (faceVector_dot_unitZ_neg hi ho hstep z f hf)

/-- The upper end ring is the link inward. -/
theorem properEdges_endRing_up :
    (t.endRing z Vec3.unitZ).facets.properEdges =
      ((t.across z).facets t.arc t.segmentCount).properEdges := by
  rw [facets_endRing_up hi ho hstep]
  unfold listedRing Link.facets
  rw [List.map_flatMap, Surface.properEdges_pairs]
  refine (Surface.properEdges_pairs _ _ _).trans ?_
  congr 1
  apply Surface.properEdges_of_similar
  rw [List.forall₂_map_left_iff, List.forall₂_map_right_iff, List.forall₂_same]
  exact fun c _ => Or.inr (Or.inl rfl)

/-- The lower end ring is the link outward. -/
theorem properEdges_endRing_down :
    (t.endRing z Vec3.negUnitZ).facets.properEdges =
      ((t.across z).reverse.facets t.arc t.segmentCount).properEdges := by
  rw [facets_endRing_down hi ho hstep]
  unfold listedRing Link.facets
  rw [Surface.properEdges_pairs, Surface.properEdges_pairs, add_comm]
  congr 1
  apply Surface.properEdges_of_similar
  rw [List.forall₂_map_left_iff, List.forall₂_map_right_iff, List.forall₂_same]
  exact fun c _ => Or.inr (Or.inr rfl)

end arc

end Tube

end TriMesh
