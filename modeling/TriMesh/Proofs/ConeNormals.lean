import TriMesh.Proofs.FaceNormals
import TriMesh.Proofs.OutwardSolids

/-! # Normals of cones

Where the normals of a cone point, for every ring and segment count.

* No triangle of a rising lattice faces toward the axis in its columns, so what its faces bring to a node
  cannot cancel, and one triangle away from the axis is enough (`Lattice.normalSum_dot_pos`).
* Every node of a cone's wall is a corner of a triangle that stands on a ring below the apex, but the last
  column of the apex: its only triangle has collapsed (`Cone.normalSum_seam`).
* The faces of a cap fan give it back the normals that it has (`CapFan.recalculateNormals_mesh`). -/

namespace TriMesh

/-! ### Sums along a direction -/

theorem Vec3.ne_zero_of_dot_pos {v r : Vec3 ℝ} (h : 0 < v.dot r) : v ≠ 0 := by
  rintro rfl
  exact h.ne' (zero_dot r)

theorem Vec3.normalizeOrZero_dot_nonneg {v r : Vec3 ℝ} (h : 0 ≤ v.dot r) : 0 ≤ v.normalizeOrZero.dot r := by
  obtain ⟨c, hc, heq⟩ := exists_normalizeOrZero_eq v
  rw [heq, mul_dot]
  exact mul_nonneg hc.le h

namespace Triangle

variable {places : Array (Vec3 ℝ)} {i : ℕ} {ts : List Triangle}

/-- Shares of which none points against a direction do not cancel along it. -/
theorem normalSum_dot_pos {t : Triangle} {r : Vec3 ℝ} (h : ∀ u ∈ ts, 0 ≤ (u.share places i).dot r)
    (ht : t ∈ ts) (hpos : 0 < (t.share places i).dot r) : 0 < (normalSum places i ts).dot r := by
  have hnonneg : ∀ x ∈ ts.map fun u => (u.share places i).dot r, 0 ≤ x := by
    intro x hx
    obtain ⟨u, hu, rfl⟩ := List.mem_map.mp hx
    exact h u hu
  rw [normalSum, Vec3.sum_dot, List.map_map]
  exact hpos.trans_le (List.single_le_sum hnonneg _ (List.mem_map_of_mem ht))

/-- Triangles that all face one way bring their direction once for each corner. -/
theorem normalSum_of_unitNormal {n : Vec3 ℝ} (h : ∀ t ∈ ts, t.unitNormal places = n) :
    normalSum places i ts = (flatten ts).count i • n := by
  induction ts with
  | nil => exact (zero_nsmul n).symm
  | cons t ts ih =>
      have hcount : (flatten (t :: ts)).count i = t.toList.count i + (flatten ts).count i :=
        List.count_append
      rw [normalSum_cons, ih fun u hu => h u (List.mem_cons_of_mem _ hu), share, h t List.mem_cons_self,
        hcount, add_nsmul]

end Triangle

/-! ### Lattices -/

namespace Lattice

/-- The triangle of a cell with two nodes on its lower ring. -/
def lowerTriangle (segments ring seg : ℕ) : Triangle :=
  ⟨node segments (ring + 1) seg, node segments ring (seg + 1), node segments ring seg⟩

/-- The triangle of a cell with two nodes on its upper ring. -/
def upperTriangle (segments ring seg : ℕ) : Triangle :=
  ⟨node segments (ring + 1) (seg + 1), node segments ring (seg + 1), node segments (ring + 1) seg⟩

theorem mem_triangles {rings segments : ℕ} {t : Triangle} :
    t ∈ triangles rings segments ↔ ∃ ring < rings, ∃ seg < segments,
      t = lowerTriangle segments ring seg ∨ t = upperTriangle segments ring seg := by
  simp only [triangles, cell_eq, lowerTriangle, upperTriangle, List.mem_flatMap, List.mem_range,
    List.mem_cons, List.not_mem_nil, or_false]

section nodes
variable {segments ring seg ring' col : ℕ}

theorem node_mem_lowerTriangle (hseg : seg < segments) (hcol : col ≤ segments) :
    node segments ring' col ∈ (lowerTriangle segments ring seg).toList ↔
      ring' = ring + 1 ∧ col = seg ∨ ring' = ring ∧ col = seg + 1 ∨ ring' = ring ∧ col = seg := by
  simp only [lowerTriangle, Triangle.toList, List.mem_cons, List.not_mem_nil, or_false,
    node_eq_iff hcol hseg.le, node_eq_iff hcol (Nat.succ_le_of_lt hseg)]

theorem node_mem_upperTriangle (hseg : seg < segments) (hcol : col ≤ segments) :
    node segments ring' col ∈ (upperTriangle segments ring seg).toList ↔
      ring' = ring + 1 ∧ col = seg + 1 ∨ ring' = ring ∧ col = seg + 1 ∨ ring' = ring + 1 ∧ col = seg := by
  simp only [upperTriangle, Triangle.toList, List.mem_cons, List.not_mem_nil, or_false,
    node_eq_iff hcol hseg.le, node_eq_iff hcol (Nat.succ_le_of_lt hseg)]

end nodes

section scalar
variable {α : Type} [Scalar α] {l : Lattice α} {ring seg : ℕ} (hring : ring < l.ringCount) (hseg : seg < l.segmentCount)
include hring hseg

theorem unitNormal_lowerTriangle :
    (lowerTriangle l.segmentCount ring seg).unitNormal l.mesh.vertices =
      (lowerFacet l.position ring seg).unitNormal :=
  Triangle.unitNormal_of_facet? (Triangle.facet?_eq (l.getElem?_vertices hring hseg.le)
    (l.getElem?_vertices hring.le hseg) (l.getElem?_vertices hring.le hseg.le))

theorem unitNormal_upperTriangle :
    (upperTriangle l.segmentCount ring seg).unitNormal l.mesh.vertices =
      (upperFacet l.position ring seg).unitNormal :=
  Triangle.unitNormal_of_facet? (Triangle.facet?_eq (l.getElem?_vertices hring hseg)
    (l.getElem?_vertices hring.le hseg) (l.getElem?_vertices hring hseg.le))

end scalar

section rising
variable {l : Lattice ℝ} (hradius : ∀ ring ≤ l.ringCount, 0 ≤ l.radius ring)
  (hrise : ∀ ring < l.ringCount, 0 < l.rise ring) {ring seg ring' col : ℕ} (hcol : col ≤ l.segmentCount)
include hradius hrise hcol

/-- No triangle brings a node anything that points toward the axis. -/
theorem share_dot_nonneg {t : Triangle} (ht : t ∈ l.mesh.triangles) :
    0 ≤ (t.share l.mesh.vertices (node l.segmentCount ring' col)).dot
      (radialAt (columnAngle l.sweep l.segmentCount col)) := by
  by_cases hmem : node l.segmentCount ring' col ∈ t.toList
  · rw [triangles_mesh, mem_triangles] at ht
    rw [Triangle.share, Vec3.nsmul_dot]
    refine mul_nonneg (Nat.cast_nonneg _) ?_
    obtain ⟨ring, hring, seg, hseg, rfl | rfl⟩ := ht
    · rw [node_mem_lowerTriangle hseg hcol] at hmem
      rw [unitNormal_lowerTriangle hring hseg]
      refine Vec3.normalizeOrZero_dot_nonneg ?_
      rw [l.dot_radialAt_lowerFacet ring seg (by omega)]
      exact mul_nonneg (hradius ring hring.le) (hrise ring hring).le
    · rw [node_mem_upperTriangle hseg hcol] at hmem
      rw [unitNormal_upperTriangle hring hseg]
      refine Vec3.normalizeOrZero_dot_nonneg ?_
      rw [l.dot_radialAt_upperFacet ring seg (by omega)]
      exact mul_nonneg (hradius (ring + 1) hring) (hrise ring hring).le
  · rw [Triangle.share_of_notMem hmem, Vec3.zero_dot]

/-- A triangle that stands on a ring off the axis turns the sums at its three nodes outward. -/
theorem normalSum_dot_pos (hring : ring < l.ringCount) (hseg : seg < l.segmentCount)
    (hoff : 0 < l.radius ring)
    (hmem : node l.segmentCount ring' col ∈ (lowerTriangle l.segmentCount ring seg).toList) :
    0 < (Triangle.normalSum l.mesh.vertices (node l.segmentCount ring' col) l.mesh.triangles).dot
      (radialAt (columnAngle l.sweep l.segmentCount col)) := by
  have ht : lowerTriangle l.segmentCount ring seg ∈ l.mesh.triangles := by
    rw [triangles_mesh]
    exact mem_triangles.mpr ⟨ring, hring, seg, hseg, Or.inl rfl⟩
  refine Triangle.normalSum_dot_pos (fun u hu => share_dot_nonneg hradius hrise hcol hu) ht ?_
  rw [Triangle.share, Vec3.nsmul_dot, unitNormal_lowerTriangle hring hseg]
  refine mul_pos (Nat.cast_pos.mpr (List.count_pos_iff.mpr hmem)) (Vec3.normalizeOrZero_dot_pos_iff.mpr ?_)
  rw [node_mem_lowerTriangle hseg hcol] at hmem
  rw [l.dot_radialAt_lowerFacet ring seg (by omega)]
  exact mul_pos hoff (hrise ring hring)

end rising

end Lattice

/-! ### Cap fans -/

namespace CapFan

/-- The direction in which a fan faces. -/
def facing {α : Type} [Scalar α] (up : Bool) : Vec3 α := if up then Vec3.unitZ else Vec3.negUnitZ

theorem dot_self_facing (up : Bool) : (facing up : Vec3 ℝ).dot (facing up) = 1 := by
  cases up <;> simp [facing, Vec3.dot_eq, Vec3.unitZ, Vec3.negUnitZ]

/-- Every vertex of a fan is a corner of one of its triangles. -/
theorem mem_flatten_triangles {n i : ℕ} (hn : 1 ≤ n) (hi : i < n + 2) (up : Bool) :
    i ∈ Triangle.flatten (triangles n up) := by
  -- the center is in the first triangle, the last column in the last one, any other begins its own
  obtain ⟨seg, hseg, hcorner⟩ : ∃ seg < n, i = n + 1 ∨ i = seg ∨ i = seg + 1 := by
    by_cases hcenter : i = n + 1
    · exact ⟨0, hn, Or.inl hcenter⟩
    · by_cases hlast : i = n
      · exact ⟨n - 1, by omega, Or.inr (Or.inr (by omega))⟩
      · exact ⟨i, by omega, Or.inr (Or.inl rfl)⟩
  refine List.mem_flatMap.mpr ⟨_, List.mem_map_of_mem (List.mem_range.mpr hseg), ?_⟩
  cases up
  · simpa [Triangle.toList] using hcorner
  · simpa [Triangle.toList, or_comm] using hcorner

/-- The two columns of a triangle span an area across the axis. -/
theorem faceVector_column (radius z : ℝ) (n c : ℕ) :
    (⟨⟨0, 0, z⟩, spot (Scalar.tau : ℝ) n ⟨radius, z⟩ (c + 1), spot (Scalar.tau : ℝ) n ⟨radius, z⟩ c⟩ :
        Facet (Vec3 ℝ)).faceVector = (Vec3.unitZ : Vec3 ℝ) * (radius ^ 2 * columnSine n) := by
  have hstep := sin_mul_cos_succ_sub n c
  refine Vec3.ext ?_ ?_ ?_ <;>
    simp only [Facet.faceVector, SubMesh.faceVector, spot_tau, Vec3.unitZ, Vec3.cross_x, Vec3.cross_y,
      Vec3.cross_z, Vec3.sub_x, Vec3.sub_y, Vec3.sub_z, Vec3.mul_x, Vec3.mul_y, Vec3.mul_z]
  · ring
  · ring
  · linear_combination -radius ^ 2 * hstep

variable {radius : ℝ} (hr : 0 < radius) (z : ℝ) (segments : ℕ) (up : Bool)
include hr

theorem unitNormal_of_mem_triangles :
    ∀ t ∈ triangles (clampSegments segments) up,
      t.unitNormal (mesh radius z segments up).vertices = facing up := by
  have hsine := columnSine_pos (three_le_clampSegments segments)
  have harea : 0 < radius ^ 2 * columnSine (clampSegments segments) := by positivity
  intro t ht
  obtain ⟨seg, hseg, rfl⟩ := List.mem_map.mp ht
  rw [List.mem_range] at hseg
  let column : Facet (Vec3 ℝ) := ⟨⟨0, 0, z⟩, spot Scalar.tau (clampSegments segments) ⟨radius, z⟩ (seg + 1),
    spot Scalar.tau (clampSegments segments) ⟨radius, z⟩ seg⟩
  have hcenter := getElem?_center radius z segments up
  have hfirst := getElem?_vertices radius z segments up hseg.le
  have hsecond := getElem?_vertices radius z segments up (Nat.succ_le_of_lt hseg)
  have hunit : column.unitNormal = Vec3.unitZ :=
    (congrArg Vec3.normalizeOrZero (faceVector_column radius z _ seg)).trans
      (Vec3.normalizeOrZero_mul_of_unit (dot_self_facing true) harea)
  cases up with
  | false =>
      have hflip : column.flip.unitNormal = Vec3.negUnitZ := by
        rw [column.unitNormal_flip, hunit]
        exact Vec3.ext neg_zero neg_zero rfl
      exact (Triangle.unitNormal_of_facet? (Triangle.facet?_eq hcenter hfirst hsecond)).trans hflip
  | true => exact (Triangle.unitNormal_of_facet? (Triangle.facet?_eq hcenter hsecond hfirst)).trans hunit

/-- The faces of a fan give every vertex the normal that it has. -/
theorem recalculateNormals_mesh :
    (mesh radius z segments up).recalculateNormals = mesh radius z segments up := by
  have hn := three_le_clampSegments segments
  have hnormals : (mesh radius z segments up).recalculateNormals.normals =
      Array.replicate (clampSegments segments + 2) (facing up) := by
    refine Array.ext_getElem? fun i => ?_
    rw [SubMesh.getElem?_normals_recalculateNormals, vertexCount_mesh, triangles_mesh,
      Triangle.normalSum_of_unitNormal (unitNormal_of_mem_triangles hr z segments up),
      Vec3.nsmul_eq_mul_cast, Array.getElem?_replicate]
    by_cases hi : i < clampSegments segments + 2
    · have hcount := List.count_pos_iff.mpr (mem_flatten_triangles (Nat.one_le_of_lt hn) hi up)
      rw [if_pos hi, if_pos hi, Vec3.normalizeOrZero_mul_of_unit (dot_self_facing up) (Nat.cast_pos.mpr hcount)]
    · rw [if_neg hi, if_neg hi]
  exact congrArg (fun ns => { mesh radius z segments up with normals := ns }) hnormals

end CapFan

/-! ### Cones -/

namespace Cone

/-- Normals from the faces forget what the triangles had before. -/
theorem mesh_eq_recalculateNormals {α : Type} [Scalar α] (c : Cone α) :
    c.mesh = c.parts.recalculateNormals := rfl

variable {c : Cone ℝ} (hr : 0 < c.radius) (hh : 0 < c.height)

include hr in
theorem radius_pos {ring : ℕ} (h : ring < c.wall.ringCount) : 0 < c.wall.radius ring :=
  lt_of_le_of_ne (radius_nonneg hr h.le) fun h0 => h.ne ((radius_eq_zero_iff hr ring).mp h0.symm)

include hh in
theorem rise_pos (ring : ℕ) : 0 < c.wall.rise ring := by
  have hrises : c.wall.height (ring + 1) - c.wall.height ring = c.height / clampRings c.rings.toNat := by
    simp only [wall, ringHeight_succ, add_sub_cancel_left]
  have hsine : 0 < Real.sin (c.wall.sweep / c.wall.segmentCount) :=
    sin_step_pos (Real.two_pi_pos.trans_eq Scalar.real_tau.symm) Scalar.real_tau.le (three_le_clampSegments _)
  rw [Lattice.rise, hrises]
  exact mul_pos (div_pos hh (clampRings_cast_pos _)) hsine

include hr hh in
/-- Away from the last column of the apex the faces around a node of the wall turn it outward. -/
theorem normalSum_dot_pos {ring col : ℕ} (hring : ring ≤ c.wall.ringCount)
    (hcol : col ≤ c.wall.segmentCount) (hseam : ¬(ring = c.wall.ringCount ∧ col = c.wall.segmentCount)) :
    0 < (Triangle.normalSum c.wall.mesh.vertices (Lattice.node c.wall.segmentCount ring col)
        c.wall.mesh.triangles).dot
      (radialAt (Lattice.columnAngle c.wall.sweep c.wall.segmentCount col)) := by
  have hR : 1 ≤ c.wall.ringCount := one_le_clampRings _
  have hS : 3 ≤ c.wall.segmentCount := three_le_clampSegments _
  -- a triangle below the apex with this node for a corner
  obtain ⟨band, hband, seg, hseg, hcorner⟩ : ∃ band < c.wall.ringCount, ∃ seg < c.wall.segmentCount,
      ring = band + 1 ∧ col = seg ∨ ring = band ∧ col = seg + 1 ∨ ring = band ∧ col = seg := by
    by_cases htop : ring = c.wall.ringCount
    · exact ⟨ring - 1, by omega, col, by omega, Or.inl (by omega)⟩
    · by_cases hlast : col = c.wall.segmentCount
      · exact ⟨ring, by omega, col - 1, by omega, Or.inr (Or.inl (by omega))⟩
      · exact ⟨ring, by omega, col, by omega, Or.inr (Or.inr ⟨rfl, rfl⟩)⟩
  exact Lattice.normalSum_dot_pos (fun ring h => radius_nonneg hr h) (fun ring _ => rise_pos hh ring) hcol
    hband hseg (radius_pos hr hband) ((Lattice.node_mem_lowerTriangle hseg hcol).mpr hcorner)

/-- The only triangle at the last column of the apex has collapsed. -/
theorem normalSum_seam (c : Cone ℝ) :
    Triangle.normalSum c.wall.mesh.vertices
      (Lattice.node c.wall.segmentCount c.wall.ringCount c.wall.segmentCount) c.wall.mesh.triangles = 0 := by
  refine Triangle.normalSum_eq_zero fun t ht => ?_
  by_cases hmem : Lattice.node c.wall.segmentCount c.wall.ringCount c.wall.segmentCount ∈ t.toList
  · rw [Lattice.triangles_mesh, Lattice.mem_triangles] at ht
    obtain ⟨ring, hring, seg, hseg, rfl | rfl⟩ := ht
    · rw [Lattice.node_mem_lowerTriangle hseg le_rfl] at hmem
      omega
    · rw [Lattice.node_mem_upperTriangle hseg le_rfl] at hmem
      have hapex : c.wall.radius (ring + 1) = 0 := by
        rw [show ring + 1 = c.wall.ringCount by omega]
        exact c.radius_last
      rw [Triangle.share, Lattice.unitNormal_upperTriangle hring hseg, Facet.unitNormal,
        Lattice.faceVector_upperFacet_of_axis hapex, Vec3.normalizeOrZero_zero, smul_zero]
  · exact Triangle.share_of_notMem hmem

include hr in
theorem normals_mesh :
    c.mesh.normals = c.wall.mesh.recalculateNormals.normals ++
      Array.replicate (clampSegments c.segments.toNat + 2) Vec3.negUnitZ := by
  rw [mesh_eq_recalculateNormals]
  unfold parts
  rw [c.wall.mesh_complete.toIndexed.normals_recalculateNormals_append, CapFan.recalculateNormals_mesh hr]
  rfl

theorem size_wall_normals (c : Cone ℝ) : c.wall.mesh.recalculateNormals.normals.size =
    (clampRings c.rings.toNat + 1) * (clampSegments c.segments.toNat + 1) :=
  (SubMesh.size_normals_recalculateNormals _).trans c.wall.vertexCount_mesh

include hr in
/-- A vertex of the wall has the direction of what its faces bring to it. -/
theorem getElem?_normals_side {ring col : ℕ} (hring : ring ≤ c.wall.ringCount)
    (hcol : col ≤ c.wall.segmentCount) :
    c.mesh.normals[Lattice.node c.wall.segmentCount ring col]? =
      some (Triangle.normalSum c.wall.mesh.vertices (Lattice.node c.wall.segmentCount ring col)
        c.wall.mesh.triangles).normalizeOrZero := by
  have hlt := Lattice.node_lt hring hcol
  rw [normals_mesh hr, Array.getElem?_append_left (hlt.trans_eq c.size_wall_normals.symm),
    SubMesh.getElem?_normals_recalculateNormals]
  exact if_pos (hlt.trans_eq c.wall.vertexCount_mesh.symm)

include hr in
theorem getElem?_normals_cap (k : ℕ) :
    c.mesh.normals[(clampRings c.rings.toNat + 1) * (clampSegments c.segments.toNat + 1) + k]? =
      if k < clampSegments c.segments.toNat + 2 then some Vec3.negUnitZ else none := by
  rw [normals_mesh hr, ← c.size_wall_normals, Array.getElem?_append_right (Nat.le_add_right _ _),
    Nat.add_sub_cancel_left, Array.getElem?_replicate]

theorem getElem?_vertices_side (c : Cone ℝ) {ring col : ℕ} (hring : ring ≤ c.wall.ringCount)
    (hcol : col ≤ c.wall.segmentCount) :
    c.mesh.vertices[Lattice.node c.wall.segmentCount ring col]? = some (c.wall.position ring col) := by
  have hlt := (Lattice.node_lt hring hcol).trans_eq c.wall.vertexCount_mesh.symm
  exact (Array.getElem?_append_left hlt).trans (c.wall.getElem?_vertices hring hcol)

/-- **Normals of a cone.**  Over any scalars a cone has the normals of its faces alone.  With exact scalars,
positive radius and positive height, all of them are of length 1, except that of the last column of the apex,
which is zero; those of the wall point away from the axis in their columns, and those of the disc against it. -/
theorem mesh_normals_outward :
    (∀ {α : Type} [Scalar α] (c : Cone α), c.mesh = c.parts.recalculateNormals) ∧
      ∀ c : Cone ℝ, 0 < c.radius → 0 < c.height →
        let R := clampRings c.rings.toNat
        let S := clampSegments c.segments.toNat
        c.mesh.vertices.size = (R + 1) * (S + 1) + (S + 2) ∧
          c.mesh.normals.size = (R + 1) * (S + 1) + (S + 2) ∧
          (∀ i n, c.mesh.normals[i]? = some n → if i = R * (S + 1) + S then n = 0 else n.length = 1) ∧
          (∀ ring ≤ R, ∀ col ≤ S, ∃ n,
            c.mesh.vertices[ring * (S + 1) + col]? = some (c.wall.position ring col) ∧
              c.mesh.normals[ring * (S + 1) + col]? = some n ∧
              (n ≠ 0 → 0 < n.dot (radialAt (Lattice.columnAngle Scalar.tau S col)))) ∧
          ∀ k < S + 2, c.mesh.normals[(R + 1) * (S + 1) + k]? = some Vec3.negUnitZ := by
  refine ⟨mesh_eq_recalculateNormals, fun c hr hh => ?_⟩
  intro R S
  have hseamlt : R * (S + 1) + S < (R + 1) * (S + 1) := Lattice.node_lt le_rfl le_rfl
  have hvertices : c.mesh.vertices.size = (R + 1) * (S + 1) + (S + 2) :=
    Array.size_append.trans (congrArg₂ (· + ·) c.wall.vertexCount_mesh (CapFan.vertexCount_mesh _ _ _ _))
  have hnormals : c.mesh.normals.size = c.mesh.vertices.size :=
    SubMesh.size_normals_recalculateNormals c.parts
  refine ⟨hvertices, hnormals.trans hvertices, fun i n hn => ?_, fun ring hring col hcol => ?_, fun k hk => ?_⟩
  · by_cases hi : i < (R + 1) * (S + 1)
    · obtain ⟨⟨ring, col⟩, ⟨hring, hcol⟩, rfl⟩ :=
        (Lattice.bijOn_node R S 0).surjOn ⟨Nat.zero_le i, hi.trans_eq (Nat.zero_add _).symm⟩
      simp only [Nat.zero_add] at hn hring hcol ⊢
      obtain rfl := Option.some.inj ((getElem?_normals_side hr hring hcol).symm.trans hn)
      have hseam : Lattice.node S ring col = R * (S + 1) + S ↔ ring = R ∧ col = S :=
        Lattice.node_eq_iff hcol le_rfl
      split
      case isTrue h =>
        obtain ⟨rfl, rfl⟩ := hseam.mp h
        exact (congrArg Vec3.normalizeOrZero c.normalSum_seam).trans Vec3.normalizeOrZero_zero
      case isFalse h =>
        exact Vec3.length_normalizeOrZero
          (Vec3.ne_zero_of_dot_pos (normalSum_dot_pos hr hh hring hcol (hseam.not.mp h)))
    · obtain ⟨k, rfl⟩ := Nat.exists_eq_add_of_le (not_lt.mp hi)
      rw [getElem?_normals_cap hr] at hn
      obtain rfl := Option.some.inj (Option.ite_none_right_eq_some.mp hn).2
      rw [if_neg (by omega), Vec3.length]
      exact (congrArg Real.sqrt (CapFan.dot_self_facing false)).trans Real.sqrt_one
  · refine ⟨_, c.getElem?_vertices_side hring hcol, getElem?_normals_side hr hring hcol, fun hne => ?_⟩
    refine Vec3.normalizeOrZero_dot_pos_iff.mpr (normalSum_dot_pos hr hh hring hcol ?_)
    rintro ⟨rfl, rfl⟩
    exact hne ((congrArg Vec3.normalizeOrZero c.normalSum_seam).trans Vec3.normalizeOrZero_zero)
  · exact (getElem?_normals_cap hr k).trans (if_pos hk)

/-- The coarsest cone, of which vertex 7 is the last column of the apex and the disc begins at vertex 8. -/
theorem coarse_cone_normals :
    let c : Cone ℝ := ⟨1, 1, 0, 0⟩
    0 < c.radius ∧ 0 < c.height ∧ c.mesh.vertices.size = 13 ∧ c.mesh.normals.size = 13 ∧
      (∀ i n, c.mesh.normals[i]? = some n → if i = 7 then n = 0 else n.length = 1) ∧
      (∀ ring ≤ 1, ∀ col ≤ 3, ∃ n, c.mesh.vertices[ring * 4 + col]? = some (c.wall.position ring col) ∧
        c.mesh.normals[ring * 4 + col]? = some n ∧
          (n ≠ 0 → 0 < n.dot (radialAt (Lattice.columnAngle Scalar.tau 3 col)))) ∧
      ∀ k < 5, c.mesh.normals[8 + k]? = some Vec3.negUnitZ := by
  intro c
  exact ⟨one_pos, one_pos, mesh_normals_outward.2 c one_pos one_pos⟩

end Cone

end TriMesh
