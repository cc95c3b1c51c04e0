import TriMesh.Proofs.OutwardSolids
import TriMesh.Proofs.LatticeTilings

/-! # Volumes of solids

The signed volume of a surface is the sum of what its triangles span with the origin.  Read with exact
scalars, every solid spans a positive volume for all ring and segment counts, but for spheres of a
single band, which lie on the axis and span none (`MeshSpec.solid_signedVolume_pos`).

* What collapses spans nothing, so a surface that faces outward spans a positive volume as soon as one
  of its facets has not collapsed (`Surface.IsOutward.signedVolume_pos_iff`).  That settles the solids
  without a hole by counting.
* The inner wall of a tube faces the origin.  Each link of a full turn spans the same volume in every
  column, and what the sides of a tube span is added up (`Tube.signedVolume_mesh`). -/

namespace TriMesh

namespace Facet

theorem volume_flip (f : Facet (Vec3 ℝ)) : f.flip.volume = -f.volume := by
  simp only [volume, flip, Vec3.dot_eq, Vec3.cross_x, Vec3.cross_y, Vec3.cross_z]
  ring

theorem volume_of_not_isProper {f : Facet (Vec3 ℝ)} (h : ¬f.IsProper) : f.volume = 0 :=
  not_imp_comm.mp isProper_of_volume_ne_zero h

end Facet

/-! ### Signed volumes -/

namespace Surface

/-- The volume inside a closed surface, positive if it faces outward. -/
noncomputable def signedVolume (fs : Surface (Vec3 ℝ)) : ℝ := (fs.map fun f => f.volume / 6).sum

variable {fs gs : Surface (Vec3 ℝ)}

theorem signedVolume_cons (f : Facet (Vec3 ℝ)) (fs : Surface (Vec3 ℝ)) :
    signedVolume (f :: fs) = f.volume / 6 + fs.signedVolume := by
  simp only [signedVolume, List.map_cons, List.sum_cons]

theorem signedVolume_append : signedVolume (fs ++ gs) = fs.signedVolume + gs.signedVolume := by
  simp only [signedVolume, List.map_append, List.sum_append]

/-- A surface turned inside out. -/
theorem signedVolume_map_flip : signedVolume (fs.map Facet.flip) = -fs.signedVolume := by
  induction fs with
  | nil => simp [signedVolume]
  | cons f fs ih =>
      rw [List.map_cons, signedVolume_cons, signedVolume_cons, ih, f.volume_flip]
      ring

/-- Parts of equal volume. -/
theorem signedVolume_flatMap {ι : Type} {F : ι → Surface (Vec3 ℝ)} {l : List ι} {v : ℝ}
    (h : ∀ i ∈ l, (F i).signedVolume = v) : signedVolume (l.flatMap F) = l.length * v := by
  induction l with
  | nil => simp [signedVolume]
  | cons i l ih =>
      have hl := ih fun j hj => h j (List.mem_cons_of_mem _ hj)
      rw [List.flatMap_cons, signedVolume_append, hl, h i List.mem_cons_self, List.length_cons]
      push_cast
      ring

/-- Every facet that has not collapsed spans a positive volume, the others none. -/
theorem IsOutward.volume_nonneg (h : fs.IsOutward) : ∀ f ∈ fs, 0 ≤ f.volume := by
  intro f hf
  by_cases hproper : f.IsProper
  · exact (h f hf hproper).le
  · exact (Facet.volume_of_not_isProper hproper).ge

theorem IsOutward.signedVolume_nonneg (h : fs.IsOutward) : 0 ≤ fs.signedVolume := by
  refine List.sum_nonneg fun x hx => ?_
  obtain ⟨f, hf, rfl⟩ := List.mem_map.mp hx
  exact div_nonneg (h.volume_nonneg f hf) (by norm_num)

theorem IsOutward.signedVolume_pos_iff (h : fs.IsOutward) :
    0 < fs.signedVolume ↔ fs.collapsed < fs.length := by
  induction fs with
  | nil => simp [signedVolume, collapsed]
  | cons f fs ih =>
      have htail : Surface.IsOutward fs := fun g hg => h g (List.mem_cons_of_mem _ hg)
      have hsum := htail.signedVolume_nonneg
      have hle : collapsed fs ≤ fs.length := List.countP_le_length
      have hih := ih htail
      rw [signedVolume_cons]
      by_cases hproper : f.IsProper
      · have hvolume := h f List.mem_cons_self hproper
        have hcollapsed : collapsed (f :: fs) = collapsed fs :=
          List.countP_cons_of_neg (by simpa using hproper)
        rw [hcollapsed, List.length_cons]
        exact iff_of_true (by positivity) (Nat.lt_succ_of_le hle)
      · have hcollapsed : collapsed (f :: fs) = collapsed fs + 1 :=
          List.countP_cons_of_pos (by simpa using hproper)
        rw [hcollapsed, List.length_cons, Facet.volume_of_not_isProper hproper, zero_div, zero_add, hih,
          Nat.add_lt_add_iff_right]

end Surface

/-! ### Boxes -/

/-- Twelve triangles, each of which spans a twelfth of the box. -/
theorem BoxFace.signedVolume_placed (half : Vec3 ℝ) :
    Surface.signedVolume (numbered.map (Facet.map (place half))) = 8 * (half.x * half.y * half.z) := by
  have hsingle (f : Facet ℕ) (hf : f ∈ numbered) :
      Surface.signedVolume [f.map (place half)] = 2 / 3 * (half.x * half.y * half.z) := by
    rw [Surface.signedVolume_cons, volume_placed half hf]
    simp only [Surface.signedVolume, List.map_nil, List.sum_nil]
    ring
  have hlength : numbered.length = 12 := by decide +kernel
  rw [List.map_eq_flatMap, Surface.signedVolume_flatMap hsingle, hlength]
  push_cast
  ring

theorem Box.signedVolume_mesh (b : Box ℝ) :
    b.mesh.facets.signedVolume = b.sides.x * b.sides.y * b.sides.z := by
  rw [facets_mesh, BoxFace.signedVolume_placed]
  simp only [Vec3.mul_x, Vec3.mul_y, Vec3.mul_z, Scalar.real_half]
  ring

theorem Box.signedVolume_pos {b : Box ℝ} (hx : 0 < b.sides.x) (hy : 0 < b.sides.y) (hz : 0 < b.sides.z) :
    0 < b.mesh.facets.signedVolume := by
  rw [b.signedVolume_mesh]
  positivity

theorem Camera.signedVolume_mesh (c : Camera ℝ) : c.mesh.facets.signedVolume = 8 * c.scale ^ 3 := by
  rw [facets_mesh, BoxFace.signedVolume_placed]
  simp only [Vec3.splat]
  ring

theorem Camera.signedVolume_pos {c : Camera ℝ} (h : 0 < c.scale) : 0 < c.mesh.facets.signedVolume := by
  rw [c.signedVolume_mesh]
  positivity

/-! ### Spheres, cylinders and cones -/

theorem Lattice.length_facets_pos (l : Lattice ℝ) : 0 < l.mesh.facets.length := by
  have hR : 0 < l.ringCount := one_le_clampRings _
  have hS : 0 < l.segmentCount := Nat.zero_lt_of_lt (three_le_clampSegments _)
  rw [l.length_facets_mesh]
  positivity

/-- In a sphere of one band everything collapses, and only there. -/
theorem Sphere.signedVolume_pos_iff {s : Sphere ℝ} (hr : 0 < s.radius) :
    0 < s.mesh.facets.signedVolume ↔ 1 < s.rings.toNat := by
  have hS := three_le_clampSegments s.segments.toNat
  have hlength : s.mesh.facets.length = 2 * clampRings s.rings.toNat * clampSegments s.segments.toNat :=
    s.lattice.length_facets_mesh
  rw [(isOutward_facets hr).signedVolume_pos_iff, collapsed_facets hr, hlength, Nat.mul_lt_mul_right (by omega)]
  unfold clampRings minRings
  omega

theorem Lattice.exists_of_mem_vertices {l : Lattice ℝ} {v : Vec3 ℝ} (h : v ∈ l.mesh.vertices) :
    ∃ ring ≤ l.ringCount, ∃ seg, v = l.position ring seg := by
  simp only [mesh, nodes, List.map_toArray, List.mem_toArray, List.mem_map, List.mem_flatMap,
    List.mem_range] at h
  obtain ⟨n, ⟨ring, hring, seg, -, rfl⟩, rfl⟩ := h
  exact ⟨ring, Nat.le_of_lt_succ hring, seg, rfl⟩

/-- A band from pole to pole has no ring between them, so that it lies on the axis. -/
theorem Sphere.on_axis {s : Sphere ℝ} (hr : 0 < s.radius) (h : s.rings.toNat ≤ 1) :
    ∀ v ∈ s.mesh.vertices, v.x = 0 ∧ v.y = 0 := by
  intro v hv
  obtain ⟨ring, hring, seg, rfl⟩ := Lattice.exists_of_mem_vertices hv
  have hcount : s.lattice.ringCount = 1 := max_eq_right h
  have hzero : s.lattice.radius ring = 0 := (radius_eq_zero_iff hr hring).mpr (by omega)
  simp [Lattice.position, Lattice.onCircle, hzero]

theorem Cylinder.signedVolume_pos {c : Cylinder ℝ} (hr : 0 < c.radius) (hh : 0 < c.height) :
    0 < c.mesh.facets.signedVolume := by
  obtain ⟨houtward, hcollapsed⟩ := Surface.isOutward_of_pos (volume_pos hr hh)
  have hwall := c.wall.mesh_complete
  have hcap := CapFan.mesh_complete c.radius (c.height / Scalar.two) c.segments.toNat true
  rw [houtward.signedVolume_pos_iff, hcollapsed]
  unfold mesh
  rw [(hwall.append hcap).facets_append, hwall.facets_append, List.length_append, List.length_append,
    add_assoc]
  exact Nat.add_pos_left c.wall.length_facets_pos _

/-- What collapses at the apex is no more than the base has facets. -/
theorem Cone.signedVolume_pos {c : Cone ℝ} (hr : 0 < c.radius) (hh : 0 < c.height) :
    0 < c.mesh.facets.signedVolume := by
  rw [(isOutward_facets hr hh).signedVolume_pos_iff, collapsed_facets hr hh, facets_mesh]
  unfold parts
  rw [c.wall.mesh_complete.facets_append, List.length_append, CapFan.facets_mesh, List.length_map,
    List.length_range]
  exact Nat.lt_add_of_pos_left c.wall.length_facets_pos

/-! ### Tubes -/

/-- A link spans the same volume in every column of a full turn. -/
theorem Link.signedVolume_facets {l : Link ℝ} (hl : l.rising = false) (n : ℕ) :
    Surface.signedVolume (l.facets (Scalar.tau : ℝ) n) =
      n * ((l.lower.x + l.upper.x) * columnSine n * l.lower.perpDot l.upper / 6) := by
  unfold facets
  rw [Surface.signedVolume_flatMap fun c _ => ?_, List.length_range]
  simp only [Surface.signedVolume, List.map_cons, List.map_nil, List.sum_cons, List.sum_nil,
    volume_onLower hl, volume_onUpper hl]
  ring

namespace Tube

variable {t : Tube ℝ}

/-- A cylinder of the given radius, without its caps, spans two thirds of its volume. -/
theorem signedVolume_wall (harc : t.arc = fullArc) (radius : ℝ) (normal : LatticeNormal ℝ) :
    (t.wall radius normal).mesh.facets.signedVolume =
      t.segmentCount * columnSine t.segmentCount * t.height * radius ^ 2 / 3 := by
  have hR : (t.ringCount : ℝ) ≠ 0 := (clampRings_cast_pos t.rings.toNat).ne'
  have hlink (ring : ℕ) : Surface.signedVolume (((t.wall radius normal).link ring).facets
      (t.wall radius normal).sweep (t.wall radius normal).segmentCount) =
        t.segmentCount * ((radius + radius) * columnSine t.segmentCount *
          (radius * (t.height / t.ringCount)) / 6) := by
    have hperp : ((t.wall radius normal).profile ring).perpDot ((t.wall radius normal).profile (ring + 1)) =
        radius * (t.height / t.ringCount) := by
      rw [Vec2.perpDot_eq]
      simp only [Lattice.profile, wall, ringHeight_succ]
      ring
    have hsweep : (t.wall radius normal).sweep = Scalar.tau := harc
    rw [hsweep, Link.signedVolume_facets rfl, ← hperp]
    rfl
  rw [Lattice.facets_mesh, Surface.signedVolume_flatMap fun ring _ => hlink ring, List.length_range]
  change (t.ringCount : ℝ) * _ = _
  field_simp
  ring

/-- The triangles of an end ring as they are listed span the cone from the origin over the ring. -/
theorem signedVolume_listedRing (harc : t.arc = fullArc) (z : ℝ) :
    (t.listedRing z).signedVolume =
      -(t.segmentCount * columnSine t.segmentCount * z * (t.outerRadius ^ 2 - t.innerRadius ^ 2) / 6) := by
  have hcolumn (c : ℕ) : Surface.signedVolume
      [⟨spot t.arc t.segmentCount ⟨t.outerRadius, z⟩ c, spot t.arc t.segmentCount ⟨t.outerRadius, z⟩ (c + 1),
          spot t.arc t.segmentCount ⟨t.innerRadius, z⟩ (c + 1)⟩,
        ⟨spot t.arc t.segmentCount ⟨t.outerRadius, z⟩ c, spot t.arc t.segmentCount ⟨t.innerRadius, z⟩ (c + 1),
          spot t.arc t.segmentCount ⟨t.innerRadius, z⟩ c⟩] =
        -(columnSine t.segmentCount * z * (t.outerRadius ^ 2 - t.innerRadius ^ 2) / 6) := by
    have h := sin_mul_cos_succ_sub t.segmentCount c
    rw [harc]
    simp only [Surface.signedVolume, List.map_cons, List.map_nil, List.sum_cons, List.sum_nil, fullArc,
      spot_tau, Facet.volume, Vec3.dot_eq, Vec3.cross_x, Vec3.cross_y, Vec3.cross_z]
    linear_combination z * (t.outerRadius ^ 2 - t.innerRadius ^ 2) / 6 * h
  unfold listedRing
  rw [Surface.signedVolume_flatMap fun c _ => hcolumn c, List.length_range]
  ring

section solid
variable (hi : 0 < t.innerRadius) (ho : t.innerRadius < t.outerRadius) (harc : t.arc = fullArc)
include hi ho harc

/-- A tube spans its height times the difference of two regular polygons. -/
theorem signedVolume_mesh :
    t.mesh.facets.signedVolume = t.segmentCount * columnSine t.segmentCount * t.height *
      (t.outerRadius ^ 2 - t.innerRadius ^ 2) / 2 := by
  have hstep := sin_step_pos (harc ▸ Real.two_pi_pos.trans_eq Scalar.real_tau.symm) harc.le
  have hwhole : t.cutFaces = [] := if_neg (not_isCut harc)
  have hhalf : t.halfHeight = t.height / 2 := by rw [halfHeight, Scalar.real_two]
  rw [facets_mesh, hwhole, List.flatMap_nil, List.append_nil, Surface.signedVolume_append,
    Surface.signedVolume_append, Surface.signedVolume_append, Surface.signedVolume_map_flip,
    facets_endRing_up hi ho hstep, facets_endRing_down hi ho hstep, Surface.signedVolume_map_flip,
    signedVolume_wall harc, signedVolume_wall harc, signedVolume_listedRing harc,
    signedVolume_listedRing harc, hhalf]
  ring

theorem signedVolume_pos (hh : 0 < t.height) : 0 < t.mesh.facets.signedVolume := by
  have hn : 3 ≤ t.segmentCount := three_le_clampSegments _
  have hcolumns : (0 : ℝ) < t.segmentCount := Nat.cast_pos.mpr (by omega)
  have hsine := columnSine_pos hn
  have hsquares : 0 < t.outerRadius ^ 2 - t.innerRadius ^ 2 := by nlinarith
  rw [signedVolume_mesh hi ho harc]
  positivity

end solid

end Tube

/-! ### Specifications -/

namespace MeshSpec

/-- A sphere of a single band, from pole to pole, whose vertices all lie on the axis
(`IsSpindle.on_axis`). -/
def IsSpindle {α : Type} : MeshSpec α → Prop
  | .sphere s => s.rings.toNat ≤ 1
  | _ => False

/-- A spindle lies on the axis. -/
theorem IsSpindle.on_axis {spec : MeshSpec ℝ} (hspindle : spec.IsSpindle) (h : spec.IsSolid)
    {triangulate : Triangulator ℝ} {s : SubMesh ℝ} (hs : spec.submesh triangulate = .ok s) :
    ∀ v ∈ s.vertices, v.x = 0 ∧ v.y = 0 := by
  cases spec with
  | sphere sphere =>
      cases hs
      exact Sphere.on_axis h hspindle
  | _ => exact hspindle.elim

/-- **Solids span a positive volume.**  Every triangle is a facet, and what all of them span is positive
for every ring and segment count, except that a sphere of at most one ring lies on the axis and spans
nothing. -/
theorem solid_signedVolume_pos {spec : MeshSpec ℝ} (h : spec.IsSolid) (triangulate : Triangulator ℝ) :
    ∃ s, spec.submesh triangulate = .ok s ∧ 3 * s.facets.length = s.indexCount ∧
      (¬spec.IsSpindle → 0 < s.facets.signedVolume) ∧
      (spec.IsSpindle → s.facets.signedVolume = 0 ∧ ∀ v ∈ s.vertices, v.x = 0 ∧ v.y = 0) := by
  have hvolume : ∃ s, spec.submesh triangulate = .ok s ∧ 0 ≤ s.facets.signedVolume ∧
      (0 < s.facets.signedVolume ↔ ¬spec.IsSpindle) := by
    have hspans {v : ℝ} (hpos : 0 < v) : 0 ≤ v ∧ (0 < v ↔ ¬False) := ⟨hpos.le, iff_of_true hpos not_false⟩
    cases spec with
    | plane _ => exact h.elim
    | box b => exact ⟨_, rfl, hspans (Box.signedVolume_pos h.1 h.2.1 h.2.2)⟩
    | camera c => exact ⟨_, rfl, hspans (Camera.signedVolume_pos h)⟩
    | sphere s =>
        exact ⟨_, rfl, (Sphere.isOutward_facets h).signedVolume_nonneg,
          (Sphere.signedVolume_pos_iff h).trans not_le.symm⟩
    | cylinder c => exact ⟨_, rfl, hspans (Cylinder.signedVolume_pos h.1 h.2)⟩
    | cone c => exact ⟨_, rfl, hspans (Cone.signedVolume_pos h.1 h.2)⟩
    | tube t => exact ⟨_, rfl, hspans (Tube.signedVolume_pos h.1 h.2.1 h.2.2.2 h.2.2.1)⟩
    | extrudedPolyline _ => exact h.elim
  obtain ⟨s, hs, hnonneg, hiff⟩ := hvolume
  refine ⟨s, hs, (submesh_complete hs).toIndexed.three_mul_length_facets, hiff.mpr, fun hflat =>
    ⟨?_, hflat.on_axis h hs⟩⟩
  exact le_antisymm (not_lt.mp fun hpos => hiff.mp hpos hflat) hnonneg

/-- Two bands are the fewest with which a sphere spans a volume. -/
theorem coarse_sphere_signedVolume_pos :
    (sphere ⟨1, 2, 0⟩ : MeshSpec ℝ).IsSolid ∧ ¬(sphere ⟨1, 2, 0⟩ : MeshSpec ℝ).IsSpindle ∧
      ∃ s, (sphere ⟨1, 2, 0⟩ : MeshSpec ℝ).submesh (fun _ => .ok {}) = .ok s ∧
        3 * s.facets.length = s.indexCount ∧ 0 < s.facets.signedVolume := by
  have h : (sphere ⟨1, 2, 0⟩ : MeshSpec ℝ).IsSolid := one_pos
  have htwo : ¬(sphere ⟨1, 2, 0⟩ : MeshSpec ℝ).IsSpindle := (by decide : ¬(2 : UInt32).toNat ≤ 1)
  obtain ⟨s, hs, hfacets, hpos, -⟩ := solid_signedVolume_pos h fun _ => .ok {}
  exact ⟨h, htwo, s, hs, hfacets, hpos htwo⟩

/-- A count of zero becomes one band, and the six triangles of that sphere span nothing. -/
theorem spindle_spans_nothing :
    (sphere ⟨1, 0, 0⟩ : MeshSpec ℝ).IsSolid ∧
      ∃ s, (sphere ⟨1, 0, 0⟩ : MeshSpec ℝ).submesh (fun _ => .ok {}) = .ok s ∧
        3 * s.facets.length = s.indexCount ∧ s.facets.length = 6 ∧ ¬0 < s.facets.signedVolume := by
  have hr : (0 : ℝ) < (⟨1, 0, 0⟩ : Sphere ℝ).radius := one_pos
  have hcount : ¬1 < (⟨1, 0, 0⟩ : Sphere ℝ).rings.toNat := by decide
  exact ⟨hr, _, rfl, (Sphere.mesh_complete _).toIndexed.three_mul_length_facets,
    Lattice.length_facets_mesh _, (Sphere.signedVolume_pos_iff hr).not.mpr hcount⟩

end MeshSpec

end TriMesh
