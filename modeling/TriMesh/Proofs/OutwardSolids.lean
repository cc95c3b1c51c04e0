import TriMesh.Proofs.ClosedSolids

/-! # Solids that face outward

Every triangle of a box, camera box, sphere, cylinder or cone faces away from the origin, which lies
inside each of them, read with exact scalars and for any counts (`MeshSpec.solid_faces_outward`).

* The face vector of a facet, measured along its centroid, is the determinant of its three corners
  (`Facet.dot_centroid`), six times the volume that the facet spans with the origin.
* For the facets of a link in a full turn this is the radius of the ring they stand on, times the sine
  between two columns, times the area that the link spans with the origin in the profile.
* The facets that collapse are those on rings of radius zero, all columns of such a ring. -/

namespace TriMesh

/-! ### Volumes -/

namespace Facet

/-- The mean of the corners. -/
def centroid {α : Type} [Scalar α] (f : Facet (Vec3 α)) : Vec3 α :=
  (f.a + f.b + f.c) / (Scalar.three : α)

/-- Six times the volume that the facet spans with the origin, positive if it faces away from it. -/
def volume {α : Type} [Scalar α] (f : Facet (Vec3 α)) : α := f.a.dot (f.b.cross f.c)

theorem dot_centroid (f : Facet (Vec3 ℝ)) :
    (SubMesh.faceVector f.a f.b f.c).dot f.centroid = f.volume := by
  simp only [centroid, volume, SubMesh.faceVector, Vec3.dot_eq, Vec3.cross_x, Vec3.cross_y,
    Vec3.cross_z, Vec3.sub_x, Vec3.sub_y, Vec3.sub_z, Vec3.add_x, Vec3.add_y, Vec3.add_z,
    Vec3.div_x, Vec3.div_y, Vec3.div_z, Scalar.real_three]
  ring

theorem volume_rotate (f : Facet (Vec3 ℝ)) : f.rotate.volume = f.volume := by
  simp only [volume, rotate, Vec3.dot_eq, Vec3.cross_x, Vec3.cross_y, Vec3.cross_z]
  ring

/-- A facet with two equal corners spans nothing. -/
theorem isProper_of_volume_ne_zero {f : Facet (Vec3 ℝ)} (h : f.volume ≠ 0) : f.IsProper := by
  simp only [volume, Vec3.dot_eq, Vec3.cross_x, Vec3.cross_y, Vec3.cross_z] at h
  refine ⟨fun hab => h ?_, fun hbc => h ?_, fun hca => h ?_⟩
  · rw [hab]
    ring
  · rw [hbc]
    ring
  · rw [hca]
    ring

end Facet

namespace Surface

/-- Every facet with three different corners faces away from the origin. -/
def IsOutward (fs : Surface (Vec3 ℝ)) : Prop := ∀ f ∈ fs, f.IsProper → 0 < f.volume

/-- Number of facets with two equal corners. -/
noncomputable def collapsed (fs : Surface (Vec3 ℝ)) : ℕ := fs.countP fun f => ¬f.IsProper

variable {fs gs : Surface (Vec3 ℝ)}

theorem IsOutward.append (hf : fs.IsOutward) (hg : gs.IsOutward) : IsOutward (fs ++ gs) := by
  intro f hmem
  rcases List.mem_append.mp hmem with h | h
  · exact hf f h
  · exact hg f h

theorem collapsed_append : collapsed (fs ++ gs) = fs.collapsed + gs.collapsed :=
  List.countP_append

theorem collapsed_flatMap_range (F : ℕ → Surface (Vec3 ℝ)) (n : ℕ) :
    collapsed ((List.range n).flatMap F) = ∑ i ∈ Finset.range n, (F i).collapsed := by
  induction n with
  | zero => rfl
  | succ n ih =>
      rw [List.range_succ, List.flatMap_append, collapsed_append, ih, Finset.sum_range_succ,
        List.flatMap_singleton]

theorem collapsed_pairs {ι : Type} (F G : ι → Facet (Vec3 ℝ)) (l : List ι) :
    collapsed (l.flatMap fun i => [F i, G i]) = collapsed (l.map F) + collapsed (l.map G) := by
  induction l with
  | nil => rfl
  | cons i l ih =>
      simp only [collapsed, List.flatMap_cons, List.map_cons, List.countP_append,
        List.countP_cons, List.countP_nil] at ih ⊢
      omega

/-- A surface of which every facet spans a volume faces outward, and nothing collapses. -/
theorem isOutward_of_pos (h : ∀ f ∈ fs, 0 < f.volume) : fs.IsOutward ∧ fs.collapsed = 0 := by
  refine ⟨fun f hf _ => h f hf, List.countP_eq_zero.mpr fun f hf => ?_⟩
  simpa using Facet.isProper_of_volume_ne_zero (h f hf).ne'

/-- Facets that are proper all or none, as a condition says. -/
theorem collapsed_map_of_iff {ι : Type} {F : ι → Facet (Vec3 ℝ)} {P : Prop} [Decidable P]
    (h : ∀ i, (F i).IsProper ↔ ¬P) (l : List ι) :
    collapsed (l.map F) = if P then l.length else 0 := by
  unfold collapsed
  by_cases hP : P <;> simp [h, hP]

end Surface

/-! ### Links -/

namespace Link

variable {l : Link ℝ} {n : ℕ}

theorem volume_onLower (hl : l.rising = false) (c : ℕ) :
    (l.onLower (Scalar.tau : ℝ) n c).volume =
      l.lower.x * columnSine n * l.lower.perpDot l.upper := by
  have h := sin_mul_cos_succ_sub n c
  simp only [onLower, hl, Bool.false_eq_true, if_false, spot_tau, Facet.volume, Vec3.dot_eq,
    Vec3.cross_x, Vec3.cross_y, Vec3.cross_z, Vec2.perpDot_eq]
  linear_combination l.lower.x * (l.lower.y * l.upper.x - l.lower.x * l.upper.y) * h

theorem volume_onUpper (hl : l.rising = false) (c : ℕ) :
    (l.onUpper (Scalar.tau : ℝ) n c).volume =
      l.upper.x * columnSine n * l.lower.perpDot l.upper := by
  have h := sin_mul_cos_succ_sub n c
  simp only [onUpper, hl, Bool.false_eq_true, if_false, spot_tau, Facet.volume, Vec3.dot_eq,
    Vec3.cross_x, Vec3.cross_y, Vec3.cross_z, Vec2.perpDot_eq]
  linear_combination l.upper.x * (l.lower.y * l.upper.x - l.lower.x * l.upper.y) * h

/-- A facet of a link stands on the lower or on the upper ring. -/
theorem mem_facets {α : Type} [Scalar α] {l : Link α} {sweep : α} {columns : ℕ}
    {f : Facet (Vec3 α)} (h : f ∈ l.facets sweep columns) :
    ∃ c, f = l.onLower sweep columns c ∨ f = l.onUpper sweep columns c := by
  obtain ⟨c, _, hf⟩ := List.mem_flatMap.mp h
  simp only [List.mem_cons, List.not_mem_nil, or_false] at hf
  exact ⟨c, hf⟩

/-- Away from the axis every facet of a link that runs clockwise around the origin spans a volume. -/
theorem volume_pos (hn : 3 ≤ n) (hrising : l.rising = false) (hp : 0 < l.lower.x)
    (hq : 0 < l.upper.x) (harea : 0 < l.lower.perpDot l.upper) :
    ∀ f ∈ l.facets (Scalar.tau : ℝ) n, 0 < f.volume := by
  have hs := columnSine_pos hn
  intro f hf
  obtain ⟨c, rfl | rfl⟩ := mem_facets hf
  · rw [volume_onLower hrising]
    exact mul_pos (mul_pos hp hs) harea
  · rw [volume_onUpper hrising]
    exact mul_pos (mul_pos hq hs) harea

section turn
variable (hl : l.lower ≠ l.upper) (hp : 0 ≤ l.lower.x) (hq : 0 ≤ l.upper.x) (hn : 3 ≤ n)
include hl hp hq hn

/-- The facets of a link face outward if the link runs clockwise around the origin, unless it lies on
the axis. -/
theorem isOutward_facets (hrising : l.rising = false)
    (harea : l.lower.x ≠ 0 ∨ l.upper.x ≠ 0 → 0 < l.lower.perpDot l.upper) :
    Surface.IsOutward (l.facets (Scalar.tau : ℝ) n) := by
  have : NeZero n := ⟨by omega⟩
  have hs := columnSine_pos hn
  intro f hf hproper
  obtain ⟨c, rfl | rfl⟩ := mem_facets hf
  · rw [isProper_onLower_iff hl hp hq (by omega)] at hproper
    rw [volume_onLower hrising]
    exact mul_pos (mul_pos (hp.lt_of_ne' hproper) hs) (harea (Or.inl hproper))
  · rw [isProper_onUpper_iff hl hp hq (by omega)] at hproper
    rw [volume_onUpper hrising]
    exact mul_pos (mul_pos (hq.lt_of_ne' hproper) hs) (harea (Or.inr hproper))

/-- Every column of a ring on the axis has one collapsed facet in each link at the ring. -/
theorem collapsed_facets :
    Surface.collapsed (l.facets (Scalar.tau : ℝ) n) =
      (if l.lower.x = 0 then n else 0) + if l.upper.x = 0 then n else 0 := by
  have : NeZero n := ⟨by omega⟩
  unfold facets
  rw [Surface.collapsed_pairs, Surface.collapsed_map_of_iff (isProper_onLower_iff hl hp hq (by omega)),
    Surface.collapsed_map_of_iff (isProper_onUpper_iff hl hp hq (by omega)), List.length_range]

end turn

end Link

/-! ### Bands and fans -/

/-- The bands of a lattice over a full turn face outward if each of them does. -/
theorem Lattice.isOutward_facets {l : Lattice ℝ} (hsweep : l.sweep = Scalar.tau)
    (h : ∀ ring < l.ringCount,
      Surface.IsOutward ((l.link ring).facets (Scalar.tau : ℝ) l.segmentCount)) :
    l.mesh.facets.IsOutward := by
  rw [facets_mesh, hsweep]
  intro f hf
  obtain ⟨ring, hring, hf⟩ := List.mem_flatMap.mp hf
  exact h ring (List.mem_range.mp hring) f hf

theorem Lattice.collapsed_facets {l : Lattice ℝ} (hsweep : l.sweep = Scalar.tau) :
    l.mesh.facets.collapsed = ∑ ring ∈ Finset.range l.ringCount,
      Surface.collapsed ((l.link ring).facets (Scalar.tau : ℝ) l.segmentCount) := by
  rw [facets_mesh, hsweep, Surface.collapsed_flatMap_range]

namespace CapFan

variable {radius z : ℝ} (hr : 0 < radius) (segments : ℕ)
include hr

/-- A fan above the origin that faces up, and one below it that faces down, span a volume in every
column. -/
theorem volume_pos_up (hz : 0 < z) :
    ∀ f ∈ (mesh radius z segments true).facets, 0 < f.volume := by
  have hs := columnSine_pos (three_le_clampSegments segments)
  rw [facets_mesh_up]
  intro f hf
  obtain ⟨c, _, rfl⟩ := List.mem_map.mp hf
  rw [Link.volume_onLower rfl, Vec2.perpDot_eq]
  have harea : 0 < radius * z - z * 0 := by nlinarith
  exact mul_pos (mul_pos hr hs) harea

theorem volume_pos_down (hz : z < 0) :
    ∀ f ∈ (mesh radius z segments false).facets, 0 < f.volume := by
  have hs := columnSine_pos (three_le_clampSegments segments)
  rw [facets_mesh_down]
  intro f hf
  obtain ⟨c, _, rfl⟩ := List.mem_map.mp hf
  rw [Facet.volume_rotate, Link.volume_onUpper rfl, Vec2.perpDot_eq]
  have harea : 0 < 0 * z - z * radius := by nlinarith
  exact mul_pos (mul_pos hr hs) harea

end CapFan

/-! ### Spheres -/

namespace Sphere

variable {s : Sphere ℝ} (hr : 0 < s.radius)

theorem perpDot_profile (s : Sphere ℝ) (ring : ℕ) :
    (s.lattice.profile ring).perpDot (s.lattice.profile (ring + 1)) =
      s.radius ^ 2 * Real.sin (Real.pi / s.lattice.ringCount) := by
  have hstep : Real.pi / s.lattice.ringCount = s.ringAngle (ring + 1) - s.ringAngle ring := by
    simp only [ringAngle, Lattice.ringCount, lattice, Scalar.real_pi]
    push_cast
    ring
  rw [hstep, Real.sin_sub, Vec2.perpDot_eq]
  simp only [Lattice.profile, lattice, Scalar.real_sin, Scalar.real_cos]
  ring

include hr

/-- The rings on the axis are the first and the last one. -/
theorem radius_eq_zero_iff {ring : ℕ} (h : ring ≤ s.lattice.ringCount) :
    (s.lattice.profile ring).x = 0 ↔ ring = 0 ∨ ring = s.lattice.ringCount := by
  constructor
  · intro hx
    obtain ⟨h0, h1⟩ := s.ringAngle_mem h
    have hsin : Real.sin (s.ringAngle ring) = 0 := (mul_eq_zero.mp hx).resolve_left hr.ne'
    rcases h0.eq_or_lt with h0 | h0
    · exact Or.inl (s.ringAngle_injective (h0.symm.trans (by simp [ringAngle])))
    · rcases h1.eq_or_lt with h1 | h1
      · exact Or.inr (s.ringAngle_injective (h1.trans s.ringAngle_last.symm))
      · exact absurd hsin (Real.sin_pos_of_pos_of_lt_pi h0 h1).ne'
  · rintro (rfl | rfl)
    · simp [Lattice.profile, lattice, ringAngle]
    · have h := s.ringAngle_last
      simp only [Lattice.profile, lattice, Lattice.ringCount] at h ⊢
      rw [h]
      simp

theorem isOutward_facets : s.mesh.facets.IsOutward := by
  have hR : 1 ≤ s.lattice.ringCount := one_le_clampRings _
  refine Lattice.isOutward_facets rfl fun ring hring => ?_
  have hlower := (s.outline hr).lower_nonneg hring
  have hupper := (s.outline hr).upper_nonneg hring
  have hne := (s.outline hr).lower_ne_upper hring
  refine Link.isOutward_facets hne hlower hupper (three_le_clampSegments _) rfl fun h => ?_
  -- a sphere of one band lies on the axis, any other has bands of less than half a turn
  have htwo : 2 ≤ s.lattice.ringCount := by
    by_contra hlt
    obtain rfl : ring = 0 := by omega
    rcases h with h | h
    · exact h ((radius_eq_zero_iff hr hring.le).mpr (Or.inl rfl))
    · exact h ((radius_eq_zero_iff hr hring).mpr (Or.inr (by omega)))
  have htwo' : (2 : ℝ) ≤ s.lattice.ringCount := Nat.ofNat_le_cast.mpr htwo
  have hsin : 0 < Real.sin (Real.pi / s.lattice.ringCount) := by
    have hpi := Real.pi_pos
    refine Real.sin_pos_of_pos_of_lt_pi (by positivity) ?_
    rw [div_lt_iff₀ (by linarith)]
    nlinarith
  exact (mul_pos (pow_pos hr 2) hsin).trans_eq (s.perpDot_profile ring).symm

theorem collapsed_facets : s.mesh.facets.collapsed = 2 * clampSegments s.segments.toNat := by
  have hR : 1 ≤ s.lattice.ringCount := one_le_clampRings _
  have hlinks : ∀ ring ∈ Finset.range s.lattice.ringCount,
      Surface.collapsed ((s.lattice.link ring).facets (Scalar.tau : ℝ) s.lattice.segmentCount) =
        (if ring = 0 then s.lattice.segmentCount else 0) +
          if ring = s.lattice.ringCount - 1 then s.lattice.segmentCount else 0 := by
    intro ring hmem
    have hring := Finset.mem_range.mp hmem
    have hlower := radius_eq_zero_iff hr hring.le
    have hupper := radius_eq_zero_iff hr (Nat.succ_le_of_lt hring)
    refine (Link.collapsed_facets ((s.outline hr).lower_ne_upper hring)
      ((s.outline hr).lower_nonneg hring) ((s.outline hr).upper_nonneg hring)
      (three_le_clampSegments _)).trans ?_
    congr 1
    · exact if_congr (hlower.trans (by omega)) rfl rfl
    · exact if_congr (hupper.trans (by omega)) rfl rfl
  unfold mesh
  rw [Lattice.collapsed_facets rfl, Finset.sum_congr rfl hlinks, Finset.sum_add_distrib,
    Finset.sum_ite_eq', Finset.sum_ite_eq', if_pos (Finset.mem_range.mpr (by omega)),
    if_pos (Finset.mem_range.mpr (by omega)), ← two_mul]
  rfl

end Sphere

/-! ### Cylinders and cones -/

theorem cap_heights {height : ℝ} (hh : 0 < height) :
    0 < height / Scalar.two ∧ -height / Scalar.two < 0 := by
  rw [Scalar.real_two]
  constructor
  · linarith
  · linarith

/-- Every triangle of a cylinder spans a volume with the origin. -/
theorem Cylinder.volume_pos {c : Cylinder ℝ} (hr : 0 < c.radius) (hh : 0 < c.height) :
    ∀ f ∈ c.mesh.facets, 0 < f.volume := by
  have hwall := c.wall.mesh_complete
  have hcap := CapFan.mesh_complete c.radius (c.height / Scalar.two) c.segments.toNat true
  have hR := clampRings_cast_pos c.rings.toNat
  obtain ⟨htop, hbottom⟩ := cap_heights hh
  have harea (ring : ℕ) : 0 < (c.wall.profile ring).perpDot (c.wall.profile (ring + 1)) := by
    have hstep : 0 < c.radius * (c.height / clampRings c.rings.toNat) :=
      mul_pos hr (div_pos hh hR)
    rw [Vec2.perpDot_eq]
    simp only [Lattice.profile, wall, ringHeight_succ]
    linarith
  unfold mesh
  rw [(hwall.append hcap).facets_append, hwall.facets_append]
  intro f hf
  rcases List.mem_append.mp hf with hf | hf
  · rcases List.mem_append.mp hf with hf | hf
    · rw [Lattice.facets_mesh] at hf
      obtain ⟨ring, _, hf⟩ := List.mem_flatMap.mp hf
      exact Link.volume_pos (three_le_clampSegments _) rfl hr hr (harea ring) f hf
    · exact CapFan.volume_pos_up hr _ htop f hf
  · exact CapFan.volume_pos_down hr _ hbottom f hf

namespace Cone

variable {c : Cone ℝ} (hr : 0 < c.radius) (hh : 0 < c.height)

include hr in
/-- The only ring on the axis is the last one. -/
theorem radius_eq_zero_iff (ring : ℕ) :
    (c.wall.profile ring).x = 0 ↔ ring = c.wall.ringCount := by
  have hR := (clampRings_cast_pos c.rings.toNat).ne'
  simp only [Lattice.profile, wall, Lattice.ringCount, mul_eq_zero, hr.ne', false_or, sub_eq_zero]
  rw [eq_comm, div_eq_one_iff_eq hR, Nat.cast_inj]

theorem perpDot_profile (c : Cone ℝ) (ring : ℕ) :
    (c.wall.profile ring).perpDot (c.wall.profile (ring + 1)) =
      c.radius * c.height / (2 * c.wall.ringCount) := by
  have hR := (clampRings_cast_pos c.rings.toNat).ne'
  rw [Vec2.perpDot_eq]
  simp only [Lattice.profile, wall, Lattice.ringCount, ringHeight, Scalar.real_two]
  push_cast
  field_simp
  ring

include hr hh

theorem isOutward_facets : c.mesh.facets.IsOutward := by
  have hbottom := (cap_heights hh).2
  have hR : (0 : ℝ) < c.wall.ringCount := clampRings_cast_pos _
  rw [facets_mesh]
  unfold parts
  rw [c.wall.mesh_complete.facets_append]
  refine Surface.IsOutward.append (Lattice.isOutward_facets rfl fun ring hring => ?_)
    (Surface.isOutward_of_pos (CapFan.volume_pos_down hr _ hbottom)).1
  have hne : c.wall.profile ring ≠ c.wall.profile (ring + 1) :=
    outlinePoint_ne hr hh (Nat.lt_succ_self (ring + 1))
  refine Link.isOutward_facets hne (radius_nonneg hr hring.le) (radius_nonneg hr hring)
    (three_le_clampSegments _) rfl fun _ => ?_
  exact (div_pos (mul_pos hr hh) (by positivity)).trans_eq (c.perpDot_profile ring).symm

theorem collapsed_facets : c.mesh.facets.collapsed = clampSegments c.segments.toNat := by
  have hbottom := (cap_heights hh).2
  have hR : 1 ≤ c.wall.ringCount := one_le_clampRings _
  have hlinks : ∀ ring ∈ Finset.range c.wall.ringCount,
      Surface.collapsed ((c.wall.link ring).facets (Scalar.tau : ℝ) c.wall.segmentCount) =
        if ring = c.wall.ringCount - 1 then c.wall.segmentCount else 0 := by
    intro ring hmem
    have hring := Finset.mem_range.mp hmem
    have hlower : (c.wall.link ring).lower.x ≠ 0 := (radius_eq_zero_iff hr ring).not.mpr hring.ne
    have hupper := radius_eq_zero_iff hr (ring + 1)
    refine (Link.collapsed_facets (outlinePoint_ne hr hh (Nat.lt_succ_self (ring + 1)))
      (radius_nonneg hr hring.le) (radius_nonneg hr hring) (three_le_clampSegments _)).trans ?_
    rw [if_neg hlower, zero_add]
    exact if_congr (hupper.trans (by omega)) rfl rfl
  rw [facets_mesh]
  unfold parts
  rw [c.wall.mesh_complete.facets_append, Surface.collapsed_append,
    (Surface.isOutward_of_pos (CapFan.volume_pos_down hr _ hbottom)).2,
    Lattice.collapsed_facets rfl, Finset.sum_congr rfl hlinks, Finset.sum_ite_eq',
    if_pos (Finset.mem_range.mpr (by omega))]
  rfl

end Cone

/-! ### Boxes -/

namespace BoxFace

/-- The determinant of three corners of the cube of half extent one. -/
def signVolume (f : Facet ℕ) : ℤ :=
  let a := corner f.a
  let b := corner f.b
  let c := corner f.c
  a.1 * (b.2.1 * c.2.2 - c.2.1 * b.2.2) + a.2.1 * (b.2.2 * c.1 - c.2.2 * b.1) +
    a.2.2 * (b.1 * c.2.1 - c.1 * b.2.1)

/-- All twelve triangles span the same volume with the origin. -/
theorem signVolume_of_mem : ∀ f ∈ numbered, signVolume f = 4 := by
  decide +kernel

theorem volume_placed (half : Vec3 ℝ) {f : Facet ℕ} (hf : f ∈ numbered) :
    (f.map (place half)).volume = 4 * (half.x * half.y * half.z) := by
  obtain ⟨ha, hb, hc⟩ := lt_of_mem_numbered f hf
  have h : ((signVolume f : ℤ) : ℝ) = 4 := by exact_mod_cast signVolume_of_mem f hf
  rw [← h]
  simp only [Facet.map, Facet.volume, place_eq ha, place_eq hb, place_eq hc, Vec3.dot_eq,
    Vec3.cross_x, Vec3.cross_y, Vec3.cross_z, signVolume]
  push_cast
  ring

theorem volume_pos {half : Vec3 ℝ} (hx : 0 < half.x) (hy : 0 < half.y) (hz : 0 < half.z) :
    ∀ f ∈ numbered.map (Facet.map (place half)), 0 < f.volume := by
  intro f hf
  obtain ⟨g, hg, rfl⟩ := List.mem_map.mp hf
  rw [volume_placed half hg]
  positivity

end BoxFace

/-! ### Specifications -/

namespace MeshSpec

/-- How many triangles of the solid have two equal corners: two rounds at the poles of a sphere, one
round at the apex of a cone. -/
def collapsedCount {α : Type} : MeshSpec α → ℕ
  | .sphere s => 2 * clampSegments s.segments.toNat
  | .cone c => clampSegments c.segments.toNat
  | _ => 0

/-- **Solids without a hole face outward.**  Every triangle is a facet, every facet with three
different corners has a face vector that points away from the origin at its centroid, and no facets
collapse but those at the poles of a sphere and at the apex of a cone. -/
theorem solid_faces_outward {spec : MeshSpec ℝ} (h : spec.IsSolid) (ht : ∀ t, spec ≠ .tube t)
    (triangulate : Triangulator ℝ) :
    ∃ s, spec.submesh triangulate = .ok s ∧ 3 * s.facets.length = s.indexCount ∧
      (∀ f ∈ s.facets, f.IsProper → 0 < (SubMesh.faceVector f.a f.b f.c).dot f.centroid) ∧
      s.facets.countP (fun f => ¬f.IsProper) = spec.collapsedCount := by
  have houtward : ∃ s, spec.submesh triangulate = .ok s ∧ s.facets.IsOutward ∧
      s.facets.collapsed = spec.collapsedCount := by
    cases spec with
    | plane _ => exact h.elim
    | box b =>
        have hhalf : (0 : ℝ) < Scalar.half := by norm_num
        refine ⟨_, rfl, Surface.isOutward_of_pos ?_⟩
        rw [b.facets_mesh]
        exact BoxFace.volume_pos (mul_pos h.1 hhalf) (mul_pos h.2.1 hhalf) (mul_pos h.2.2 hhalf)
    | camera c =>
        refine ⟨_, rfl, Surface.isOutward_of_pos ?_⟩
        rw [c.facets_mesh]
        exact BoxFace.volume_pos h h h
    | sphere s => exact ⟨_, rfl, Sphere.isOutward_facets h, Sphere.collapsed_facets h⟩
    | cylinder c => exact ⟨_, rfl, Surface.isOutward_of_pos (Cylinder.volume_pos h.1 h.2)⟩
    | cone c => exact ⟨_, rfl, Cone.isOutward_facets h.1 h.2, Cone.collapsed_facets h.1 h.2⟩
    | tube t => exact absurd rfl (ht t)
    | extrudedPolyline _ => exact h.elim
  obtain ⟨s, hs, ho, hc⟩ := houtward
  refine ⟨s, hs, (submesh_complete hs).toIndexed.three_mul_length_facets, fun f hf hproper => ?_, hc⟩
  rw [f.dot_centroid]
  exact ho f hf hproper

/-- The coarsest cone has three collapsed facets at its apex. -/
theorem coarse_cone_faces_outward :
    (cone ⟨1, 1, 0, 0⟩ : MeshSpec ℝ).IsSolid ∧ (∀ t, (cone ⟨1, 1, 0, 0⟩ : MeshSpec ℝ) ≠ .tube t) ∧
      ∃ s, (cone ⟨1, 1, 0, 0⟩ : MeshSpec ℝ).submesh (fun _ => .ok {}) = .ok s ∧
        3 * s.facets.length = s.indexCount ∧
        (∀ f ∈ s.facets, f.IsProper → 0 < (SubMesh.faceVector f.a f.b f.c).dot f.centroid) ∧
        s.facets.countP (fun f => ¬f.IsProper) = 3 := by
  have h : (cone ⟨1, 1, 0, 0⟩ : MeshSpec ℝ).IsSolid := ⟨one_pos, one_pos⟩
  have ht : ∀ t, (cone ⟨1, 1, 0, 0⟩ : MeshSpec ℝ) ≠ .tube t := nofun
  exact ⟨h, ht, solid_faces_outward h ht _⟩

end MeshSpec

end TriMesh
