import TriMesh.Proofs.LinearMaps

/-! # Products of matrices

Maps of space one after the other, with exact scalars.

* The matrix of two linear maps one after the other is the product of theirs (`Mat3.mul_mulVec`); its
  determinant and its cofactors are the products of those of the two.  The inverse by cofactors undoes a map
  with a determinant other than zero (`Mat3.inverse_mulVec`).
* The product of two affine maps is the map that makes first the one on the right, then the one on the left
  (`Mat4.IsAffine.mul_mulPoint`).  An affine map is its linear part and its offset (`Mat4.IsAffine.ext`), so
  the inverse multiplied with the map itself is the identity (`Mat4.IsAffine.inverse_mul_self`).
* A linear map that keeps inner products has determinant 1 or -1, and its cofactors are the map itself but for
  that sign (`Mat3.IsOrthogonal.cofactors_mulVec`).  It takes the direction of a vector to that of the image. -/

namespace TriMesh

namespace Vec3

theorem dot_comm (a b : Vec3 ℝ) : a.dot b = b.dot a := by
  simp only [dot_eq]
  ring

theorem mul_scalar_zero (v : Vec3 ℝ) : v * (0 : ℝ) = 0 :=
  Vec3.ext (mul_zero _) (mul_zero _) (mul_zero _)

theorem normalizeOrZero_mul_of_pos (v : Vec3 ℝ) {c : ℝ} (hc : 0 < c) :
    (v * c).normalizeOrZero = v.normalizeOrZero := by
  by_cases hv : v = 0
  · rw [hv, zero_mul_scalar]
  · have hunit : v.normalizeOrZero.dot v.normalizeOrZero = 1 := by
      rw [normalizeOrZero, tryNormalize_eq hv]
      exact dot_self_normalize hv
    have hlength : v = v.normalizeOrZero * v.length := by
      rw [normalizeOrZero_of_ne hv, mul_scalar_mul, one_div_mul_cancel (length_pos hv).ne', mul_scalar_one]
    rw [hlength, mul_scalar_mul, normalizeOrZero_mul_of_unit hunit (mul_pos (length_pos hv) hc),
      normalizeOrZero_mul_of_unit hunit (length_pos hv)]

/-- A vector that has its own direction keeps it. -/
theorem normalizeOrZero_of_unit_or_zero {v : Vec3 ℝ} (h : v = 0 ∨ v.length = 1) : v.normalizeOrZero = v := by
  rcases h with rfl | h
  · exact normalizeOrZero_zero
  · have hv : v ≠ 0 := by
      rintro rfl
      rw [length, zero_dot, Scalar.real_sqrt, Real.sqrt_zero] at h
      exact zero_ne_one h
    rw [normalizeOrZero_of_ne hv, h, div_one, mul_scalar_one]

end Vec3

/-! ### Linear maps -/

namespace Mat3

section scalar
variable {α : Type} [Scalar α]

/-- The map on the right, then the map on the left. -/
instance : Mul (Mat3 α) := ⟨fun b a => ⟨b.mulVec a.xAxis, b.mulVec a.yAxis, b.mulVec a.zAxis⟩⟩

/-- The map that leaves all vectors where they are. -/
instance : One (Mat3 α) := ⟨⟨Vec3.unitX, Vec3.unitY, Vec3.unitZ⟩⟩

/-- The map keeps inner products, and so lengths and angles. -/
def IsOrthogonal (m : Mat3 α) : Prop := ∀ u v, (m.mulVec u).dot (m.mulVec v) = u.dot v

end scalar

variable (a b m : Mat3 ℝ) (u v : Vec3 ℝ)

theorem mulVec_add : m.mulVec (u + v) = m.mulVec u + m.mulVec v := by
  refine Vec3.ext ?_ ?_ ?_ <;>
    simp only [mulVec_x, mulVec_y, mulVec_z, Vec3.add_x, Vec3.add_y, Vec3.add_z] <;>
    ring

/-- A linear map as a homomorphism of vectors. -/
noncomputable def mulVecHom : Vec3 ℝ →+ Vec3 ℝ := AddMonoidHom.mk' m.mulVec m.mulVec_add

theorem one_mulVec : (1 : Mat3 ℝ).mulVec v = v := by
  refine Vec3.ext ?_ ?_ ?_
  · exact (by ring : (1 : ℝ) * v.x + 0 * v.y + 0 * v.z = v.x)
  · exact (by ring : (0 : ℝ) * v.x + 1 * v.y + 0 * v.z = v.y)
  · exact (by ring : (0 : ℝ) * v.x + 0 * v.y + 1 * v.z = v.z)

theorem mul_mulVec : (b * a).mulVec v = b.mulVec (a.mulVec v) :=
  calc (b * a).mulVec v = b.mulVec a.xAxis * v.x + b.mulVec a.yAxis * v.y + b.mulVec a.zAxis * v.z := rfl
    _ = b.mulVec (a.xAxis * v.x + a.yAxis * v.y + a.zAxis * v.z) := by
      simp only [mulVec_add, mulVec_mul]

/-- Areas go through both maps. -/
theorem cofactors_mul : (b * a).cofactors = b.cofactors * a.cofactors :=
  calc (b * a).cofactors = ⟨(b.mulVec a.yAxis).cross (b.mulVec a.zAxis),
        (b.mulVec a.zAxis).cross (b.mulVec a.xAxis), (b.mulVec a.xAxis).cross (b.mulVec a.yAxis)⟩ := rfl
    _ = b.cofactors * a.cofactors := by
      simp only [cross_mulVec]
      rfl

/-- Volumes go through both maps. -/
theorem det_mul : (b * a).det = b.det * a.det :=
  calc (b * a).det = (b.mulVec a.xAxis).dot ((b.mulVec a.yAxis).cross (b.mulVec a.zAxis)) := rfl
    _ = (b.cofactors.mulVec (a.yAxis.cross a.zAxis)).dot (b.mulVec a.xAxis) := by
      rw [cross_mulVec, Vec3.dot_comm]
    _ = b.det * a.det := by
      rw [cofactors_dot_mulVec, Vec3.dot_comm]
      rfl

theorem cofactors_one : (1 : Mat3 ℝ).cofactors = 1 := by
  have hx : (Vec3.unitY : Vec3 ℝ).cross Vec3.unitZ = Vec3.unitX := by
    refine Vec3.ext ?_ ?_ ?_ <;> simp [Vec3.cross, Vec3.unitX, Vec3.unitY, Vec3.unitZ]
  have hy : (Vec3.unitZ : Vec3 ℝ).cross Vec3.unitX = Vec3.unitY := by
    refine Vec3.ext ?_ ?_ ?_ <;> simp [Vec3.cross, Vec3.unitX, Vec3.unitY, Vec3.unitZ]
  have hz : (Vec3.unitX : Vec3 ℝ).cross Vec3.unitY = Vec3.unitZ := by
    refine Vec3.ext ?_ ?_ ?_ <;> simp [Vec3.cross, Vec3.unitX, Vec3.unitY, Vec3.unitZ]
  exact congr (congrArg₂ Mat3.mk hx hy) hz

theorem det_one : (1 : Mat3 ℝ).det = 1 := by
  have hx : (1 : Mat3 ℝ).yAxis.cross (1 : Mat3 ℝ).zAxis = Vec3.unitX := congrArg Mat3.xAxis cofactors_one
  rw [det, hx]
  exact (by ring : (1 : ℝ) * 1 + 0 * 0 + 0 * 0 = 1)

theorem mulVec_unitX : m.mulVec Vec3.unitX = m.xAxis := by
  refine Vec3.ext ?_ ?_ ?_ <;> simp [mulVec_x, mulVec_y, mulVec_z, Vec3.unitX]

theorem mulVec_unitY : m.mulVec Vec3.unitY = m.yAxis := by
  refine Vec3.ext ?_ ?_ ?_ <;> simp [mulVec_x, mulVec_y, mulVec_z, Vec3.unitY]

theorem mulVec_unitZ : m.mulVec Vec3.unitZ = m.zAxis := by
  refine Vec3.ext ?_ ?_ ?_ <;> simp [mulVec_x, mulVec_y, mulVec_z, Vec3.unitZ]

/-- A linear map is what it does to vectors. -/
theorem eq_of_mulVec (h : ∀ v, a.mulVec v = b.mulVec v) : a = b := by
  have hx := h Vec3.unitX
  have hy := h Vec3.unitY
  have hz := h Vec3.unitZ
  rw [mulVec_unitX, mulVec_unitX] at hx
  rw [mulVec_unitY, mulVec_unitY] at hy
  rw [mulVec_unitZ, mulVec_unitZ] at hz
  exact congr (congrArg₂ Mat3.mk hx hy) hz

section inverse
variable {m} (hdet : m.det ≠ 0)
include hdet

/-- The inverse by cofactors undoes the map. -/
theorem inverse_mulVec : m.inverse.mulVec (m.mulVec v) = v := by
  have hmeet : m.inverse.mulVec (m.mulVec v) = v * m.det * (1 / m.det) := by
    refine Vec3.ext ?_ ?_ ?_ <;>
      simp only [mulVec_x, mulVec_y, mulVec_z, inverse, cofactors, det, Vec3.dot_eq, Vec3.cross_x, Vec3.cross_y,
        Vec3.cross_z, Vec3.mul_x, Vec3.mul_y, Vec3.mul_z] <;>
      ring
  rw [hmeet, Vec3.mul_scalar_mul, mul_one_div_cancel hdet, Vec3.mul_scalar_one]

/-- The map undoes its inverse. -/
theorem mulVec_inverse : m.mulVec (m.inverse.mulVec v) = v := by
  have hmeet : m.mulVec (m.inverse.mulVec v) = v * m.det * (1 / m.det) := by
    refine Vec3.ext ?_ ?_ ?_ <;>
      simp only [mulVec_x, mulVec_y, mulVec_z, inverse, cofactors, det, Vec3.dot_eq, Vec3.cross_x, Vec3.cross_y,
        Vec3.cross_z, Vec3.mul_x, Vec3.mul_y, Vec3.mul_z] <;>
      ring
  rw [hmeet, Vec3.mul_scalar_mul, mul_one_div_cancel hdet, Vec3.mul_scalar_one]

theorem inverse_mul_self : m.inverse * m = 1 := by
  refine eq_of_mulVec _ _ fun v => ?_
  rw [mul_mulVec, inverse_mulVec v hdet, one_mulVec]

end inverse

/-! ### Orthogonal maps -/

namespace IsOrthogonal

variable {m} (h : m.IsOrthogonal)
include h

/-- The squared volume of a frame is its Gram determinant. -/
theorem det_mul_self : m.det * m.det = 1 := by
  have hxx : m.xAxis.dot m.xAxis = 1 := by
    rw [← mulVec_unitX, h]
    simp [Vec3.dot_eq, Vec3.unitX]
  have hyy : m.yAxis.dot m.yAxis = 1 := by
    rw [← mulVec_unitY, h]
    simp [Vec3.dot_eq, Vec3.unitY]
  have hzz : m.zAxis.dot m.zAxis = 1 := by
    rw [← mulVec_unitZ, h]
    simp [Vec3.dot_eq, Vec3.unitZ]
  have hxy : m.xAxis.dot m.yAxis = 0 := by
    rw [← mulVec_unitX, ← mulVec_unitY, h]
    simp [Vec3.dot_eq, Vec3.unitX, Vec3.unitY]
  have hyz : m.yAxis.dot m.zAxis = 0 := by
    rw [← mulVec_unitY, ← mulVec_unitZ, h]
    simp [Vec3.dot_eq, Vec3.unitY, Vec3.unitZ]
  have hxz : m.xAxis.dot m.zAxis = 0 := by
    rw [← mulVec_unitX, ← mulVec_unitZ, h]
    simp [Vec3.dot_eq, Vec3.unitX, Vec3.unitZ]
  have hgram (x y z : Vec3 ℝ) : x.dot (y.cross z) * x.dot (y.cross z) =
      x.dot x * (y.dot y * z.dot z - y.dot z * y.dot z) - x.dot y * (x.dot y * z.dot z - y.dot z * x.dot z) +
        x.dot z * (x.dot y * y.dot z - y.dot y * x.dot z) := by
    simp only [Vec3.dot_eq, Vec3.cross_x, Vec3.cross_y, Vec3.cross_z]
    ring
  rw [det, hgram, hxx, hyy, hzz, hxy, hyz, hxz]
  ring

theorem det_ne_zero : m.det ≠ 0 := fun hzero => by
  have hone := h.det_mul_self
  rw [hzero, zero_mul] at hone
  exact zero_ne_one hone

/-- The cofactors of an orthogonal map are the map itself, but for the orientation. -/
theorem cofactors_mulVec (v : Vec3 ℝ) : m.cofactors.mulVec v = m.mulVec v * m.det := by
  -- the difference is across every image, so across itself
  have hacross (u : Vec3 ℝ) : (m.cofactors.mulVec v - m.mulVec v * m.det).dot (m.mulVec u) = 0 := by
    rw [sub_eq_add_neg, Vec3.add_dot, Vec3.neg_dot, cofactors_dot_mulVec, Vec3.mul_dot, h, add_neg_cancel]
  have hself := hacross (m.inverse.mulVec (m.cofactors.mulVec v - m.mulVec v * m.det))
  rw [mulVec_inverse _ h.det_ne_zero] at hself
  by_contra hne
  exact (Vec3.dot_self_pos (sub_ne_zero.mpr hne)).ne' hself

theorem cofactors : m.cofactors.IsOrthogonal := fun u v =>
  calc (m.cofactors.mulVec u).dot (m.cofactors.mulVec v) = m.det * m.det * (m.mulVec v).dot (m.mulVec u) := by
        rw [h.cofactors_mulVec, h.cofactors_mulVec, Vec3.mul_dot, Vec3.dot_comm, Vec3.mul_dot, mul_assoc]
    _ = u.dot v := by rw [h.det_mul_self, one_mul, h, Vec3.dot_comm]

theorem length_mulVec (v : Vec3 ℝ) : (m.mulVec v).length = v.length := by
  rw [Vec3.length, h, Vec3.length]

/-- The direction of an image is the image of the direction. -/
theorem normalizeOrZero_mulVec (v : Vec3 ℝ) : (m.mulVec v).normalizeOrZero = m.mulVec v.normalizeOrZero := by
  by_cases hv : v = 0
  · have hzero : m.mulVec 0 = 0 := map_zero m.mulVecHom
    rw [hv, hzero, Vec3.normalizeOrZero_zero, hzero]
  · have himage : m.mulVec v ≠ 0 := fun hzero => by
      have hself := h v v
      rw [hzero, Vec3.zero_dot] at hself
      exact (Vec3.dot_self_pos hv).ne hself
    rw [Vec3.normalizeOrZero_of_ne himage, Vec3.normalizeOrZero_of_ne hv, h.length_mulVec, mulVec_mul]

end IsOrthogonal

end Mat3

/-! ### Affine maps -/

namespace Mat4

section scalar
variable {α : Type} [Scalar α]

/-- The image of a column. -/
def mulColumn (m : Mat4 α) (c : Vec4 α) : Vec4 α := m.xAxis * c.x + m.yAxis * c.y + m.zAxis * c.z + m.wAxis * c.w

/-- The map on the right, then the map on the left. -/
instance : Mul (Mat4 α) :=
  ⟨fun b a => ⟨b.mulColumn a.xAxis, b.mulColumn a.yAxis, b.mulColumn a.zAxis, b.mulColumn a.wAxis⟩⟩

/-- The map that moves all points by an offset. -/
def translation (offset : Vec3 α) : Mat4 α :=
  ⟨⟨1, 0, 0, 0⟩, ⟨0, 1, 0, 0⟩, ⟨0, 0, 1, 0⟩, ⟨offset.x, offset.y, offset.z, 1⟩⟩

/-- The map that leaves all points where they are. -/
instance : One (Mat4 α) := ⟨translation 0⟩

end scalar

theorem xyz_mulColumn (m : Mat4 ℝ) (c : Vec4 ℝ) :
    (m.mulColumn c).xyz = m.linear.mulVec c.xyz + m.wAxis.xyz * c.w := rfl

theorem isAffine_translation (offset : Vec3 ℝ) : (translation offset).IsAffine := ⟨rfl, rfl, rfl, rfl⟩

theorem linear_translation (offset : Vec3 ℝ) : (translation offset).linear = 1 := rfl

theorem translation_mulPoint (offset p : Vec3 ℝ) : (translation offset).mulPoint p = p + offset :=
  calc (translation offset).mulPoint p = offset + (1 : Mat3 ℝ).mulVec p := rfl
    _ = p + offset := by rw [Mat3.one_mulVec, add_comm]

namespace IsAffine

variable {a b m : Mat4 ℝ}

/-- An affine map is its linear part and its offset. -/
theorem ext (ha : a.IsAffine) (hb : b.IsAffine) (hlinear : a.linear = b.linear)
    (hoffset : a.wAxis.xyz = b.wAxis.xyz) : a = b := by
  obtain ⟨⟨_, _, _, _⟩, ⟨_, _, _, _⟩, ⟨_, _, _, _⟩, ⟨_, _, _, _⟩⟩ := a
  obtain ⟨⟨_, _, _, _⟩, ⟨_, _, _, _⟩, ⟨_, _, _, _⟩, ⟨_, _, _, _⟩⟩ := b
  obtain ⟨rfl, rfl, rfl, rfl⟩ := ha
  obtain ⟨rfl, rfl, rfl, rfl⟩ := hb
  simp only [linear, Vec4.xyz, Mat3.mk.injEq, Vec3.mk.injEq] at hlinear hoffset
  simp only [hlinear, hoffset]

theorem w_mulColumn (h : m.IsAffine) (c : Vec4 ℝ) : (m.mulColumn c).w = c.w :=
  calc (m.mulColumn c).w = m.xAxis.w * c.x + m.yAxis.w * c.y + m.zAxis.w * c.z + m.wAxis.w * c.w := rfl
    _ = c.w := by
      rw [h.x, h.y, h.z, h.w]
      ring

theorem mul (ha : a.IsAffine) (hb : b.IsAffine) : (b * a).IsAffine :=
  ⟨(hb.w_mulColumn _).trans ha.x, (hb.w_mulColumn _).trans ha.y, (hb.w_mulColumn _).trans ha.z,
    (hb.w_mulColumn _).trans ha.w⟩

section mul
variable (ha : a.IsAffine) (b : Mat4 ℝ)
include ha

theorem linear_mul : (b * a).linear = b.linear * a.linear := by
  have hcolumn (c : Vec4 ℝ) (hc : c.w = 0) : (b.mulColumn c).xyz = b.linear.mulVec c.xyz := by
    rw [xyz_mulColumn, hc, Vec3.mul_scalar_zero, add_zero]
  exact congr (congrArg₂ Mat3.mk (hcolumn _ ha.x) (hcolumn _ ha.y)) (hcolumn _ ha.z)

theorem offset_mul : (b * a).wAxis.xyz = b.mulPoint a.wAxis.xyz :=
  calc (b * a).wAxis.xyz = b.linear.mulVec a.wAxis.xyz + b.wAxis.xyz * a.wAxis.w := rfl
    _ = b.mulPoint a.wAxis.xyz := by
      rw [ha.w, Vec3.mul_scalar_one, add_comm]
      rfl

/-- The product moves points as the two maps one after the other. -/
theorem mul_mulPoint (p : Vec3 ℝ) : (b * a).mulPoint p = b.mulPoint (a.mulPoint p) :=
  calc (b * a).mulPoint p = (b * a).wAxis.xyz + (b * a).linear.mulVec p := rfl
    _ = b.wAxis.xyz + b.linear.mulVec a.wAxis.xyz + b.linear.mulVec (a.linear.mulVec p) := by
      rw [ha.offset_mul, ha.linear_mul, Mat3.mul_mulVec]
      rfl
    _ = b.wAxis.xyz + b.linear.mulVec (a.wAxis.xyz + a.linear.mulVec p) := by
      rw [Mat3.mulVec_add, add_assoc]
    _ = b.mulPoint (a.mulPoint p) := rfl

end mul

section inverse
variable (h : m.IsAffine)
include h

theorem offset_inverse : m.inverse.wAxis.xyz = -m.linear.inverse.mulVec m.wAxis.xyz := by
  obtain ⟨⟨_, _, _, _⟩, ⟨_, _, _, _⟩, ⟨_, _, _, _⟩, ⟨_, _, _, _⟩⟩ := m
  obtain ⟨rfl, rfl, rfl, rfl⟩ := h
  refine Vec3.ext ?_ ?_ ?_ <;>
    simp only [inverse, linear, Mat3.inverse, Mat3.cofactors, Mat3.det, Mat3.mulVec_x, Mat3.mulVec_y, Mat3.mulVec_z,
      Vec3.dot_eq, Vec3.cross_x, Vec3.cross_y, Vec3.cross_z, Vec3.neg_x, Vec3.neg_y, Vec3.neg_z, Vec4.mk_mul_mk,
      Vec4.mk_sub_mk, Vec4.mk_add_mk, Vec4.mk_mul_scalar, Vec4.xyz] <;>
    ring

theorem inverse (hdet : m.linear.det ≠ 0) : m.inverse.IsAffine := by
  have hw : m.inverse.wAxis.w = m.linear.det * (1 / m.linear.det) := by
    obtain ⟨⟨_, _, _, _⟩, ⟨_, _, _, _⟩, ⟨_, _, _, _⟩, ⟨_, _, _, _⟩⟩ := m
    obtain ⟨rfl, rfl, rfl, rfl⟩ := h
    simp only [Mat4.inverse, linear, Mat3.det, Vec3.dot_eq, Vec3.cross_x, Vec3.cross_y, Vec3.cross_z,
      Vec4.mk_mul_mk, Vec4.mk_sub_mk, Vec4.mk_add_mk, Vec4.mk_mul_scalar, Vec4.xyz]
    ring
  refine ⟨?_, ?_, ?_, hw.trans (mul_one_div_cancel hdet)⟩ <;>
    simp only [Mat4.inverse, h.x, h.y, h.z, h.w, Vec4.mk_mul_mk, Vec4.mk_sub_mk, Vec4.mk_add_mk,
      Vec4.mk_mul_scalar] <;>
    ring

/-- The inverse, made after the map, brings all points back. -/
theorem inverse_mul_self (hdet : m.linear.det ≠ 0) : m.inverse * m = 1 := by
  refine (h.mul (h.inverse hdet)).ext (isAffine_translation 0) ?_ ?_
  · rw [h.linear_mul, h.linear_inverse, Mat3.inverse_mul_self hdet]
    rfl
  · rw [h.offset_mul]
    have hoffset : m.inverse.mulPoint m.wAxis.xyz = m.inverse.wAxis.xyz + m.inverse.linear.mulVec m.wAxis.xyz := rfl
    rw [hoffset, h.offset_inverse, h.linear_inverse, neg_add_cancel]
    rfl

end inverse

end IsAffine

end Mat4

end TriMesh
