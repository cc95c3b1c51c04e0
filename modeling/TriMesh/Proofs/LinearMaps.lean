import TriMesh.Proofs.SpaceVectors
import TriMesh.Matrix

/-! # Linear maps of space

Determinants and cofactors of three-by-three matrices, and the linear part of an affine map.

* The cofactors map face vectors as the matrix maps edges (`Mat3.cross_mulVec`), and a vector under the
  cofactors meets another one under the matrix as before, by the determinant longer
  (`Mat3.cofactors_dot_mulVec`).
* An affine map moves differences of points by its linear part (`Mat4.mulPoint_sub`), and its inverse
  transpose moves directions by the cofactors divided by the determinant
  (`Mat4.IsAffine.inverse_transpose`). -/

namespace TriMesh

variable {α : Type} [Scalar α]

namespace Mat3

/-- The signed volume that the images of the axes span. -/
def det (m : Mat3 α) : α := m.xAxis.dot (m.yAxis.cross m.zAxis)

/-- The matrix of the cofactors, column by column. -/
def cofactors (m : Mat3 α) : Mat3 α :=
  ⟨m.yAxis.cross m.zAxis, m.zAxis.cross m.xAxis, m.xAxis.cross m.yAxis⟩

/-- Rows and columns exchanged. -/
def transpose (m : Mat3 α) : Mat3 α :=
  ⟨⟨m.xAxis.x, m.yAxis.x, m.zAxis.x⟩, ⟨m.xAxis.y, m.yAxis.y, m.zAxis.y⟩, ⟨m.xAxis.z, m.yAxis.z, m.zAxis.z⟩⟩

/-- The inverse by cofactors. -/
def inverse (m : Mat3 α) : Mat3 α :=
  let c := m.cofactors
  let r := 1 / m.det
  ⟨⟨c.xAxis.x * r, c.yAxis.x * r, c.zAxis.x * r⟩, ⟨c.xAxis.y * r, c.yAxis.y * r, c.zAxis.y * r⟩,
    ⟨c.xAxis.z * r, c.yAxis.z * r, c.zAxis.z * r⟩⟩

section real
variable (m : Mat3 ℝ) (u v : Vec3 ℝ)

theorem mulVec_x : (m.mulVec v).x = m.xAxis.x * v.x + m.yAxis.x * v.y + m.zAxis.x * v.z := rfl

theorem mulVec_y : (m.mulVec v).y = m.xAxis.y * v.x + m.yAxis.y * v.y + m.zAxis.y * v.z := rfl

theorem mulVec_z : (m.mulVec v).z = m.xAxis.z * v.x + m.yAxis.z * v.y + m.zAxis.z * v.z := rfl

theorem mulVec_sub : m.mulVec (u - v) = m.mulVec u - m.mulVec v := by
  refine Vec3.ext ?_ ?_ ?_ <;>
    simp only [mulVec_x, mulVec_y, mulVec_z, Vec3.sub_x, Vec3.sub_y, Vec3.sub_z] <;>
    ring

theorem mulVec_mul (c : ℝ) : m.mulVec (v * c) = m.mulVec v * c := by
  refine Vec3.ext ?_ ?_ ?_ <;>
    simp only [mulVec_x, mulVec_y, mulVec_z, Vec3.mul_x, Vec3.mul_y, Vec3.mul_z] <;>
    ring

theorem transpose_inverse_mulVec : m.inverse.transpose.mulVec v = m.cofactors.mulVec v * (1 / m.det) := by
  refine Vec3.ext ?_ ?_ ?_ <;>
    simp only [mulVec_x, mulVec_y, mulVec_z, inverse, transpose, Vec3.mul_x, Vec3.mul_y, Vec3.mul_z] <;>
    ring

/-- The area that two images span is the image of the area under the cofactors. -/
theorem cross_mulVec : (m.mulVec u).cross (m.mulVec v) = m.cofactors.mulVec (u.cross v) := by
  refine Vec3.ext ?_ ?_ ?_ <;>
    simp only [mulVec_x, mulVec_y, mulVec_z, cofactors, Vec3.cross_x, Vec3.cross_y, Vec3.cross_z] <;>
    ring

theorem cofactors_dot_mulVec : (m.cofactors.mulVec u).dot (m.mulVec v) = m.det * u.dot v := by
  simp only [Vec3.dot_eq, mulVec_x, mulVec_y, mulVec_z, cofactors, det, Vec3.cross_x, Vec3.cross_y,
    Vec3.cross_z]
  ring

end real

end Mat3

namespace Vec4

variable (a b c d e f g h r : α)

theorem mk_add_mk : (⟨a, b, c, d⟩ : Vec4 α) + ⟨e, f, g, h⟩ = ⟨a + e, b + f, c + g, d + h⟩ := rfl

theorem mk_sub_mk : (⟨a, b, c, d⟩ : Vec4 α) - ⟨e, f, g, h⟩ = ⟨a - e, b - f, c - g, d - h⟩ := rfl

theorem mk_mul_mk : (⟨a, b, c, d⟩ : Vec4 α) * (⟨e, f, g, h⟩ : Vec4 α) = ⟨a * e, b * f, c * g, d * h⟩ := rfl

theorem mk_mul_scalar : (⟨a, b, c, d⟩ : Vec4 α) * r = ⟨a * r, b * r, c * r, d * r⟩ := rfl

end Vec4

namespace Mat4

/-- What the map does to differences of points. -/
def linear (m : Mat4 α) : Mat3 α := ⟨m.xAxis.xyz, m.yAxis.xyz, m.zAxis.xyz⟩

/-- The last row is that of an affine map. -/
structure IsAffine (m : Mat4 α) : Prop where
  /-- The first column is a direction. -/
  x : m.xAxis.w = 0
  /-- The second column is a direction. -/
  y : m.yAxis.w = 0
  /-- The third column is a direction. -/
  z : m.zAxis.w = 0
  /-- The fourth column is a point. -/
  w : m.wAxis.w = 1

theorem isAffine_scale (factor : Vec3 α) : (scale factor).IsAffine := ⟨rfl, rfl, rfl, rfl⟩

theorem det_linear_eq (m : Mat4 ℝ) :
    m.linear.det = m.xAxis.x * (m.yAxis.y * m.zAxis.z - m.zAxis.y * m.yAxis.z) +
      m.xAxis.y * (m.yAxis.z * m.zAxis.x - m.zAxis.z * m.yAxis.x) +
      m.xAxis.z * (m.yAxis.x * m.zAxis.y - m.zAxis.x * m.yAxis.y) := rfl

theorem det_linear_scale (factor : Vec3 ℝ) : (scale factor).linear.det = factor.x * factor.y * factor.z := by
  rw [det_linear_eq]
  simp only [scale]
  ring

theorem mulPoint_sub (m : Mat4 ℝ) (p q : Vec3 ℝ) : m.mulPoint p - m.mulPoint q = m.linear.mulVec (p - q) :=
  (add_sub_add_left_eq_sub _ _ _).trans (m.linear.mulVec_sub p q).symm

/-- The linear part of the inverse of an affine map is the inverse of its linear part. -/
theorem IsAffine.linear_inverse {m : Mat4 ℝ} (h : m.IsAffine) : m.inverse.linear = m.linear.inverse := by
  obtain ⟨⟨_, _, _, _⟩, ⟨_, _, _, _⟩, ⟨_, _, _, _⟩, ⟨_, _, _, _⟩⟩ := m
  obtain ⟨rfl, rfl, rfl, rfl⟩ := h
  simp only [inverse, linear, Mat3.inverse, Mat3.cofactors, Mat3.det, Vec3.dot_eq, Vec3.cross_x, Vec3.cross_y,
    Vec3.cross_z, Vec4.mk_mul_mk, Vec4.mk_sub_mk, Vec4.mk_add_mk, Vec4.mk_mul_scalar, Vec4.xyz]
  congr 2 <;> ring

/-- The inverse transpose of an affine map acts on directions by its cofactors. -/
theorem IsAffine.inverse_transpose {m : Mat4 ℝ} (h : m.IsAffine) (v : Vec3 ℝ) :
    m.inverse.transpose.mulDirection v = m.linear.cofactors.mulVec v * (1 / m.linear.det) :=
  calc m.inverse.transpose.mulDirection v = m.inverse.linear.transpose.mulVec v := rfl
    _ = m.linear.inverse.transpose.mulVec v := by rw [h.linear_inverse]
    _ = m.linear.cofactors.mulVec v * (1 / m.linear.det) := m.linear.transpose_inverse_mulVec v

end Mat4

end TriMesh
