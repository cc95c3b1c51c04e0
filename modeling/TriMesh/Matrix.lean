import TriMesh.Vector

/-! # Matrices

Linear maps of space (`Mat3`) and projective maps (`Mat4`), stored by columns. A `Mat4` acts on
points with its offset column and on directions without it. -/

namespace TriMesh

/-- A column of a `Mat4`. -/
structure Vec4 (α : Type) where
  /-- First row. -/
  x : α
  /-- Second row. -/
  y : α
  /-- Third row. -/
  z : α
  /-- Fourth row. -/
  w : α
deriving Repr, Inhabited

/-- A linear map of space, by the images of the three axes. -/
structure Mat3 (α : Type) where
  /-- Image of the first axis. -/
  xAxis : Vec3 α
  /-- Image of the second axis. -/
  yAxis : Vec3 α
  /-- Image of the third axis. -/
  zAxis : Vec3 α
deriving Repr, Inhabited

/-- A map of space given by a four-by-four matrix, column by column. -/
structure Mat4 (α : Type) where
  /-- First column. -/
  xAxis : Vec4 α
  /-- Second column. -/
  yAxis : Vec4 α
  /-- Third column. -/
  zAxis : Vec4 α
  /-- Fourth column, the offset of an affine map. -/
  wAxis : Vec4 α
deriving Repr, Inhabited

variable {α : Type} [Scalar α]

namespace Vec4

instance : Add (Vec4 α) := ⟨fun a b => ⟨a.x + b.x, a.y + b.y, a.z + b.z, a.w + b.w⟩⟩
instance : Sub (Vec4 α) := ⟨fun a b => ⟨a.x - b.x, a.y - b.y, a.z - b.z, a.w - b.w⟩⟩

/-- Product taken component by component. -/
instance : Mul (Vec4 α) := ⟨fun a b => ⟨a.x * b.x, a.y * b.y, a.z * b.z, a.w * b.w⟩⟩

/-- All components multiplied by one factor. -/
instance : HMul (Vec4 α) α (Vec4 α) := ⟨fun a s => ⟨a.x * s, a.y * s, a.z * s, a.w * s⟩⟩

/-- The first three rows. -/
def xyz (a : Vec4 α) : Vec3 α := ⟨a.x, a.y, a.z⟩

end Vec4

namespace Mat3

/-- The image of a vector. -/
def mulVec (m : Mat3 α) (v : Vec3 α) : Vec3 α := m.xAxis * v.x + m.yAxis * v.y + m.zAxis * v.z

end Mat3

namespace Mat4

/-- The map that scales each axis by its own factor. -/
def scale (f : Vec3 α) : Mat4 α :=
  ⟨⟨f.x, 0, 0, 0⟩, ⟨0, f.y, 0, 0⟩, ⟨0, 0, f.z, 0⟩, ⟨0, 0, 0, 1⟩⟩

/-- The image of a direction: the linear part alone. -/
def mulDirection (m : Mat4 α) (v : Vec3 α) : Vec3 α :=
  m.xAxis.xyz * v.x + m.yAxis.xyz * v.y + m.zAxis.xyz * v.z

/-- The image of a point: the linear part, then the offset. -/
def mulPoint (m : Mat4 α) (v : Vec3 α) : Vec3 α := m.wAxis.xyz + m.mulDirection v

/-- Rows and columns exchanged. -/
def transpose (m : Mat4 α) : Mat4 α :=
  ⟨⟨m.xAxis.x, m.yAxis.x, m.zAxis.x, m.wAxis.x⟩,
   ⟨m.xAxis.y, m.yAxis.y, m.zAxis.y, m.wAxis.y⟩,
   ⟨m.xAxis.z, m.yAxis.z, m.zAxis.z, m.wAxis.z⟩,
   ⟨m.xAxis.w, m.yAxis.w, m.zAxis.w, m.wAxis.w⟩⟩

/-- Inverse by cofactors. The two-by-two minors of the lower two rows, then of the outer rows, are
shared by the four columns; all entries are multiplied by the reciprocal determinant at the end. -/
def inverse (m : Mat4 α) : Mat4 α :=
  let a := m.xAxis
  let b := m.yAxis
  let c := m.zAxis
  let d := m.wAxis
  let c00 := c.z * d.w - d.z * c.w
  let c02 := b.z * d.w - d.z * b.w
  let c03 := b.z * c.w - c.z * b.w
  let c04 := c.y * d.w - d.y * c.w
  let c06 := b.y * d.w - d.y * b.w
  let c07 := b.y * c.w - c.y * b.w
  let c08 := c.y * d.z - d.y * c.z
  let c10 := b.y * d.z - d.y * b.z
  let c11 := b.y * c.z - c.y * b.z
  let c12 := c.x * d.w - d.x * c.w
  let c14 := b.x * d.w - d.x * b.w
  let c15 := b.x * c.w - c.x * b.w
  let c16 := c.x * d.z - d.x * c.z
  let c18 := b.x * d.z - d.x * b.z
  let c19 := b.x * c.z - c.x * b.z
  let c20 := c.x * d.y - d.x * c.y
  let c22 := b.x * d.y - d.x * b.y
  let c23 := b.x * c.y - c.x * b.y
  let f0 : Vec4 α := ⟨c00, c00, c02, c03⟩
  let f1 : Vec4 α := ⟨c04, c04, c06, c07⟩
  let f2 : Vec4 α := ⟨c08, c08, c10, c11⟩
  let f3 : Vec4 α := ⟨c12, c12, c14, c15⟩
  let f4 : Vec4 α := ⟨c16, c16, c18, c19⟩
  let f5 : Vec4 α := ⟨c20, c20, c22, c23⟩
  let v0 : Vec4 α := ⟨b.x, a.x, a.x, a.x⟩
  let v1 : Vec4 α := ⟨b.y, a.y, a.y, a.y⟩
  let v2 : Vec4 α := ⟨b.z, a.z, a.z, a.z⟩
  let v3 : Vec4 α := ⟨b.w, a.w, a.w, a.w⟩
  let evenSigns : Vec4 α := ⟨1, -1, 1, -1⟩
  let oddSigns : Vec4 α := ⟨-1, 1, -1, 1⟩
  let i0 := (v1 * f0 - v2 * f1 + v3 * f2) * evenSigns
  let i1 := (v0 * f0 - v2 * f3 + v3 * f4) * oddSigns
  let i2 := (v0 * f1 - v1 * f3 + v3 * f5) * evenSigns
  let i3 := (v0 * f2 - v1 * f4 + v2 * f5) * oddSigns
  let det := a.x * i0.x + a.y * i1.x + a.z * i2.x + a.w * i3.x
  let r := 1 / det
  ⟨i0 * r, i1 * r, i2 * r, i3 * r⟩

end Mat4

end TriMesh
