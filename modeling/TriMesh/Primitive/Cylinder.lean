import TriMesh.CapFan

/-! # Cylinders

A wall of constant radius around the axis, centered at the origin, closed by two discs. -/

namespace TriMesh

/-- The height of a ring when `height` is divided evenly and centered at the origin. -/
def ringHeight {α : Type} [Scalar α] (height : α) (rings ring : Nat) : α :=
  (ring : α) * height / (rings : α) - height / Scalar.two

/-- A cylinder around the third axis. -/
structure Cylinder (α : Type) where
  /-- Distance of the wall from the axis. -/
  radius : α
  /-- Extent along the axis. -/
  height : α
  /-- Bands along the axis. -/
  rings : UInt32
  /-- Columns around the axis. -/
  segments : UInt32
deriving Repr

namespace Cylinder

variable {α : Type} [Scalar α]

/-- The lattice of the wall. -/
def wall (c : Cylinder α) : Lattice α where
  rings := c.rings.toNat
  segments := c.segments.toNat
  sweep := Scalar.tau
  radius _ := c.radius
  height ring := ringHeight c.height (clampRings c.rings.toNat) ring
  normal := .radial

/-- The wall, the disc at the top and the disc at the bottom. -/
def mesh (c : Cylinder α) : SubMesh α :=
  c.wall.mesh ++ CapFan.mesh c.radius (c.height / Scalar.two) c.segments.toNat true ++
    CapFan.mesh c.radius (-c.height / Scalar.two) c.segments.toNat false

end Cylinder

end TriMesh
