import TriMesh.Primitive.Cylinder
import TriMesh.SubMesh.Normals

/-! # Cones

A wall that tapers to the apex above the origin, closed by a disc below it. The last ring of the
lattice shrinks to the apex. Normals are made anew from the faces. -/

namespace TriMesh

/-- A cone around the third axis. -/
structure Cone (α : Type) where
  /-- Radius of the base. -/
  radius : α
  /-- Extent along the axis. -/
  height : α
  /-- Bands along the axis. -/
  rings : UInt32
  /-- Columns around the axis. -/
  segments : UInt32
deriving Repr

namespace Cone

variable {α : Type} [Scalar α]

/-- The lattice of the wall. -/
def wall (c : Cone α) : Lattice α where
  rings := c.rings.toNat
  segments := c.segments.toNat
  sweep := Scalar.tau
  radius ring := c.radius * (1 - (ring : α) / (clampRings c.rings.toNat : α))
  height ring := ringHeight c.height (clampRings c.rings.toNat) ring
  normal := .spherical

/-- The wall and the disc at the bottom, with normals as the pieces bring them. -/
def parts (c : Cone α) : SubMesh α :=
  c.wall.mesh ++ CapFan.mesh c.radius (-c.height / Scalar.two) c.segments.toNat false

/-- The cone with normals from its faces. -/
def mesh (c : Cone α) : SubMesh α := c.parts.flattenCornerNormals.recalculateNormals

end Cone

end TriMesh
