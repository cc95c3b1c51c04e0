import TriMesh.Lattice

/-! # Spheres

A sphere around the origin from one full lattice whose first and last ring shrink to the poles. -/

namespace TriMesh

/-- A sphere around the origin. -/
structure Sphere (α : Type) where
  /-- Distance of the surface from the origin. -/
  radius : α
  /-- Bands from pole to pole. -/
  rings : UInt32
  /-- Columns around the axis. -/
  segments : UInt32
deriving Repr

namespace Sphere

variable {α : Type} [Scalar α]

/-- The angle of a ring from the first pole. -/
def ringAngle (s : Sphere α) (ring : Nat) : α :=
  (ring : α) * (Scalar.pi / (clampRings s.rings.toNat : α))

/-- The lattice of the sphere. -/
def lattice (s : Sphere α) : Lattice α where
  rings := s.rings.toNat
  segments := s.segments.toNat
  sweep := Scalar.tau
  radius ring := s.radius * Scalar.sin (s.ringAngle ring)
  height ring := -s.radius * Scalar.cos (s.ringAngle ring)
  normal := .spherical

/-- The sphere as a submesh. -/
def mesh (s : Sphere α) : SubMesh α := s.lattice.mesh

end Sphere

end TriMesh
