import TriMesh.Lattice

/-! # Cap fans

A flat disc across the axis: a ring of vertices like a lattice ring, a center, and one triangle from
the center to each segment of the ring. -/

namespace TriMesh.CapFan

/-- The triangles of a fan with its center behind the ring. -/
def triangles (segments : Nat) (up : Bool) : List Triangle :=
  (List.range segments).map fun seg =>
    if up then ⟨segments + 1, seg + 1, seg⟩ else ⟨segments + 1, seg, seg + 1⟩

variable {α : Type} [Scalar α]

/-- The texture coordinate at an angle on the rim of a disc that fills the unit square. -/
def rimTexcoord (angle : α) : Vec2 α :=
  ⟨Scalar.half + Scalar.half * Scalar.sin angle, Scalar.half + Scalar.half * Scalar.cos angle⟩

/-- A disc of the given radius at height `z` that faces along the axis or against it. -/
def mesh (radius z : α) (segments : Nat) (up : Bool) : SubMesh α :=
  let n := clampSegments segments
  let angles := (Array.range (n + 1)).map (Lattice.columnAngle (Scalar.tau : α) n)
  { vertices := (angles.map fun t => Lattice.onCircle radius t z).push ⟨0, 0, z⟩
    normals := Array.replicate (n + 2) (if up then Vec3.unitZ else Vec3.negUnitZ)
    texcoords := (angles.map rimTexcoord).push (Vec2.splat Scalar.half)
    indices := (Triangle.flatten (triangles n up)).toArray }

end TriMesh.CapFan
