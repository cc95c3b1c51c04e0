import TriMesh.Facing
import TriMesh.Primitive.Cylinder

/-! # Tubes

A thick wall around the axis: an outer and an inner lattice, a flat ring at each end, and, if the
sweep stops short of a full turn, a flat quad on each of the two cuts. The inner lattice is turned
over so that it faces the axis. -/

namespace TriMesh

/-- A tube around the third axis. -/
structure Tube (α : Type) where
  /-- Distance of the inner wall from the axis. -/
  innerRadius : α
  /-- Distance of the outer wall from the axis. -/
  outerRadius : α
  /-- Extent along the axis. -/
  height : α
  /-- Bands along the axis. -/
  rings : UInt32
  /-- Columns around the axis. -/
  segments : UInt32
  /-- The angle covered, a full turn for a closed tube. -/
  arc : α
deriving Repr

namespace Tube

/-- The corners of each segment of an end ring, in which outer and inner vertices alternate. -/
def ringTriangles (segments : Nat) : List Triangle :=
  (List.range segments).flatMap fun seg =>
    let outer := 2 * seg
    let inner := outer + 1
    [⟨outer, outer + 2, inner + 2⟩, ⟨outer, inner + 2, inner⟩]

variable {α : Type} [Scalar α]

/-- The sweep of a closed tube. -/
def fullArc : α := Scalar.tau

/-- The number of rings after clamping. -/
def ringCount (t : Tube α) : Nat := clampRings t.rings.toNat

/-- The number of segments after clamping. -/
def segmentCount (t : Tube α) : Nat := clampSegments t.segments.toNat

/-- Half of the height. -/
def halfHeight (t : Tube α) : α := t.height / Scalar.two

/-- The lattice of a wall at the given radius. -/
def wall (t : Tube α) (radius : α) (normal : LatticeNormal α) : Lattice α where
  rings := t.rings.toNat
  segments := t.segments.toNat
  sweep := t.arc
  radius _ := radius
  height ring := ringHeight t.height t.ringCount ring
  normal := normal

/-- The flat ring at height `z` between the two walls. -/
def endRing (t : Tube α) (z : α) (facing : Vec3 α) : SubMesh α :=
  let n := t.segmentCount
  let columns := List.range (n + 1)
  let bare : SubMesh α :=
    { vertices := (columns.flatMap fun seg : Nat =>
        let angle := Lattice.columnAngle t.arc n seg
        [Lattice.onCircle t.outerRadius angle z, Lattice.onCircle t.innerRadius angle z]).toArray
      normals := Array.replicate (2 * (n + 1)) facing
      texcoords := (columns.flatMap fun seg : Nat =>
        let u : α := (seg : α) / (n : α)
        [⟨u, 0⟩, ⟨u, 1⟩]).toArray }
  bare.addTriangles ((ringTriangles n).map (bare.orient · facing))

/-- The quad that closes the cut at an angle; `sign` tells on which side of it the tube lies. -/
def cutFace (t : Tube α) (angle sign : α) : SubMesh α :=
  let radial : Vec3 α := ⟨Scalar.sin angle, Scalar.cos angle, 0⟩
  let tangent : Vec3 α := ⟨Scalar.cos angle, -Scalar.sin angle, 0⟩
  let up : Vec3 α := (Vec3.unitZ : Vec3 α) * t.halfHeight
  let corners : Quad (Vec3 α) :=
    ⟨radial * t.outerRadius - up, radial * t.outerRadius + up,
     radial * t.innerRadius + up, radial * t.innerRadius - up⟩
  corners.mesh ⟨⟨0, 0⟩, ⟨0, 1⟩, ⟨1, 1⟩, ⟨1, 0⟩⟩ (tangent * sign)

/-- The sweep stops short of a full turn. -/
def isCut (t : Tube α) : Prop := t.arc < fullArc - Tolerance.epsilon

instance (t : Tube α) : Decidable t.isCut := inferInstanceAs (Decidable (_ < _))

/-- Outer wall, inner wall, top, bottom and, if the tube is cut, the two cut faces. -/
def mesh (t : Tube α) : SubMesh α :=
  let closed :=
    (t.wall t.outerRadius .radial).mesh ++
      (t.wall t.innerRadius .radialInward).mesh.reverseWindingFrom 0 ++
      t.endRing t.halfHeight Vec3.unitZ ++
      t.endRing (-t.halfHeight) Vec3.negUnitZ
  if t.isCut then closed ++ t.cutFace 0 (-1) ++ t.cutFace t.arc 1 else closed

end Tube

end TriMesh
