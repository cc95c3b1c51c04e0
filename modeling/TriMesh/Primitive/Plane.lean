import TriMesh.Grid
import TriMesh.Matrix

/-! # Planes

A rectangle divided into cells, centered on its normal at a distance from the origin. It is emitted
twice, facing along the normal and, a little behind, against it, so that it has a thickness to cast
a shadow with. -/

namespace TriMesh

/-- A rectangle in space. -/
structure Plane (α : Type) where
  /-- The side it faces; of any length. -/
  normal : Vec3 α
  /-- Distance from the origin along the normal. -/
  offset : α
  /-- Extent along its own two axes. -/
  size : Vec2 α
  /-- Number of cells along its own two axes. -/
  segments : UInt32 × UInt32
  /-- How often the texture repeats along its own two axes. -/
  uvTile : Vec2 α
deriving Repr

namespace Plane

variable {α : Type} [Scalar α]

/-- The unit square through the origin. -/
def unit : Plane α := ⟨Vec3.unitZ, 0, Vec2.splat 1, (1, 1), Vec2.splat 1⟩

/-- How far the back lies behind the front. -/
def thickness : α := Scalar.ratio 1 100

/-- Number of columns, at least one. -/
def columns (p : Plane α) : Nat := max p.segments.1.toNat 1

/-- Number of rows, at least one. -/
def rows (p : Plane α) : Nat := max p.segments.2.toNat 1

/-- The unit normal, along the third axis if the given one has no direction. -/
def axis (p : Plane α) : Vec3 α := p.normal.tryNormalize.getD Vec3.unitZ

/-- The rotation that takes the third axis to the normal. -/
def rotation (p : Plane α) : Mat3 α :=
  let z := p.axis
  let y := z.anyOrthonormal
  ⟨y.cross z, y, z⟩

/-- The number of cells as a vector. -/
def cells (p : Plane α) : Vec2 α := ⟨(p.columns : α), (p.rows : α)⟩

/-- The vertex of a layer at a column and row; layer zero is the front. -/
def position (p : Plane α) (layer col row : Nat) : Vec3 α :=
  let spacing := p.size.divEach p.cells
  let half := p.size * (Scalar.half : α)
  let inPlane : Vec3 α :=
    ⟨(col : α) * spacing.x - half.x, (row : α) * spacing.y - half.y, -(layer : α) * thickness⟩
  p.rotation.mulVec inPlane + p.axis * p.offset

/-- The texture coordinate at a column and row; rows count downward in the texture. -/
def texcoord (p : Plane α) (col row : Nat) : Vec2 α :=
  let step := p.uvTile.divEach p.cells
  ⟨(col : α) * step.x, 1 - (row : α) * step.y⟩

/-- The vertices of one layer as pairs of column and row, row by row. -/
def nodes (p : Plane α) : List (Nat × Nat) :=
  (List.range (p.rows + 1)).flatMap fun row =>
    (List.range (p.columns + 1)).map fun col => (col, row)

/-- One layer on its own. -/
def layer (p : Plane α) (index : Nat) (normal : Vec3 α) (faces : GridFaces) : SubMesh α :=
  let all := p.nodes.toArray
  { vertices := all.map fun n => p.position index n.1 n.2
    normals := Array.replicate all.size normal
    texcoords := all.map fun n => p.texcoord n.1 n.2
    indices := (Triangle.flatten (Grid.triangles faces (p.columns + 1) (p.rows + 1))).toArray }

/-- The front layer, then the back layer. -/
def mesh (p : Plane α) : SubMesh α := p.layer 0 p.axis .front ++ p.layer 1 (-p.axis) .back

end Plane

end TriMesh
