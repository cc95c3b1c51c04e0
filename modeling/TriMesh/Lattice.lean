import TriMesh.Resolution
import TriMesh.SubMesh.Basic

/-! # Lattices

Rings of vertices swept around the third axis, stitched to a wall.

* **Nodes.** There are `rings + 1` rings of `segments + 1` nodes each. The first and the last column
  of a full turn coincide, so that each carries its own texture coordinate.
* **Direction.** Rings advance along the axis, and the sweep runs clockwise seen from its tip: the
  node at angle `t` on a ring of radius `r` is `(r sin t, r cos t)`. With this the stitching faces
  away from the axis.
* **Cells.** The cell between two rings and two columns becomes two triangles that share a diagonal.
* Counts are raised to the least resolution. -/

namespace TriMesh

/-- How the normals of a lattice follow from its positions. -/
inductive LatticeNormal (α : Type) where
  /-- Away from the origin. -/
  | spherical
  /-- Away from the axis. -/
  | radial
  /-- Toward the axis. -/
  | radialInward
  /-- The same everywhere. -/
  | constant (normal : Vec3 α)
deriving Repr

/-- The normal at a position. -/
def LatticeNormal.at {α : Type} [Scalar α] (rule : LatticeNormal α) (p : Vec3 α) : Vec3 α :=
  match rule with
  | .spherical => p.normalizeOrZero
  | .radial => (⟨p.x, p.y, 0⟩ : Vec3 α).normalizeOrZero
  | .radialInward => -(⟨p.x, p.y, 0⟩ : Vec3 α).normalizeOrZero
  | .constant normal => normal

/-- A sweep around the third axis. -/
structure Lattice (α : Type) where
  /-- Bands along the axis. -/
  rings : Nat
  /-- Columns around the axis. -/
  segments : Nat
  /-- The angle covered, a full turn for a closed wall. -/
  sweep : α
  /-- The radius of each ring. -/
  radius : Nat → α
  /-- The height of each ring. -/
  height : Nat → α
  /-- How normals are chosen. -/
  normal : LatticeNormal α

namespace Lattice

/-- The place of a node among the vertices of a lattice with `segments` columns. -/
def node (segments ring seg : Nat) : Nat := ring * (segments + 1) + seg

/-- All nodes as pairs of ring and column, ring by ring. -/
def nodes (rings segments : Nat) : List (Nat × Nat) :=
  (List.range (rings + 1)).flatMap fun ring =>
    (List.range (segments + 1)).map fun seg => (ring, seg)

/-- The two triangles of the cell above a ring and right of a column. -/
def cell (segments ring seg : Nat) : List Triangle :=
  let v := node segments ring seg
  [⟨v + (segments + 1), v + 1, v⟩, ⟨v + 1 + (segments + 1), v + 1, v + 1 + segments⟩]

/-- The stitching of a whole lattice, cell by cell. -/
def triangles (rings segments : Nat) : List Triangle :=
  (List.range rings).flatMap fun ring => (List.range segments).flatMap (cell segments ring)

variable {α : Type} [Scalar α]

/-- The number of rings after clamping. -/
def ringCount (l : Lattice α) : Nat := clampRings l.rings

/-- The number of segments after clamping. -/
def segmentCount (l : Lattice α) : Nat := clampSegments l.segments

/-- The point at an angle on a circle around the axis. -/
def onCircle (radius angle z : α) : Vec3 α :=
  ⟨radius * Scalar.sin angle, radius * Scalar.cos angle, z⟩

/-- The angle of a column when `sweep` is divided into `segments`. -/
def columnAngle (sweep : α) (segments seg : Nat) : α := (seg : α) * (sweep / (segments : α))

/-- The position of a node. -/
def position (l : Lattice α) (ring seg : Nat) : Vec3 α :=
  onCircle (l.radius ring) (columnAngle l.sweep l.segmentCount seg) (l.height ring)

/-- The texture coordinate of a node: its share of the way around and along. -/
def texcoord (l : Lattice α) (ring seg : Nat) : Vec2 α :=
  ⟨(seg : α) / (l.segmentCount : α), (ring : α) / (l.ringCount : α)⟩

/-- The lattice on its own. -/
def mesh (l : Lattice α) : SubMesh α :=
  let all := (nodes l.ringCount l.segmentCount).toArray
  let points := all.map fun n => l.position n.1 n.2
  { vertices := points
    normals := points.map l.normal.at
    texcoords := all.map fun n => l.texcoord n.1 n.2
    indices := (Triangle.flatten (triangles l.ringCount l.segmentCount)).toArray }

end Lattice

/-- The part of a submesh that one lattice takes up. -/
structure LatticeSpan where
  /-- The vertex that became node zero. -/
  firstVertex : Nat
  /-- The position of the first index. -/
  firstIndex : Nat
deriving DecidableEq, Repr

/-- The vertex of a node of a lattice with `segments` columns. -/
def LatticeSpan.vertex (span : LatticeSpan) (segments ring seg : Nat) : Nat :=
  span.firstVertex + Lattice.node segments ring seg

/-- Where the next lattice added to a submesh will lie. -/
def SubMesh.nextSpan {α : Type} (s : SubMesh α) : LatticeSpan := ⟨s.vertexCount, s.indexCount⟩

/-- The lattice added behind a submesh, with the span that it takes up. -/
def SubMesh.addLattice {α : Type} [Scalar α] (s : SubMesh α) (l : Lattice α) :
    SubMesh α × LatticeSpan :=
  (s ++ l.mesh, s.nextSpan)

end TriMesh
