import TriMesh.Error
import TriMesh.Polygon
import TriMesh.Triangle

/-! # Triangulations of the plane

Triangles over a list of points, and where they come from.

* A `Triangulator` fills closed paths with triangles, or fails; it may be any function. One that
  remembers its runs is another function in each of them (`TriangulatorRuns`).
* A `Subdivision` is a triangulated region with faces inside and outside the paths. Its `interior`
  keeps the faces inside, over the vertices of all faces, numbered in the order in which the faces
  are visited (`Cutout`). -/

namespace TriMesh

/-- Triangles over a list of points. -/
structure Triangulation (α : Type) where
  /-- The points. -/
  points : Array (Vec2 α) := #[]
  /-- The triangles, by point index. -/
  triangles : List Triangle := []
deriving Repr, Inhabited

/-- The corners of a triangle, if all three points exist. -/
def Triangulation.corners? {α : Type} (t : Triangulation α) (i : Triangle) :
    Option (Vec2 α × Vec2 α × Vec2 α) := do
  return (← t.points[i.a]?, ← t.points[i.b]?, ← t.points[i.c]?)

/-- Fills the inside of closed paths with triangles, or fails. -/
abbrev Triangulator (α : Type) := List (Path α) → Except MeshError (Triangulation α)

/-- The behaviour of a triangulator by the number of its earlier runs. -/
abbrev TriangulatorRuns (α : Type) := Nat → Triangulator α

/-- A triangulator that does the same in every run. -/
instance {α : Type} : Coe (Triangulator α) (TriangulatorRuns α) := ⟨fun triangulate _ => triangulate⟩

/-- A region of the plane divided into triangular faces. -/
structure Subdivision (α : Type) where
  /-- The position of each vertex. -/
  positions : Array (Vec2 α) := #[]
  /-- The faces, by vertex. -/
  faces : List Triangle := []
deriving Repr, Inhabited

/-- What is cut out of a subdivision while its faces are visited. -/
structure Cutout (α : Type) where
  /-- The positions of the vertices met so far. -/
  points : Array (Vec2 α) := #[]
  /-- For each vertex of the subdivision its point, if it was met. -/
  numbers : Array (Option Nat) := #[]
  /-- The faces kept so far, by point. -/
  triangles : Array Triangle := #[]

variable {α : Type} [Scalar α]

/-- The mean of three corners. -/
def centroid (a b c : Vec2 α) : Vec2 α := (a + b + c) / (Scalar.three : α)

/-- The position of a vertex, the origin if there is none. -/
def Subdivision.position (s : Subdivision α) (v : Nat) : Vec2 α := s.positions[v]?.getD 0

namespace Cutout

/-- The point with a given number, the origin if there is none. -/
def point (c : Cutout α) (i : Nat) : Vec2 α := c.points[i]?.getD 0

/-- The number of a vertex; one that was not met before gets the next number. -/
def number (c : Cutout α) (s : Subdivision α) (v : Nat) : Nat × Cutout α :=
  match c.numbers[v]?.join with
  | some i => (i, c)
  | none =>
    (c.points.size,
      { c with
        points := c.points.push (s.position v)
        numbers := c.numbers.setIfInBounds v (some c.points.size) })

/-- A face visited: its vertices are numbered, and it is kept if its centroid is inside the paths. -/
def visit (s : Subdivision α) (paths : List (Path α)) (c : Cutout α) (face : Triangle) : Cutout α :=
  let (i, c) := c.number s face.a
  let (j, c) := c.number s face.b
  let (k, c) := c.number s face.c
  if pathsContain paths (centroid (c.point i) (c.point j) (c.point k)) then
    { c with triangles := c.triangles.push ⟨i, j, k⟩ }
  else c

/-- The triangles kept, over the points of all vertices met. -/
def triangulation (c : Cutout α) : Triangulation α where
  points := c.points
  triangles := c.triangles.toList

end Cutout

namespace Subdivision

/-- All faces visited in order. -/
def cutout (s : Subdivision α) (paths : List (Path α)) : Cutout α :=
  s.faces.foldl (Cutout.visit s paths) { numbers := Array.replicate s.positions.size none }

/-- The part of a subdivision inside some paths, over the vertices of all faces. -/
def interior (s : Subdivision α) (paths : List (Path α)) : Except MeshError (Triangulation α) :=
  let c := s.cutout paths
  if c.triangles.isEmpty then .error (.triangulationFailed .emptyInterior)
  else .ok c.triangulation

end Subdivision

end TriMesh
