import TriMesh.Vector

/-! # Polygons

Closed paths in the plane, given by their corners; the edge from the last corner back to the first
is implied. A point is inside a path if a ray from it crosses an odd number of edges, and inside a
list of paths if it is inside an odd number of them, so that nested paths make holes. -/

namespace TriMesh

/-- The corners of a closed path. -/
abbrev Path (α : Type) := List (Vec2 α)

/-- A directed edge in the plane. -/
structure Edge (α : Type) where
  /-- Where it begins. -/
  start : Vec2 α
  /-- Where it ends. -/
  stop : Vec2 α
deriving Repr, Inhabited

/-- All edges of a closed path, the one back to the first corner last. -/
def Path.edges {α : Type} : Path α → List (Edge α)
  | [] => []
  | p :: rest => List.zipWith Edge.mk (p :: rest) (rest ++ [p])

/-- All edges of some closed paths, path by path. -/
def boundaryEdges {α : Type} (paths : List (Path α)) : List (Edge α) := paths.flatMap Path.edges

variable {α : Type} [Scalar α]

/-- The ray from a point in the direction of the first axis crosses the edge. An end of the edge at
the height of the point counts as below it. -/
def Edge.crosses (e : Edge α) (p : Vec2 α) : Bool :=
  let a := e.start
  let b := e.stop
  decide (p.y < a.y) != decide (p.y < b.y) &&
    decide (p.x < a.x + (p.y - a.y) / (b.y - a.y) * (b.x - a.x))

/-- The point is inside the closed path. -/
def Path.contains (path : Path α) (p : Vec2 α) : Bool :=
  (Path.edges path).countP (·.crosses p) % 2 == 1

/-- The point is inside an odd number of the closed paths. -/
def pathsContain (paths : List (Path α)) (p : Vec2 α) : Bool :=
  paths.countP (fun path => Path.contains path p) % 2 == 1

end TriMesh
