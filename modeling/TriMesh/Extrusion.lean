import TriMesh.SubMesh.Basic
import TriMesh.Tolerance
import TriMesh.Triangulation

/-! # Extrusions

A solid swept from closed paths in the plane along the third axis: a cap at the bottom, a cap at the
top, and a flat wall over each edge.

* **Paths** are first tidied: a closing point equal to the first one is dropped, and paths with
  fewer than three points are left out.
* **Caps** repeat a triangulation of the paths twice, whatever way its triangles are wound.
* **Walls** face away from the inside. The outward side of an edge is the one without the third
  corner of the first triangle on that edge; corners are matched within a tolerance that grows with
  the figure, since a triangulator may round.
* **Failure.** The causes are looked for in this order: no path left, the triangulator fails, an
  edge has no outward side, a triangle names a missing point. -/

namespace TriMesh

/-- Closed paths and the height to which they are swept. -/
structure Extrusion (α : Type) where
  /-- Closed paths in the plane. -/
  paths : List (Path α)
  /-- Extent along the third axis. -/
  height : α
deriving Repr

variable {α : Type} [Scalar α]

/-- A path without its last point if that equals the first. -/
def Path.dropClosing (path : Path α) : Path α :=
  match path.head?, path.getLast? with
  | some first, some last => if 1 < path.length ∧ first == last then path.dropLast else path
  | _, _ => path

namespace Extrusion

/-- Nothing swept to unit height. -/
def unit : Extrusion α := ⟨[], 1⟩

/-- The paths that can be extruded, without closing points. -/
def tidy (paths : List (Path α)) : List (Path α) :=
  (paths.map Path.dropClosing).filter (3 ≤ ·.length)

/-! ### Outward sides -/

/-- The diagonal of the box around all ends of some edges. -/
def extent (edges : List (Edge α)) : α :=
  match edges with
  | [] => 0
  | e :: _ =>
    let box := edges.foldl
      (fun box f => ((box.1.min f.start).min f.stop, (box.2.max f.start).max f.stop))
      (e.start, e.start)
    (box.2 - box.1).length

/-- Two points are within the tolerance of each other. -/
def close (tolerance : α) (p q : Vec2 α) : Bool := decide (p.distance q ≤ tolerance)

/-- The corner beside the first ones that are close to `p` and to `q`, if those differ. -/
def thirdCorner (corners : Vec2 α × Vec2 α × Vec2 α) (p q : Vec2 α) (tolerance : α) :
    Option (Vec2 α) := do
  let list := [corners.1, corners.2.1, corners.2.2]
  let i ← list.findIdx? (close tolerance · p)
  let j ← list.findIdx? (close tolerance · q)
  if i = j then none else list[3 - i - j]?

/-- The third corner of the first triangle that has both ends of the edge as corners. -/
def opposite (t : Triangulation α) (e : Edge α) (tolerance : α) : Option (Vec2 α) :=
  t.triangles.findSome? fun triangle => do
    thirdCorner (← t.corners? triangle) e.start e.stop tolerance

/-- The unit vector across an edge, away from the triangle on it. -/
def edgeNormal (t : Triangulation α) (tolerance : α) (e : Edge α) : Option (Vec3 α) := do
  let along ← (e.start - e.stop).tryNormalize
  let across : Vec2 α := ⟨along.y, -along.x⟩
  let away ← (e.start - (← opposite t e tolerance)).tryNormalize
  let s := away.dot across
  let r := away.dot (-across)
  if r < s ∧ 0 ≤ s then some (across.extend 0)
  else if s < r ∧ 0 ≤ r then some ((-across).extend 0)
  else none

/-- One outward unit vector for each edge. -/
def outwardNormals (edges : List (Edge α)) (t : Triangulation α) :
    Except MeshError (List (Vec3 α)) :=
  let tolerance := Tolerance.pointMatch (extent edges)
  let normals := edges.filterMap (edgeNormal t tolerance)
  if normals.length = edges.length then .ok normals
  else .error (.triangulationFailed (.unresolvedNormals normals.length edges.length))

/-! ### Caps and walls -/

/-- A triangle of the triangulation for the bottom, wound to face down. -/
def bottomTriangle (t : Triangulation α) (i : Triangle) : Except MeshError Triangle :=
  match t.corners? i with
  | some (a, b, c) => .ok (if 0 < (b - a).perpDot (c - a) then i.flip else i)
  | none => .error (.triangulationFailed (.danglingTriangle i.a i.b i.c t.points.size))

/-- Both caps: each triangle at the bottom and, the other way round, at the top. -/
def caps (t : Triangulation α) (height : α) : Except MeshError (SubMesh α) := do
  let n := t.points.size
  let bottom ← t.triangles.mapM (bottomTriangle t)
  return {
    vertices := t.points.map (·.extend 0) ++ t.points.map (·.extend height)
    normals := Array.replicate n Vec3.negUnitZ ++ Array.replicate n Vec3.unitZ
    indices := (Triangle.flatten (bottom.flatMap fun i => [i, i.flip.shift n])).toArray }

/-- The wall over an edge, six vertices with one normal. -/
def wall (e : Edge α) (normal : Vec3 α) (height : α) : SubMesh α :=
  let a := e.start.extend 0
  let b := e.start.extend height
  let c := e.stop.extend height
  let d := e.stop.extend 0
  { vertices := if 0 < ((d - a).cross normal).z then #[a, c, d, a, b, c] else #[a, d, c, a, c, b]
    normals := Array.replicate 6 normal
    indices := #[0, 1, 2, 3, 4, 5] }

/-- The walls over some edges, in edge order. -/
def walls (edges : List (Edge α)) (normals : List (Vec3 α)) (height : α) : List (SubMesh α) :=
  List.zipWith (wall · · height) edges normals

/-- The extruded solid: both caps, then the walls. -/
def mesh (e : Extrusion α) (triangulate : Triangulator α) : Except MeshError (SubMesh α) :=
  match tidy e.paths with
  | [] => .error (.triangulationFailed .noUsablePath)
  | paths => do
    let t ← triangulate paths
    let edges := boundaryEdges paths
    let normals ← outwardNormals edges t
    return (walls edges normals e.height).foldl (· ++ ·) (← caps t e.height)

end Extrusion

end TriMesh
