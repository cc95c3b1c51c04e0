import TriMesh.Delaunay.Exact
import TriMesh.Triangle

/-! # Faces by their edges

Counter-clockwise triangles over points with exact coordinates, looked up by their directed edges. A
directed edge has at most one triangle, the one on its left. -/

namespace TriMesh.Delaunay

/-- Counter-clockwise triangles, in the order in which they were made. -/
abbrev Faces := List Triangle

/-- A directed edge by the indices of its ends. -/
abbrev Arrow := Nat × Nat

/-- The three directed edges of a triangle. -/
def arrows (t : Triangle) : List Arrow := [(t.a, t.b), (t.b, t.c), (t.c, t.a)]

/-- The corner beside a directed edge of a triangle. -/
def apexOf (e : Arrow) (t : Triangle) : Option Nat :=
  if e = (t.a, t.b) then some t.c
  else if e = (t.b, t.c) then some t.a
  else if e = (t.c, t.a) then some t.b
  else none

/-- The corner of the triangle to the left of a directed edge. -/
def apex? (faces : Faces) (e : Arrow) : Option Nat := faces.findSome? (apexOf e)

/-- The edges of some faces that no other of them shares. -/
def rim (faces : Faces) : List Arrow :=
  let all := faces.flatMap arrows
  all.filter fun e => !all.contains (e.2, e.1)

end TriMesh.Delaunay
