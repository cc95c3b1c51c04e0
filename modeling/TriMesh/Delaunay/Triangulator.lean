import TriMesh.Delaunay.Flip
import TriMesh.Delaunay.Laying
import TriMesh.Triangulation

/-! # The Delaunay triangulator

Fills closed paths of double points with the constrained Delaunay triangulation of their arrangement,
of which the faces inside the paths are kept. The first point with a coordinate at fault is
refused. -/

namespace TriMesh.Delaunay

/-- The first refused point of some paths. -/
def refusal? (paths : List (Path Float)) : Option TriangulationFailure :=
  paths.flatten.findSome? fun p => (pointFault? p).map (.refusedPoint p.x p.y)

/-- The triangulated hull of an arrangement, with its segments as edges. -/
def Arrangement.subdivision (m : Arrangement) : Subdivision Float where
  positions := m.sites.map (·.position)
  faces := triangulate m.exact m.sites.size m.segments

/-- The constrained Delaunay triangulation of the inside of some paths. -/
def triangulator : Triangulator Float := fun paths =>
  match refusal? paths with
  | some reason => .error (.triangulationFailed reason)
  | none => (Arrangement.ofPaths paths).subdivision.interior paths

end TriMesh.Delaunay
