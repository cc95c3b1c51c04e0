import TriMesh.Delaunay.Corridor
import TriMesh.Delaunay.Insertion

/-! # The constrained Delaunay triangulation

A triangulation of the convex hull of some points in which given segments are edges and for every
other edge no corner of the triangles beside it lies inside the circle of the other one. It is
reached by flips: an edge with a corner inside the circle is exchanged for the other diagonal. Each
flip lowers the triangulation lifted to a paraboloid, so flips come to an end. -/

namespace TriMesh.Delaunay

variable (place : Nat → ExactPoint)

/-- The edge exchanged for the other diagonal of the two triangles beside it, if a corner of one lies
inside the circle of the other. -/
def flip? (faces : Faces) (e : Arrow) : Option Faces := do
  let (u, v) := e
  let p ← apex? faces (u, v)
  let q ← apex? faces (v, u)
  if 0 < ExactPoint.inCircle (place u) (place v) (place p) (place q) then
    let kept := faces.filter fun t => (apexOf (u, v) t).isNone && (apexOf (v, u) t).isNone
    some (kept ++ [⟨q, v, p⟩, ⟨p, u, q⟩])
  else none

/-- One pass over all edges that are not fixed, and whether it flipped any. -/
def flipPass (fixed : List Arrow) (faces : Faces) : Faces × Bool :=
  let free := (faces.flatMap arrows).filter fun e =>
    e.1 < e.2 && !fixed.contains e && !fixed.contains (e.2, e.1)
  free.foldl
    (fun (faces, changed) e =>
      match flip? place faces e with
      | some faces => (faces, true)
      | none => (faces, changed))
    (faces, false)

/-- Passes of flips until one changes nothing, at most as many as the fuel. -/
def flipAll (fixed : List Arrow) : Nat → Faces → Faces
  | 0, faces => faces
  | fuel + 1, faces =>
    match flipPass place fixed faces with
    | (faces, true) => flipAll fixed fuel faces
    | (faces, false) => faces

/-- The constrained Delaunay triangulation of the first `count` points with the given segments. Two
points are joined and parted at most once, so the square of the number of points bounds the flips. -/
def triangulate (count : Nat) (segments : List Arrow) : Faces :=
  flipAll place segments (count * count + 1)
    (segments.foldl (force place) (triangulatePoints place count))

end TriMesh.Delaunay
